import Mathlib.Algebra.Ring.Nat
import Mathlib.Logic.Function.Basic
import Apos.ProgramWorlds
import Apos.UserDbRefinement

/-!
# The user database on failing files

`fseek` and `ftruncate` may fail, `fread` may stop short with an error and `fwrite` may
accept only a part of what it is given.  A call that stops short sets the error indicator of
its stream, which stays set: `fseek` does not clear it.  This file follows one change of an
open database through such calls.  Up to the truncation of the work file a failing call does
no harm.  From there on the work file holds as much of the new text as `fwrite` has accepted.
-/

namespace Apos.UserDb

open Stateful

/-! ## Streams -/

def FileOp.file : FileOp → DbFile
  | .fseek file => file
  | .fgets file _ => file
  | .fwrite file _ => file
  | .fread file _ => file
  | .ferror file => file
  | .fileno file => file
  | .ftruncate file => file

structure OpenStream where
  file : TextFile Char
  error : Bool
  deriving DecidableEq

namespace OpenStream

def nextLine (stream : OpenStream) (size : Nat) : Text :=
  takeLine '\n' (size - 1) stream.file.rest

def Admits (stream : OpenStream) : (op : FileOp) → op.Reply → Prop
  | .fseek _, _ => True
  | .fgets _ size, line =>
    line = if stream.nextLine size = [] then none else some (stream.nextLine size)
  | .fwrite _ text, written => written ≤ text.length
  | .fread _ count, block => block <+: stream.file.rest.take count
  | .ferror _, failed => failed = stream.error
  | .fileno _, descriptor => descriptor = true
  | .ftruncate _, _ => True

def after (stream : OpenStream) : (op : FileOp) → op.Reply → OpenStream
  | .fseek _, done => if done then { stream with file := stream.file.rewind } else stream
  | .fgets _ _, line => { stream with file := stream.file.advance (line.getD []).length }
  | .fwrite _ text, written =>
    { file := stream.file.write '\x00' (text.take written)
      error := stream.error || decide (written < text.length) }
  | .fread _ count, block =>
    { file := stream.file.advance block.length
      error := stream.error || decide (block.length < (stream.file.rest.take count).length) }
  | .ferror _, _ => stream
  | .fileno _, _ => stream
  | .ftruncate _, done => if done then { stream with file := stream.file.truncate } else stream

end OpenStream

/-- Two streams on different files. -/
def streamsModel : WorldModel fileOps (DbFile → OpenStream) where
  admits streams op := (streams op.file).Admits op
  after streams op reply := Function.update streams op.file ((streams op.file).after op reply)

theorem after_own (streams : DbFile → OpenStream) (op : FileOp) (reply : op.Reply) :
    streamsModel.after streams op reply op.file = (streams op.file).after op reply :=
  Function.update_self _ _ _

theorem after_other (streams : DbFile → OpenStream) (op : FileOp) (reply : op.Reply)
    {other : DbFile} (differs : other ≠ op.file) :
    streamsModel.after streams op reply other = streams other :=
  Function.update_of_ne differs _ _

theorem ensures_op (file : DbFile) {op : FileOp} (isFile : op.file = file) {α : Type}
    {handler : TDbHandler} {streams : DbFile → OpenStream} {next : op.Reply → Act α}
    {post : List (Exchange fileOps) → α → TDbHandler → (DbFile → OpenStream) → Prop}
    (ensures : ∀ reply reached, (streams file).Admits op reply →
      reached file = (streams file).after op reply →
      (∀ other, other ≠ file → reached other = streams other) →
      Ensures streamsModel (next reply) handler reached fun later =>
        post ([⟨op, reply⟩] ++ later)) :
    Ensures streamsModel (ask op >>= next) handler streams post := by
  subst isFile
  apply ensures_bind_ask
  intro reply admitted
  exact ensures reply _ admitted (after_own streams op reply) fun _ => after_other streams op reply

/-! ## Exchanges -/

def acceptedBy (file : DbFile) : Exchange fileOps → Nat
  | ⟨.fwrite target _, written⟩ => if target = file then written else 0
  | _ => 0

def accepted (file : DbFile) (exchanges : List (Exchange fileOps)) : Nat :=
  (exchanges.map (acceptedBy file)).sum

@[simp]
theorem accepted_nil (file : DbFile) : accepted file [] = 0 :=
  rfl

@[simp]
theorem accepted_cons (file : DbFile) (exchange : Exchange fileOps)
    (exchanges : List (Exchange fileOps)) :
    accepted file (exchange :: exchanges) = acceptedBy file exchange + accepted file exchanges := by
  rw [accepted, List.map_cons, List.sum_cons, accepted]

@[simp]
theorem accepted_append (file : DbFile) (first second : List (Exchange fileOps)) :
    accepted file (first ++ second) = accepted file first + accepted file second := by
  rw [accepted, List.map_append, List.sum_append, accepted, accepted]

def Truncated (file : DbFile) (exchanges : List (Exchange fileOps)) : Prop :=
  ⟨.ftruncate file, true⟩ ∈ exchanges

theorem truncated_append {file : DbFile} {first second : List (Exchange fileOps)} :
    Truncated file (first ++ second) ↔ Truncated file first ∨ Truncated file second :=
  List.mem_append

/-- The operation writes only to files of the first list and truncates only files of the
second. -/
def FileOp.Within (written truncated : List DbFile) : FileOp → Prop
  | .fwrite file _ => file ∈ written
  | .ftruncate file => file ∈ truncated
  | _ => True

section Within

variable {written truncated : List DbFile} {file : DbFile} {exchanges : List (Exchange fileOps)}

theorem accepted_of_within
    (within : ∀ exchange ∈ exchanges, FileOp.Within written truncated exchange.1)
    (absent : file ∉ written) : accepted file exchanges = 0 := by
  induction exchanges with
  | nil => rfl
  | cons exchange exchanges ih =>
    obtain ⟨op, reply⟩ := exchange
    rw [accepted_cons, ih fun other member => within other (List.mem_cons_of_mem _ member)]
    have own := within _ List.mem_cons_self
    cases op with
    | fwrite target text =>
      have differs : target ≠ file := fun same => absent (same ▸ own)
      exact if_neg differs
    | fseek | fgets | fread | ferror | fileno | ftruncate => rfl

theorem not_truncated_of_within
    (within : ∀ exchange ∈ exchanges, FileOp.Within written truncated exchange.1)
    (absent : file ∉ truncated) : ¬Truncated file exchanges :=
  fun isTruncated => absent (within _ isTruncated)

end Within

/-! ## Copying -/

structure TDbHandler.Alike (handler after : TDbHandler) : Prop where
  workFile : after.workFile = handler.workFile
  tmpFile : after.tmpFile = handler.tmpFile

namespace TDbHandler.Alike

variable {handler middle after : TDbHandler}

theorem refl : handler.Alike handler :=
  ⟨rfl, rfl⟩

theorem trans (first : handler.Alike middle) (second : middle.Alike after) :
    handler.Alike after :=
  ⟨second.workFile.trans first.workFile, second.tmpFile.trans first.tmpFile⟩

end TDbHandler.Alike

section Copying

variable {handler : TDbHandler} {streams : DbFile → OpenStream} {fileIn fileOut : DbFile}

structure BlockRead (stream : OpenStream) (read : Text × Bool) (reached : OpenStream) : Prop where
  content : reached.file.content = stream.file.content
  rest : read.1 ++ reached.file.rest = stream.file.rest
  error : read.2 = false → stream.error = false
  ends : read.2 = false → read.1 = [] → reached.file.rest = []

theorem blockRead_fread (file : DbFile) (stream : OpenStream) {block : Text}
    (admitted : block <+: stream.file.rest.take maxCpyBuffer) :
    BlockRead stream (block, (stream.after (.fread file maxCpyBuffer) block).error)
      (stream.after (.fread file maxCpyBuffer) block) := by
  have part : block <+: stream.file.rest := admitted.trans (List.take_prefix _ _)
  have whole : block ++ (stream.file.advance block.length).rest = stream.file.rest := by
    rw [TextFile.rest_advance]
    nth_rewrite 1 [List.prefix_iff_eq_take.mp part]
    exact List.take_append_drop _ _
  constructor
  · rfl
  · exact whole
  · intro noError
    exact (Bool.or_eq_false_iff.mp noError).1
  · intro noError (empty : block = [])
    have long := (Bool.or_eq_false_iff.mp noError).2
    subst empty
    have noRest : stream.file.rest = [] := by
      simpa [Nat.min_eq_zero_iff, maxCpyBuffer] using long
    exact whole.trans noRest

theorem readBlock_faulty (file : DbFile) :
    Ensures streamsModel (readBlock file) handler streams
      fun exchanges read after reached => handler.Alike after ∧
        BlockRead (streams file) read (reached file) ∧
        (∀ other, other ≠ file → reached other = streams other) ∧
        ∀ out, accepted out exchanges = 0 := by
  refine ensures_op file rfl fun block between admitted own others => ?_
  refine ensures_op file rfl fun failed reached flag same keeps => ?_
  have read := blockRead_fread file (streams file) admitted
  have isFlag : failed = (between file).error := flag
  have unchanged : reached file = between file := same
  rw [← own, ← isFlag, ← unchanged] at read
  have allOthers : ∀ other, other ≠ file → reached other = streams other :=
    fun other differs => (keeps other differs).trans (others other differs)
  apply ensures_ite_bool
  · rintro rfl
    apply ensures_bind_modify
    exact ensures_pure ⟨⟨rfl, rfl⟩, read, allOthers, fun _ => rfl⟩
  · rintro rfl
    exact ensures_pure ⟨.refl, read, allOthers, fun _ => rfl⟩

theorem copyBlocks_failed (rounds : Nat) (block : Text) :
    Ensures streamsModel (copyBlocks fileIn fileOut rounds (block, true)) handler streams
      fun exchanges bError after reached =>
        exchanges = [] ∧ bError = true ∧ after = handler ∧ reached = streams := by
  cases rounds with
  | zero => exact ensures_stop
  | succ rounds =>
    apply ensures_ite
    · rintro ⟨_, noError⟩
      cases noError
    · intro _
      exact ensures_pure ⟨rfl, rfl, rfl, rfl⟩

/-- A part of `text` has been copied after `done`, all of it unless there was an error. -/
structure Copied (fileOut : DbFile) (done text : Text) (exchanges : List (Exchange fileOps))
    (bError : Bool) (reached : DbFile → OpenStream) : Prop where
  written : (reached fileOut).file =
    .overlay [] (done ++ text.take (accepted fileOut exchanges))
  bound : accepted fileOut exchanges ≤ text.length
  whole : bError = false → accepted fileOut exchanges = text.length

theorem copied_none {done text : Text} {reached : DbFile → OpenStream}
    (written : (reached fileOut).file = .overlay [] done) :
    Copied fileOut done text [] true reached where
  written := by rw [written, accepted_nil, List.take_zero, List.append_nil]
  bound := Nat.zero_le _
  whole := Bool.noConfusion

theorem Copied.after_block {done block text : Text} {exchanges later : List (Exchange fileOps)}
    {bError : Bool} {reached : DbFile → OpenStream}
    (copied : Copied fileOut (done ++ block) text later bError reached)
    (count : accepted fileOut exchanges = block.length + accepted fileOut later) :
    Copied fileOut done (block ++ text) exchanges bError reached where
  written := by
    rw [copied.written, count, List.take_length_add_append, List.append_assoc]
  bound := by
    have bound := copied.bound
    rw [count, List.length_append]
    omega
  whole := by
    intro noError
    rw [count, copied.whole noError, List.length_append]

theorem copyBlocks_faulty (distinct : fileIn ≠ fileOut) (rounds : Nat) {block done : Text}
    (written : (streams fileOut).file = .overlay [] done)
    (ends : block = [] → (streams fileIn).file.rest = []) :
    Ensures streamsModel (copyBlocks fileIn fileOut rounds (block, false)) handler streams
      fun exchanges bError after reached => handler.Alike after ∧
        Copied fileOut done (block ++ (streams fileIn).file.rest) exchanges bError reached ∧
        (reached fileIn).file.content = (streams fileIn).file.content := by
  induction rounds generalizing handler streams block done with
  | zero => exact ensures_stop
  | succ rounds ih =>
    apply ensures_ite
    · rintro ⟨_, -⟩
      refine ensures_op fileOut rfl fun count between bound own others => ?_
      have inFile : between fileIn = streams fileIn := others fileIn distinct
      have outFile : (between fileOut).file = .overlay [] (done ++ block.take count) := by
        rw [own, ← TextFile.write_overlay '\x00', ← written]
        rfl
      have counted : acceptedBy fileOut ⟨.fwrite fileOut block, count⟩ = count := if_pos rfl
      apply ensures_ite
      · rintro rfl
        apply (readBlock_faulty fileIn).bind
        rintro exchanges ⟨next, failed⟩ middle reached ⟨alike, read, others, noneAccepted⟩
        have stillWritten : (reached fileOut).file = .overlay [] (done ++ block) := by
          rw [others fileOut distinct.symm, outFile, List.take_length]
        rw [inFile] at read
        cases failed with
        | true =>
          apply (copyBlocks_failed rounds next).mono
          rintro _ bError after _ ⟨rfl, rfl, rfl, rfl⟩
          refine ⟨alike, (copied_none stillWritten).after_block ?_, read.content⟩
          simp [counted, noneAccepted]
        | false =>
          apply (ih stillWritten (read.ends rfl)).mono
          rintro later bError after final ⟨alikeLater, copied, content⟩
          rw [read.rest] at copied
          refine ⟨alike.trans alikeLater, copied.after_block ?_, content.trans read.content⟩
          simp [counted, noneAccepted]
      · intro short
        apply ensures_bind_modify
        apply (copyBlocks_failed rounds block).mono
        rintro _ bError after reached ⟨rfl, rfl, rfl, rfl⟩
        refine ⟨⟨rfl, rfl⟩, ⟨?_, ?_, Bool.noConfusion⟩, by rw [inFile]⟩
        · simp only [accepted_append, accepted_cons, accepted_nil, counted, Nat.add_zero]
          rw [outFile, List.take_append_of_le_length bound]
        · simp only [accepted_append, accepted_cons, accepted_nil, counted, Nat.add_zero]
          rw [List.length_append]
          exact Nat.le_add_right_of_le bound
    · intro stops
      have empty : block = [] := by simpa using stops
      subst empty
      apply ensures_pure
      rw [ends rfl]
      refine ⟨.refl, ⟨?_, ?_, ?_⟩, rfl⟩
      · simpa using written
      · exact Nat.le_refl _
      · exact fun _ => rfl

/-- The transfer to an empty file copies what the source holds, or fails.  It copies nothing
from a stream whose error indicator is set. -/
theorem fileTransfer_faulty (distinct : fileIn ≠ fileOut) (rounds : Nat) {text : Text}
    (written : (streams fileOut).file = .overlay [] [])
    (source : (streams fileIn).error = false → (streams fileIn).file.rest = text) :
    Ensures streamsModel (fileTransfer rounds fileIn fileOut) handler streams
      fun exchanges transferred after reached => handler.Alike after ∧
        Copied fileOut [] text exchanges (!transferred) reached ∧
        (reached fileIn).file.content = (streams fileIn).file.content := by
  apply (readBlock_faulty fileIn).bind
  rintro exchanges ⟨block, failed⟩ middle reached ⟨alike, read, others, noneAccepted⟩
  have stillWritten : (reached fileOut).file = .overlay [] [] := by
    rw [others fileOut distinct.symm, written]
  apply ensures_bind
  cases failed with
  | true =>
    apply (copyBlocks_failed rounds block).mono
    rintro _ bError after reached ⟨rfl, rfl, rfl, rfl⟩
    have copied : Copied fileOut [] text ([] ++ exchanges) true reached :=
      @Copied.after_block fileOut [] [] text ([] ++ exchanges) [] true reached
        (copied_none stillWritten) (by simp [noneAccepted])
    apply ensures_pure
    refine ⟨alike, ?_, read.content⟩
    simpa using copied
  | false =>
    apply (copyBlocks_faulty distinct rounds stillWritten (read.ends rfl)).mono
    rintro later bError after final ⟨alikeLater, copied, content⟩
    rw [read.rest, source (read.error rfl)] at copied
    have all : Copied fileOut [] text (exchanges ++ later) bError final :=
      @Copied.after_block fileOut [] [] text (exchanges ++ later) later bError final copied
        (by simp [noneAccepted])
    apply ensures_pure
    refine ⟨alike.trans alikeLater, ?_, content.trans read.content⟩
    simpa using all

end Copying

/-! ## Flushing -/

section Flushing

variable {handler : TDbHandler} {streams : DbFile → OpenStream}

structure TruncateOutcome (file : DbFile) (streams : DbFile → OpenStream)
    (exchanges : List (Exchange fileOps)) (truncated : Bool) (reached : DbFile → OpenStream) :
    Prop where
  others : ∀ other, other ≠ file → reached other = streams other
  truncated_iff : truncated = true ↔ Truncated file exchanges
  emptied : truncated = true → (reached file).file = .overlay [] []
  kept : truncated = false → (reached file).file.content = (streams file).file.content

theorem truncate_faulty (file : DbFile) :
    Ensures streamsModel (truncate file) handler streams
      fun exchanges truncated after reached => handler.Alike after ∧
        TruncateOutcome file streams exchanges truncated reached := by
  refine ensures_op file rfl fun seeked sought _ own others => ?_
  apply ensures_ite_bool
  · rintro rfl
    apply ensures_bind_ask
    rintro descriptor rfl
    rw [show streamsModel.after sought (.fileno file) true = sought from
      Function.update_eq_self _ _]
    apply ensures_ite
    · intro _
      refine ensures_op file rfl fun truncated cut _ ownCut othersSame => ?_
      have othersCut : ∀ other, other ≠ file → cut other = streams other :=
        fun other differs => (othersSame other differs).trans (others other differs)
      rw [own] at ownCut
      apply ensures_ite_bool
      · rintro rfl
        apply ensures_pure
        refine ⟨.refl, othersCut, iff_of_true rfl (by simp [Truncated]), ?_, Bool.noConfusion⟩
        intro _
        rw [ownCut]
        rfl
      · rintro rfl
        apply ensures_bind_modify
        apply ensures_pure
        refine ⟨⟨rfl, rfl⟩, othersCut, iff_of_false Bool.false_ne_true (by simp [Truncated]),
          Bool.noConfusion, ?_⟩
        intro _
        rw [ownCut]
        rfl
    · intro noDescriptor
      exact absurd rfl noDescriptor
  · rintro rfl
    apply ensures_bind_modify
    apply ensures_pure
    refine ⟨⟨rfl, rfl⟩, others, iff_of_false Bool.false_ne_true (by simp [Truncated]),
      Bool.noConfusion, ?_⟩
    intro _
    rw [own]
    rfl

section Within

variable {asked : FileOp → Prop}

theorem only_report {α : Type} (code : ErrNssDb) (message : String) (value : α) :
    Only asked (do setInternalError code message; pure value : Act α) :=
  .bind (.of_modify _) fun _ => .of_pure _

theorem truncate_within (file : DbFile) :
    Only (FileOp.Within [] [file]) (truncate file) := by
  apply Only.bind (Only.of_ask trivial)
  intro seeked
  apply Only.of_ite
  · apply Only.bind (Only.of_ask trivial)
    intro descriptor
    apply Only.of_ite
    · apply Only.bind
      · exact Only.of_ask (List.mem_singleton_self file)
      · intro truncated
        exact Only.of_ite (Only.of_pure _) (only_report _ _ _)
    · exact only_report _ _ _
  · exact only_report _ _ _

theorem readBlock_within (file : DbFile) :
    Only (FileOp.Within [] []) (readBlock file) := by
  apply Only.bind (Only.of_ask trivial)
  intro block
  apply Only.bind (Only.of_ask trivial)
  intro failed
  exact Only.of_ite (only_report _ _ _) (Only.of_pure _)

theorem FileOp.Within.mono {written truncated moreWritten moreTruncated : List DbFile}
    (writes : written ⊆ moreWritten) (truncates : truncated ⊆ moreTruncated) (op : FileOp)
    (within : op.Within written truncated) : op.Within moreWritten moreTruncated := by
  cases op with
  | fwrite file text => exact writes within
  | ftruncate file => exact truncates within
  | fseek | fgets | fread | ferror | fileno => trivial

theorem copyBlocks_within (rounds : Nat) (fileIn fileOut : DbFile) (read : Text × Bool) :
    Only (FileOp.Within [fileOut] []) (copyBlocks fileIn fileOut rounds read) := by
  induction rounds generalizing read with
  | zero => exact Only.of_stop _
  | succ rounds ih =>
    obtain ⟨block, bError⟩ := read
    apply Only.of_ite
    · apply Only.bind
      · exact Only.of_ask (List.mem_singleton_self fileOut)
      · intro count
        apply Only.of_ite
        · apply Only.bind
          · exact (readBlock_within fileIn).mono
              (FileOp.Within.mono (List.nil_subset _) (List.nil_subset _))
          · exact ih
        · exact Only.bind (Only.of_modify _) fun _ => ih _
    · exact Only.of_pure _

theorem fileTransfer_within (rounds : Nat) (fileIn fileOut : DbFile) :
    Only (FileOp.Within [fileOut] []) (fileTransfer rounds fileIn fileOut) := by
  apply Only.bind
  · exact (readBlock_within fileIn).mono
      (FileOp.Within.mono (List.nil_subset _) (List.nil_subset _))
  · intro read
    exact Only.bind (copyBlocks_within rounds fileIn fileOut read) fun _ =>
      Only.of_pure _

end Within

/-- The outcome of a change of the work file, which held `old` and was to hold `text`. -/
structure Flushed (old text : Text) (exchanges : List (Exchange fileOps)) (flushed : Bool)
    (reached : DbFile → OpenStream) : Prop where
  untouched : ¬Truncated .work exchanges →
    flushed = false ∧ (reached .work).file.content = old
  refilled : Truncated .work exchanges →
    (reached .work).file.content = text.take (accepted .work exchanges)
  bound : Truncated .work exchanges → accepted .work exchanges ≤ text.length
  flushed_iff : flushed = true ↔ Truncated .tmp exchanges
  whole : flushed = true → accepted .work exchanges = text.length

variable {reached : DbFile → OpenStream}

theorem flushed_untouched {old text : Text} {exchanges : List (Exchange fileOps)}
    (work : ¬Truncated .work exchanges) (tmp : ¬Truncated .tmp exchanges)
    (content : (reached .work).file.content = old) :
    Flushed old text exchanges false reached where
  untouched _ := ⟨rfl, content⟩
  refilled truncated := absurd truncated work
  bound truncated := absurd truncated work
  flushed_iff := iff_of_false Bool.false_ne_true tmp
  whole := Bool.noConfusion

theorem Flushed.after {old text : Text} {exchanges later : List (Exchange fileOps)} {flushed : Bool}
    {written : List DbFile} (outcome : Flushed old text later flushed reached)
    (absent : .work ∉ written)
    (within : ∀ exchange ∈ exchanges, FileOp.Within written [] exchange.1) :
    Flushed old text (exchanges ++ later) flushed reached := by
  have same : ∀ file, Truncated file (exchanges ++ later) ↔ Truncated file later := by
    intro file
    rw [truncated_append]
    exact or_iff_right (not_truncated_of_within within List.not_mem_nil)
  have count : accepted .work (exchanges ++ later) = accepted .work later := by
    rw [accepted_append, accepted_of_within within absent, Nat.zero_add]
  constructor
  · rw [same]
    exact outcome.untouched
  · rw [same, count]
    exact outcome.refilled
  · rw [same, count]
    exact outcome.bound
  · rw [same]
    exact outcome.flushed_iff
  · rw [count]
    exact outcome.whole

theorem flushed_refilled {old text : Text} {first second third : List (Exchange fileOps)}
    {bError flushed : Bool} {refilled : DbFile → OpenStream} (truncated : Truncated .work first)
    (firstWithin : ∀ exchange ∈ first, FileOp.Within [] [.work] exchange.1)
    (copied : Copied .work [] text second bError refilled)
    (secondWithin : ∀ exchange ∈ second, FileOp.Within [.work] [] exchange.1)
    (thirdWithin : ∀ exchange ∈ third, FileOp.Within [] [.tmp] exchange.1)
    (same : reached .work = refilled .work) (flushed_iff : flushed = true ↔ Truncated .tmp third)
    (noError : flushed = true → bError = false) :
    Flushed old text (first ++ (second ++ third)) flushed reached := by
  have count : accepted .work (first ++ (second ++ third)) = accepted .work second := by
    rw [accepted_append, accepted_append, accepted_of_within firstWithin List.not_mem_nil,
      accepted_of_within thirdWithin List.not_mem_nil, Nat.zero_add, Nat.add_zero]
  have work : Truncated .work (first ++ (second ++ third)) :=
    truncated_append.mpr (.inl truncated)
  have tmp : Truncated .tmp (first ++ (second ++ third)) ↔ Truncated .tmp third := by
    rw [truncated_append, truncated_append]
    rw [or_iff_right (not_truncated_of_within firstWithin (by decide))]
    exact or_iff_right (not_truncated_of_within secondWithin List.not_mem_nil)
  constructor
  · exact fun notTruncated => absurd work notTruncated
  · intro _
    rw [same, copied.written, count]
    simp [TextFile.overlay]
  · intro _
    rw [count]
    exact copied.bound
  · rw [tmp]
    exact flushed_iff
  · intro done
    rw [count]
    exact copied.whole (noError done)

/-- The work file is changed to `text`, or holds a part of it. -/
abbrev Refills (act : Act Bool) (handler : TDbHandler) (streams : DbFile → OpenStream)
    (text : Text) : Prop :=
  Ensures streamsModel act handler streams fun exchanges flushed after reached =>
    handler.Alike after ∧ Flushed (streams .work).file.content text exchanges flushed reached

theorem flushTmpFile_faulty (rounds : Nat) {text : Text}
    (source : (streams .tmp).error = false → (streams .tmp).file.content = text) :
    Refills (flushTmpFile rounds) handler streams text := by
  refine ensures_op .tmp rfl fun seeked sought _ tmpFile others => ?_
  have seekWithin : ∀ exchange ∈ [(⟨.fseek .tmp, seeked⟩ : Exchange fileOps)],
      FileOp.Within [] [] exchange.1 := List.forall_mem_singleton.mpr trivial
  have workFile : sought .work = streams .work := others .work DbFile.noConfusion
  apply ensures_ite
  · rintro rfl
    apply ((truncate_faulty .work).and_only (truncate_within .work)).bind
    rintro first truncated middle emptied ⟨firstWithin, alike, outcome⟩
    cases truncated with
    | false =>
      apply ensures_pure
      refine ⟨alike, Flushed.after ?_ List.not_mem_nil seekWithin⟩
      rw [List.append_nil]
      apply flushed_untouched
      · exact mt outcome.truncated_iff.mpr Bool.false_ne_true
      · exact not_truncated_of_within firstWithin (by decide)
      · rw [outcome.kept rfl, workFile]
    | true =>
      have tmpKept : emptied .tmp = (streams .tmp).after (.fseek .tmp) true := by
        rw [outcome.others .tmp DbFile.noConfusion, tmpFile]
      have readable : (emptied .tmp).error = false → (emptied .tmp).file.rest = text := by
        rw [tmpKept]
        exact source
      apply ((fileTransfer_faulty DbFile.noConfusion rounds (outcome.emptied rfl)
        readable).and_only (fileTransfer_within rounds .tmp .work)).bind
      rintro second transferred last refilled ⟨secondWithin, alikeLast, copied, -⟩
      have firstTruncated := outcome.truncated_iff.mp rfl
      cases transferred with
      | false =>
        apply ensures_pure
        refine ⟨alike.trans alikeLast, Flushed.after ?_ List.not_mem_nil seekWithin⟩
        apply flushed_refilled firstTruncated firstWithin copied secondWithin
        · exact List.forall_mem_nil _
        · rfl
        · exact iff_of_false Bool.false_ne_true List.not_mem_nil
        · exact Bool.noConfusion
      | true =>
        apply ((truncate_faulty .tmp).and_only (truncate_within .tmp)).mono
        rintro third flushed after reached ⟨thirdWithin, alikeAfter, cleared⟩
        refine ⟨(alike.trans alikeLast).trans alikeAfter,
          Flushed.after ?_ List.not_mem_nil seekWithin⟩
        apply flushed_refilled firstTruncated firstWithin copied secondWithin thirdWithin
        · exact cleared.others .work DbFile.noConfusion
        · exact cleared.truncated_iff
        · exact fun _ => rfl
  · intro notSeeked
    apply ensures_bind_modify
    apply ensures_pure
    refine ⟨⟨rfl, rfl⟩, flushed_untouched ?_ ?_ ?_⟩
    · simp [Truncated]
    · simp [Truncated]
    · rw [workFile]

end Flushing

/-! ## The new text -/

/-- What becomes of a piece of the database that `fgets` has stored: a record of the uid is
left out, and of anything else the C string is copied. -/
def keptPart (uid : UInt32) (piece : Text) : Text :=
  if (parseLine piece).uid = some uid then [] else CText.cString piece

def keptText (uid : UInt32) (content : Text) : Text :=
  (bufferedLines '\n' (maxFileBuffer - 1) content).flatMap (keptPart uid)

abbrev EndsLine (text : Text) : Prop :=
  text = [] ∨ Ended '\n' text

def lineEnded (text : Text) : Text :=
  text ++ if EndsLine text then [] else ['\n']

/-- What the database holds after a call on which no operation fails. -/
def Call.text (content : Text) : Call → Text
  | .insert pwd => lineEnded (keptText pwd.uId content) ++ tuple pwd
  | .remove uiUid => keptText uiUid content
  | .clear => []

section Scanning

variable {handler : TDbHandler} {streams : DbFile → OpenStream} {uid : UInt32}

structure Kept (text : Text) (nlLatest : Bool) (tmp : OpenStream) : Prop where
  file : tmp.file = .overlay [] text
  error : tmp.error = false
  nlLatest : nlLatest = decide (EndsLine text)

theorem copyLine_faulty {scan : Scan} {text pBuf : Text} {nlLatest : Bool}
    (kept : Kept text nlLatest (streams .tmp)) :
    Ensures streamsModel (copyLine scan pBuf) handler streams
      fun _ scanned after reached => after = handler ∧ reached .work = streams .work ∧
        (scanned.exit = false →
          Kept (text ++ CText.cString pBuf) scanned.nlLatest (reached .tmp)) := by
  refine ensures_op .tmp rfl fun written reached bound tmpFile others => ?_
  have workFile : reached .work = streams .work := others .work DbFile.noConfusion
  cases isLast : (CText.cString pBuf).getLast? with
  | none =>
    simp only
    exact ensures_stop
  | some last =>
    simp only
    apply ensures_pure
    refine ⟨rfl, workFile, ?_⟩
    intro noExit
    obtain rfl : written = (CText.cString pBuf).length := by simpa using noExit
    constructor
    · rw [tmpFile]
      simp only [OpenStream.after, kept.file, TextFile.write_overlay, List.take_length]
    · rw [tmpFile]
      simp [OpenStream.after, kept.error]
    · have nonempty : CText.cString pBuf ≠ [] := by
        rintro empty
        rw [empty] at isLast
        cases isLast
      simp [EndsLine, Ended, nonempty, List.getLast?_append, isLast]

theorem parsingLine_faulty (pBuf : Text) :
    Ensures streamsModel (parsingLine pBuf) handler streams
      fun _ parsed after reached =>
        parsed = parseLine pBuf ∧ handler.Alike after ∧ reached = streams := by
  apply ensures_ite
  · intro missing
    apply ensures_bind_modify
    exact ensures_pure ⟨missing.symm, ⟨rfl, rfl⟩, rfl⟩
  · intro _
    exact ensures_pure ⟨rfl, .refl, rfl⟩

theorem scanLine_faulty {scan : Scan} {text : Text} (pBuf : Text)
    (kept : Kept text scan.nlLatest (streams .tmp)) :
    Ensures streamsModel (scanLine uid scan pBuf) handler streams
      fun _ scanned after reached => handler.Alike after ∧ reached .work = streams .work ∧
        (scanned.exit = false →
          Kept (text ++ keptPart uid pBuf) scanned.nlLatest (reached .tmp)) := by
  have copies (other : (parseLine pBuf).uid ≠ some uid) (after : TDbHandler)
      (alike : handler.Alike after) :
      Ensures streamsModel (copyLine scan pBuf) after streams
        fun _ scanned after reached => handler.Alike after ∧ reached .work = streams .work ∧
          (scanned.exit = false →
            Kept (text ++ keptPart uid pBuf) scanned.nlLatest (reached .tmp)) := by
    rw [keptPart, if_neg other]
    apply (copyLine_faulty kept).mono
    rintro _ scanned _ reached ⟨rfl, workFile, keptMore⟩
    exact ⟨alike, workFile, keptMore⟩
  have exits (after : TDbHandler) (alike : handler.Alike after) :
      Ensures streamsModel (do
        setInternalError .errDbFormat "Database format error"
        pure { scan with exit := true }) after streams
        fun _ scanned after reached => handler.Alike after ∧ reached .work = streams .work ∧
          (scanned.exit = false →
            Kept (text ++ keptPart uid pBuf) scanned.nlLatest (reached .tmp)) := by
    apply ensures_bind_modify
    exact ensures_pure ⟨⟨alike.workFile, alike.tmpFile⟩, rfl, Bool.noConfusion⟩
  apply (parsingLine_faulty pBuf).bind
  rintro _ parsed after _ ⟨rfl, alike, rfl⟩
  cases isParsed : parseLine pBuf with
  | success pwd =>
    simp only [isParsed, ParsedLine.uid] at copies ⊢
    apply ensures_ite
    · intro other
      exact copies (fun same => other (Option.some.inj same).symm) after alike
    · intro same
      apply ensures_pure
      refine ⟨alike, rfl, ?_⟩
      intro noExit
      have removed : keptPart uid pBuf = [] := by
        rw [keptPart, isParsed, if_pos]
        rw [ParsedLine.uid, not_not.mp same]
      rw [removed, List.append_nil]
      exact kept
  | empty =>
    simp only [isParsed, ParsedLine.uid] at copies ⊢
    exact copies (Option.some_ne_none uid).symm after alike
  | missingSeparator | separatorInLast => exact exits after alike

theorem scanLines_faulty (rounds : Nat) {scan : Scan} {text : Text}
    (kept : scan.exit = false → Kept text scan.nlLatest (streams .tmp)) :
    Ensures streamsModel (scanLines uid rounds scan) handler streams
      fun _ scanned after reached => handler.Alike after ∧
        (reached .work).file.content = (streams .work).file.content ∧
        (scanned.exit = false →
          Kept (text ++ keptText uid (streams .work).file.rest) scanned.nlLatest
            (reached .tmp)) := by
  induction rounds generalizing scan text handler streams with
  | zero => exact ensures_stop
  | succ rounds ih =>
    refine ensures_op .work rfl fun line reading isLine workFile others => ?_
    have tmpFile : reading .tmp = streams .tmp := others .tmp DbFile.noConfusion
    have contentKept : (reading .work).file.content = (streams .work).file.content := by
      rw [workFile]
      rfl
    have stored : line = if (streams .work).nextLine maxFileBuffer = [] then none
        else some ((streams .work).nextLine maxFileBuffer) := isLine
    split at stored
    · next ends =>
        subst stored
        apply ensures_pure
        refine ⟨.refl, contentKept, ?_⟩
        rw [keptText, bufferedLines_of_eq_nil ends, tmpFile]
        simpa using kept
    · next more =>
        subst stored
        apply ensures_ite
        · intro exits
          apply ensures_pure
          refine ⟨.refl, contentKept, ?_⟩
          intro noExit
          rw [noExit] at exits
          cases exits
        · intro noExit
          rw [← tmpFile] at kept
          apply (scanLine_faulty _ (kept (eq_false_of_ne_true noExit))).bind
          rintro _ scanned middle copied ⟨alike, workKept, keptMore⟩
          apply (ih keptMore).mono
          rintro _ last after reached ⟨alikeAfter, content, keptAll⟩
          refine ⟨alike.trans alikeAfter, ?_, ?_⟩
          · rw [content, workKept, contentKept]
          · have unread : (copied .work).file.rest = (streams .work).file.rest.drop
                ((streams .work).nextLine maxFileBuffer).length := by
              rw [workKept, workFile]
              exact TextFile.rest_advance _ _
            rw [unread, List.append_assoc] at keptAll
            rw [keptText, bufferedLines_of_ne_nil more, List.flatMap_cons]
            exact keptAll

theorem seekBoth_faulty :
    Ensures streamsModel seekBoth handler streams
      fun _ seeked after reached => after = handler ∧
        (reached .work).file.content = (streams .work).file.content ∧
        (seeked = true → (reached .work).file = (streams .work).file.rewind ∧
          (reached .tmp).file = (streams .tmp).file.rewind ∧
          (reached .tmp).error = (streams .tmp).error) := by
  refine ensures_op .work rfl fun workSeeked sought _ workFile others => ?_
  apply ensures_ite_bool
  · rintro rfl
    apply ensures_ask
    intro seeked _
    have own := after_own sought (.fseek .tmp) seeked
    have other : streamsModel.after sought (.fseek .tmp) seeked .work = sought .work :=
      after_other sought (.fseek .tmp) seeked DbFile.noConfusion
    generalize streamsModel.after sought (.fseek .tmp) seeked = reached at *
    refine ⟨rfl, ?_, ?_⟩
    · rw [other, workFile]
      rfl
    · rintro rfl
      have tmpSought : reached .tmp = (sought .tmp).after (.fseek .tmp) true := own
      rw [other, workFile, tmpSought, others .tmp DbFile.noConfusion]
      exact ⟨rfl, rfl, rfl⟩
  · rintro rfl
    apply ensures_pure
    refine ⟨rfl, ?_, Bool.noConfusion⟩
    rw [workFile]
    rfl

theorem copyWithoutItem_faulty (rounds : Nat) (opened : handler.Opened)
    (empty : (streams .tmp).file.content = []) (noError : (streams .tmp).error = false) :
    Ensures streamsModel (copyWithoutItem rounds uid) handler streams
      fun _ copied after reached => handler.Alike after ∧
        (reached .work).file.content = (streams .work).file.content ∧
        (copied.1 ≠ .error →
          Kept (keptText uid (streams .work).file.content) copied.2 (reached .tmp)) := by
  apply ensures_bind_get
  apply ensures_ite
  · intro _
    apply seekBoth_faulty.bind
    rintro _ seeked _ sought ⟨rfl, content, rewound⟩
    apply ensures_ite
    · intro isSeeked
      obtain ⟨workFile, tmpFile, tmpError⟩ := rewound isSeeked
      have start : Kept [] true (sought .tmp) := by
        refine ⟨?_, tmpError.trans noError, by simp [EndsLine]⟩
        rw [tmpFile, TextFile.rewind, empty]
        rfl
      have unread : (sought .work).file.rest = (streams .work).file.content := by
        rw [workFile]
        rfl
      apply (@scanLines_faulty _ _ uid rounds ⟨false, false, true⟩ [] fun _ => start).bind
      rintro _ scan after reached ⟨alike, contentAfter, kept⟩
      rw [unread, List.nil_append] at kept
      have same := contentAfter.trans content
      apply ensures_ite
      · intro _
        exact ensures_pure ⟨alike, same, fun noError => absurd rfl noError⟩
      · intro noExit
        have held := kept (eq_false_of_ne_true noExit)
        apply ensures_ite <;> exact fun _ => ensures_pure ⟨alike, same, fun _ => held⟩
    · intro _
      apply ensures_bind_modify
      exact ensures_pure ⟨⟨rfl, rfl⟩, content, fun noError => absurd rfl noError⟩
  · intro notOpen
    simp [opened.workFile, opened.tmpFile] at notOpen

end Scanning

/-! ## One change -/

theorem scanLine_within (uid : UInt32) (scan : Scan) (pBuf : Text) :
    Only (FileOp.Within [.tmp] []) (scanLine uid scan pBuf) := by
  have copies : Only (FileOp.Within [.tmp] []) (copyLine scan pBuf) := by
    apply Only.bind
    · exact Only.of_ask (List.mem_singleton_self DbFile.tmp)
    · intro written
      split
      · exact Only.of_stop _
      · exact Only.of_pure _
  apply Only.bind
  · exact Only.of_ite (only_report _ _ _) (Only.of_pure _)
  · intro parsed
    cases parsed with
    | success pwd => exact Only.of_ite copies (Only.of_pure _)
    | empty => exact copies
    | missingSeparator | separatorInLast => exact only_report _ _ _

theorem scanLines_within (uid : UInt32) (rounds : Nat) (scan : Scan) :
    Only (FileOp.Within [.tmp] []) (scanLines uid rounds scan) := by
  induction rounds generalizing scan with
  | zero => exact Only.of_stop _
  | succ rounds ih =>
    apply Only.bind (Only.of_ask trivial)
    intro line
    cases line with
    | none => exact Only.of_pure _
    | some pBuf =>
      apply Only.of_ite (Only.of_pure _)
      exact Only.bind (scanLine_within uid scan pBuf) ih

theorem copyWithoutItem_within (rounds : Nat) (uid : UInt32) :
    Only (FileOp.Within [.tmp] []) (copyWithoutItem rounds uid) := by
  apply Only.bind Only.of_get
  intro handler
  apply Only.of_ite
  · apply Only.bind
    · apply Only.bind (Only.of_ask trivial)
      intro seeked
      exact Only.of_ite (Only.of_ask trivial) (Only.of_pure _)
    · intro seeked
      apply Only.of_ite
      · apply Only.bind (scanLines_within uid rounds _)
        intro scan
        apply Only.of_ite (Only.of_pure _)
        exact Only.of_ite (Only.of_pure _) (Only.of_pure _)
      · exact only_report _ _ _
  · exact only_report _ _ _

section Changing

variable {handler : TDbHandler} {streams : DbFile → OpenStream}

variable (rounds : Nat)

/-- A record that was not accepted as a whole sets the error indicator of the temporary file,
and then nothing is copied back. -/
theorem writeTuple_faulty {before text : Text} {nlLatest : Bool}
    (kept : Kept before nlLatest (streams .tmp)) :
    Refills (writeTuple rounds text) handler streams (before ++ text) := by
  refine ensures_op .tmp rfl fun written wrote bound tmpFile others => ?_
  have source : (wrote .tmp).error = false → (wrote .tmp).file.content = before ++ text := by
    rw [tmpFile]
    intro noError
    have complete : text.length ≤ written := by
      simpa using (Bool.or_eq_false_iff.mp noError).2
    simp only [OpenStream.after, kept.file, TextFile.write_overlay]
    rw [List.take_of_length_le complete]
    simp [TextFile.overlay]
  have writeWithin : ∀ exchange ∈ [(⟨.fwrite .tmp text, written⟩ : Exchange fileOps)],
      FileOp.Within [.tmp] [] exchange.1 :=
    List.forall_mem_singleton.mpr (List.mem_singleton_self DbFile.tmp)
  have flushes (code : ErrNssDb) (message : String) :
      Ensures streamsModel (do
        setInternalError code message
        flushTmpFile rounds) handler wrote fun exchanges flushed after reached =>
          handler.Alike after ∧ Flushed (streams .work).file.content (before ++ text)
            ([⟨.fwrite .tmp text, written⟩] ++ exchanges) flushed reached := by
    apply ensures_bind_modify
    apply (flushTmpFile_faulty rounds source).mono
    rintro exchanges flushed after reached ⟨alike, outcome⟩
    rw [others .work DbFile.noConfusion] at outcome
    exact ⟨⟨alike.workFile, alike.tmpFile⟩, outcome.after (by decide) writeWithin⟩
  exact ensures_ite (fun _ => flushes _ _) fun _ => flushes _ _

theorem onOpen_faulty {act otherwise : Act Bool}
    {outcome : List (Exchange fileOps) → Bool → (DbFile → OpenStream) → Prop}
    (opened : handler.Opened)
    (ensures : ∀ {start : TDbHandler}, start.Opened →
      Ensures streamsModel act start streams fun exchanges changed after reached =>
        start.Alike after ∧ outcome exchanges changed reached) :
    Ensures streamsModel (do
      setInternalError .errDbUnknow "Unknow error"
      let handler ← get
      if handler.workFile then act else otherwise) handler streams
        fun exchanges changed after reached =>
          handler.Alike after ∧ outcome exchanges changed reached := by
  apply ensures_bind_modify
  apply ensures_bind_get
  apply ensures_ite
  · intro _
    apply (ensures opened.report).mono
    rintro exchanges changed after reached ⟨alike, holds⟩
    exact ⟨⟨alike.workFile, alike.tmpFile⟩, holds⟩
  · intro notOpen
    exact absurd opened.workFile notOpen

variable (opened : handler.Opened) (empty : (streams .tmp).file.content = [])
  (noError : (streams .tmp).error = false)

include opened empty noError

theorem insertItemInDb_faulty (pwd : TsPassword) :
    Refills (insertItemInDb rounds pwd) handler streams
      (Call.text (streams .work).file.content (.insert pwd)) := by
  apply onOpen_faulty opened
  intro start startOpened
  apply ((copyWithoutItem_faulty rounds startOpened empty noError).and_only
    (copyWithoutItem_within rounds pwd.uId)).bind
  rintro first ⟨flag, nlLatest⟩ middle copied ⟨within, alike, content, kept⟩
  have writes (noFault : flag ≠ .error) :
      Ensures streamsModel
        (writeTuple rounds ((if nlLatest then [] else ['\n']) ++ tuple pwd)) middle copied
        fun second changed after reached => start.Alike after ∧
          Flushed (streams .work).file.content
            (Call.text (streams .work).file.content (.insert pwd)) (first ++ second) changed
            reached := by
    apply (writeTuple_faulty rounds (kept noFault)).mono
    rintro second changed after reached ⟨alikeAfter, outcome⟩
    refine ⟨alike.trans alikeAfter, Flushed.after ?_ (by decide) within⟩
    have latest : nlLatest = decide (EndsLine (keptText pwd.uId (streams .work).file.content)) :=
      (kept noFault).nlLatest
    rw [content, latest, ← List.append_assoc] at outcome
    simpa only [Call.text, lineEnded, decide_eq_true_eq] using outcome
  cases flag with
  | error =>
    apply ensures_pure
    refine ⟨alike, Flushed.after ?_ (by decide) within⟩
    exact flushed_untouched List.not_mem_nil List.not_mem_nil content
  | successFound | successNotFound => exact writes RemoveFlag.noConfusion

theorem removeItemInDb_faulty (uid : UInt32) :
    Refills (removeItemInDb rounds uid) handler streams
      (keptText uid (streams .work).file.content) := by
  apply onOpen_faulty opened
  intro start startOpened
  apply ((copyWithoutItem_faulty rounds startOpened empty noError).and_only
    (copyWithoutItem_within rounds uid)).bind
  rintro first ⟨flag, nlLatest⟩ middle copied ⟨within, alike, content, kept⟩
  have untouched : ∀ {after : TDbHandler}, start.Alike after → start.Alike after ∧
      Flushed (streams .work).file.content (keptText uid (streams .work).file.content)
        (first ++ []) false copied := by
    intro after alikeAfter
    refine ⟨alikeAfter, Flushed.after ?_ (by decide) within⟩
    exact flushed_untouched List.not_mem_nil List.not_mem_nil content
  cases flag with
  | error => exact ensures_pure (untouched alike)
  | successNotFound =>
    apply ensures_bind_modify
    exact ensures_pure (untouched ⟨alike.workFile, alike.tmpFile⟩)
  | successFound =>
    have held := kept RemoveFlag.noConfusion
    have source : (copied .tmp).error = false →
        (copied .tmp).file.content = keptText uid (streams .work).file.content := by
      intro _
      rw [held.file]
      simp [TextFile.overlay]
    apply (flushTmpFile_faulty rounds source).bind
    rintro second flushed after reached ⟨alikeAfter, outcome⟩
    rw [content] at outcome
    have alikeAll := alike.trans alikeAfter
    apply ensures_ite_bool
    · rintro rfl
      apply ensures_bind_modify
      apply ensures_pure
      refine ⟨⟨alikeAll.workFile, alikeAll.tmpFile⟩, ?_⟩
      simpa using outcome.after (by decide) within
    · rintro rfl
      apply ensures_pure
      refine ⟨alikeAll, ?_⟩
      simpa using outcome.after (by decide) within

theorem act_faulty {call : Call} (rewrites : call ≠ .clear) :
    Refills (call.act rounds) handler streams (call.text (streams .work).file.content) := by
  cases call with
  | insert pwd => exact insertItemInDb_faulty rounds opened empty noError pwd
  | remove uid => exact removeItemInDb_faulty rounds opened empty noError uid
  | clear => exact absurd rfl rewrites

end Changing

end Apos.UserDb
