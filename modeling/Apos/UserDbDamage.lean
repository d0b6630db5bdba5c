import Apos.UserDbDisk
import Apos.UserDbSessionCalls

/-!
# What a failed change leaves of the user database

A change that fails is meant to leave the database as it was, and an insertion that succeeds
is meant to leave the new record in it.  The work file is truncated before it is refilled,
and closing renames it to the database whatever the change returned.  So a call that fails
between the truncation and the end of the change leaves a part of the new text in place of
the database.  The copy that becomes the work file is closed without a look at the result, so
that a part of the database may be lost before the change begins.
-/

namespace Apos.UserDb

open Stateful

/-! ## Calls of the change among those of the session -/

def handlerCall : Exchange sessionOps → Option (Exchange fileOps)
  | ⟨.library .handler op, reply⟩ => some ⟨op, reply⟩
  | _ => none

def handlerCalls (exchanges : List (Exchange sessionOps)) : List (Exchange fileOps) :=
  exchanges.filterMap handlerCall

theorem handlerCalls_append (first second : List (Exchange sessionOps)) :
    handlerCalls (first ++ second) = handlerCalls first ++ handlerCalls second :=
  List.filterMap_append

theorem handlerCalls_map (inner : List (Exchange fileOps)) :
    handlerCalls (inner.map StreamPair.handler.calls.exchange) = inner := by
  rw [handlerCalls, List.filterMap_map]
  exact List.filterMap_some

theorem handlerCalls_of_none {exchanges : List (Exchange sessionOps)}
    (others : ∀ exchange ∈ exchanges, ∀ op, exchange.1 ≠ .library .handler op) :
    handlerCalls exchanges = [] := by
  rw [handlerCalls, List.filterMap_eq_nil_iff]
  intro exchange member
  obtain ⟨op, reply⟩ := exchange
  have other := others _ member
  cases op with
  | library pair op =>
    cases pair with
    | handler => exact absurd rfl (other op)
    | copying => rfl
  | openLock => rfl
  | setLock | clearLock | closeLock | readConfig | stat | fopen | fclose | rename | remove | exit =>
    rfl

def Renamed (strDb : Text) (exchanges : List (Exchange sessionOps)) : Prop :=
  ⟨.rename (workPath strDb) strDb, true⟩ ∈ exchanges

theorem renamed_append {strDb : Text} {first second : List (Exchange sessionOps)} :
    Renamed strDb (first ++ second) ↔ Renamed strDb first ∨ Renamed strDb second :=
  List.mem_append

/-! ## The outcome of a command -/

def HoldsRecord (text : Text) (pwd : TsPassword) : Prop :=
  ∃ before after, text = before ++ tuple pwd ++ after ∧ EndsLine before

/-- What a change is meant to leave of the database, which held `content`. -/
structure Undamaged (content : Text) (call : Call) (changed : Bool) (left : Option Text) :
    Prop where
  unchanged : changed = false → left = some content
  inserted : ∀ pwd, call = .insert pwd → changed = true →
    ∃ text, left = some text ∧ HoldsRecord text pwd

/-- The condition on the outcomes of the calls.  If the work file has not been truncated, then it
was not renamed, or the copy was closed or kept all of the content.  If the work file has been
truncated and the temporary file has not, then the work file was not renamed, or what was
accepted for it is exactly the old content.  If the temporary file has been truncated, so that
the change succeeds, then the work file was renamed or the record was there before. -/
structure Harmless (kept : StreamPair → DbFile → Nat) (strDb content : Text) (call : Call)
    (exchanges : List (Exchange sessionOps)) : Prop where
  untouched : ¬Truncated .work (handlerCalls exchanges) → Renamed strDb exchanges →
    lostCopy exchanges = true → content.length ≤ kept .copying .work
  interrupted : Truncated .work (handlerCalls exchanges) →
    ¬Truncated .tmp (handlerCalls exchanges) → Renamed strDb exchanges →
    accepted .work (handlerCalls exchanges) = content.length ∧
      content <+: call.text (copiedText kept exchanges content)
  completed : Truncated .tmp (handlerCalls exchanges) → ∀ pwd, call = .insert pwd →
    Renamed strDb exchanges ∨ HoldsRecord content pwd

/-- What a command that opened the database has done to it: the change left some streams behind,
starting from the copy in the work file, which became the database if it was renamed. -/
structure CommandOutcome (paths : ConfigPaths) (old : Option Text) (work : Text) (call : Call)
    (exchanges : List (Exchange sessionOps)) (result : CommandResult) (left : Option Text)
    (streams : DbFile → OpenStream) : Prop where
  change : Flushed work (call.text work) (handlerCalls exchanges) result.changed streams
  closed_iff : result.closed = true ↔ Renamed paths.writePath exchanges
  renamed : result.closed = true → left = some (streams .work).file.content
  kept : result.closed = false → left = old

section Command

variable {config : Text} {kept : StreamPair → DbFile → Nat} {paths : ConfigPaths}
  {session : Session} {disk : Disk}

theorem onStreams_change (rounds : Nat) {call : Call} {pid : Nat} {content : Text}
    (rewrites : call ≠ .clear) (opened : session.handler.Opened)
    (work : disk.files (workPath paths.writePath) = some content)
    (tmp : disk.files (tempPath pid paths.writePath) = some [])
    (handles : disk.streams .handler = fun file =>
      some ⟨handlerPaths pid paths.writePath file, 0, false⟩) :
    Ensures (diskModel config kept) (onStreams .handler (call.act rounds)) session disk
      fun exchanges changed after reached => ∃ inner handler streams,
        exchanges = inner.map StreamPair.handler.calls.exchange ∧ after = { session with handler } ∧
        reached = disk.place .handler (handlerPaths pid paths.writePath) streams ∧
        session.handler.Alike handler ∧
        Flushed content (call.text content) inner changed streams := by
  let streams (file : DbFile) : OpenStream :=
    ⟨⟨if file = .work then content else [], 0⟩, false⟩
  have inPlace : disk.place .handler (handlerPaths pid paths.writePath) streams = disk := by
    apply Disk.place_self
    · intro file
      cases file with
      | work => exact work
      | tmp => exact tmp
    · exact handles
  have changes : Ensures streamsModel (call.act rounds) session.handler streams _ :=
    act_faulty rounds opened rfl rfl rewrites
  have differ : handlerPaths pid paths.writePath .work ≠ handlerPaths pid paths.writePath .tmp :=
    (tempPath_ne_workPath pid paths.writePath).symm
  exact onStreams_onDisk differ inPlace changes

variable {exchanges : List (Exchange sessionOps)}

theorem no_handler_call_in_opening (only : ∀ exchange ∈ exchanges, SessionOp.OfOpen exchange.1) :
    handlerCalls exchanges = [] := by
  apply handlerCalls_of_none
  rintro ⟨op, reply⟩ member inner rfl
  rcases only _ member with copying | isOpenLock | isSetLock
  · cases copying
  · cases isOpenLock
  · cases isSetLock

theorem no_handler_call_in_closing (only : ∀ exchange ∈ exchanges, SessionOp.OfClose exchange.1) :
    handlerCalls exchanges = [] := by
  apply handlerCalls_of_none
  rintro ⟨op, reply⟩ member inner rfl
  rcases only _ member with impossible | isClearLock | isCloseLock
  · exact impossible
  · cases isClearLock
  · cases isCloseLock

theorem no_lost_copy_in_closing (only : ∀ exchange ∈ exchanges, SessionOp.OfClose exchange.1) :
    lostCopy exchanges = false := by
  apply List.any_eq_false.mpr
  rintro ⟨op, reply⟩ member isLost
  unfold isLostCopy at isLost
  split at isLost
  · next same =>
      obtain ⟨rfl, -⟩ := Sigma.mk.inj same
      rcases only _ member with other | isClearLock | isCloseLock
      · cases other
      · cases isClearLock
      · cases isCloseLock
  · cases isLost

theorem not_renamed_in_opening {strDb : Text}
    (only : ∀ exchange ∈ exchanges, SessionOp.OfOpen exchange.1) : ¬Renamed strDb exchanges := by
  intro renamed
  rcases only _ renamed with impossible | isOpenLock | isSetLock
  · exact impossible
  · cases isOpenLock
  · cases isSetLock

theorem not_renamed_in_change {strDb : Text} (inner : List (Exchange fileOps)) :
    ¬Renamed strDb (inner.map StreamPair.handler.calls.exchange) := by
  intro renamed
  obtain ⟨exchange, -, same⟩ := List.mem_map.mp renamed
  cases same

theorem command_onDisk (rounds : Nat) {call : Call} (rewrites : call ≠ .clear)
    (configured : parsingConfigFile config = some paths) (pid : Nat) :
    Ensures (diskModel config kept) (command rounds call) (newSession pid) disk
      fun exchanges result _ reached => ∀ outcome, result = some outcome → ∃ streams,
        CommandOutcome paths (disk.files paths.writePath)
          (copiedText kept exchanges ((disk.files paths.writePath).getD [])) call exchanges outcome
          (reached.files paths.writePath) streams := by
  apply ((openDbInstance_onDisk rounds configured (.inl rfl) rfl).and_only
    (openDbInstance_only rounds)).bind
  rintro first opened middle prepared ⟨firstOnly, opening⟩
  apply ensures_ite
  · rintro rfl
    apply (onStreams_change rounds rewrites (opening.handler rfl) (opening.work rfl)
      (opening.tmp rfl) (opening.handles rfl)).bind
    rintro _ changed _ _ ⟨inner, handler, streams, rfl, rfl, rfl, alike, flushed⟩
    have stillOpen : handler.Opened :=
      ⟨alike.workFile.trans (opening.handler rfl).workFile,
        alike.tmpFile.trans (opening.handler rfl).tmpFile⟩
    have placed : HandlesPlaced middle.pid paths.writePath
        (prepared.place .handler (handlerPaths pid paths.writePath) streams) := by
      intro file
      rw [opening.pid]
      refine ⟨⟨handlerPaths pid paths.writePath file, (streams file).file.position,
        (streams file).error⟩, ?_, rfl⟩
      simp [Disk.place]
    apply ((@closeDbInstance_onDisk config kept paths { middle with handler } _ stillOpen
      (opening.config rfl) placed).and_only closeDbInstance_only).bind
    rintro last closed _ reached ⟨lastOnly, closing⟩
    apply ensures_pure
    rintro outcome ⟨⟩
    have calls : handlerCalls (first ++ (inner.map StreamPair.handler.calls.exchange ++
        (last ++ []))) = inner := by
      rw [handlerCalls_append, handlerCalls_append, handlerCalls_append, handlerCalls_map,
        no_handler_call_in_opening firstOnly, no_handler_call_in_closing lastOnly]
      simp [handlerCalls]
    have renamed_iff : Renamed paths.writePath (first ++
        (inner.map StreamPair.handler.calls.exchange ++ (last ++ []))) ↔
          Renamed paths.writePath last := by
      rw [List.append_nil, renamed_append, renamed_append]
      rw [or_iff_right (not_renamed_in_opening firstOnly)]
      exact or_iff_right (not_renamed_in_change inner)
    have noLaterClose : lostCopy (inner.map StreamPair.handler.calls.exchange ++ (last ++ [])) =
        false := by
      rw [lostCopy_append, lostCopy_calls, List.append_nil]
      exact no_lost_copy_in_closing lastOnly
    have differ : handlerPaths pid paths.writePath .work ≠ handlerPaths pid paths.writePath .tmp :=
      (tempPath_ne_workPath pid paths.writePath).symm
    refine ⟨streams, ?_, ?_, ?_, ?_⟩
    · rw [calls, copiedText_append_right noLaterClose]
      exact flushed
    · rw [renamed_iff]
      exact closing.closed_iff
    · intro isClosed
      rw [closing.renamed isClosed]
      exact prepared.files_place .handler differ streams .work
    · intro notClosed
      have otherWork : paths.writePath ≠ workPath paths.writePath :=
        (workPath_ne paths.writePath).symm
      have otherTmp : paths.writePath ≠ tempPath pid paths.writePath :=
        (tempPath_ne pid paths.writePath).symm
      rw [closing.kept notClosed, ← opening.files _ otherWork otherTmp]
      exact prepared.files_place_of_ne .handler otherWork otherTmp
  · intro _
    apply ensures_pure
    intro outcome noOutcome
    cases noOutcome

theorem holdsRecord_text (content : Text) (pwd : TsPassword) :
    HoldsRecord (Call.text content (.insert pwd)) pwd := by
  refine ⟨lineEnded (keptText pwd.uId content), [], by simp [Call.text], ?_⟩
  rw [lineEnded]
  split
  · next ends =>
      rw [List.append_nil]
      exact ends
  · exact .inr (by simp [Ended])

theorem take_eq_iff {text content : Text} {count : Nat} (bound : count ≤ text.length) :
    text.take count = content ↔ count = content.length ∧ content <+: text := by
  constructor
  · rintro rfl
    exact ⟨by rw [List.length_take, Nat.min_eq_left bound], List.take_prefix _ _⟩
  · rintro ⟨rfl, part⟩
    exact (List.prefix_iff_eq_take.mp part).symm

theorem copiedText_eq_self_iff {exchanges : List (Exchange sessionOps)} {content : Text} :
    copiedText kept exchanges content = content ↔
      (lostCopy exchanges = true → content.length ≤ kept .copying .work) := by
  unfold copiedText
  split
  · next isLost => simp [isLost]
  · next isClosed => simp [isClosed]

theorem Flushed.content_of_flushed {old text : Text} {exchanges : List (Exchange fileOps)}
    {streams : DbFile → OpenStream} (flushed : Flushed old text exchanges true streams) :
    (streams .work).file.content = text := by
  have truncated : Truncated .work exchanges := by
    by_contra notTruncated
    cases (flushed.untouched notTruncated).1
  rw [flushed.refilled truncated, flushed.whole rfl, List.take_length]

/-- In every run of a command on a database file, whatever calls fail or stop short, the
database is undamaged exactly if the outcomes of the calls are harmless. -/
theorem undamaged_iff_harmless {rounds pid : Nat} {call : Call} {content : Text}
    {exchanges : List (Exchange sessionOps)} {result : CommandResult}
    (configured : parsingConfigFile config = some paths)
    (present : disk.files paths.writePath = some content) (rewrites : call ≠ .clear)
    (executes : (command rounds call).Executes (newSession pid) exchanges (some result) session)
    (allowed : (diskModel config kept).Allows disk exchanges) :
    Undamaged content call result.changed
        (((diskModel config kept).final disk exchanges).files paths.writePath) ↔
      Harmless kept paths.writePath content call exchanges := by
  obtain ⟨streams, outcome⟩ :=
    (command_onDisk rounds rewrites configured pid).elim executes allowed result rfl
  rw [present] at outcome
  generalize ((diskModel config kept).final disk exchanges).files paths.writePath = left
    at outcome ⊢
  obtain ⟨changed, closed⟩ := result
  have change : Flushed (copiedText kept exchanges content)
      (call.text (copiedText kept exchanges content)) (handlerCalls exchanges) changed streams :=
    outcome.change
  have refilled (truncated : Truncated .work (handlerCalls exchanges))
      (renamed : Renamed paths.writePath exchanges) : left = some content ↔
        accepted .work (handlerCalls exchanges) = content.length ∧
          content <+: call.text (copiedText kept exchanges content) := by
    rw [outcome.renamed (outcome.closed_iff.mpr renamed), change.refilled truncated,
      Option.some.injEq, take_eq_iff (change.bound truncated)]
  constructor
  · intro undamaged
    constructor
    · intro notWork renamed
      obtain ⟨rfl, copy⟩ := change.untouched notWork
      have same := undamaged.unchanged rfl
      rw [outcome.renamed (outcome.closed_iff.mpr renamed), copy, Option.some.injEq] at same
      exact copiedText_eq_self_iff.mp same
    · intro work notTmp renamed
      have failed : changed = false := eq_false_of_ne_true (mt change.flushed_iff.mp notTmp)
      exact (refilled work renamed).mp (undamaged.unchanged failed)
    · intro tmp pwd isInsert
      obtain ⟨text, isLeft, holds⟩ := undamaged.inserted pwd isInsert (change.flushed_iff.mpr tmp)
      by_cases renamed : Renamed paths.writePath exchanges
      · exact .inl renamed
      · have notClosed : closed = false := eq_false_of_ne_true (mt outcome.closed_iff.mp renamed)
        rw [outcome.kept notClosed, Option.some.injEq] at isLeft
        exact .inr (isLeft ▸ holds)
  · intro harmless
    constructor
    · rintro rfl
      have notTmp : ¬Truncated .tmp (handlerCalls exchanges) :=
        mt change.flushed_iff.mpr Bool.false_ne_true
      cases closed with
      | false => exact outcome.kept rfl
      | true =>
        have renamed := outcome.closed_iff.mp rfl
        by_cases work : Truncated .work (handlerCalls exchanges)
        · exact (refilled work renamed).mpr (harmless.interrupted work notTmp renamed)
        · rw [outcome.renamed rfl, (change.untouched work).2,
            copiedText_eq_self_iff.mpr (harmless.untouched work renamed)]
    · rintro pwd rfl rfl
      cases closed with
      | true =>
        refine ⟨_, outcome.renamed rfl, ?_⟩
        rw [change.content_of_flushed]
        exact holdsRecord_text _ pwd
      | false =>
        refine ⟨content, outcome.kept rfl, ?_⟩
        rcases harmless.completed (change.flushed_iff.mp rfl) pwd rfl with renamed | holds
        · cases outcome.closed_iff.mpr renamed
        · exact holds

end Command

/-! ## A system with little room -/

/-- Replies of a stream on which `fwrite` accepts at most `room` bytes at a time. -/
def OpenStream.reply (stream : OpenStream) (room : Nat) : (op : FileOp) → op.Reply
  | .fseek _ => true
  | .fgets _ size =>
    if stream.nextLine size = [] then none else some (stream.nextLine size)
  | .fwrite _ text => min room text.length
  | .fread _ count => stream.file.rest.take count
  | .ferror _ => stream.error
  | .fileno _ => true
  | .ftruncate _ => true

theorem OpenStream.admits_reply (stream : OpenStream) (room : Nat) (op : FileOp) :
    stream.Admits op (stream.reply room op) := by
  cases op with
  | fwrite file text => exact Nat.min_le_right _ _
  | fread file count => exact List.prefix_rfl
  | fseek file => trivial
  | fgets | ferror | fileno => exact rfl
  | ftruncate file => trivial

/-- A system on which every call succeeds, except that there may be little room in the work
file of the handler. -/
def Disk.reply (config : Text) (room : Nat) (disk : Disk) : (op : SessionOp) → op.Reply
  | .openLock => true
  | .setLock => .granted
  | .clearLock => true
  | .closeLock => ()
  | .readConfig => some config
  | .stat path => (disk.files path).isSome
  | .fopen _ _ path mode =>
    decide (mode = .write ∨ mode = .writePlus) || (disk.files path).isSome
  | .fclose _ _ => true
  | .rename old _ => (disk.files old).isSome
  | .remove _ => true
  | .library pair op =>
    let room := if pair = .handler ∧ op.file = .work then room else maxCpyBuffer
    ((disk.streams pair op.file).elim ⟨⟨[], 0⟩, false⟩ disk.stream).reply room op
  | .exit => ()

theorem Disk.admits_reply (config : Text) (room : Nat) (disk : Disk) (op : SessionOp) :
    disk.Admits config op (disk.reply config room op) := by
  cases op with
  | readConfig => exact .inr rfl
  | stat path => exact rfl
  | fopen pair file path mode =>
    rintro opened (rfl | rfl)
    · simpa [Disk.reply] using opened
    · simpa [Disk.reply] using opened
  | rename old new => exact id
  | library pair op =>
    intro handle isOpen
    have replies : disk.reply config room (.library pair op) = (disk.stream handle).reply
        (if pair = .handler ∧ op.file = .work then room else maxCpyBuffer) op := by
      simp only [Disk.reply, isOpen, Option.elim_some]
    rw [replies]
    exact OpenStream.admits_reply _ _ op
  | openLock | setLock | clearLock | closeLock | fclose | remove | exit => trivial

/-- A close that fails leaves nothing. -/
def nothingKept : StreamPair → DbFile → Nat :=
  fun _ _ => 0

def someConfig : Text :=
  "W_FILE=/db\nR_FILE=/db\n".toList

def somePaths : ConfigPaths :=
  ⟨"/db".toList, "/db".toList⟩

def diskOfTwo : Disk where
  files path := if path = somePaths.writePath then some twoUsers else none
  streams _ _ := none

def commandRun (room : Nat) (call : Call) :
    List (Exchange sessionOps) × Option (Option CommandResult × Session) :=
  Program.inWorld (diskModel someConfig nothingKept) (Disk.reply someConfig room)
    (command 6 call (newSession 7)) diskOfTwo

theorem commandRun_executes {room : Nat} {call : Call} {result : CommandResult}
    (returns : (commandRun room call).2.map Prod.fst = some (some result)) :
    ∃ session, (command 6 call).Executes (newSession 7) (commandRun room call).1
      (some result) session := by
  obtain ⟨⟨value, session⟩, returned, isResult⟩ := Option.map_eq_some_iff.mp returns
  obtain rfl : value = some result := isResult
  exact ⟨session, Program.yields_inWorld returned⟩

theorem commandRun_allowed (room : Nat) (call : Call) :
    (diskModel someConfig nothingKept).Allows diskOfTwo (commandRun room call).1 :=
  Program.allows_inWorld (Disk.admits_reply someConfig room) _ _

def leftBy (room : Nat) (call : Call) : Option Text :=
  ((diskModel someConfig nothingKept).final diskOfTwo (commandRun room call).1).files
    somePaths.writePath

theorem someConfig_parsed : parsingConfigFile someConfig = some somePaths := by
  decide +kernel

/-- With enough room the insertion does what it is meant to. -/
theorem undamaged_with_room :
    Harmless nothingKept somePaths.writePath twoUsers (.insert cleo)
        (commandRun maxCpyBuffer (.insert cleo)).1 ∧
      Undamaged twoUsers (.insert cleo) true (leftBy maxCpyBuffer (.insert cleo)) := by
  have rewrites : Call.insert cleo ≠ .clear := Call.noConfusion
  have allowed := commandRun_allowed maxCpyBuffer (.insert cleo)
  obtain ⟨session, executes⟩ :=
    @commandRun_executes maxCpyBuffer (.insert cleo) ⟨true, true⟩ (by decide +kernel)
  obtain ⟨streams, outcome⟩ :=
    (command_onDisk 6 rewrites someConfig_parsed 7).elim executes allowed _ rfl
  have renamed := outcome.closed_iff.mp rfl
  have tmp := outcome.change.flushed_iff.mp rfl
  have closed : lostCopy (commandRun maxCpyBuffer (.insert cleo)).1 = false := by decide +kernel
  have harmless : Harmless nothingKept somePaths.writePath twoUsers (.insert cleo)
      (commandRun maxCpyBuffer (.insert cleo)).1 :=
    ⟨fun _ _ lost => by simp [closed] at lost, fun _ notTmp => absurd tmp notTmp,
      fun _ _ _ => .inl renamed⟩
  have present : diskOfTwo.files somePaths.writePath = some twoUsers := rfl
  exact ⟨harmless,
    (undamaged_iff_harmless someConfig_parsed present rewrites executes allowed).mpr harmless⟩

/-- No byte fits into the work file: the insertion fails and the database is left empty. -/
theorem failed_insertion_empties_database :
    (∃ session, (command 6 (.insert cleo)).Executes (newSession 7)
      (commandRun 0 (.insert cleo)).1 (some ⟨false, true⟩) session) ∧
      (diskModel someConfig nothingKept).Allows diskOfTwo (commandRun 0 (.insert cleo)).1 ∧
      diskOfTwo.files somePaths.writePath = some twoUsers ∧
      leftBy 0 (.insert cleo) = some [] ∧
      ¬Undamaged twoUsers (.insert cleo) false (leftBy 0 (.insert cleo)) := by
  have emptied : leftBy 0 (.insert cleo) = some [] := by decide +kernel
  have nonempty : twoUsers ≠ [] := by decide +kernel
  refine ⟨commandRun_executes (by decide +kernel), commandRun_allowed 0 _, rfl, emptied, ?_⟩
  intro undamaged
  have same := undamaged.unchanged rfl
  rw [emptied, Option.some.injEq] at same
  exact nonempty same.symm

end Apos.UserDb
