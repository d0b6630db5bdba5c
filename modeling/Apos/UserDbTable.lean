import Apos.UserDbRecords

/-!
# The user database as a table of lines

The work file of an open handler is a table: its lines in order, each kept under the uid
of its record.  Blank lines are kept under no uid.  This file says what the operations are
for in terms of that table and what the copying loops of the handler make of the two files
when every file operation succeeds.
-/

namespace Apos.UserDb

open Stateful

/-! ## Tables -/

/-- A line of the database with the uid it is kept under. -/
structure Entry where
  text : Text
  uid : Option UInt32
  deriving DecidableEq, Repr

abbrev Table : Type := List Entry

def ParsedLine.uid : ParsedLine → Option UInt32
  | .success pwd => some pwd.uId
  | _ => none

/-- The line is blank or holds a record: the parser reports no error. -/
def Parses (line : Text) : Prop :=
  parseLine line ≠ .missingSeparator ∧ parseLine line ≠ .separatorInLast

instance : DecidablePred Parses :=
  fun _ => inferInstanceAs (Decidable (_ ∧ _))

theorem parses_iff {line : Text} :
    Parses line ↔ parseLine line = .empty ∨ ∃ pwd, parseLine line = .success pwd := by
  unfold Parses
  cases parseLine line <;> simp

def Entry.close (entry : Entry) : Entry :=
  { entry with text := Apos.close '\n' entry.text }

namespace Table

def ofContent (content : Text) : Table :=
  (rawLines '\n' content).map fun line => ⟨line, (parseLine line).uid⟩

def content (table : Table) : Text :=
  (table.map Entry.text).flatten

def has (table : Table) (uid : UInt32) : Bool :=
  table.any fun entry => decide (entry.uid = some uid)

def without (table : Table) (uid : UInt32) : Table :=
  table.filter fun entry => decide (entry.uid ≠ some uid)

def insert (table : Table) (pwd : TsPassword) : Table :=
  (table.without pwd.uId).map Entry.close ++ [⟨tuple pwd, some pwd.uId⟩]

end Table

/-- An entry that the handler reads whole and keeps under the same uid. -/
structure Entry.Valid (entry : Entry) : Prop where
  parses : Parses entry.text
  uid : (parseLine entry.text).uid = entry.uid
  fits : FitsBuffer entry.text

theorem Entry.Valid.close {entry : Entry} (valid : entry.Valid) : entry.close.Valid := by
  have same : parseLine entry.close.text = parseLine entry.text := parseLine_close valid.fits.noNull
  constructor
  · rw [Parses, same]
    exact valid.parses
  · rw [same]
    exact valid.uid
  · exact valid.fits.close

structure Table.Valid (table : Table) : Prop where
  lined : Lined '\n' (table.map Entry.text)
  entries : ∀ entry ∈ table, entry.Valid

namespace Table

@[simp]
theorem content_nil : content [] = [] :=
  rfl

@[simp]
theorem content_append (first second : Table) :
    content (first ++ second) = content first ++ content second := by
  simp [content]

@[simp]
theorem content_cons (entry : Entry) (table : Table) :
    content (entry :: table) = entry.text ++ content table := by
  simp [content]

variable (seen : Table)

theorem without_concat_of_ne {entry : Entry} {uid : UInt32} (other : entry.uid ≠ some uid) :
    without (seen ++ [entry]) uid = without seen uid ++ [entry] := by
  simp [without, other]

theorem without_concat_of_eq {entry : Entry} {uid : UInt32} (same : entry.uid = some uid) :
    without (seen ++ [entry]) uid = without seen uid := by
  simp [without, same]

theorem has_concat (entry : Entry) (uid : UInt32) :
    has (seen ++ [entry]) uid = (has seen uid || decide (entry.uid = some uid)) := by
  simp [has]

theorem without_of_not_has {table : Table} {uid : UInt32} (absent : table.has uid = false) :
    table.without uid = table := by
  rw [without, List.filter_eq_self]
  intro entry member
  have different := List.any_eq_false.mp absent entry member
  simpa using different

theorem content_ofContent (content : Text) : (ofContent content).content = content := by
  rw [ofContent, Table.content, List.map_map]
  exact (congrArg List.flatten (List.map_id _)).trans (flatten_rawLines content)

theorem valid_ofContent {content : Text} (parses : ∀ line ∈ rawLines '\n' content, Parses line)
    (fits : ∀ line ∈ rawLines '\n' content, FitsBuffer line) : (ofContent content).Valid where
  lined := by
    rw [ofContent, List.map_map]
    exact (List.map_id (rawLines '\n' content)).symm ▸ lined_rawLines content
  entries := by
    intro entry member
    obtain ⟨line, listed, rfl⟩ := List.mem_map.mp member
    exact ⟨parses line listed, rfl, fits line listed⟩

theorem valid_nil : Table.Valid [] :=
  ⟨trivial, fun _ member => absurd member List.not_mem_nil⟩

namespace Valid

variable {table : Table} (valid : table.Valid)

include valid

omit valid in
theorem tail {entry : Entry} (valid : Table.Valid (entry :: table)) : table.Valid where
  lined := valid.lined.2.2
  entries := fun other member => valid.entries other (List.mem_cons_of_mem _ member)

theorem without (uid : UInt32) : (table.without uid).Valid where
  lined := valid.lined.sublist (List.filter_sublist.map Entry.text)
  entries := fun entry member => valid.entries entry (List.mem_of_mem_filter member)

theorem insert {pwd : TsPassword} (clean : ∀ field ∈ pwd.textFields, CleanField field)
    (fits : FitsBuffer (tuple pwd)) : (table.insert pwd).Valid where
  lined := by
    have closed := (valid.without pwd.uId).lined.close
    rw [Table.insert, List.map_append, List.map_map]
    rw [List.map_map] at closed
    apply closed.concat
    · intro line member
      obtain ⟨entry, listed, rfl⟩ := List.mem_map.mp member
      exact ended_close entry.text
    · exact tuple_eq_body pwd ▸ isLine_snoc (newLine_not_mem_body clean)
  entries := by
    intro entry member
    rw [Table.insert, List.mem_append, List.mem_singleton] at member
    rcases member with old | rfl
    · obtain ⟨original, listed, rfl⟩ := List.mem_map.mp old
      exact ((valid.without pwd.uId).entries original listed).close
    · have parsed := parseLine_tuple clean fits.noNull
      exact ⟨parses_iff.mpr (.inr ⟨pwd, parsed⟩), congrArg ParsedLine.uid parsed, fits⟩

end Valid

end Table

/-! ## Scanning the work file -/

section Gives

variable {handler : TDbHandler} {files : Files} {uid : UInt32}

/-- The local variables of the loop after the lines of `seen`. -/
def scanOf (uid : UInt32) (seen : Table) : Scan where
  exit := false
  found := seen.has uid
  nlLatest := lastEnded '\n' ((seen.without uid).map Entry.text)

variable (seen : Table) {entry : Entry}

theorem scanOf_concat_of_ne (other : entry.uid ≠ some uid) :
    scanOf uid (seen ++ [entry]) =
      { scanOf uid seen with nlLatest := decide (Ended '\n' entry.text), exit := false } := by
  simp [scanOf, Table.has_concat, Table.without_concat_of_ne seen other, other]

theorem scanOf_concat_of_eq (same : entry.uid = some uid) :
    scanOf uid (seen ++ [entry]) = { scanOf uid seen with found := true } := by
  simp [scanOf, Table.has_concat, Table.without_concat_of_eq seen same, same]

def scanning (uid : UInt32) (old : Text) (seen table : Table) : Files where
  work := ⟨seen.content ++ table.content, seen.content.length⟩
  tmp := TextFile.overlay old (seen.without uid).content

variable {old : Text}

theorem copyLine_gives (valid : entry.Valid) (isLine : IsLine '\n' entry.text) {scan : Scan}
    {before : Text} (tmp : files.tmp = TextFile.overlay old before) :
    Gives (copyLine scan entry.text) handler files
      { scan with nlLatest := decide (Ended '\n' entry.text), exit := false } handler
      { files with tmp := TextFile.overlay old (before ++ entry.text) } := by
  have string := CText.cString_eq_self valid.fits.noNull
  obtain ⟨last, isLast⟩ : ∃ last, entry.text.getLast? = some last :=
    ⟨_, List.getLast?_eq_some_getLast isLine.nonempty⟩
  have ended : decide (Ended '\n' entry.text) = decide (last = '\n') := by simp [Ended, isLast]
  rw [ended, copyLine, string, isLast]
  have write : Files.answer (.fwrite .tmp entry.text) files =
      (entry.text.length, { files with tmp := TextFile.overlay old (before ++ entry.text) }) := by
    simp [Files.answer, Files.set, Files.get, tmp]
  apply returns_bind (returns_ask write)
  simp only [ne_eq, not_true_eq_false, decide_false]
  exact returns_pure

theorem parsingLine_gives {line : Text} (parses : Parses line) :
    Gives (parsingLine line) handler files (parseLine line) handler files := by
  rw [parsingLine, if_neg parses.1]
  exact returns_pure

theorem scanLine_gives (valid : entry.Valid) (isLine : IsLine '\n' entry.text) {seen : Table}
    {work : TextFile Char} :
    Gives (scanLine uid (scanOf uid seen) entry.text) handler
      ⟨work, TextFile.overlay old (seen.without uid).content⟩ (scanOf uid (seen ++ [entry])) handler
      ⟨work, TextFile.overlay old ((seen ++ [entry]).without uid).content⟩ := by
  apply returns_bind (parsingLine_gives valid.parses)
  have kept (other : entry.uid ≠ some uid) :
      Gives (copyLine (scanOf uid seen) entry.text) handler
        ⟨work, TextFile.overlay old (seen.without uid).content⟩
        (scanOf uid (seen ++ [entry])) handler
        ⟨work, TextFile.overlay old ((seen ++ [entry]).without uid).content⟩ := by
    rw [scanOf_concat_of_ne seen other, Table.without_concat_of_ne seen other,
      Table.content_append, Table.content_cons, Table.content_nil, List.append_nil]
    exact copyLine_gives valid isLine rfl
  obtain empty | ⟨pwd, success⟩ := parses_iff.mp valid.parses
  · have blank : entry.uid = none := by rw [← valid.uid, empty]; rfl
    rw [empty]
    exact kept (by simp [blank])
  · have own : entry.uid = some pwd.uId := by rw [← valid.uid, success]; rfl
    rw [success]
    by_cases same : uid = pwd.uId
    · have removed : entry.uid = some uid := by rw [own, same]
      rw [scanOf_concat_of_eq seen removed, Table.without_concat_of_eq seen removed]
      exact Returns.of_else (not_not_intro same) returns_pure
    · apply Returns.of_if same
      exact kept fun equal => same (Option.some.inj (equal.symm.trans own))

theorem fgets_end :
    Files.answer (.fgets .work maxFileBuffer) (scanning uid old seen []) =
      (none, scanning uid old seen []) := by
  simp [Files.answer, Files.get, TextFile.rest, scanning, takeLine]

theorem fgets_line {table : Table} (valid : Table.Valid (entry :: table)) :
    Files.answer (.fgets .work maxFileBuffer) (scanning uid old seen (entry :: table)) =
      (some entry.text,
        { scanning uid old (seen ++ [entry]) table with
          tmp := TextFile.overlay old (seen.without uid).content }) := by
  have fits := (valid.entries entry List.mem_cons_self).fits
  have next : takeLine '\n' 2047 (entry.text ++ table.content) = entry.text := by
    apply takeLine_line valid.lined.1
    · intro more
      apply valid.lined.2.1
      rintro none
      exact more (by rw [Table.content, none]; rfl)
    · exact Nat.le_pred_of_lt fits.length_lt
  simp [Files.answer, Files.get, Files.set, TextFile.rest, TextFile.advance, scanning, next,
    valid.lined.1.nonempty]

variable {rounds : Nat}

theorem scanLines_gives {table : Table} (valid : table.Valid) (enough : table.length < rounds) :
    Gives (scanLines uid rounds (scanOf uid seen)) handler (scanning uid old seen table)
      (scanOf uid (seen ++ table)) handler (scanning uid old (seen ++ table) []) := by
  induction table generalizing seen rounds with
  | nil =>
    obtain ⟨rounds, rfl⟩ := Nat.exists_eq_add_of_le' enough
    rw [List.append_nil]
    apply returns_bind (returns_ask (fgets_end seen))
    exact returns_pure
  | cons entry table ih =>
    obtain ⟨rounds, rfl⟩ := Nat.exists_eq_add_of_le' (Nat.lt_of_le_of_lt (Nat.zero_le _) enough)
    have entryValid := valid.entries entry List.mem_cons_self
    apply returns_bind (returns_ask (fgets_line seen valid))
    apply Returns.of_else Bool.false_ne_true
    apply returns_bind (scanLine_gives entryValid valid.lined.1)
    rw [List.append_cons seen entry table]
    exact ih _ valid.tail (Nat.lt_of_succ_lt_succ enough)

/-! ## Copying the temporary file back -/

/-- Blocks copied from the temporary file, of which `block` is the one in the buffer. -/
def transferring (done block rest : Text) : Files where
  work := ⟨done, done.length⟩
  tmp := ⟨done ++ block ++ rest, done.length + block.length⟩

theorem readBlock_gives (done rest : Text) :
    Gives (readBlock .tmp) handler (transferring done [] rest) (rest.take maxCpyBuffer, false)
      handler (transferring done (rest.take maxCpyBuffer) (rest.drop maxCpyBuffer)) := by
  have read : Files.answer (.fread .tmp maxCpyBuffer) (transferring done [] rest) =
      (rest.take maxCpyBuffer,
        transferring done (rest.take maxCpyBuffer) (rest.drop maxCpyBuffer)) := by
    simp [Files.answer, Files.get, Files.set, TextFile.rest, TextFile.advance, transferring]
  apply returns_bind (returns_ask read)
  apply returns_bind (returns_ask rfl)
  exact Returns.of_else Bool.false_ne_true returns_pure

theorem copyBlocks_gives {done rest : Text} (enough : rest.length < rounds) :
    Gives (copyBlocks .tmp .work rounds (rest.take maxCpyBuffer, false)) handler
      (transferring done (rest.take maxCpyBuffer) (rest.drop maxCpyBuffer)) false handler
      (transferring (done ++ rest) [] []) := by
  induction rounds generalizing done rest with
  | zero => exact absurd enough (Nat.not_lt_zero _)
  | succ rounds ih =>
    by_cases empty : rest = []
    · rw [empty, List.append_nil]
      exact Returns.of_else (by simp) returns_pure
    · have left : 0 < rest.length := List.length_pos_iff.mpr empty
      have nonempty : 0 < (rest.take maxCpyBuffer).length := by
        rw [List.length_take]
        exact Nat.lt_min.mpr ⟨by decide, left⟩
      have shorter : (rest.drop maxCpyBuffer).length < rounds := by
        simp only [List.length_drop, maxCpyBuffer]
        omega
      have write : Files.answer (.fwrite .work (rest.take maxCpyBuffer))
          (transferring done (rest.take maxCpyBuffer) (rest.drop maxCpyBuffer)) =
          ((rest.take maxCpyBuffer).length,
            transferring (done ++ rest.take maxCpyBuffer) [] (rest.drop maxCpyBuffer)) := by
        simp [Files.answer, Files.get, Files.set, TextFile.write, transferring]
      apply Returns.of_if ⟨nonempty, rfl⟩
      apply returns_bind (returns_ask write)
      apply Returns.of_if rfl
      apply returns_bind (readBlock_gives _ _)
      rw [← List.take_append_drop maxCpyBuffer rest, ← List.append_assoc,
        List.take_append_drop]
      exact ih shorter

theorem truncate_gives (file : DbFile) :
    Gives (truncate file) handler files true handler (files.set file ⟨[], 0⟩) := by
  apply returns_bind (returns_ask rfl)
  apply Returns.of_if rfl
  apply returns_bind (returns_ask rfl)
  apply Returns.of_if rfl
  cases file
  all_goals
    apply returns_bind (returns_ask rfl)
    exact Returns.of_if rfl returns_pure

theorem flushTmpFile_gives (enough : files.tmp.content.length < rounds) :
    Gives (flushTmpFile rounds) handler files true handler
      ⟨⟨files.tmp.content, files.tmp.content.length⟩, ⟨[], 0⟩⟩ := by
  obtain ⟨work, ⟨content, position⟩⟩ := files
  apply returns_bind (returns_ask rfl)
  apply Returns.of_if rfl
  apply returns_bind (truncate_gives .work)
  apply Returns.of_if rfl
  have transfer : Gives (fileTransfer rounds .tmp .work) handler (transferring [] [] content) true
      handler (transferring content [] []) := by
    apply returns_bind (readBlock_gives [] content)
    exact returns_bind (copyBlocks_gives enough) returns_pure
  apply returns_bind transfer
  apply Returns.of_if rfl
  exact truncate_gives .tmp

end Gives

end Apos.UserDb
