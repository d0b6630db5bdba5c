import Apos.UserDbTable

/-!
# Sequences of calls on an open user database

On one open handler `InsertItemInDb`, `RemoveItemInDb` and `ClearDatabase` are meant to act
on the table of lines: Insert replaces the records of its uid, Remove deletes them and tells
whether there were any, Clear deletes all lines.  The handler follows the table as long as
the temporary file is no longer than what is written over it.  Remove of an absent uid copies
the whole work file to the temporary file and leaves it there.  The next call that rewrites
the work file writes from the beginning of the temporary file and copies all of it back, so
that what it did not overwrite ends up in the work file.
-/

namespace Apos.UserDb

open Stateful

inductive Call where
  | insert (pwd : TsPassword)
  | remove (uiUid : UInt32)
  | clear
  deriving DecidableEq, Repr

def Call.act (rounds : Nat) : Call → Act Bool
  | .insert pwd => insertItemInDb rounds pwd
  | .remove uiUid => removeItemInDb rounds uiUid
  | .clear => clearDatabase

def Table.after (table : Table) : Call → Table
  | .insert pwd => table.insert pwd
  | .remove uiUid => if table.has uiUid then table.without uiUid else table
  | .clear => []

def Table.result (table : Table) : Call → Bool
  | .insert _ => true
  | .remove uiUid => table.has uiUid
  | .clear => true

/-- Every call of the sequence returns what the table says and leaves the content of the
table in the work file. -/
def Refines (rounds : Nat) : List Call → Table → TDbHandler → Files → Prop
  | [], _, _, _ => True
  | call :: calls, table, handler, files =>
    ∃ handler' files',
      Gives (call.act rounds) handler files (table.result call) handler' files' ∧
      files'.work.content = (table.after call).content ∧
      Refines rounds calls (table.after call) handler' files'

/-- Every call that rewrites the work file writes at least as much as there is in the
temporary file.  A Remove of an absent uid leaves the content of the table there, over
what was there before, and a rewriting call leaves nothing. -/
def Covered : List Call → Table → Nat → Prop
  | [], _, _ => True
  | .insert pwd :: calls, table, leftover =>
    leftover ≤ (table.insert pwd).content.length ∧ Covered calls (table.insert pwd) 0
  | .remove uiUid :: calls, table, leftover =>
    if table.has uiUid then
      leftover ≤ (table.without uiUid).content.length ∧ Covered calls (table.without uiUid) 0
    else Covered calls table (max leftover table.content.length)
  | .clear :: calls, _, leftover => Covered calls [] leftover

instance decidableCovered : ∀ calls table leftover, Decidable (Covered calls table leftover)
  | [], _, _ => .isTrue trivial
  | call :: calls, _, _ => by
    have := decidableCovered calls
    cases call <;> unfold Covered <;> infer_instance

structure TDbHandler.Opened (handler : TDbHandler) : Prop where
  workFile : handler.workFile = true
  tmpFile : handler.tmpFile = true

/-! ## Single calls -/

section Calls

variable {handler : TDbHandler} {files : Files} {table : Table} {rounds : Nat} {uid : UInt32}

theorem setInternalError_gives {code : ErrNssDb} {message : String} :
    Gives (setInternalError code message) handler files PUnit.unit
      { handler with retCode := code, retMsg := message } files :=
  returns_modify

theorem TDbHandler.Opened.report {code : ErrNssDb} {message : String} (opened : handler.Opened) :
    TDbHandler.Opened { handler with retCode := code, retMsg := message } :=
  ⟨opened.workFile, opened.tmpFile⟩

theorem onOpen_gives {act otherwise : Act Bool} {value : Bool} {handler' : TDbHandler}
    {files' : Files} (opened : handler.Opened)
    (gives : Gives act { handler with retCode := .errDbUnknow, retMsg := "Unknow error" } files
      value handler' files') :
    Gives (do
      setInternalError .errDbUnknow "Unknow error"
      let handler ← get
      if handler.workFile then act else otherwise) handler files value handler' files' := by
  apply returns_bind setInternalError_gives
  apply returns_bind returns_get
  exact Returns.of_if opened.workFile gives

def rewritten (old text : Text) : Files where
  work := ⟨(TextFile.overlay old text).content, (TextFile.overlay old text).content.length⟩
  tmp := ⟨[], 0⟩

theorem copyWithoutItem_gives (valid : table.Valid) (opened : handler.Opened)
    (holds : files.work.content = table.content) (enough : table.length < rounds) :
    Gives (copyWithoutItem rounds uid) handler files
      (if table.has uid then .successFound else .successNotFound,
        lastEnded '\n' ((table.without uid).map Entry.text))
      handler (scanning uid files.tmp.content table []) := by
  obtain ⟨⟨content, position⟩, tmp⟩ := files
  obtain rfl : content = table.content := holds
  have seek : Gives seekBoth handler ⟨⟨table.content, position⟩, tmp⟩ true handler
      (scanning uid tmp.content [] table) := by
    apply returns_bind (returns_ask rfl)
    exact Returns.of_if rfl (returns_ask rfl)
  apply returns_bind returns_get
  apply Returns.of_if (by simp [opened.workFile, opened.tmpFile])
  apply returns_bind seek
  apply Returns.of_if rfl
  apply returns_bind (scanLines_gives [] valid enough)
  apply Returns.of_else Bool.false_ne_true
  rw [List.nil_append]
  cases found : table.has uid with
  | true => exact Returns.of_if found returns_pure
  | false => exact Returns.of_else (by simp [scanOf, found]) returns_pure

theorem writeTuple_gives {old before text : Text} {work : TextFile Char}
    (enough : (TextFile.overlay old (before ++ text)).content.length < rounds) :
    Gives (writeTuple rounds text) handler ⟨work, TextFile.overlay old before⟩ true
      { handler with retCode := .errDbOk, retMsg := "Success" }
      (rewritten old (before ++ text)) := by
  have write : Files.answer (.fwrite .tmp text) ⟨work, TextFile.overlay old before⟩ =
      (text.length, ⟨work, TextFile.overlay old (before ++ text)⟩) := by
    simp [Files.answer, Files.get, Files.set]
  apply returns_bind (returns_ask write)
  apply Returns.of_if rfl
  apply returns_bind setInternalError_gives
  exact flushTmpFile_gives enough

theorem content_insert (valid : table.Valid) (pwd : TsPassword) :
    (table.insert pwd).content = (table.without pwd.uId).content ++
      ((if lastEnded '\n' ((table.without pwd.uId).map Entry.text) then [] else ['\n']) ++
        tuple pwd) := by
  have closed := (valid.without pwd.uId).lined.flatten_close
  rw [List.map_map] at closed
  rw [Table.insert, Table.content_append, ← List.append_assoc, Table.content_cons,
    Table.content_nil, List.append_nil]
  congr 1
  rw [Table.content, List.map_map]
  exact closed

theorem insertItemInDb_gives {pwd : TsPassword} (valid : table.Valid) (opened : handler.Opened)
    (holds : files.work.content = table.content) (enough : table.length < rounds)
    (room :
      (TextFile.overlay files.tmp.content (table.insert pwd).content).content.length < rounds) :
    Gives (insertItemInDb rounds pwd) handler files true
      { handler with retCode := .errDbOk, retMsg := "Success" }
      (rewritten files.tmp.content (table.insert pwd).content) := by
  apply onOpen_gives opened
  apply returns_bind (copyWithoutItem_gives valid opened.report holds enough)
  rw [content_insert valid pwd] at room ⊢
  cases table.has pwd.uId <;> exact writeTuple_gives room

theorem removeItemInDb_gives (valid : table.Valid) (opened : handler.Opened)
    (holds : files.work.content = table.content) (present : table.has uid = true)
    (enough : table.length < rounds)
    (room :
      (TextFile.overlay files.tmp.content (table.without uid).content).content.length < rounds) :
    Gives (removeItemInDb rounds uid) handler files true
      { handler with retCode := .errDbOk, retMsg := "Success" }
      (rewritten files.tmp.content (table.without uid).content) := by
  apply onOpen_gives opened
  apply returns_bind (copyWithoutItem_gives valid opened.report holds enough)
  rw [present]
  apply returns_bind (flushTmpFile_gives room)
  apply Returns.of_if rfl
  exact returns_bind setInternalError_gives returns_pure

theorem removeItemInDb_absent_gives (valid : table.Valid) (opened : handler.Opened)
    (holds : files.work.content = table.content) (absent : table.has uid = false)
    (enough : table.length < rounds) :
    Gives (removeItemInDb rounds uid) handler files false
      { handler with retCode := .errDbUidNotFound, retMsg := "UID not found" }
      (scanning uid files.tmp.content table []) := by
  apply onOpen_gives opened
  apply returns_bind (copyWithoutItem_gives valid opened.report holds enough)
  rw [absent]
  exact returns_bind setInternalError_gives returns_pure

theorem clearDatabase_gives (opened : handler.Opened) :
    Gives clearDatabase handler files true
      { handler with retCode := .errDbOk, retMsg := "Success" }
      { files with work := ⟨[], 0⟩ } := by
  apply onOpen_gives opened
  apply returns_bind (truncate_gives .work)
  apply Returns.of_if rfl
  exact returns_bind setInternalError_gives returns_pure

end Calls

/-! ## Sequences of calls -/

section Sequences

variable {handler handler' : TDbHandler} {files files' : Files} {table : Table}

variable {call : Call} {calls : List Call}

theorem refines_cons_iff {rounds : Nat}
    (gives : Gives (call.act rounds) handler files (table.result call) handler' files') :
    Refines rounds (call :: calls) table handler files ↔
      files'.work.content = (table.after call).content ∧
        Refines rounds calls (table.after call) handler' files' := by
  constructor
  · rintro ⟨otherHandler, otherFiles, other, holds, refines⟩
    obtain ⟨-, rfl, rfl⟩ := gives.unique other
    exact ⟨holds, refines⟩
  · rintro ⟨holds, refines⟩
    exact ⟨handler', files', gives, holds, refines⟩

theorem refines_rewriting {next : Table} {old : Text} (after : table.after call = next)
    (result : table.result call = true) (gives : ∀ rounds, table.length < rounds →
      (TextFile.overlay old next.content).content.length < rounds →
      Gives (call.act rounds) handler files true handler' (rewritten old next.content))
    (later : (rewritten old next.content).work.content = next.content →
      ∃ bound, ∀ rounds, bound ≤ rounds →
        (Refines rounds calls next handler' (rewritten old next.content) ↔
          Covered calls next 0)) :
    ∃ bound, ∀ rounds, bound ≤ rounds →
      (Refines rounds (call :: calls) table handler files ↔
        old.length ≤ next.content.length ∧ Covered calls next 0) := by
  subst after
  rw [← result] at gives
  have covers := TextFile.overlay_content_eq_iff old (table.after call).content
  generalize limit :
    (TextFile.overlay old (table.after call).content).content.length = size at gives
  by_cases covered : old.length ≤ (table.after call).content.length
  · obtain ⟨bound, laterIff⟩ := later (covers.mpr covered)
    refine ⟨bound + table.length + size + 1, fun rounds enough => ?_⟩
    rw [refines_cons_iff (gives rounds (by omega) (by omega)), laterIff rounds (by omega)]
    exact and_congr_left' covers
  · refine ⟨table.length + size + 1, fun rounds enough => ?_⟩
    rw [refines_cons_iff (gives rounds (by omega) (by omega))]
    exact ⟨fun refines => absurd (covers.mp refines.1) covered,
      fun both => absurd both.1 covered⟩

theorem refines_keeping {next : Table} {leftover : Nat} (after : table.after call = next)
    (same : files'.work.content = next.content) (gives : ∀ rounds, table.length < rounds →
      Gives (call.act rounds) handler files (table.result call) handler' files')
    (later : ∃ bound, ∀ rounds, bound ≤ rounds →
      (Refines rounds calls next handler' files' ↔ Covered calls next leftover)) :
    ∃ bound, ∀ rounds, bound ≤ rounds →
      (Refines rounds (call :: calls) table handler files ↔ Covered calls next leftover) := by
  subst after
  obtain ⟨bound, laterIff⟩ := later
  refine ⟨bound + table.length + 1, fun rounds enough => ?_⟩
  rw [refines_cons_iff (gives rounds (by omega)), laterIff rounds (by omega)]
  exact and_iff_right same

theorem refines_iff_covered (valid : table.Valid) (opened : handler.Opened)
    (holds : files.work.content = table.content)
    (clean : ∀ pwd, Call.insert pwd ∈ calls → ∀ field ∈ pwd.textFields, CleanField field)
    (fits : ∀ pwd, Call.insert pwd ∈ calls → FitsBuffer (tuple pwd)) :
    ∃ bound, ∀ rounds, bound ≤ rounds →
      (Refines rounds calls table handler files ↔
        Covered calls table files.tmp.content.length) := by
  induction calls generalizing table handler files with
  | nil => exact ⟨0, fun _ _ => Iff.rfl⟩
  | cons call calls ih =>
    have cleanLater := fun pwd member => clean pwd (List.mem_cons_of_mem call member)
    have fitsLater := fun pwd member => fits pwd (List.mem_cons_of_mem call member)
    cases call with
    | insert pwd =>
      have nextValid : (table.insert pwd).Valid :=
        valid.insert (clean pwd List.mem_cons_self) (fits pwd List.mem_cons_self)
      apply refines_rewriting rfl rfl
      · intro rounds enough room
        exact insertItemInDb_gives valid opened holds enough room
      · intro same
        exact ih nextValid opened.report same cleanLater fitsLater
    | remove uiUid =>
      cases found : table.has uiUid with
      | true =>
        have after : table.after (.remove uiUid) = table.without uiUid := if_pos found
        rw [Covered, if_pos found]
        apply refines_rewriting after found
        · intro rounds enough room
          exact removeItemInDb_gives valid opened holds found enough room
        · intro same
          exact ih (valid.without uiUid) opened.report same cleanLater fitsLater
      | false =>
        have missing : ¬table.has uiUid = true := by simp [found]
        have after : table.after (.remove uiUid) = table := if_neg missing
        have result : table.result (.remove uiUid) = false := found
        have same : (scanning uiUid files.tmp.content table []).work.content =
            table.content := List.append_nil _
        have leftover : (scanning uiUid files.tmp.content table []).tmp.content.length =
            max files.tmp.content.length table.content.length := by
          rw [scanning, Table.without_of_not_has found, TextFile.length_overlay]
        rw [Covered, if_neg missing, ← leftover]
        apply refines_keeping after same
        · intro rounds enough
          rw [result]
          exact removeItemInDb_absent_gives valid opened holds found enough
        · exact ih valid opened.report same cleanLater fitsLater
    | clear =>
      have cleared : ({ files with work := ⟨[], 0⟩ } : Files).work.content =
          Table.content [] := rfl
      apply refines_keeping rfl cleared
      · intro rounds _
        exact clearDatabase_gives opened
      · exact ih Table.valid_nil opened.report rfl cleanLater fitsLater

/-- On an open handler whose temporary file is empty, a sequence of calls follows the table
of the work file exactly as long as every rewriting call covers the temporary file. -/
theorem calls_follow_table_iff (work : TextFile Char) (tmpPosition : Nat) {calls : List Call}
    (opened : handler.Opened) (parses : ∀ line ∈ rawLines '\n' work.content, Parses line)
    (fits : ∀ line ∈ rawLines '\n' work.content, FitsBuffer line)
    (clean : ∀ pwd, Call.insert pwd ∈ calls → ∀ field ∈ pwd.textFields, CleanField field)
    (recordsFit : ∀ pwd, Call.insert pwd ∈ calls → FitsBuffer (tuple pwd)) :
    ∃ bound, ∀ rounds, bound ≤ rounds →
      (Refines rounds calls (Table.ofContent work.content) handler ⟨work, ⟨[], tmpPosition⟩⟩ ↔
        Covered calls (Table.ofContent work.content) 0) :=
  refines_iff_covered (Table.valid_ofContent parses fits) opened
    (Table.content_ofContent work.content).symm clean recordsFit

end Sequences

def twoUsers : Text :=
  "ann:x:1:1:::\nbob:x:2:1:::\n".toList

def openHandler : TDbHandler :=
  ⟨true, true, .errDbOk, "Success"⟩

def cleo : TsPassword :=
  ⟨3, 1, "cleo".toList, "x".toList, [], [], []⟩

def ordinaryCalls : List Call :=
  [.insert cleo, .remove 9, .insert { cleo with uId := 4 }, .remove 1, .clear]

/-- The absent uid is removed before a call that writes more than was there. -/
theorem calls_follow_table_ordinary :
    Covered ordinaryCalls (Table.ofContent twoUsers) 0 ∧
      ∃ bound, ∀ rounds, bound ≤ rounds →
        Refines rounds ordinaryCalls (Table.ofContent twoUsers) openHandler
          ⟨⟨twoUsers, 0⟩, ⟨[], 0⟩⟩ := by
  have covered : Covered ordinaryCalls (Table.ofContent twoUsers) 0 := by decide +kernel
  have inserted : ∀ pwd, Call.insert pwd ∈ ordinaryCalls →
      (∀ field ∈ pwd.textFields, CleanField field) ∧ FitsBuffer (tuple pwd) := by
    intro pwd member
    obtain rfl | rfl : pwd = cleo ∨ pwd = { cleo with uId := 4 } := by
      simpa [ordinaryCalls] using member
    all_goals decide +kernel
  have opened : openHandler.Opened := ⟨rfl, rfl⟩
  obtain ⟨bound, follows⟩ := calls_follow_table_iff ⟨twoUsers, 0⟩ 0 opened (by decide +kernel)
    (by decide +kernel) (fun pwd member => (inserted pwd member).1)
    (fun pwd member => (inserted pwd member).2)
  exact ⟨covered, bound, fun rounds enough => (follows rounds enough).mpr covered⟩

/-- Removing an absent user and then a present one keeps a line that should be gone: the
last line of the work file is there twice. -/
theorem stale_line_copied_back :
    openHandler.Opened ∧ (∀ line ∈ rawLines '\n' twoUsers, Parses line ∧ FitsBuffer line) ∧
      ∃ handler files,
        Gives (do
          let first ← removeItemInDb 5 3
          let second ← removeItemInDb 5 1
          pure (first, second)) openHandler ⟨⟨twoUsers, 0⟩, ⟨[], 0⟩⟩ (false, true) handler files ∧
        files.work.content =
          "bob:x:2:1:::\nbob:x:2:1:::\n".toList ∧
        (((Table.ofContent twoUsers).after (.remove 3)).after (.remove 1)).content =
          "bob:x:2:1:::\n".toList := by
  refine ⟨⟨rfl, rfl⟩, by decide +kernel, ?_⟩
  refine ⟨⟨true, true, .errDbOk, "Success"⟩, ⟨⟨_, 26⟩, ⟨[], 0⟩⟩, ?_, rfl, by decide +kernel⟩
  unfold Gives Returns
  decide +kernel

end Apos.UserDb
