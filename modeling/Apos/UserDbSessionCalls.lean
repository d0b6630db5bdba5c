import Apos.UserDbSession

/-!
# The calls of a session

Which calls a function of the handler can make does not depend on what the calls return.
Between taking and giving back the lock, opening the database only reads the configuration
and opens, closes and copies files, the change only uses the two streams of the handler, and
closing only closes, renames and removes files.
-/

namespace Apos.UserDb

open Stateful

/-- A call of `OpenDbInstance` other than those on the lock. -/
def SessionOp.InOpening : SessionOp → Prop
  | .readConfig => True
  | .stat _ => True
  | .fopen _ _ _ _ => True
  | .fclose _ _ => True
  | .library pair _ => pair = .copying
  | _ => False

/-- A call of `CloseDbInstance` other than those on the lock. -/
def SessionOp.InClosing : SessionOp → Prop
  | .readConfig => True
  | .fclose .handler _ => True
  | .rename _ _ => True
  | .remove _ => True
  | _ => False

def SessionOp.OfOpen (op : SessionOp) : Prop :=
  op.InOpening ∨ op = .openLock ∨ op = .setLock

def SessionOp.OfClose (op : SessionOp) : Prop :=
  op.InClosing ∨ op = .clearLock ∨ op = .closeLock

section Only

variable {asked : SessionOp → Prop}

theorem only_setError {α : Type} (code : ErrNssDb) (message : String) (value : α) :
    Only asked (do setError code message; pure value : SessionAct α) :=
  .bind (.of_modify _) fun _ => .of_pure _

theorem getConfigValue_only (reads : asked .readConfig) : Only asked getConfigValue := by
  apply Only.bind Only.of_get
  intro session
  split
  · exact Only.of_pure _
  · apply Only.bind (Only.of_ask reads)
    intro text
    split
    · exact Only.bind (Only.of_modify _) fun _ => Only.of_pure _
    · exact Only.of_pure _

theorem derivedPath_only (reads : asked .readConfig) (path : Nat → Text → Text) :
    Only asked (derivedPath path) := by
  apply Only.bind (getConfigValue_only reads)
  intro strDbPath
  cases strDbPath with
  | some strDbPath => exact Only.bind Only.of_get fun _ => Only.of_pure _
  | none => exact only_setError _ _ _

end Only

theorem copyFile_only (rounds : Nat) (strFrom strTo : Text) :
    Only SessionOp.InOpening (copyFile rounds strFrom strTo) := by
  have copies : Only SessionOp.InOpening (copyInto rounds strTo) := by
    apply Only.bind (Only.of_ask trivial)
    intro created
    apply Only.of_ite
    · apply Only.bind (Only.within fun _ => rfl)
      intro transferred
      exact Only.bind (Only.of_ask trivial) fun _ => Only.of_pure _
    · exact only_setError _ _ _
  apply Only.bind (Only.of_ask trivial)
  intro opened
  apply Only.of_ite
  · apply Only.bind copies
    intro copied
    exact Only.bind (Only.of_ask trivial) fun _ => Only.of_pure _
  · exact only_setError _ _ _

theorem prepareWorkFile_only (rounds : Nat) (strDbFilePath : Text) :
    Only SessionOp.InOpening (prepareWorkFile rounds strDbFilePath) := by
  apply Only.bind (derivedPath_only trivial _)
  intro strDbWorkPath
  cases strDbWorkPath with
  | none => exact only_setError _ _ _
  | some strDbWorkPath =>
    apply Only.bind (Only.of_ask trivial)
    intro found
    apply Only.of_ite
    · apply Only.bind (copyFile_only rounds strDbFilePath strDbWorkPath)
      intro copied
      apply Only.of_ite _ (Only.of_pure _)
      apply Only.bind (Only.of_ask trivial)
      intro opened
      apply Only.of_ite _ (only_setError _ _ _)
      exact Only.bind (Only.of_modify _) fun _ => Only.of_pure _
    · apply Only.bind (Only.of_ask trivial)
      intro created
      apply Only.of_ite _ (only_setError _ _ _)
      exact Only.bind (Only.of_modify _) fun _ => only_setError _ _ _

theorem openWorkFile_only (rounds : Nat) :
    Only SessionOp.InOpening (openWorkFile rounds) := by
  apply Only.bind Only.of_get
  intro session
  apply Only.of_ite (only_setError _ _ _)
  apply Only.bind (getConfigValue_only trivial)
  intro strDbFilePath
  cases strDbFilePath with
  | some strDbFilePath => exact prepareWorkFile_only rounds strDbFilePath
  | none => exact only_setError _ _ _

theorem addTmpFile_only : Only SessionOp.InOpening addTmpFile := by
  have creates : Only SessionOp.InOpening createTmpFile := by
    apply Only.bind Only.of_get
    intro session
    apply Only.of_ite (Only.of_pure _)
    apply Only.bind (derivedPath_only trivial _)
    intro strTmpFilePath
    cases strTmpFilePath with
    | none => exact Only.of_pure _
    | some strTmpFilePath =>
      apply Only.bind (Only.of_ask trivial)
      intro created
      apply Only.of_ite _ (only_setError _ _ _)
      exact Only.bind (Only.of_modify _) fun _ => Only.of_pure _
  apply Only.bind creates
  intro created
  apply Only.of_ite (Only.of_pure _)
  apply Only.bind (Only.of_ask trivial)
  intro closed
  exact Only.bind (Only.of_modify _) fun _ => Only.of_pure _

theorem closeTmpFile_only : Only SessionOp.InClosing closeTmpFile := by
  apply Only.bind Only.of_get
  intro session
  apply Only.of_ite _ (Only.of_pure _)
  apply Only.bind (Only.of_ask trivial)
  intro closed
  apply Only.bind (Only.of_modify _)
  intro _
  apply Only.bind (derivedPath_only trivial _)
  intro strTmpFile
  cases strTmpFile with
  | none => exact Only.of_pure _
  | some strTmpFile =>
    exact Only.bind (Only.of_ask trivial) fun _ => Only.of_pure _

theorem closeWorkFile_only : Only SessionOp.InClosing closeWorkFile := by
  have renames : Only SessionOp.InClosing renameWorkFile := by
    apply Only.bind (derivedPath_only trivial _)
    intro strWorkDb
    cases strWorkDb with
    | none => exact Only.of_pure _
    | some strWorkDb =>
      apply Only.bind (getConfigValue_only trivial)
      intro strDb
      cases strDb with
      | none => exact only_setError _ _ _
      | some strDb =>
        apply Only.bind (Only.of_ask trivial)
        intro renamed
        exact Only.of_ite (only_setError _ _ _) (only_setError _ _ _)
  apply Only.bind Only.of_get
  intro session
  apply Only.of_ite _ (Only.of_pure _)
  apply Only.bind (Only.of_ask trivial)
  intro closed
  apply Only.of_ite _ (only_setError _ _ _)
  exact Only.bind (Only.of_modify _) fun _ => renames

theorem openDbInstance_only (rounds : Nat) :
    Only SessionOp.OfOpen (openDbInstance rounds) := by
  apply Only.bind (Only.of_modify _)
  intro _
  apply Only.bind
  · apply Only.bind Only.of_get
    intro session
    apply Only.of_ite (Only.of_pure _)
    apply Only.bind (Only.of_ask (.inr (.inl rfl)))
    intro opened
    apply Only.of_ite _ (only_setError _ _ _)
    apply Only.bind (Only.of_modify _)
    intro _
    apply Only.bind (Only.of_ask (.inr (.inr rfl)))
    intro reply
    cases reply with
    | granted | refused | failed => exact Only.of_pure _
  · intro free
    apply Only.of_ite _ (only_setError _ _ _)
    apply Only.bind ((openWorkFile_only rounds).mono fun _ => .inl)
    intro opened
    exact Only.of_ite (addTmpFile_only.mono fun _ => .inl) (Only.of_pure _)

theorem closeDbInstance_only : Only SessionOp.OfClose closeDbInstance := by
  apply Only.bind (closeTmpFile_only.mono fun _ => .inl)
  intro _
  apply Only.bind (closeWorkFile_only.mono fun _ => .inl)
  intro closed
  apply Only.bind
  · apply Only.bind Only.of_get
    intro session
    apply Only.of_ite _ (Only.of_pure _)
    apply Only.bind (Only.of_ask (.inr (.inl rfl)))
    intro cleared
    apply Only.bind (Only.of_ask (.inr (.inr rfl)))
    intro _
    exact Only.bind (Only.of_modify _) fun _ => Only.of_pure _
  · intro _
    exact Only.of_pure _

end Apos.UserDb
