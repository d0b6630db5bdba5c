import Apos.UserDbSession

/-!
# The lock of the user database

A handler is meant to hold the lock exactly while it has the database open.  It does so as
long as no call fails that opening the database depends on, except that another process may
have the lock.  Where the lock file cannot be opened, or locking fails for another reason
than a lock that is held, the handler goes on without the lock.  Where a call fails after
the lock has been taken, opening fails and the lock is kept.
-/

namespace Apos.UserDb

open Stateful

/-- Whether the process holds the lock after an exchange.  Closing the lock file gives the
lock back. -/
def lockAfter (held : Bool) : (op : SessionOp) → op.Reply → Bool
  | .setLock, reply => if reply = .granted then true else held
  | .clearLock, reply => if reply then false else held
  | .closeLock, _ => false
  | .exit, _ => false
  | _, _ => held

/-- The call did what the handler needs.  The lock may be held by another process. -/
def Succeeded : (op : SessionOp) → op.Reply → Prop
  | .openLock, reply => reply = true
  | .setLock, reply => reply ≠ .failed
  | .readConfig, reply => (reply.bind parsingConfigFile).isSome = true
  | .fopen _ _ _ _, reply => reply = true
  | .fclose .handler .work, reply => reply = true
  | .library _ (.fwrite _ text), reply => reply = text.length
  | .library _ (.ferror _), reply => reply = false
  | _, _ => True

def lockModel : WorldModel sessionOps Bool where
  admits _ := Succeeded
  after := lockAfter

/-! ## Copying without faults -/

def NoFault : (op : FileOp) → op.Reply → Prop
  | .fwrite _ text, reply => reply = text.length
  | .ferror _, reply => reply = false
  | _, _ => True

def faultless : WorldModel fileOps Unit where
  admits _ := NoFault
  after _ _ _ := ()

theorem simulates_faultless (pair : StreamPair) (held : Bool) :
    Simulates pair.calls lockModel faultless fun _ => held where
  admits := by
    intro world op reply admitted
    cases op with
    | fwrite | ferror => exact admitted
    | fseek | fgets | fread | fileno | ftruncate => trivial
  after := fun _ _ _ _ => rfl

theorem readBlock_ensures (file : DbFile) (handler : TDbHandler) :
    Ensures faultless (readBlock file) handler ()
      fun _ read after _ => read.2 = false ∧ after = handler := by
  apply ensures_bind_ask
  intro block _
  apply ensures_bind_ask
  rintro failed rfl
  exact ensures_pure ⟨rfl, rfl⟩

theorem copyBlocks_ensures (fileIn fileOut : DbFile) (handler : TDbHandler) (rounds : Nat)
    {read : Text × Bool} (noError : read.2 = false) :
    Ensures faultless (copyBlocks fileIn fileOut rounds read) handler ()
      fun _ bError after _ => bError = false ∧ after = handler := by
  obtain ⟨block, bError⟩ := read
  obtain rfl : bError = false := noError
  induction rounds generalizing block with
  | zero =>
    constructor
    intro exchanges value after executes
    cases executes
  | succ rounds ih =>
    apply ensures_ite
    · intro _
      apply ensures_bind_ask
      intro written whole
      apply ensures_ite
      · intro _
        apply (readBlock_ensures fileIn handler).bind
        rintro _ ⟨next, failed⟩ after _ ⟨noError, rfl⟩
        obtain rfl : failed = false := noError
        exact ih next
      · intro short
        exact absurd whole short
    · intro _
      exact ensures_pure ⟨rfl, rfl⟩

theorem fileTransfer_ensures (rounds : Nat) (fileIn fileOut : DbFile) (handler : TDbHandler) :
    Ensures faultless (fileTransfer rounds fileIn fileOut) handler ()
      fun _ transferred after _ => transferred = true ∧ after = handler := by
  apply (readBlock_ensures fileIn handler).bind
  rintro _ read after _ ⟨noError, rfl⟩
  apply (copyBlocks_ensures fileIn fileOut after rounds noError).bind
  rintro _ bError after' _ ⟨rfl, rfl⟩
  exact ensures_pure ⟨rfl, rfl⟩

/-! ## Opening and closing without faults -/

section Functions

variable {session : Session} {held : Bool}

structure Unmoved (session : Session) (held : Bool) (after : Session) (heldAfter : Bool) :
    Prop where
  held : heldAfter = held
  lckFile : after.lckFile = session.lckFile
  workFile : after.handler.workFile = session.handler.workFile

theorem Unmoved.refl : Unmoved session held session held :=
  ⟨rfl, rfl, rfl⟩

theorem Unmoved.trans {middle after : Session} {heldMiddle heldAfter : Bool}
    (first : Unmoved session held middle heldMiddle)
    (second : Unmoved middle heldMiddle after heldAfter) :
    Unmoved session held after heldAfter :=
  ⟨second.held.trans first.held, second.lckFile.trans first.lckFile,
    second.workFile.trans first.workFile⟩

/-- The call gives something, and the session has stayed where it was. -/
abbrev Provides {α : Type} (session : Session) (held : Bool)
    (_ : List (Exchange sessionOps)) (given : Option α) (after : Session) (heldAfter : Bool) :
    Prop :=
  (∃ value, given = some value) ∧ Unmoved session held after heldAfter

/-- The call tells that it was successful, and leaves this outcome. -/
abbrev Achieves (outcome : Session → Bool → Prop) (_ : List (Exchange sessionOps)) (done : Bool)
    (after : Session) (heldAfter : Bool) : Prop :=
  done = true ∧ outcome after heldAfter

theorem getConfigValue_ensures :
    Ensures lockModel getConfigValue session held (Provides session held) := by
  apply ensures_bind_get
  cases session.config with
  | some paths => exact ensures_pure ⟨⟨_, rfl⟩, .refl⟩
  | none =>
    apply ensures_bind_ask
    intro text parsed
    obtain ⟨paths, found⟩ := Option.isSome_iff_exists.mp parsed
    simp only [found]
    apply ensures_bind_modify
    exact ensures_pure ⟨⟨_, rfl⟩, rfl, rfl, rfl⟩

theorem derivedPath_ensures (path : Nat → Text → Text) :
    Ensures lockModel (derivedPath path) session held (Provides session held) := by
  apply getConfigValue_ensures.bind
  rintro _ _ after heldAfter ⟨⟨strDbPath, rfl⟩, unmoved⟩
  apply ensures_bind_get
  exact ensures_pure ⟨⟨_, rfl⟩, unmoved⟩

theorem copyFile_ensures (rounds : Nat) (strFrom strTo : Text) :
    Ensures lockModel (copyFile rounds strFrom strTo) session held
      (Achieves (Unmoved session held)) := by
  have transfer : Ensures lockModel (onStreams .copying (fileTransfer rounds .tmp .work))
      session held (Achieves (Unmoved session held)) := by
    apply (ensures_within (simulates_faultless .copying held)
      (fileTransfer_ensures rounds .tmp .work session.handler)).mono
    rintro _ copied _ _ ⟨_, handler, _, _, rfl, rfl, rfl, rfl⟩
    exact ⟨rfl, rfl, rfl, rfl⟩
  apply ensures_bind_ask
  rintro opened rfl
  apply ensures_bind
  apply ensures_bind_ask
  rintro created rfl
  apply transfer.bind
  rintro _ copied after heldAfter ⟨rfl, unmoved⟩
  apply ensures_bind_ask
  intro _ _
  apply ensures_pure
  apply ensures_bind_ask
  intro _ _
  exact ensures_pure ⟨rfl, unmoved⟩

structure WorkOpened (session : Session) (held : Bool) (after : Session) (heldAfter : Bool) :
    Prop where
  held : heldAfter = held
  lckFile : after.lckFile = session.lckFile
  workFile : after.handler.workFile = true

theorem Unmoved.before {middle after : Session} {heldMiddle heldAfter : Bool}
    (same : Unmoved session held middle heldMiddle)
    (workOpened : WorkOpened middle heldMiddle after heldAfter) :
    WorkOpened session held after heldAfter :=
  ⟨workOpened.held.trans same.held, workOpened.lckFile.trans same.lckFile, workOpened.workFile⟩

theorem createWorkFile_ensures (strDbFilePath strDbWorkPath : Text) :
    Ensures lockModel (createWorkFile strDbFilePath strDbWorkPath) session held
      (Achieves (WorkOpened session held)) := by
  apply ensures_bind_ask
  rintro created rfl
  apply ensures_bind_modify
  apply ensures_bind_modify
  exact ensures_pure ⟨rfl, rfl, rfl, rfl⟩

theorem copyToWorkFile_ensures (rounds : Nat) (strDbFilePath strDbWorkPath : Text) :
    Ensures lockModel (copyToWorkFile rounds strDbFilePath strDbWorkPath) session held
      (Achieves (WorkOpened session held)) := by
  apply (copyFile_ensures rounds strDbFilePath strDbWorkPath).bind
  rintro _ copied after heldAfter ⟨rfl, unmoved⟩
  apply ensures_bind_ask
  rintro opened rfl
  apply ensures_bind_modify
  exact ensures_pure ⟨rfl, unmoved.held, unmoved.lckFile, rfl⟩

theorem openWorkFile_ensures (rounds : Nat) (closed : session.handler.workFile = false) :
    Ensures lockModel (openWorkFile rounds) session held
      (Achieves (WorkOpened session held)) := by
  apply ensures_bind_get
  apply ensures_ite
  · intro opened
    rw [closed] at opened
    cases opened
  intro _
  apply getConfigValue_ensures.bind
  rintro _ _ configured heldConfigured ⟨⟨strDbFilePath, rfl⟩, unmoved⟩
  apply (derivedPath_ensures fun _ => workPath).bind
  rintro _ _ after heldAfter ⟨⟨strDbWorkPath, rfl⟩, stillUnmoved⟩
  have same := unmoved.trans stillUnmoved
  apply ensures_bind_ask
  intro found _
  apply ensures_ite
  · intro _
    apply (copyToWorkFile_ensures rounds strDbFilePath strDbWorkPath).mono
    exact fun _ _ _ _ => And.imp_right (same.before ·)
  · intro _
    apply (createWorkFile_ensures strDbFilePath strDbWorkPath).mono
    exact fun _ _ _ _ => And.imp_right (same.before ·)

theorem addTmpFile_ensures :
    Ensures lockModel addTmpFile session held
      (Achieves (Unmoved session held)) := by
  have created : Ensures lockModel createTmpFile session held
      (Achieves (Unmoved session held)) := by
    apply ensures_bind_get
    apply ensures_ite
    · intro _
      exact ensures_pure ⟨rfl, .refl⟩
    · intro _
      apply (derivedPath_ensures tempPath).bind
      rintro _ _ after heldAfter ⟨⟨strTmpFilePath, rfl⟩, unmoved⟩
      apply ensures_bind_ask
      rintro opened rfl
      apply ensures_bind_modify
      exact ensures_pure ⟨rfl, unmoved.held, unmoved.lckFile, unmoved.workFile⟩
  apply created.bind
  rintro _ added after heldAfter ⟨rfl, unmoved⟩
  exact ensures_pure ⟨rfl, unmoved⟩

/-- The handler has the database open exactly while it holds the lock, and then the lock file
is open. -/
structure HoldsLock (session : Session) (held : Bool) : Prop where
  held : held = session.handler.workFile
  lckFile : session.handler.workFile = true → session.lckFile = true

theorem openLocked_ensures (rounds : Nat) (closed : session.handler.workFile = false) :
    Ensures lockModel (do
      let opened ← openWorkFile rounds
      if opened then addTmpFile else pure false) session held
      (Achieves (WorkOpened session held)) := by
  apply (openWorkFile_ensures rounds closed).bind
  rintro _ opened middle heldMiddle ⟨rfl, workOpened⟩
  apply addTmpFile_ensures.mono
  rintro _ added after heldAfter ⟨rfl, unmoved⟩
  exact ⟨rfl, unmoved.held.trans workOpened.held, unmoved.lckFile.trans workOpened.lckFile,
    unmoved.workFile.trans workOpened.workFile⟩

theorem openDbInstance_ensures (rounds : Nat) (holds : HoldsLock session held) :
    Ensures lockModel (openDbInstance rounds) session held
      fun exchanges opened after heldAfter => HoldsLock after heldAfter ∧
        after.handler.workFile = (session.handler.workFile || opened) ∧
        (session.handler.workFile = true → exchanges = []) := by
  apply ensures_bind_modify
  apply ensures_bind
  apply ensures_bind_get
  apply ensures_ite
  · intro locked
    apply ensures_pure
    apply ensures_bind_modify
    exact ensures_pure ⟨⟨holds.held, holds.lckFile⟩, (Bool.or_false _).symm, fun _ => rfl⟩
  · intro unlocked
    have closed : session.handler.workFile = false := by
      by_contra opened
      exact unlocked (holds.lckFile (Bool.of_not_eq_false opened))
    obtain rfl : held = false := holds.held.trans closed
    apply ensures_bind_ask
    rintro opened rfl
    apply ensures_bind_modify
    apply ensures_bind_ask
    intro reply notFailed
    cases reply with
    | granted =>
      apply ensures_pure
      apply (openLocked_ensures rounds _).mono
      · rintro _ opened after heldAfter ⟨rfl, workOpened⟩
        refine ⟨⟨?_, fun _ => workOpened.lckFile⟩, ?_,
          fun opened => absurd opened (by simp [closed])⟩
        · rw [workOpened.held, workOpened.workFile]
          rfl
        · rw [workOpened.workFile, Bool.or_true]
      · exact closed
    | refused =>
      apply ensures_pure
      apply ensures_bind_modify
      exact ensures_pure ⟨⟨closed.symm, fun _ => rfl⟩, (Bool.or_false _).symm,
        fun opened => absurd opened (by simp [closed])⟩
    | failed => exact absurd rfl notFailed

theorem closeTmpFile_ensures :
    Ensures lockModel closeTmpFile session held
      fun _ _ => Unmoved session held := by
  apply ensures_bind_get
  apply ensures_ite
  · intro _
    apply ensures_bind_ask
    intro _ _
    apply ensures_bind_modify
    apply (derivedPath_ensures tempPath).bind
    rintro _ _ after heldAfter ⟨⟨strTmpFile, rfl⟩, unmoved⟩
    apply ensures_bind_ask
    intro _ _
    exact ensures_pure ⟨unmoved.held, unmoved.lckFile, unmoved.workFile⟩
  · intro _
    exact ensures_pure .refl

theorem renameWorkFile_ensures :
    Ensures lockModel renameWorkFile session held
      fun _ _ => Unmoved session held := by
  apply (derivedPath_ensures fun _ => workPath).bind
  rintro _ _ middle heldMiddle ⟨⟨strWorkDb, rfl⟩, unmoved⟩
  apply getConfigValue_ensures.bind
  rintro _ _ after heldAfter ⟨⟨strDb, rfl⟩, stillUnmoved⟩
  have same := unmoved.trans stillUnmoved
  apply ensures_bind_ask
  intro renamed _
  apply ensures_ite
  all_goals
    intro _
    apply ensures_bind_modify
    exact ensures_pure ⟨same.held, same.lckFile, same.workFile⟩

theorem closeWorkFile_ensures :
    Ensures lockModel closeWorkFile session held
      fun _ _ after heldAfter => heldAfter = held ∧ after.lckFile = session.lckFile ∧
        after.handler.workFile = false := by
  apply ensures_bind_get
  apply ensures_ite
  · intro _
    apply ensures_bind_ask
    rintro closed rfl
    apply ensures_bind_modify
    apply renameWorkFile_ensures.mono
    intro _ _ after heldAfter unmoved
    exact ⟨unmoved.held, unmoved.lckFile, unmoved.workFile⟩
  · intro closed
    exact ensures_pure ⟨rfl, rfl, eq_false_of_ne_true closed⟩

theorem closeDbInstance_ensures (holds : HoldsLock session held) :
    Ensures lockModel closeDbInstance session held
      fun _ _ after heldAfter => HoldsLock after heldAfter ∧ after.handler.workFile = false := by
  apply closeTmpFile_ensures.bind
  intro _ _ middle heldMiddle unmoved
  apply closeWorkFile_ensures.bind
  rintro _ closed after heldAfter ⟨sameHeld, sameLckFile, closedWork⟩
  apply ensures_bind
  apply ensures_bind_get
  apply ensures_ite
  · intro _
    apply ensures_bind_ask
    intro cleared _
    apply ensures_bind_ask
    intro _ _
    apply ensures_bind_modify
    apply ensures_pure
    exact ensures_pure
      ⟨⟨closedWork.symm, fun opened => absurd opened (by simp [closedWork])⟩, closedWork⟩
  · intro noLockFile
    apply ensures_pure
    refine ensures_pure ⟨⟨?_, fun opened => absurd opened (by simp [closedWork])⟩,
      closedWork⟩
    rw [sameLckFile, unmoved.lckFile] at noLockFile
    have neverOpen : session.handler.workFile = false := by
      by_contra opened
      exact noLockFile (holds.lckFile (Bool.of_not_eq_false opened))
    rw [sameHeld, unmoved.held, holds.held, neverOpen, closedWork]

end Functions

/-! ## Sequences of calls on one handler -/

inductive HandlerCall where
  | openDb
  | closeDb
  deriving DecidableEq, Repr

def HandlerCall.act (rounds : Nat) : HandlerCall → SessionAct Bool
  | .openDb => openDbInstance rounds
  | .closeDb => closeDbInstance

abbrev HandlerStep : Type :=
  Step sessionOps HandlerCall Bool

abbrev Calls (rounds pid : Nat) (steps : List HandlerStep) (session : Session) : Prop :=
  Runs (HandlerCall.act rounds) (fun _ _ => True) (newSession pid) steps session

def heldAfter (steps : List HandlerStep) : Bool :=
  lockModel.final false (exchangesOf steps)

def openAfter : List HandlerStep → Bool :=
  List.foldl (fun opened step =>
    match step.event with
    | .openDb => opened || step.value
    | .closeDb => false) false

structure LockedWhileOpen (before : List HandlerStep) (step : HandlerStep) : Prop where
  taken : step.event = .openDb → step.value = true → heldAfter (before ++ [step]) = true
  kept : step.event = .openDb → openAfter before = true →
    ∀ early, early <+: step.exchanges → lockModel.final (heldAfter before) early = true
  released : step.event = .openDb → step.value = false → openAfter before = false →
    heldAfter (before ++ [step]) = false

theorem heldAfter_concat (steps : List HandlerStep) (step : HandlerStep) :
    heldAfter (steps ++ [step]) = lockModel.final (heldAfter steps) step.exchanges := by
  simp [heldAfter, exchangesOf]

theorem openAfter_concat (steps : List HandlerStep) (step : HandlerStep) :
    openAfter (steps ++ [step]) =
      match step.event with
      | .openDb => openAfter steps || step.value
      | .closeDb => false := by
  rw [openAfter, List.foldl_append]
  rfl

theorem allows_of_succeeded {exchanges : List (Exchange sessionOps)} {held : Bool}
    (succeeded : ∀ exchange ∈ exchanges, Succeeded exchange.1 exchange.2) :
    lockModel.Allows held exchanges := by
  induction exchanges generalizing held with
  | nil => trivial
  | cons exchange exchanges ih =>
    obtain ⟨op, reply⟩ := exchange
    exact ⟨succeeded _ List.mem_cons_self,
      ih fun other member => succeeded other (List.mem_cons_of_mem _ member)⟩

theorem holdsLock_concat {rounds : Nat} {before : List HandlerStep} {step : HandlerStep}
    {session after : Session} (holds : HoldsLock session (heldAfter before))
    (opened : openAfter before = session.handler.workFile)
    (executes : (step.event.act rounds).Executes session step.exchanges step.value after)
    (succeeded : ∀ exchange ∈ step.exchanges, Succeeded exchange.1 exchange.2) :
    HoldsLock after (heldAfter (before ++ [step])) ∧
      openAfter (before ++ [step]) = after.handler.workFile ∧ LockedWhileOpen before step := by
  obtain ⟨event, exchanges, value⟩ := step
  have allowed := @allows_of_succeeded exchanges (heldAfter before) succeeded
  rw [heldAfter_concat, openAfter_concat]
  cases event with
  | openDb =>
    obtain ⟨after', workFile, noExchange⟩ :=
      (openDbInstance_ensures rounds holds).elim executes allowed
    refine ⟨after', by rw [opened, workFile], ?_, ?_, ?_⟩
    · rintro - rfl
      rw [heldAfter_concat, after'.held, workFile, Bool.or_true]
    · intro _ wasOpen early part
      rw [opened] at wasOpen
      rw [noExchange wasOpen, List.prefix_nil] at part
      rw [part, WorldModel.final_nil, holds.held, wasOpen]
    · rintro - rfl wasClosed
      rw [heldAfter_concat, after'.held, workFile, Bool.or_false, ← opened, wasClosed]
  | closeDb =>
    obtain ⟨after', workFile⟩ := (closeDbInstance_ensures holds).elim executes allowed
    refine ⟨after', workFile.symm, ?_, ?_, ?_⟩
    all_goals
      intro isOpen
      cases isOpen

/-- In every sequence of calls on a handler in which no call of the system that opening and
closing depend on fails, except that another process may have the lock, the handler holds the
lock whenever it has opened the database, keeps it until it closes the database, and does not
hold it after it failed to open the database. -/
theorem calls_locked_while_open {rounds pid : Nat} {steps : List HandlerStep} {session : Session}
    (calls : Calls rounds pid steps session)
    (succeeded : ∀ exchange ∈ exchangesOf steps, Succeeded exchange.1 exchange.2) :
    ∀ before step after, steps = before ++ step :: after → LockedWhileOpen before step := by
  have invariant : HoldsLock session (heldAfter steps) ∧
      openAfter steps = session.handler.workFile ∧
      ∀ before step after, steps = before ++ step :: after → LockedWhileOpen before step := by
    induction calls with
    | nil =>
      refine ⟨⟨rfl, ?_⟩, rfl, ?_⟩
      · intro opened
        cases opened
      · intro before step after split
        simp at split
    | @snoc steps middle final event exchanges value earlier enabled executes ih =>
      rw [exchangesOf, List.flatMap_append] at succeeded
      obtain ⟨holds, opened, locked⟩ := ih fun exchange member =>
        succeeded exchange (List.mem_append_left _ member)
      obtain ⟨holdsAfter, openedAfter, lockedLast⟩ :=
        @holdsLock_concat rounds steps ⟨event, exchanges, value⟩ middle final holds opened
          executes fun exchange member => succeeded exchange
            (List.mem_append_right _ (by simpa using member))
      refine ⟨holdsAfter, openedAfter, ?_⟩
      intro before step after split
      rcases List.eq_nil_or_concat after with rfl | ⟨init, last, rfl⟩
      · obtain ⟨rfl, same⟩ := List.append_inj' split rfl
        cases same
        exact lockedLast
      · rw [List.concat_eq_append, ← List.cons_append, ← List.append_assoc] at split
        obtain ⟨same, -⟩ := List.append_inj' split rfl
        exact locked before step init same
  exact invariant.2.2

/-- A system in which every call succeeds, except that the lock file may not be opened, and
there is no database file yet. -/
def systemReplies (lockFile : Bool) : (op : SessionOp) → op.Reply
  | .openLock => lockFile
  | .setLock => .granted
  | .readConfig => some "W_FILE=/w\nR_FILE=/r\n".toList
  | .stat _ => false
  | .clearLock => true
  | .closeLock => ()
  | .fopen _ _ _ _ => true
  | .fclose _ _ => true
  | .rename _ _ => true
  | .remove _ => true
  | .exit => ()
  | .library _ (.fseek _) => true
  | .library _ (.fgets _ _) => none
  | .library _ (.fwrite _ text) => text.length
  | .library _ (.fread _ _) => []
  | .library _ (.ferror _) => false
  | .library _ (.fileno _) => true
  | .library _ (.ftruncate _) => true

def exchangesOfOpen (lockFile : Bool) : List (Exchange sessionOps) :=
  (Program.answered (systemReplies lockFile) (openDbInstance 1 (newSession 7))).1

def openStep (lockFile : Bool) : HandlerStep :=
  ⟨.openDb, exchangesOfOpen lockFile, true⟩

theorem calls_openStep (lockFile : Bool) :
    ∃ session, Calls 1 7 [openStep lockFile] session := by
  have returns : ∃ session, (Program.answered (systemReplies lockFile)
      (openDbInstance 1 (newSession 7))).2 = some (true, session) := by
    cases lockFile
    · exact ⟨_, rfl⟩
    · exact ⟨_, rfl⟩
  obtain ⟨session, returned⟩ := returns
  exact ⟨session, Runs.nil.snoc trivial (executes_answered returned)⟩

theorem succeeded_systemReplies (op : SessionOp) : Succeeded op (systemReplies true op) := by
  cases op with
  | openLock => exact rfl
  | setLock => exact LockReply.noConfusion
  | readConfig => exact (by decide +kernel : (some "W_FILE=/w\nR_FILE=/r\n".toList
      |>.bind parsingConfigFile).isSome = true)
  | fopen pair file path mode => exact rfl
  | fclose pair file =>
    cases pair with
    | copying => trivial
    | handler =>
      cases file with
      | work => exact rfl
      | tmp => trivial
  | library pair op =>
    cases op with
    | fwrite | ferror => exact rfl
    | fseek | fgets | fread | fileno | ftruncate => trivial
  | clearLock | closeLock | stat | rename | remove | exit => trivial

/-- A handler that opens the database holds the lock. -/
theorem opening_takes_lock :
    (∃ session, Calls 1 7 [openStep true] session) ∧ LockedWhileOpen [] (openStep true) ∧
      heldAfter [openStep true] = true := by
  obtain ⟨session, calls⟩ := calls_openStep true
  have succeeded : ∀ exchange ∈ exchangesOf [openStep true],
      Succeeded exchange.1 exchange.2 := by
    intro exchange member
    have inOpen : exchange ∈ exchangesOfOpen true := by
      simpa [exchangesOf, openStep] using member
    rw [Program.reply_of_mem_answered inOpen]
    exact succeeded_systemReplies exchange.1
  have locked := calls_locked_while_open calls succeeded [] (openStep true) [] rfl
  exact ⟨⟨session, calls⟩, locked, locked.taken rfl rfl⟩

/-- The lock file cannot be opened: the database is opened without the lock. -/
theorem opened_without_lock :
    (∃ session, Calls 1 7 [openStep false] session) ∧ (openStep false).value = true ∧
      heldAfter [openStep false] = false ∧ ¬LockedWhileOpen [] (openStep false) := by
  have unlocked : heldAfter [openStep false] = false := by decide +kernel
  refine ⟨calls_openStep false, rfl, unlocked, ?_⟩
  intro locked
  have taken : heldAfter [openStep false] = true := locked.taken rfl rfl
  rw [unlocked] at taken
  cases taken

end Apos.UserDb
