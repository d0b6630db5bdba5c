import Apos.DrbdAgentLaws

/-!
# Single steps of the agent process

This file says once what every operation can do to the shared world: which role
objects it makes and deletes, which threads it starts, and what it leaves alone.
The invariants of whole runs only use these statements.
-/

namespace Apos.DrbdAgent

/-! ## What one operation can do -/

inductive ObjectStep (world : World) (alive : Tid → Bool) :
    (op : ObjectOp) → op.Reply → World → Prop where
  | actvHeld : ObjectStep world alive .actvHeld world.actvAdmObj.isSome world
  | stbyHeld : ObjectStep world alive .stbyHeld world.stbyAdmObj.isSome world
  | noActv : ObjectStep world alive .newActv none world
  | newActv : ObjectStep world alive .newActv (some world.created)
      { world with actvAdmObj := some world.created, created := world.created + 1 }
  | noStby : ObjectStep world alive .newStby none world
  | newStby : ObjectStep world alive .newStby (some world.created)
      { world with stbyAdmObj := some world.created, created := world.created + 1 }
  | deleteActv (unused : actvInUse alive world.actvAdmObj = false) :
      ObjectStep world alive .deleteActv () { deactivate world with actvAdmObj := none }
  | deleteStby (unused : stbyInUse alive world.stbyAdmObj = false)
      (unmanaged : roleMgrInUse alive world.actvAdmObj = false) :
      ObjectStep world alive .deleteStby ()
        { deactivate world with stbyAdmObj := none, oldhaState := .standby }

variable {world after : World} {alive : Tid → Bool} {tid : Tid} {spawned : Option Tid}

theorem perform_object {op : ObjectOp} {proposed reply : op.Reply}
    (performs : perform world alive tid (.object op) proposed = .done reply after spawned) :
    ObjectStep world alive op reply after ∧ spawned = none := by
  cases op with
  | actvHeld =>
    cases performs
    exact ⟨.actvHeld, rfl⟩
  | stbyHeld =>
    cases performs
    exact ⟨.stbyHeld, rfl⟩
  | newActv =>
    cases proposed with
    | none =>
      cases performs
      exact ⟨.noActv, rfl⟩
    | some number =>
      cases performs
      exact ⟨.newActv, rfl⟩
  | newStby =>
    cases proposed with
    | none =>
      cases performs
      exact ⟨.noStby, rfl⟩
    | some number =>
      cases performs
      exact ⟨.newStby, rfl⟩
  | deleteActv =>
    simp only [perform, performObject] at performs
    split at performs
    · cases performs
    · next unused =>
        cases performs
        exact ⟨.deleteActv (by simpa using unused), rfl⟩
  | deleteStby =>
    simp only [perform, performObject] at performs
    split at performs
    · cases performs
    · next unused =>
        cases performs
        simp only [Bool.or_eq_true, not_or, Bool.not_eq_true] at unused
        exact ⟨.deleteStby unused.1 unused.2, rfl⟩

theorem perform_task {op : TaskOp} {proposed reply : op.Reply}
    (performs : perform world alive tid (.task op) proposed = .done reply after spawned) :
    after = { world with posted := after.posted } ∧
      ∀ thread, spawned = some thread →
        ∃ (task : Task) (rCode : Int),
          (⟨.task op, reply⟩ : Exchange signature) = ⟨.task (.activate task), rCode⟩ ∧
            0 ≤ rCode ∧ target world tid task = some thread := by
  cases op with
  | activate task =>
    simp only [perform, performTask] at performs
    split at performs
    · cases performs
    · next thread found =>
        cases performs
        refine ⟨rfl, fun other same => ⟨task, proposed, rfl, ?_⟩⟩
        split at same
        · cases same
        · next notNegative => exact ⟨Int.not_lt.mp notNegative, by rw [found, same]⟩
  | putq task =>
    simp only [perform, performTask] at performs
    split at performs
    · cases performs
    · cases performs
      refine ⟨?_, by simp⟩
      split <;> rfl
  | getq task =>
    simp only [perform, performTask] at performs
    split at performs
    · cases performs
      exact ⟨rfl, by simp⟩
    · split at performs
      · cases performs
        exact ⟨rfl, by simp⟩
      · cases performs
    · split at performs
      · cases performs
        exact ⟨rfl, by simp⟩
      · cases performs
  | join task =>
    simp only [perform, performTask] at performs
    split at performs
    · cases performs
    · split at performs
      · cases performs
      · cases performs
        exact ⟨rfl, by simp⟩

section Performs

variable {op : Op} {proposed reply : op.Reply}
  (performs : perform world alive tid op proposed = .done reply after spawned)

include performs

theorem perform_act (notObject : ∀ objectOp, op ≠ .object objectOp)
    (notTask : ∀ taskOp, op ≠ .task taskOp) :
    reply = (act world op proposed).1 ∧ after = (act world op proposed).2 ∧ spawned = none := by
  cases op with
  | object objectOp => exact (notObject objectOp rfl).elim
  | task taskOp => exact (notTask taskOp rfl).elim
  | _ =>
    cases performs
    exact ⟨rfl, rfl, rfl⟩

theorem perform_onDisk (notObject : ∀ objectOp, op ≠ .object objectOp)
    (notTask : ∀ taskOp, op ≠ .task taskOp) (notWrite : ∀ flag value, op ≠ .write flag value)
    (notOldState : ∀ state, op ≠ .setOldhaState state) :
    after = { world with lockFile := after.lockFile, record := after.record } := by
  obtain ⟨_, rfl, _⟩ := perform_act performs notObject notTask
  cases op with
  | write flag value => exact (notWrite flag value rfl).elim
  | setOldhaState state => exact (notOldState state rfl).elim
  | openLock | unlinkLock =>
    simp only [act]
    split <;> rfl
  | _ => rfl

/-! ## Role objects and their threads -/

inductive Side where
  | actv
  | stby
  deriving DecidableEq, Repr

def World.held (world : World) : Side → Option Nat
  | .actv => world.actvAdmObj
  | .stby => world.stbyAdmObj

def newObject : Side → ObjectOp
  | .actv => .newActv
  | .stby => .newStby

def Tid.object : Tid → Option (Side × Nat)
  | .actvAdm number | .roleMgr number | .roleMon number => some (.actv, number)
  | .stbyAdm number | .stbyMon number => some (.stby, number)
  | .call _ _ | .devmon _ _ => none

def CallView.held (view : CallView) : Side → Option Bool
  | .actv => view.actv
  | .stby => view.stby

/-- The part of the world that only callbacks change is the same. -/
structure SameRoles (world after : World) : Prop where
  held : ∀ side, after.held side = world.held side
  oldhaState : after.oldhaState = world.oldhaState
  created : after.created = world.created

theorem perform_sameRoles (notRole : kind op ≠ .role) : SameRoles world after := by
  have unlessRoles (same : after.actvAdmObj = world.actvAdmObj ∧
      after.stbyAdmObj = world.stbyAdmObj ∧ after.oldhaState = world.oldhaState ∧
      after.created = world.created) : SameRoles world after := by
    obtain ⟨actvSame, stbySame, oldSame, createdSame⟩ := same
    refine ⟨fun side => ?_, oldSame, createdSame⟩
    cases side with
    | actv => exact actvSame
    | stby => exact stbySame
  apply unlessRoles
  cases op with
  | object | setOldhaState => exact (notRole rfl).elim
  | task taskOp =>
    rw [(perform_task performs).1]
    exact ⟨rfl, rfl, rfl, rfl⟩
  | write flag value =>
    cases performs
    exact ⟨rfl, rfl, rfl, rfl⟩
  | _ =>
    rw [perform_onDisk performs (by simp) (by simp) (by simp) (by simp)]
    exact ⟨rfl, rfl, rfl, rfl⟩

theorem perform_flag_set {flag : Flag} (isSet : after.flags flag = true) :
    world.flags flag = true ∨ op = .write flag true := by
  cases op with
  | object objectOp =>
    obtain ⟨step, _⟩ := perform_object performs
    left
    cases step <;> first
      | exact isSet
      | cases flag <;> first | exact isSet | cases isSet
  | task taskOp =>
    rw [(perform_task performs).1] at isSet
    exact .inl isSet
  | write written value =>
    cases performs
    by_cases same : flag = written
    · subst same
      right
      simpa [act] using isSet
    · simp only [act, Function.update_of_ne same] at isSet
      exact .inl isSet
  | setOldhaState state =>
    cases performs
    exact .inl isSet
  | _ =>
    rw [perform_onDisk performs (by simp) (by simp) (by simp) (by simp)] at isSet
    exact .inl isSet

theorem perform_flag_kept (notObject : ∀ objectOp, op ≠ .object objectOp) {flag : Flag}
    (isSet : world.flags flag = true) : after.flags flag = true ∨ op = .write flag false := by
  cases op with
  | object objectOp => exact (notObject objectOp rfl).elim
  | task taskOp =>
    rw [(perform_task performs).1]
    exact .inl isSet
  | write written value =>
    cases performs
    by_cases same : flag = written
    · subst same
      cases value with
      | true => simp [act]
      | false => exact .inr rfl
    · simp only [act, Function.update_of_ne same]
      exact .inl isSet
  | setOldhaState state =>
    cases performs
    exact .inl isSet
  | _ =>
    rw [perform_onDisk performs (by simp) (by simp) (by simp) (by simp)]
    exact .inl isSet

theorem perform_calling : after.calling = world.calling := by
  cases op with
  | object objectOp =>
    obtain ⟨step, _⟩ := perform_object performs
    cases step <;> rfl
  | task taskOp => rw [(perform_task performs).1]
  | write | setOldhaState =>
    cases performs
    rfl
  | _ => rw [perform_onDisk performs (by simp) (by simp) (by simp) (by simp)]

end Performs

variable {op : Op} {proposed reply : op.Reply} {thread : Tid} {side : Side} {number : Nat}

theorem target_object {task : Task} (found : target world tid task = some thread)
    (object : thread.object = some (side, number)) :
    world.held side = some number ∨ tid.object = some (side, number) := by
  cases tid <;> cases task <;> simp only [target, Option.map_eq_some_iff, reduceCtorEq,
    Option.some.injEq] at found
  case call.actvAdm =>
    obtain ⟨held, isHeld, rfl⟩ := found
    obtain ⟨rfl, rfl⟩ := Prod.mk.inj (Option.some.inj object)
    exact .inl isHeld
  case call.stbyAdm =>
    obtain ⟨held, isHeld, rfl⟩ := found
    obtain ⟨rfl, rfl⟩ := Prod.mk.inj (Option.some.inj object)
    exact .inl isHeld
  all_goals
    subst found
    exact .inr object

theorem target_isSome {task : Task} (found : target world tid task = some thread) :
    thread.object.isSome = true := by
  cases tid <;> cases task <;> simp only [target, Option.map_eq_some_iff, reduceCtorEq,
    Option.some.injEq] at found
  case call.actvAdm =>
    obtain ⟨held, _, rfl⟩ := found
    rfl
  case call.stbyAdm =>
    obtain ⟨held, _, rfl⟩ := found
    rfl
  all_goals
    subst found
    rfl

theorem perform_spawned (performs : perform world alive tid op proposed = .done reply after spawned)
    (isSpawned : spawned = some thread) :
    ∃ (task : Task) (rCode : Int),
      (⟨op, reply⟩ : Exchange signature) = ⟨.task (.activate task), rCode⟩ ∧ 0 ≤ rCode ∧
        target world tid task = some thread := by
  cases op with
  | object objectOp => simp [(perform_object performs).2] at isSpawned
  | task taskOp => exact (perform_task performs).2 thread isSpawned
  | _ =>
    cases performs
    cases isSpawned

theorem admits_cases (admitted : admits world alive tid = some after) :
    tid.object = none ∧ after = { world with calling := after.calling } ∧
      ((∃ number callback, tid = .call number callback ∧ world.calling.any alive = false ∧
          after.calling = some tid) ∨
        (∃ number role, tid = .devmon number role ∧ after = world)) := by
  cases tid with
  | call number callback =>
    simp only [admits] at admitted
    split at admitted
    · cases admitted
    · next idle =>
        obtain rfl := Option.some.inj admitted
        exact ⟨rfl, rfl, .inl ⟨number, callback, rfl, by simpa using idle, rfl⟩⟩
  | devmon number role =>
    simp only [admits] at admitted
    split at admitted
    · obtain rfl := Option.some.inj admitted
      exact ⟨rfl, rfl, .inr ⟨number, role, rfl, rfl⟩⟩
    · cases admitted
  | _ => cases admitted

theorem ObjectStep.keeps {op : ObjectOp} {reply : op.Reply}
    (step : ObjectStep world alive op reply after)
    (actvFree : op = .newActv → world.held .actv = none)
    (stbyFree : op = .newStby → world.held .stby = none) {other : Tid}
    (running : alive other = true) (object : other.object = some (side, number))
    (held : world.held side = some number) : after.held side = some number := by
  have uses : (side = .actv ∧ actvInUse alive (some number) = true) ∨
      (side = .stby ∧ stbyInUse alive (some number) = true) := by
    cases other <;> simp only [Tid.object, reduceCtorEq, Option.some.injEq, Prod.mk.injEq]
      at object
    all_goals
      obtain ⟨rfl, rfl⟩ := object
      simp [actvInUse, stbyInUse, running]
  rcases uses with ⟨rfl, inUse⟩ | ⟨rfl, inUse⟩
  · cases step with
    | newActv => simp [actvFree rfl] at held
    | deleteActv unused =>
      rw [show world.actvAdmObj = some number from held, inUse] at unused
      cases unused
    | _ => exact held
  · cases step with
    | newStby => simp [stbyFree rfl] at held
    | deleteStby unused unmanaged =>
      rw [show world.stbyAdmObj = some number from held, inUse] at unused
      cases unused
    | _ => exact held

theorem ObjectStep.created_le {op : ObjectOp} {reply : op.Reply}
    (step : ObjectStep world alive op reply after) : world.created ≤ after.created := by
  cases step <;> simp [deactivate]

theorem ObjectStep.held {op : ObjectOp} {reply : op.Reply}
    (step : ObjectStep world alive op reply after) {side : Side} {number : Nat}
    (held : after.held side = some number) :
    world.held side = some number ∨ number = world.created ∧
      world.created < after.created := by
  cases side <;> cases step <;> simp_all [World.held, deactivate]

theorem perform_created_le
    (performs : perform world alive tid op proposed = .done reply after spawned) :
    world.created ≤ after.created := by
  by_cases isRole : kind op = .role
  · rcases kind_eq_role isRole with ⟨objectOp, rfl⟩ | ⟨state, rfl⟩ | rfl | rfl
    · exact (perform_object performs).1.created_le
    all_goals
      cases performs
      exact Nat.le_refl _
  · exact Nat.le_of_eq (perform_sameRoles performs isRole).created.symm

theorem perform_held (performs : perform world alive tid op proposed = .done reply after spawned)
    (held : after.held side = some number) :
    world.held side = some number ∨ number = world.created ∧
      world.created < after.created := by
  by_cases isRole : kind op = .role
  · rcases kind_eq_role isRole with ⟨objectOp, rfl⟩ | ⟨state, rfl⟩ | rfl | rfl
    · exact (perform_object performs).1.held held
    all_goals
      cases performs
      exact .inl held
  · exact .inl ((perform_sameRoles performs isRole).held side ▸ held)

end Apos.DrbdAgent
