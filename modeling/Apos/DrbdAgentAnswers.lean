import Apos.DrbdAgentRoles

/-!
# Answers of the callbacks

A callback that starts a role waits for two flags that the threads of the role set,
and answers from what it has read.  This file finds the runs in which a success
means that the role thread of the object that is held has finished its jobs.
-/

namespace Apos.DrbdAgent

variable {depth ticks : Nat} {allowed : AgentConfiguration → AgentEntry → Prop}
variable {config after : AgentConfiguration}

/-! ## Roles that are up -/

def owner : Side → Nat → Tid
  | .actv, number => .roleMgr number
  | .stby, number => .stbyAdm number

@[simp]
theorem owner_object (side : Side) (number : Nat) :
    (owner side number).object = some (side, number) := by
  cases side <;> rfl

/-- The exchange by which the thread of a role has finished its jobs: `StartJobs`
returned 0, or the standby thread has come to its message loop. -/
def jobsDone : Side → Exchange signature
  | .actv => ⟨.note (.startJobsReturned 0), ()⟩
  | .stby => ⟨.write .tasksDone true, ()⟩

/-- How a log entry changes whether the jobs of a role object are done and no
restart has been requested since. -/
def settledEntry (side : Side) (number : Nat) (settled : Bool) : AgentEntry → Bool
  | .did tid exchange =>
    decide (tid = owner side number ∧ exchange = jobsDone side) ||
      (settled && decide (exchange.1 ≠ .note .compRestart))
  | _ => settled

/-- The jobs of a role object were finished, and no thread has requested a restart
since. -/
def settled (side : Side) (number : Nat) (log : List AgentEntry) : Bool :=
  log.foldl (settledEntry side number) false

/-- A role object whose thread has finished its jobs without an error. -/
structure RoleUp (side : Side) (number : Nat) (log : List AgentEntry) : Prop where
  settled : settled side number log = true
  clean : ⟨.note .compRestart, ()⟩ ∉ history (owner side number) log

/-- The history of a role thread that has declared its tasks done after finishing
its jobs without an error. -/
structure Declared (side : Side) (history : History) : Prop where
  declared : ⟨.write .tasksDone true, ()⟩ ∈ history
  finished : jobsDone side ∈ history
  clean : ⟨.note .compRestart, ()⟩ ∉ history

/-! ## Consequences of the laws -/

variable {side : Side} {number : Nat}

theorem not_restart_of_declared {history : History}
    (law : agentLaw (owner side number) history (.note .compRestart)) :
    ⟨.write .tasksDone true, ()⟩ ∉ history := by
  cases side with
  | actv | stby => exact law

theorem declares {history : History}
    (law : agentLaw (owner side number) history (.write .tasksDone true)) :
    ⟨.write .compRestart true, ()⟩ ∈ history ∨
      jobsDone side ∈ history ++ [⟨.write .tasksDone true, ()⟩] ∧
        ⟨.note .compRestart, ()⟩ ∉ history := by
  cases side with
  | actv => exact law.imp_right fun ⟨finished, clean⟩ => ⟨List.mem_append_left _ finished, clean⟩
  | stby => exact law.imp_right fun clean => ⟨List.mem_concat_self, clean⟩

theorem declared_or_restarted (reaches : (system depth ticks).Reaches Fresh allowed config)
    (member : ⟨.write .tasksDone true, ()⟩ ∈ history (owner side number) config.log) :
    ⟨.write .compRestart true, ()⟩ ∈ history (owner side number) config.log ∨
      Declared side (history (owner side number) config.log) := by
  obtain ⟨before, later, split⟩ := List.append_of_mem member
  have lawful := system_lawful depth ticks
  rcases declares (lawful.recorded reaches split) with restarted | ⟨finished, cleanBefore⟩
  · left
    simp [split, restarted]
  · refine .inr ⟨member, ?_, fun restart => ?_⟩
    · rw [split, List.append_cons]
      exact List.mem_append_left _ finished
    · rw [split] at restart
      rcases List.mem_append.mp restart with early | late
      · exact cleanBefore early
      · rcases List.mem_cons.mp late with impossible | later
        · cases impossible
        · obtain ⟨middle, rest, laterSplit⟩ := List.append_of_mem later
          have regrouped : history (owner side number) config.log =
              (before ++ ⟨.write .tasksDone true, ()⟩ :: middle) ++
                ⟨.note .compRestart, ()⟩ :: rest := by
            simp [split, laterSplit]
          exact not_restart_of_declared (lawful.recorded reaches regrouped) (by simp)

theorem declares_issuer {tid : Tid} {history : History}
    (law : agentLaw tid history (.write .tasksDone true)) :
    ∃ side number, tid = owner side number := by
  cases tid with
  | roleMgr number => exact ⟨.actv, number, rfl⟩
  | stbyAdm number => exact ⟨.stby, number, rfl⟩
  | call number callback => exact law.elim
  | actvAdm number => simp [agentLaw, actvLaw, kind] at law
  | roleMon | stbyMon => simp [agentLaw, monLaw, kind] at law
  | devmon number role => simp [agentLaw, devmonLaw, kind] at law

/-- A restart is requested by the thread of a role, by a monitor, or by an active
thread that has not started its role manager. -/
theorem restart_issuer {tid : Tid} {history : History}
    (law : agentLaw tid history (.note .compRestart)) :
    (∃ side number, tid = owner side number) ∨
      (∃ number, tid = .roleMon number ∨ tid = .stbyMon number) ∨
      ∃ number, tid = .actvAdm number ∧ ∀ rCode : Int, 0 ≤ rCode →
        ⟨.task (.activate .roleMgr), rCode⟩ ∉ history := by
  cases tid with
  | roleMgr number => exact .inl ⟨.actv, number, rfl⟩
  | stbyAdm number => exact .inl ⟨.stby, number, rfl⟩
  | roleMon number => exact .inr (.inl ⟨number, .inl rfl⟩)
  | stbyMon number => exact .inr (.inl ⟨number, .inr rfl⟩)
  | actvAdm number => exact .inr (.inr ⟨number, rfl, law⟩)
  | call number callback => exact law.elim
  | devmon number role => simp [agentLaw, devmonLaw, kind] at law

/-! ## What the flags mean -/

/-- Runs in which the flags can be trusted: callbacks to the standby role come to
inactive nodes, an object that is already held is only accepted while its tasks are
done and no restart is pending, and the monitors request no restart. -/
def trustworthy (config : AgentConfiguration) : AgentEntry → Bool
  | .arrived (.call _ (.toPassive _)) => config.world.actvAdmObj.isNone
  | .did (.call _ (.toActive _)) ⟨.object .actvHeld, true⟩ =>
    config.world.flags .tasksDone && !config.world.flags .compRestart
  | .did (.call _ (.toPassive _)) ⟨.object .stbyHeld, true⟩ =>
    config.world.flags .tasksDone && !config.world.flags .compRestart
  | .did (.roleMon _) ⟨.note .compRestart, _⟩ => false
  | .did (.stbyMon _) ⟨.note .compRestart, _⟩ => false
  | _ => true

theorem passive_of_trustworthy (config : AgentConfiguration) (entry : AgentEntry)
    (trusted : trustworthy config entry = true) : passiveWhenInactive config entry = true := by
  unfold passiveWhenInactive
  split
  · exact trusted
  · rfl

theorem oneRole_of_trustworthy (reaches : (system depth ticks).Reaches Fresh
    (ThreadSystem.Passing trustworthy) config) : OneRole config :=
  oneRole_of_reaches (reaches.mono passive_of_trustworthy)

/-- The flag `tasksDone` was set by the thread of the object that is held, a restart
of that thread shows in the flag `compRestart`, and nobody else disturbs a role whose
jobs are done. -/
structure FlagMemory (config : AgentConfiguration) : Prop where
  declaredBy : config.world.flags .tasksDone = true →
    ∃ side number, config.world.held side = some number ∧
      ⟨.write .tasksDone true, ()⟩ ∈ history (owner side number) config.log
  restarting : ∀ side number, config.world.held side = some number →
    ⟨.write .compRestart true, ()⟩ ∈ history (owner side number) config.log →
      config.world.flags .compRestart = true
  opened : ∀ number, config.Alive (.roleMgr number) ∨
      history (.roleMgr number) config.log ≠ [] →
    ∃ rCode : Int, 0 ≤ rCode ∧
      ⟨.task (.activate .roleMgr), rCode⟩ ∈ history (.actvAdm number) config.log
  undisturbed : ∀ side number, config.world.held side = some number →
    jobsDone side ∈ history (owner side number) config.log →
    ⟨.note .compRestart, ()⟩ ∉ history (owner side number) config.log →
      settled side number config.log = true

theorem FlagMemory.declared (memory : FlagMemory config)
    (reaches : (system depth ticks).Reaches Fresh allowed config) {side : Side} {number : Nat}
    (held : config.world.held side = some number)
    (member : ⟨.write .tasksDone true, ()⟩ ∈ history (owner side number) config.log)
    (noRestart : config.world.flags .compRestart = false) :
    Declared side (history (owner side number) config.log) := by
  rcases declared_or_restarted reaches member with restarted | declared
  · rw [memory.restarting side number held restarted] at noRestart
    cases noRestart
  · exact declared

theorem FlagMemory.written (memory : FlagMemory config) (oneRole : OneRole config)
    (held : config.world.held side = some number) (isDone : config.world.flags .tasksDone = true) :
    ⟨.write .tasksDone true, ()⟩ ∈ history (owner side number) config.log := by
  obtain ⟨other, otherNumber, otherHeld, member⟩ := memory.declaredBy isDone
  have isOther : config.world.held other ≠ none := by simp [otherHeld]
  obtain rfl := oneRole.side_eq held isOther
  obtain rfl := Option.some.inj (otherHeld.symm.trans held)
  exact member

section Step

variable {tid : Tid} {op : Op} {reply : op.Reply} {spawned : Option Tid}

theorem FlagMemory.declaredBy_act (memory : FlagMemory config)
    (performed : Performed depth ticks allowed config after tid op reply spawned)
    (isDone : after.world.flags .tasksDone = true) :
    ∃ side number, after.world.held side = some number ∧
      ⟨.write .tasksDone true, ()⟩ ∈ history (owner side number) after.log := by
  obtain ⟨proposed, performs⟩ := performed.performs
  rcases perform_flag_set performs isDone with before | rfl
  · obtain ⟨side, number, held, member⟩ := memory.declaredBy before
    refine ⟨side, number, ?_, performed.mem_history member⟩
    cases performed.roleChange with
    | same _ sameHeld kept => rw [sameHeld, held]
    | made caller callback made isNew asked free isMade others alone flags =>
      rw [others side (by rintro rfl; simp [held] at free), held]
    | deleted caller callback deleted wasHeld freed others flags =>
      rw [flags] at isDone
      cases isDone
  · obtain ⟨side, number, rfl⟩ := declares_issuer performed.law
    refine ⟨side, number, ?_, ?_⟩
    · rw [(perform_sameRoles performs (by simp [kind])).held side]
      exact performed.wellformed.belongs _ _ _ performed.living (owner_object side number)
    · rw [performed.history_self]
      exact List.mem_concat_self

variable {side : Side} {number : Nat}

theorem FlagMemory.restarting_act (memory : FlagMemory config) (oneRole : OneRole config)
    (performed : Performed depth ticks allowed config after tid op reply spawned)
    (held : after.world.held side = some number)
    (member : ⟨.write .compRestart true, ()⟩ ∈ history (owner side number) after.log) :
    after.world.flags .compRestart = true := by
  obtain ⟨proposed, performs⟩ := performed.performs
  rcases performed.mem_cases member with early | ⟨_, isWrite⟩
  · have heldBefore := performed.was_held (owner_object side number) early held
    have isSet := memory.restarting side number heldBefore early
    cases performed.roleChange with
    | same _ sameHeld kept =>
      rcases kept .compRestart isSet with still | rfl
      · exact still
      · obtain ⟨caller, callback, rfl⟩ := exists_call_of_role performed.law rfl
        exact performed.law.elim
    | made caller callback made isNew asked free isMade others alone flags => rw [flags, isSet]
    | deleted caller callback deleted wasHeld freed others flags =>
      obtain rfl := oneRole.side_eq heldBefore wasHeld
      rw [freed] at held
      cases held
  · obtain rfl : Op.write .compRestart true = op := congrArg Sigma.fst isWrite
    obtain ⟨_, worldEq, _⟩ := perform_act performs (by simp) (by simp)
    simp [worldEq, act]

theorem target_roleMgr {world : World} {task : Task}
    (found : target world tid task = some (.roleMgr number)) :
    tid = .actvAdm number ∧ task = .roleMgr ∨ tid = .roleMgr number := by
  cases tid <;> cases task <;> simp_all [target]

theorem FlagMemory.opened_act (memory : FlagMemory config)
    (performed : Performed depth ticks allowed config after tid op reply spawned)
    (began : after.Alive (.roleMgr number) ∨ history (.roleMgr number) after.log ≠ []) :
    ∃ rCode : Int, 0 ≤ rCode ∧
      ⟨.task (.activate .roleMgr), rCode⟩ ∈ history (.actvAdm number) after.log := by
  have unlessSpawned (before : config.Alive (.roleMgr number) ∨
      history (.roleMgr number) config.log ≠ []) : ∃ rCode : Int, 0 ≤ rCode ∧
        ⟨.task (.activate .roleMgr), rCode⟩ ∈ history (.actvAdm number) after.log := by
    obtain ⟨rCode, notNegative, member⟩ := memory.opened number before
    exact ⟨rCode, notNegative, performed.mem_history member⟩
  rcases began with alive | nonempty
  · rcases performed.starts.alive _ alive with before | ⟨isSpawned, fresh⟩
    · exact unlessSpawned (.inl before)
    · obtain ⟨proposed, performs⟩ := performed.performs
      obtain ⟨task, rCode, isActivate, notNegative, found⟩ :=
        perform_spawned performs isSpawned
      rcases target_roleMgr found with ⟨rfl, rfl⟩ | rfl
      · refine ⟨rCode, notNegative, ?_⟩
        rw [performed.history_self, isActivate]
        exact List.mem_concat_self
      · exact unlessSpawned (.inl performed.living)
  · by_cases same : tid = .roleMgr number
    · subst same
      exact unlessSpawned (.inl performed.living)
    · rw [performed.history_of_ne same] at nonempty
      exact unlessSpawned (.inr nonempty)

theorem FlagMemory.restart_own (memory : FlagMemory config) (oneRole : OneRole config)
    (performed : Performed depth ticks (ThreadSystem.Passing trustworthy) config after tid
      (.note .compRestart) () spawned) (held : config.world.held side = some number)
    (finished : jobsDone side ∈ history (owner side number) config.log) :
    tid = owner side number := by
  have isHeld {other : Side} {otherNumber : Nat}
      (object : tid.object = some (other, otherNumber)) : other = side ∧ otherNumber = number := by
    have otherHeld := performed.wellformed.belongs _ _ _ performed.living object
    have isOther : config.world.held other ≠ none := by simp [otherHeld]
    obtain rfl := oneRole.side_eq held isOther
    exact ⟨rfl, Option.some.inj (otherHeld.symm.trans held)⟩
  rcases restart_issuer performed.law with ⟨other, otherNumber, rfl⟩ |
      ⟨_, rfl | rfl⟩ | ⟨otherNumber, rfl, unopened⟩
  · obtain ⟨rfl, rfl⟩ := isHeld (owner_object other otherNumber)
    rfl
  · cases performed.permitted
  · cases performed.permitted
  · obtain ⟨rfl, rfl⟩ := isHeld rfl
    obtain ⟨rCode, notNegative, member⟩ :=
      memory.opened otherNumber (.inr (List.ne_nil_of_mem finished))
    exact (unopened rCode notNegative member).elim

theorem settled_snoc (side : Side) (number : Nat) (log : List AgentEntry)
    (entry : AgentEntry) :
    settled side number (log ++ [entry]) =
      settledEntry side number (settled side number log) entry := by
  simp [settled]

theorem FlagMemory.undisturbed_act (memory : FlagMemory config) (oneRole : OneRole config)
    (performed : Performed depth ticks (ThreadSystem.Passing trustworthy) config after tid op
      reply spawned) (held : after.world.held side = some number)
    (finished : jobsDone side ∈ history (owner side number) after.log)
    (clean : ⟨.note .compRestart, ()⟩ ∉ history (owner side number) after.log) :
    settled side number after.log = true := by
  rw [performed.log_eq, settled_snoc]
  simp only [settledEntry, Bool.or_eq_true, Bool.and_eq_true, decide_eq_true_eq]
  rcases performed.mem_cases finished with early | ⟨isOwner, isDone⟩
  · have heldBefore := performed.was_held (owner_object side number) early held
    have cleanBefore : ⟨.note .compRestart, ()⟩ ∉ history (owner side number) config.log :=
      fun member => clean (performed.mem_history member)
    refine .inr ⟨memory.undisturbed side number heldBefore early cleanBefore, ?_⟩
    rintro rfl
    obtain rfl := memory.restart_own oneRole performed heldBefore early
    rw [performed.history_self] at clean
    exact clean List.mem_concat_self
  · exact .inl ⟨isOwner, isDone.symm⟩

end Step

theorem flagMemory_of_reaches (reaches : (system depth ticks).Reaches Fresh
    (ThreadSystem.Passing trustworthy) config) : FlagMemory config := by
  refine agent_invariant ?start ?boot ?quiet ?act reaches
  case start =>
    rintro _ ⟨lockFile, record, rfl⟩
    refine ⟨by rintro ⟨⟩, by rintro (_ | _) number ⟨⟩, ?_, by rintro (_ | _) number ⟨⟩⟩
    rintro number (alive | nonempty)
    · cases alive
    · exact (nonempty rfl).elim
  case boot =>
    intro config after memory worldEq dead sameHistory _
    have nothing (side : Side) : after.world.held side = none := by
      rw [worldEq]
      cases side <;> rfl
    refine ⟨?_, by simp [nothing], ?_, by simp [nothing]⟩
    · rw [worldEq]
      rintro ⟨⟩
    · rintro number (alive | nonempty)
      · exact (dead _ alive).elim
      · simp only [sameHistory] at nonempty ⊢
        exact memory.opened number (.inr nonempty)
  case quiet =>
    intro config after entry memory quiet
    have sameHeld (side : Side) : after.world.held side = config.world.held side := by
      rw [quiet.world_eq]
      cases side <;> rfl
    have sameFlags : after.world.flags = config.world.flags := by rw [quiet.world_eq]
    have sameSettled (side : Side) (number : Nat) :
        settled side number after.log = settled side number config.log := by
      rw [quiet.log_eq, settled_snoc]
      cases entry with
      | did tid exchange => exact (quiet.silent tid exchange rfl).elim
      | _ => rfl
    constructor
    case declaredBy =>
      simp only [sameHeld, sameFlags, quiet.history_eq]
      exact memory.declaredBy
    case restarting =>
      simp only [sameHeld, sameFlags, quiet.history_eq]
      exact memory.restarting
    case opened =>
      simp only [quiet.history_eq]
      exact fun number runs =>
        memory.opened number (runs.imp_left (quiet.alive_of_object rfl))
    case undisturbed =>
      simp only [sameHeld, sameSettled, quiet.history_eq]
      exact memory.undisturbed
  case act =>
    intro config after tid op reply spawned memory performed
    have oneRole := oneRole_of_trustworthy performed.reached
    exact ⟨memory.declaredBy_act performed,
      fun _ _ => memory.restarting_act oneRole performed,
      fun _ => memory.opened_act performed,
      fun _ _ => memory.undisturbed_act oneRole performed⟩

/-! ## What a waiting callback knows -/

def CallView.found (view : CallView) : Side → Bool
  | .actv => view.foundActv
  | .stby => view.foundStby

/-- What a callback has read about its role is true of the role thread. -/
structure Trusts (view : CallView) (side : Side) (history : History) : Prop where
  sawDone : view.wait = .sawDone → ⟨.write .tasksDone true, ()⟩ ∈ history
  confirmed : view.wait = .confirmed → Declared side history
  found : view.found side = true → Declared side history

def WaitMemory (config : AgentConfiguration) : Prop :=
  ∀ caller callback side number, config.Alive (.call caller callback) →
    callback.side = some side → config.world.held side = some number →
      Trusts (callView (history (.call caller callback) config.log)) side
        (history (owner side number) config.log)

variable {view : CallView} {exchange : Exchange signature}

theorem see_sawDone (saw : (view.see exchange).wait = .sawDone) :
    view.wait = .sawDone ∨ exchange = ⟨.read .tasksDone, true⟩ := by
  unfold CallView.see at saw
  split at saw <;> first
    | exact .inl saw
    | (simp only [ite_eq_left_iff, reduceCtorEq, imp_false, Bool.not_eq_true,
        Bool.not_eq_false] at saw; exact .inr (by rw [saw]))
    | (split at saw <;> cases saw)

theorem see_confirmed (confirmed : (view.see exchange).wait = .confirmed) :
    view.wait = .confirmed ∨
      view.wait = .sawDone ∧ exchange = ⟨.read .compRestart, false⟩ := by
  unfold CallView.see at confirmed
  split at confirmed <;> first
    | exact .inl confirmed
    | (split at confirmed
       · next both => exact .inr ⟨both.1, by rw [both.2]⟩
       · cases confirmed)
    | (split at confirmed <;> cases confirmed)

theorem see_foundActv (found : (view.see exchange).foundActv = true) :
    view.foundActv = true ∨ exchange = ⟨.object .actvHeld, true⟩ := by
  unfold CallView.see at found
  split at found <;> first
    | exact .inl found
    | exact (Bool.or_eq_true _ _ ▸ found).imp_right fun held => by rw [held]

theorem see_foundStby (found : (view.see exchange).foundStby = true) :
    view.foundStby = true ∨ exchange = ⟨.object .stbyHeld, true⟩ := by
  unfold CallView.see at found
  split at found <;> first
    | exact .inl found
    | exact (Bool.or_eq_true _ _ ▸ found).imp_right fun held => by rw [held]

section WaitStep

variable {tid : Tid} {op : Op} {reply : op.Reply} {spawned : Option Tid}

variable {side : Side}

theorem Declared.act {number : Nat}
    (declared : Declared side (history (owner side number) config.log))
    (performed : Performed depth ticks allowed config after tid op reply spawned) :
    Declared side (history (owner side number) after.log) where
  declared := performed.mem_history declared.declared
  finished := performed.mem_history declared.finished
  clean := by
    intro member
    rcases performed.mem_cases member with early | ⟨rfl, isRestart⟩
    · exact declared.clean early
    · obtain rfl : Op.note .compRestart = op := congrArg Sigma.fst isRestart
      exact not_restart_of_declared performed.law declared.declared

theorem Trusts.act {view : CallView} {side : Side} {number : Nat}
    (trusts : Trusts view side (history (owner side number) config.log))
    (performed : Performed depth ticks allowed config after tid op reply spawned) :
    Trusts view side (history (owner side number) after.log) where
  sawDone saw := performed.mem_history (trusts.sawDone saw)
  confirmed isConfirmed := (trusts.confirmed isConfirmed).act performed
  found isFound := (trusts.found isFound).act performed

variable {callback : Callback}

/-- A callback that reads the flags while its object is held believes only what is
true. -/
theorem Trusts.see {caller : Nat} {number : Nat}
    (trusts : Trusts (callView (history (.call caller callback) config.log)) side
      (history (owner side number) config.log))
    (performed : Performed depth ticks (ThreadSystem.Passing trustworthy) config after
      (.call caller callback) op reply spawned) (asked : callback.side = some side)
    (held : config.world.held side = some number) :
    Trusts (callView (history (.call caller callback) after.log)) side
      (history (owner side number) config.log) := by
  obtain ⟨proposed, performs⟩ := performed.performs
  have memory := flagMemory_of_reaches performed.reached
  have oneRole := oneRole_of_trustworthy performed.reached
  have believed (isDone : config.world.flags .tasksDone = true)
      (noRestart : config.world.flags .compRestart = false) :
      Declared side (history (owner side number) config.log) :=
    memory.declared performed.reached held (memory.written oneRole held isDone) noRestart
  rw [performed.history_self, callView_snoc]
  constructor
  case sawDone =>
    intro saw
    rcases see_sawDone saw with before | isRead
    · exact trusts.sawDone before
    · obtain rfl : op = .read .tasksDone := congrArg Sigma.fst isRead
      obtain rfl : reply = true := by simpa using isRead
      obtain ⟨isDone, _, _⟩ := perform_act performs (by simp) (by simp)
      exact memory.written oneRole held isDone.symm
  case confirmed =>
    intro isConfirmed
    rcases see_confirmed isConfirmed with before | ⟨saw, isRead⟩
    · exact trusts.confirmed before
    · obtain rfl : op = .read .compRestart := congrArg Sigma.fst isRead
      obtain rfl : reply = false := by simpa using isRead
      obtain ⟨noRestart, _, _⟩ := perform_act performs (by simp) (by simp)
      exact memory.declared performed.reached held (trusts.sawDone saw) noRestart.symm
  case found =>
    intro isFound
    have trusted := performed.permitted
    cases side with
    | actv =>
      rcases see_foundActv isFound with before | isHeld
      · exact trusts.found before
      · obtain rfl : op = .object .actvHeld := congrArg Sigma.fst isHeld
        obtain rfl : reply = true := by simpa using isHeld
        cases callback with
        | toActive previous =>
          simp only [ThreadSystem.Passing, trustworthy, Bool.and_eq_true,
            Bool.not_eq_true'] at trusted
          exact believed trusted.1 trusted.2
        | _ => cases asked
    | stby =>
      rcases see_foundStby isFound with before | isHeld
      · exact trusts.found before
      · obtain rfl : op = .object .stbyHeld := congrArg Sigma.fst isHeld
        obtain rfl : reply = true := by simpa using isHeld
        cases callback with
        | toPassive previous =>
          simp only [ThreadSystem.Passing, trustworthy, Bool.and_eq_true,
            Bool.not_eq_true'] at trusted
          exact believed trusted.1 trusted.2
        | _ => cases asked

theorem callLaw_new {view : CallView} (law : callLaw callback view (.object (newObject side))) :
    view.wait = .idle ∧ view.found side = false := by
  cases side with
  | actv =>
    obtain ⟨_, idle, _, _, unfound, _⟩ := law
    exact ⟨idle, unfound⟩
  | stby =>
    obtain ⟨_, idle, _, unfound⟩ := law
    exact ⟨idle, unfound⟩

theorem see_new (view : CallView) (side : Side) (reply : (newObject side).Reply) :
    (view.see ⟨.object (newObject side), reply⟩).wait = view.wait ∧
      (view.see ⟨.object (newObject side), reply⟩).found side = view.found side := by
  cases side with
  | actv | stby => cases reply <;> exact ⟨rfl, rfl⟩

theorem trusts_of_made {caller : Nat}
    (performed : Performed depth ticks allowed config after (.call caller callback) op reply
      spawned) (isNew : op = .object (newObject side)) (believed : History) :
    Trusts (callView (history (.call caller callback) after.log)) side believed := by
  subst isNew
  obtain ⟨idle, unfound⟩ := callLaw_new performed.law
  obtain ⟨sameWait, sameFound⟩ :=
    see_new (callView (history (.call caller callback) config.log)) side reply
  rw [performed.history_self, callView_snoc]
  constructor
  · intro saw
    cases (sameWait.trans idle).symm.trans saw
  · intro isConfirmed
    cases (sameWait.trans idle).symm.trans isConfirmed
  · intro isFound
    cases (sameFound.trans unfound).symm.trans isFound

theorem WaitMemory.act (memory : WaitMemory config)
    (performed : Performed depth ticks (ThreadSystem.Passing trustworthy) config after tid op
      reply spawned) : WaitMemory after := by
  intro caller callback side number alive asked held
  have living := performed.call_alive alive
  have oneRole := oneRole_of_trustworthy performed.reached
  cases performed.roleChange with
  | same _ sameHeld kept =>
    rw [sameHeld] at held
    have trusts := memory caller callback side number living asked held
    by_cases acts : tid = .call caller callback
    · subst acts
      exact (trusts.see performed asked held).act performed
    · rw [performed.history_of_ne acts]
      exact trusts.act performed
  | made other makes made isNew otherAsked free isMade others alone flags =>
    obtain ⟨rfl, rfl⟩ := Tid.call.inj (performed.wellformed.only_call performed.living living)
    obtain rfl := Option.some.inj (otherAsked.symm.trans asked)
    exact trusts_of_made performed isNew _
  | deleted other deletes deleted wasHeld freed others flags =>
    by_cases same : side = deleted
    · rw [same, freed] at held
      cases held
    · rw [others side same] at held
      exact (same (oneRole.side_eq held wasHeld).symm).elim

end WaitStep

theorem waitMemory_of_reaches (reaches : (system depth ticks).Reaches Fresh
    (ThreadSystem.Passing trustworthy) config) : WaitMemory config := by
  refine agent_invariant ?start ?boot ?quiet ?act reaches
  case start => rintro world _ caller callback side number ⟨⟩
  case boot =>
    intro config after _ _ dead _ _ caller callback side number alive
    exact (dead _ alive).elim
  case quiet =>
    intro config after entry memory quiet caller callback side number alive asked held
    have heldBefore : config.world.held side = some number := by
      rw [quiet.world_eq] at held
      cases side <;> exact held
    rw [quiet.history_eq, quiet.history_eq]
    rcases quiet.alive _ alive with before | ⟨_, unused, _⟩
    · exact memory caller callback side number before asked heldBefore
    · rw [unused]
      exact ⟨by rintro ⟨⟩, by rintro ⟨⟩, by cases side <;> rintro ⟨⟩⟩
  case act => exact fun _ _ _ _ _ _ memory performed => memory.act performed

/-- In trustworthy runs a callback answers success only when the object of its role is
held and the thread of that object has finished its jobs, with no restart requested
since. -/
theorem success_means_role_up (reaches : (system depth ticks).Reaches Fresh
      (ThreadSystem.Passing trustworthy) config)
    {caller : Nat} {callback : Callback} {side : Side} (asked : callback.side = some side)
    (returns : config.Returns (.call caller callback) (.answered .success)) :
    ∃ number, config.world.held side = some number ∧ RoleUp side number config.log := by
  have post : callPost callback (callView (history (.call caller callback) config.log))
      .success := (system_lawful depth ticks).returns reaches returns
  obtain ⟨activePost, passivePost⟩ := post rfl
  have knows := (wellformed_of_reaches reaches).knows caller callback returns.alive
  have answered : (callView (history (.call caller callback) config.log)).held side = some true ∧
      ((callView (history (.call caller callback) config.log)).found side = true ∨
        (callView (history (.call caller callback) config.log)).wait = .confirmed) := by
    cases callback with
    | toActive previous =>
      obtain rfl := Option.some.inj asked
      exact activePost rfl
    | toPassive previous =>
      obtain rfl := Option.some.inj asked
      exact passivePost rfl
    | _ => cases asked
  obtain ⟨isHeld, trusted⟩ := answered
  obtain ⟨number, held⟩ := Option.isSome_iff_exists.mp (knows.held side true isHeld)
  have trusts := waitMemory_of_reaches reaches caller callback side number returns.alive asked held
  have declared : Declared side (history (owner side number) config.log) :=
    trusted.elim trusts.found trusts.confirmed
  exact ⟨number, held, (flagMemory_of_reaches reaches).undisturbed side number held
    declared.finished declared.clean, declared.clean⟩

def promptActivation : List (Event signature Tid) :=
  .arrive (.call 0 (.toActive .undefined)) ::
    turns (.call 0 (.toActive .undefined)) 12 favourable ++
    turns (.actvAdm 0) 7 favourable ++ turns (.roleMgr 0) 30 favourable ++
    turns (.call 0 (.toActive .undefined)) 4 favourable

theorem success_means_role_up_promptly :
    (scheduled trustworthy promptActivation).Returns (.call 0 (.toActive .undefined))
        (.answered .success) ∧
      ∃ number, (scheduled trustworthy promptActivation).world.held .actv = some number ∧
        RoleUp .actv number (scheduled trustworthy promptActivation).log := by
  have returns : (scheduled trustworthy promptActivation).Returns
      (.call 0 (.toActive .undefined)) (.answered .success) := by decide +kernel
  exact ⟨returns, success_means_role_up (reaches_scheduled _ _) rfl returns⟩

/-- The first callback gives up waiting; the second one finds the active object and
answers at once, while the role manager has not even been started. -/
def answeredTooEarly : List (Event signature Tid) :=
  activation 0 0 .undefined 0 favourable ++ .arrive (.call 1 (.toActive .active)) ::
    turns (.call 1 (.toActive .active)) 3 favourable

theorem success_without_jobs :
    ∃ config, (system 1 1).Reaches Fresh (fun _ _ => True) config ∧
      config.Returns (.call 1 (.toActive .active)) (.answered .success) ∧
      ¬∃ number, config.world.held .actv = some number ∧ RoleUp .actv number config.log := by
  refine ⟨scheduled (fun _ _ => true) answeredTooEarly,
    (reaches_scheduled _ _).mono fun _ _ _ => trivial, by decide +kernel, ?_⟩
  rintro ⟨number, held, up⟩
  have isFirst : (scheduled (fun _ _ => true) answeredTooEarly).world.held .actv = some 0 := by
    decide +kernel
  obtain rfl := Option.some.inj (isFirst.symm.trans held)
  have unsettled :
      settled .actv 0 (scheduled (fun _ _ => true) answeredTooEarly).log = false := by
    decide +kernel
  cases unsettled.symm.trans up.settled

end Apos.DrbdAgent
