import Apos.DrbdAgentInvariants

/-!
# The health check

`healthCheck` decides from the persistent record and from live queries whether the
data on this node may become the active copy.  The first part collects what it
guarantees about an activation; the second part runs it over a sequence of boots
with an inconsistent disk.
-/

namespace Apos.DrbdAgent

/-! ## Activation on healthy data -/

/-- Whatever the operations of its thread are answered, in particular in every HA mode
and for every content of the record, a role manager comes to its jobs only after a
health check that saw a finished synchronisation, a usable role and a disk that is up
to date. -/
theorem startJobs_only_when_healthy (depth ticks number : Nat) {history : History}
    {rest : Unit → Program signature ThreadResult}
    (follows : Program.Follows (body depth ticks (.roleMgr number)) history
      (.call (.note .startJobs) rest)) : Healthy history :=
  (follows.always (system_lawful depth ticks (.roleMgr number))).1.1

theorem healthy_before_favourable_startJobs :
    Healthy (history (.roleMgr 0)
      (scheduled (fun _ _ => true) (activation 0 0 .undefined 21 favourable)).log) := by
  have issues : (scheduled (fun _ _ => true) (activation 0 0 .undefined 21 favourable)).Issues
      (.roleMgr 0) (.note .startJobs) := by decide +kernel
  obtain ⟨program, thread, isNext⟩ := Option.bind_eq_some_iff.mp issues
  cases program with
  | call op rest =>
    obtain rfl := Option.some.inj isNext
    exact startJobs_only_when_healthy 1 1 0
      (((reaches_scheduled _ _).tracks (.roleMgr 0)).running _ thread)
  | pure | halt => cases isNext

/-! ## Reboots on an inconsistent disk -/

def failsOver {α : Type} (finished : Finished signature World α) : Bool :=
  decide (⟨.note .nodefailOver, ()⟩ ∈ finished.history) ||
    match finished.outcome with
    | .halted .exitFailure => true
    | _ => false

def goesOn (finished : Finished signature World Int) : Bool :=
  match finished.outcome with
  | .returned rCode => decide (0 ≤ rCode)
  | .halted _ => false

/-- What a boot finds: the answers of its environment, its memory, and the connection
state in the record. -/
structure Boot where
  env : Environment signature
  world : World
  cstate : String

def Boot.start (boot : Boot) (rebootCount : UInt32) : World :=
  { boot.world with record := some ⟨boot.cstate, rebootCount⟩ }

/-- The health checks of successive boots.  Only the reboot count in the record passes
from one to the next. -/
def healthChecks (depth : Nat) : UInt32 → List Boot → List (Finished signature World Int)
  | _, [] => []
  | rebootCount, boot :: boots =>
    let finished := (healthCheck depth).run machine boot.env (boot.start rebootCount) []
    finished ::
      healthChecks depth ((finished.state.record.map (·.rebootCount)).getD rebootCount) boots

/-- Every path of the program requests a failover or leaves the process. -/
def Recovers {α : Type} (program : Agent α) : Prop :=
  program.Ends fun exchanges outcome =>
    ⟨.note .nodefailOver, ()⟩ ∈ exchanges ∨ outcome = .halted .exitFailure

theorem Recovers.failsOver {α : Type} {program : Agent α} (recovers : Recovers program)
    (env : Environment signature) (world : World) (history : History) :
    failsOver (program.run machine env world history) = true := by
  obtain ⟨exchanges, extended, member | exits⟩ :=
    Program.Ends.run machine env recovers world history
  · simp [DrbdAgent.failsOver, extended, member]
  · simp [DrbdAgent.failsOver, exits]

theorem Recovers.after {α β : Type} {program : Agent α} {next : α → Agent β}
    (returns : program.Returns) (recovers : ∀ value, Recovers (next value)) :
    Recovers (program >>= next) := by
  refine Program.Ends.bind returns (fun exchanges value _ => (recovers value).mono ?_) ?_
  · exact fun later _ => Or.imp_left (List.mem_append_right exchanges)
  · rintro _ _ ⟨_, impossible⟩
    cases impossible

theorem failOrExit_recovers {α : Type} (depth : Nat) :
    Recovers (failOrExit (nodefailOver (depth + 1)) : Agent α) := by
  intro haMode
  cases haMode with
  | false => exact .inr rfl
  | true =>
    intro noted
    exact (Program.ends_trivial _).mono fun _ _ _ => .inl (by simp)

theorem refuseInconsistent_recovers (depth : Nat) (info : PersistantInfo) :
    Recovers (refuseInconsistent (depth + 1) info) := by
  refine .after (fun config => ⟨config, rfl⟩) fun config => ?_
  refine .after ?_ fun _ => .after ?_ fun _ => failOrExit_recovers depth
  · simp [Program.Returns, createRCF, ask, Program.perform]
  · simp [Program.Returns, writePersisInfo, Program.perform]

theorem healthCheck_refuses (depth : Nat) (env : Environment signature) {world : World}
    {info : PersistantInfo} (record : world.record = some info)
    (inconsistent : inconsistentState info.cstate = true) :
    failsOver ((healthCheck (depth + 1)).run machine env world []) = true ∧
      goesOn ((healthCheck (depth + 1)).run machine env world []) = false := by
  have refuses : (healthCheck (depth + 1)).run machine env world [] =
      (refuseInconsistent (depth + 1) info).run machine env world
        [⟨.loadRecord, some info⟩] := by
    simp [healthCheck, getPersisInfo, Program.perform, Program.run_call, act, record,
      inconsistent]
  rw [refuses]
  obtain ⟨_, _, cause, halted⟩ := Program.Ends.run machine env
    (refuseInconsistent_halts (depth + 1) info) world [⟨.loadRecord, some info⟩]
  exact ⟨(refuseInconsistent_recovers depth info).failsOver env _ _, by simp [goesOn, halted]⟩

theorem healthChecks_refuse (depth : Nat) (rebootCount : UInt32) {boots : List Boot}
    (inconsistent : ∀ boot ∈ boots, inconsistentState boot.cstate = true) :
    (healthChecks (depth + 1) rebootCount boots).length = boots.length ∧
      ∀ finished ∈ healthChecks (depth + 1) rebootCount boots,
        failsOver finished = true ∧ goesOn finished = false := by
  induction boots generalizing rebootCount with
  | nil => exact ⟨rfl, fun _ member => (List.not_mem_nil member).elim⟩
  | cons boot boots ih =>
    obtain ⟨first, others⟩ := List.forall_mem_cons.mp inconsistent
    obtain ⟨lengthEq, refused⟩ := ih _ others
    exact ⟨congrArg (· + 1) lengthEq,
      List.forall_mem_cons.mpr ⟨healthCheck_refuses depth boot.env rfl first, refused⟩⟩

/-- Whatever count is configured, every boot with an inconsistent disk fails over and
none lets the activation go on.  A limit on the reboots is kept exactly where there are
no more boots than the limit. -/
theorem reboots_within_limit_iff (depth : Nat) (rebootCount limit : UInt32)
    (boots : List Boot)
    (inconsistent : ∀ boot ∈ boots, inconsistentState boot.cstate = true) :
    ((healthChecks (depth + 1) rebootCount boots).countP failsOver ≤ limit.toNat ∧
      ∀ finished ∈ (healthChecks (depth + 1) rebootCount boots).drop limit.toNat,
        goesOn finished = true) ↔ boots.length ≤ limit.toNat := by
  obtain ⟨lengthEq, refused⟩ := healthChecks_refuse depth rebootCount inconsistent
  have all : (healthChecks (depth + 1) rebootCount boots).countP failsOver = boots.length := by
    rw [List.countP_eq_length.mpr fun finished member => (refused finished member).1, lengthEq]
  rw [all]
  refine ⟨fun bounded => bounded.1, fun bounded => ⟨bounded, ?_⟩⟩
  rw [List.drop_eq_nil_of_le (lengthEq ▸ bounded)]
  exact fun _ member => (List.not_mem_nil member).elim

def interruptedBoot : Boot where
  env := fun _ => favourable
  world := { freshWorld false none with flags := fun flag => flag == .haMode }
  cstate := "SyncTarget"

theorem reboots_within_limit_once :
    (healthChecks 1 0 [interruptedBoot]).countP failsOver ≤ (1 : UInt32).toNat ∧
      ∀ finished ∈ (healthChecks 1 0 [interruptedBoot]).drop (1 : UInt32).toNat,
        goesOn finished = true :=
  (reboots_within_limit_iff 0 0 1 [interruptedBoot] (by decide +kernel)).mpr (by decide)

theorem reboots_beyond_limit :
    (∀ boot ∈ [interruptedBoot, interruptedBoot], inconsistentState boot.cstate = true ∧
        ∀ history, (boot.env history (.ask .getConfig)).rebootCount = 1) ∧
      (healthChecks 1 0 [interruptedBoot, interruptedBoot]).countP failsOver = 2 ∧
      ∀ finished ∈ healthChecks 1 0 [interruptedBoot, interruptedBoot],
        goesOn finished = false := by
  refine ⟨?_, by decide +kernel, by decide +kernel⟩
  simp only [List.mem_cons, List.not_mem_nil, or_false, or_self, forall_eq]
  exact ⟨by decide +kernel, fun _ => rfl⟩

end Apos.DrbdAgent
