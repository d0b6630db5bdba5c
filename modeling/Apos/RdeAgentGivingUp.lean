import Apos.RdeAgentReservations
import Apos.RdeAgentOrder
import Apos.RdeAgentDownJobs

/-!
# Giving up the active role

An active agent gives up its role when AMF quiesces, removes or terminates it, or when it
is told to shut down.  The jobs it then does are skipped if they are marked as done or if
the agent counts as standby, and they release only disks that are taken for healthy.  So a
success does not mean that everything has been given up: that depends on what the agent
knows of its disks before it starts.
-/

namespace Apos.RdeAgent

open Stateful

/-! ## Effects of the graceful-down jobs -/

def Core.givingUp (core : Core) : List Effect :=
  core.released .one ++ (core.released .two ++ core.closing .success .success)

/-- `act` gives up what is listed in `list`: if it succeeds in an agent with this core, those
are its effects. -/
def GivesUpFrom (core : Core) (list : List Effect) (act : Act ReturnType) : Prop :=
  ∀ before, before.core = core → act.Meets before fun history result _ =>
    result = .success → effects history = list

variable (core : Core)

theorem handleRdeAgentGracefullDownJobs_givesUp :
    GivesUpFrom core (if core.skipsJobs then [] else core.givingUp)
      handleRdeAgentGracefullDownJobs := by
  rintro before rfl
  apply (handleRdeAgentGracefullDownJobs_meets before).mono
  rintro history result after jobs rfl
  generalize effects history = list at jobs
  cases jobs with
  | skipped skips => exact (if_pos skips).symm
  | closed works deactivation unmount succeeds =>
    obtain ⟨rfl, rfl⟩ := succeeds rfl
    simp [works, Core.givingUp]

theorem gracefullDownUnlessDone_givesUp :
    GivesUpFrom core (if core.skipsJobs then [] else core.givingUp)
      gracefullDownUnlessDone := by
  rintro before rfl
  apply meets_bind_get.mpr
  apply meets_ite.mpr ⟨fun isDone => ?_, fun _ => ?_⟩
  · have skips : before.core.skipsJobs = true := by simp_all [Core.skipsJobs, Agent.core]
    exact meets_pure.mpr fun _ => (if_pos skips).symm
  · exact handleRdeAgentGracefullDownJobs_givesUp _ before rfl

variable {before : Agent}

theorem meets_report {list : List Effect} {act : Act ReturnType} {α : Type}
    {report : ReturnType → Act α} (quiet : ∀ result, Quiet (report result))
    (gives : act.Meets before fun history result _ => result = .success → effects history = list) :
    Meets (act >>= fun result => report result >>= fun _ => pure result) before
      fun history result _ => result = .success → effects history = list := by
  apply gives.bind
  intro giving result mid spec
  apply (quiet result mid).bind
  rintro reporting _ after ⟨silent, -⟩
  apply meets_pure.mpr
  intro succeeded
  simp [silent, spec succeeded]

/-! ## Events that give up the role -/

/-- The events by which the agent gives up its role: quiescing and quiesced from active,
remove, terminate and shutdown. -/
def Agent.GivesUp (agent : Agent) : Event → Prop
  | .csiSet target => (target = .quiescing ∨ target = .quiesced) ∧ agent.haState = .active
  | .csiRemove | .csiTerminate | .shutdownSignal => True
  | _ => False

def Agent.skips (agent : Agent) (event : Event) : Bool :=
  agent.core.skipsJobs || (event = .shutdownSignal && agent.haState = .standby)

def Agent.givingUp (agent : Agent) (event : Event) : List Effect :=
  if agent.skips event then [] else agent.core.givingUp

theorem answerAmf_quiet (previous : HAState) {answer : Act ReturnType} (quiet : Quiet answer) :
    Quiet (answerAmf previous answer) :=
  quiet.bind fun _ => .of_ite (.of_modify fun _ => rfl) (.of_pure _)

theorem quiesceJobs_givesUp (target : HAState) (notActive : .active ≠ target) :
    GivesUpFrom core (if core.skipsJobs then [] else core.givingUp)
      (quiesceJobs target .active) := by
  rw [quiesceJobs, if_neg notActive, if_pos rfl]
  exact gracefullDownUnlessDone_givesUp core

theorem performApplicationShutdownJobs_givesUp (before : Agent) :
    performApplicationShutdownJobs.Meets before fun history result _ =>
      result = .success → effects history = before.givingUp .shutdownSignal := by
  unfold Agent.givingUp
  apply meets_bind_get.mpr
  apply meets_ite.mpr ⟨fun isStandby => ?_, fun notStandby => ?_⟩
  · have skips : before.skips .shutdownSignal = true := by simp [Agent.skips, isStandby]
    apply meets_bind_modify.mpr
    exact meets_pure.mpr fun _ => (if_pos skips).symm
  have isSkips : before.skips .shutdownSignal = before.core.skipsJobs := by
    simp [Agent.skips, notStandby]
  rw [isSkips]
  apply meets_ite.mpr ⟨fun isDone => ?_, fun _ => ?_⟩
  · have skips : before.core.skipsJobs = true := by simp_all [Core.skipsJobs, Agent.core]
    exact meets_pure.mpr fun _ => (if_pos skips).symm
  apply (handleRdeAgentGracefullDownJobs_givesUp _ before rfl).bind
  intro giving result mid spec
  apply meets_ite.mpr ⟨fun _ => meets_pure.mpr ReturnType.noConfusion, fun isDone => ?_⟩
  apply meets_bind_modify.mpr
  apply meets_pure.mpr
  intro _
  simpa using spec (by cases result <;> simp_all)

theorem performComponentRemoveJobs_givesUp (notStandby : before.haState ≠ .standby) :
    performComponentRemoveJobs.Meets before fun history result _ =>
      result = .success →
        effects history = if before.core.skipsJobs then [] else before.core.givingUp := by
  apply meets_bind_get.mpr
  rw [if_neg notStandby]
  exact gracefullDownUnlessDone_givesUp _ before rfl

variable (codeOf : ReturnType → Int) {event : Event}

theorem handle_givesUp (givesUp : before.GivesUp event) :
    (handle codeOf event).Meets before fun history result _ =>
      result = .success → effects history = before.givingUp event := by
  have isSkips : event ≠ .shutdownSignal → before.skips event = before.core.skipsJobs := by
    intro notShutdown
    simp [Agent.skips, notShutdown]
  cases event with
  | csiSet target =>
    obtain ⟨isTarget, isActive⟩ := givesUp
    rw [Agent.givingUp, isSkips nofun]
    apply meets_bind_get.mpr
    apply meets_bind_modify.mpr
    rw [isActive]
    rcases isTarget with rfl | rfl
    · rw [if_pos rfl]
      apply meets_bind_ask.mpr
      intro _
      apply meets_report
      · exact fun _ => answerAmf_quiet _ (.of_ask fun _ => rfl)
      · exact quiesceJobs_givesUp before.core .quiescing (by decide) _ rfl
    · rw [if_neg (by decide)]
      apply meets_report
      · exact fun _ => answerAmf_quiet _ (.of_ask fun _ => rfl)
      · exact quiesceJobs_givesUp before.core .quiesced (by decide) _ rfl
  | csiRemove =>
    rw [Agent.givingUp, isSkips nofun]
    apply meets_bind_modify.mpr
    apply meets_report
    · exact fun _ => .of_ask fun _ => rfl
    · exact performComponentRemoveJobs_givesUp nofun
  | csiTerminate =>
    rw [Agent.givingUp, isSkips nofun]
    apply meets_bind_modify.mpr
    apply meets_report
    · exact fun _ => .of_ask fun _ => rfl
    · apply meets_bind_modify.mpr
      exact performComponentRemoveJobs_givesUp nofun
  | shutdownSignal => exact performApplicationShutdownJobs_givesUp before
  | _ => exact givesUp.elim

/-! ## Giving up after an activation -/

/-- No activation: AMF may confirm the active role of an active agent. -/
def KeepsRole (agent : Agent) (event : Event) : Prop :=
  Enabled agent event ∧ (event = .csiSet .active → agent.haState = .active)

theorem confirmed_quiet (isActive : before.haState = .active) :
    (handle codeOf (.csiSet .active)).Meets before fun history _ after =>
      effects history = [] ∧ after.core = before.core := by
  apply meets_bind_get.mpr
  apply meets_bind_modify.mpr
  rw [isActive, if_neg (by decide)]
  apply meets_bind.mpr
  apply meets_pure.mpr
  exact ((answerAmf_quiet _ (.of_ask fun _ => rfl)).bind fun _ => .of_pure _) _

theorem activation_configures (notActive : before.haState ≠ .active) :
    (handle codeOf (.csiSet .active)).Meets before fun _ result after =>
      result = .success → after.core.Configured := by
  apply meets_bind_get.mpr
  apply meets_bind_modify.mpr
  rw [if_neg (by decide)]
  apply (performStateTransitionToActiveJobs_leads codeOf notActive _ (none, True) trivial).bind
  intro _ result active activated
  apply (answerAmf_quiet _ (.of_ask fun _ => rfl) active).bind
  rintro _ _ after ⟨-, same⟩
  apply meets_pure.mpr
  intro succeeded
  rw [same]
  exact (activated fun _ _ => trivial).2 succeeded

theorem configured_of_runs {codeOf : ReturnType → Int} {start final : Agent}
    {steps : List AgentStep} (runs : Runs (handle codeOf) KeepsRole start steps final)
    (configured : start.core.Configured) : final.core.Configured := by
  induction runs with
  | nil => exact configured
  | @snoc steps mid final event exchanges value before isEnabled executes ih =>
    by_cases isActive : event = .csiSet .active
    · subst isActive
      rw [((confirmed_quiet codeOf (isEnabled.2 rfl)).elim executes).2]
      exact ih
    · have kept := configured_only.inProgress.handle codeOf isActive mid (none, True) ⟨trivial, ih⟩
      exact (kept.elim executes fun _ _ => trivial).2

/-- Every disk taken in the history has been released again, and the commands that unmount
the array and deactivate the MIPs have succeeded. -/
structure GivenUp (history : List (Exchange commands)) : Prop where
  released : ∀ disk, heldAfter history disk = false
  unmounted : .unmount .success ∈ effects history
  deactivated : .deactivate .success ∈ effects history

/-- The agent does the graceful-down jobs, and one of its ports is flagged as having the
disk reserved and healthy. -/
def Agent.Releases (agent : Agent) (event : Event) (disk : String) : Prop :=
  agent.skips event = false ∧ ∃ port, (agent.disk port).diskname = disk ∧
    (agent.disk port).isHealthy = true ∧ (agent.disk port).isReserved = true

/-- Whatever is not given up in the history, the jobs of the agent will see to. -/
structure Agent.CanGiveUp (agent : Agent) (event : Event)
    (history : List (Exchange commands)) : Prop where
  releases : ∀ disk, heldAfter history disk = true → agent.Releases event disk
  unmounts : .unmount .success ∉ effects history →
    agent.skips event = false ∧ agent.isRAIDConfigured = true
  deactivates : .deactivate .success ∉ effects history →
    agent.skips event = false ∧ agent.isMIPConfigured = true

theorem heldAfter_append (first second : List (Exchange commands)) :
    heldAfter (first ++ second) = (effects second).foldl Held.after (heldAfter first) := by
  rw [heldAfter, effects_append, List.foldl_append]
  rfl

theorem foldl_released (port : Port) (held : Held) (disk : String) :
    (core.released port).foldl Held.after held disk = true ↔
      held disk = true ∧ ¬((core.disk port).diskname = disk ∧ core.Releases port) := by
  unfold Core.released
  split
  · next releases =>
      by_cases isNamed : (core.disk port).diskname = disk
      · simp [Held.after, Held.set, releases, isNamed]
      · simp [Held.after, Held.set, isNamed, Ne.symm isNamed]
  · next isFree => simp [isFree]

theorem foldl_closing (deactivation unmount : ReturnType) (held : Held) :
    (core.closing deactivation unmount).foldl Held.after held = held := by
  unfold Core.closing
  split <;> split <;> rfl

variable (agent : Agent)

theorem held_givingUp (event : Event) (held : Held) (disk : String) :
    (agent.givingUp event).foldl Held.after held disk = true ↔
      held disk = true ∧ ¬agent.Releases event disk := by
  unfold Agent.givingUp Agent.Releases
  split
  · next skips => simp [skips]
  · next works =>
      rw [Core.givingUp, List.foldl_append, List.foldl_append, foldl_closing, foldl_released,
        foldl_released, and_assoc, ← not_or, Bool.eq_false_iff.mpr works]
      simp only [Agent.diskname_core, Agent.isHealthy_core, Agent.isReserved_core, true_and]
      apply and_congr_right
      intro _
      apply not_congr
      constructor
      · rintro (first | second)
        · exact ⟨.one, first⟩
        · exact ⟨.two, second⟩
      · rintro ⟨_ | _, releases⟩
        · exact .inl releases
        · exact .inr releases

theorem not_mem_released {core : Core} {port : Port} {effect : Effect}
    (notRelease : ∀ disk, effect ≠ .release disk .success) : effect ∉ core.released port := by
  unfold Core.released
  split
  · exact fun member => notRelease _ (List.mem_singleton.mp member)
  · exact List.not_mem_nil

theorem mem_givingUp {agent : Agent} (effect : Effect)
    (notRelease : ∀ disk, effect ≠ .release disk .success) :
    effect ∈ agent.givingUp event ↔
      agent.skips event = false ∧ effect ∈ agent.core.closing .success .success := by
  unfold Agent.givingUp
  split
  · next skips => simp [skips]
  · next works =>
      simp [Core.givingUp, not_mem_released notRelease, Bool.eq_false_iff.mpr works]

theorem unmount_mem_givingUp (event : Event) :
    .unmount .success ∈ agent.givingUp event ↔
      agent.skips event = false ∧ agent.isRAIDConfigured = true := by
  rw [mem_givingUp (.unmount .success) fun _ => nofun]
  simp [Core.mem_closing, Agent.core]

theorem deactivate_mem_givingUp (event : Event) :
    .deactivate .success ∈ agent.givingUp event ↔
      agent.skips event = false ∧ agent.isMIPConfigured = true := by
  rw [mem_givingUp (.deactivate .success) fun _ => nofun]
  simp [Core.mem_closing, Agent.core]

theorem givenUp_append {codeOf : ReturnType → Int} {after : Agent}
    {giving : List (Exchange commands)} (history : List (Exchange commands))
    (givesUp : before.GivesUp event)
    (executes : (handle codeOf event).Executes before giving .success after) :
    GivenUp (history ++ giving) ↔ before.CanGiveUp event history := by
  have given : effects giving = before.givingUp event :=
    (handle_givesUp codeOf givesUp).elim executes rfl
  constructor
  · rintro ⟨released, unmounted, deactivated⟩
    rw [heldAfter_append, given] at released
    rw [effects_append, given, List.mem_append, unmount_mem_givingUp] at unmounted
    rw [effects_append, given, List.mem_append, deactivate_mem_givingUp] at deactivated
    refine ⟨fun disk isHeld => ?_, unmounted.resolve_left, deactivated.resolve_left⟩
    by_contra isKept
    have stillHeld := (held_givingUp before event _ disk).mpr ⟨isHeld, isKept⟩
    simp [released disk] at stillHeld
  · rintro ⟨releases, unmounts, deactivates⟩
    constructor
    · intro disk
      rw [heldAfter_append, given, Bool.eq_false_iff, Ne, held_givingUp]
      exact fun ⟨isHeld, isKept⟩ => isKept (releases disk isHeld)
    · rw [effects_append, given, List.mem_append, unmount_mem_givingUp]
      exact Classical.or_iff_not_imp_left.mpr unmounts
    · rw [effects_append, given, List.mem_append, deactivate_mem_givingUp]
      exact Classical.or_iff_not_imp_left.mpr deactivates

/-- After an activation that succeeded, and while the agent keeps its role, an event that
gives up the role and succeeds has given up everything taken since the activation exactly
if the jobs could see to all that was not given up before.  Unless the activation merely
confirmed the active role, the agent is configured then. -/
theorem role_given_up_iff {codeOf : ReturnType → Int} {idle active before after : Agent}
    {taking giving : List (Exchange commands)} {steps : List AgentStep} {event : Event}
    (activates : (handle codeOf (.csiSet .active)).Executes idle taking .success active)
    (runs : Runs (handle codeOf) KeepsRole active steps before)
    (givesUp : before.GivesUp event)
    (executes : (handle codeOf event).Executes before giving .success after) :
    (GivenUp (taking ++ exchangesOf steps ++ giving) ↔
      before.CanGiveUp event (taking ++ exchangesOf steps)) ∧
    (idle.haState ≠ .active → before.isStateAssgned = true ∧
      before.isRAIDConfigured = true ∧ before.isMIPConfigured = true) := by
  refine ⟨givenUp_append _ givesUp executes, fun notActive => ?_⟩
  exact configured_of_runs runs ((activation_configures codeOf notActive).elim activates rfl)

/-- In a run from an activation that is no mere confirmation, only the disks can be missed by jobs
that are done at its end: array and MIPs are always given up. -/
theorem given_up_iff_disks_flagged {codeOf : ReturnType → Int} {idle active before after : Agent}
    {taking giving : List (Exchange commands)} {steps : List AgentStep} {event : Event}
    (activates : (handle codeOf (.csiSet .active)).Executes idle taking .success active)
    (notActive : idle.haState ≠ .active)
    (runs : Runs (handle codeOf) KeepsRole active steps before)
    (givesUp : before.GivesUp event) (works : before.skips event = false)
    (executes : (handle codeOf event).Executes before giving .success after) :
    GivenUp (taking ++ exchangesOf steps ++ giving) ↔
      ∀ disk, heldAfter (taking ++ exchangesOf steps) disk = true → before.Releases event disk := by
  obtain ⟨-, array, mips⟩ :=
    configured_of_runs runs ((activation_configures codeOf notActive).elim activates rfl)
  rw [givenUp_append _ givesUp executes]
  exact ⟨Agent.CanGiveUp.releases, fun releases => ⟨releases, fun _ => ⟨works, array⟩,
    fun _ => ⟨works, mips⟩⟩⟩

instance (agent : Agent) : DecidablePred (KeepsRole agent) :=
  fun _ => inferInstanceAs (Decidable (_ ∧ _))

def ordinaryAgent : Agent :=
  { Agent.initial with
    portOne := ⟨true, ⟨"sda", true, false, false⟩⟩
    portTwo := ⟨true, ⟨"sdb", true, false, false⟩⟩
    nodeId := 1, gepId := 1 }

def ordinaryActive : Agent :=
  { ordinaryAgent with
    portOne := ⟨true, ⟨"sda", true, true, true⟩⟩
    portTwo := ⟨true, ⟨"sdb", true, true, true⟩⟩
    nodeA := ⟨⟨true, true⟩, ⟨true, true⟩⟩
    nodeB := ⟨⟨true, true⟩, ⟨true, true⟩⟩
    isStateAssgned := true, isRAIDConfigured := true, isMIPConfigured := true
    haState := .active }

/-- An ordinary agent is activated, updates its disks and is quiesced, and has given up
everything then. -/
theorem role_given_up_ordinary :
    ∃ setup after taking steps giving, RunsTo (fun _ => 0) setup [] ordinaryAgent ∧
      (handle (fun _ => 0) (.csiSet .active)).Executes ordinaryAgent taking .success
        ordinaryActive ∧
      Runs (handle fun _ => 0) KeepsRole ordinaryActive steps ordinaryActive ∧
      (handle (fun _ => 0) (.csiSet .quiesced)).Executes ordinaryActive giving .success after ∧
      GivenUp (taking ++ exchangesOf steps ++ giving) := by
  have activates := executes_answered (show (Program.answered (S := commands) ordinary
    (handle (fun _ => 0) (.csiSet .active) ordinaryAgent)).2 = some (.success, ordinaryActive)
    from rfl)
  have runs := runs_play .nil (show play (handle fun _ => 0) KeepsRole
    [(.diskSignal, ordinary), (.deviceStatus, ordinary)] [] ordinaryActive =
      some (_, ordinaryActive) from rfl)
  have gives := executes_answered (show (Program.answered (S := commands) ordinary
    (handle (fun _ => 0) (.csiSet .quiesced) ordinaryActive)).2 = some (.success, _) from rfl)
  have givesUp : ordinaryActive.GivesUp (.csiSet .quiesced) := ⟨.inr rfl, rfl⟩
  refine ⟨_, _, _, _, _, runsTo_play [] rfl, activates, runs, gives, ?_⟩
  apply (role_given_up_iff activates runs givesUp gives).1.mpr
  refine ⟨fun disk isHeld => ⟨rfl, ?_⟩, fun _ => ⟨rfl, rfl⟩, fun _ => ⟨rfl, rfl⟩⟩
  have isTaken : (if disk = "sdb" then true else if disk = "sda" then true else false) = true :=
    isHeld
  by_cases isSecond : disk = "sdb"
  · exact ⟨.two, isSecond.symm, rfl, rfl⟩
  · simp only [isSecond, if_false, Bool.if_false_right, Bool.and_true, decide_eq_true_eq]
      at isTaken
    exact ⟨.one, isTaken.symm, rfl, rfl⟩

def firstMissing : (op : Op) → op.Reply
  | .listPortDisk => some ⟨[⟨.one, "null"⟩, ⟨.two, "sdb"⟩], true⟩
  | op => ordinary op

def unregistered : (op : Op) → op.Reply
  | .scsi .registerRenewDatadisk _ => .failure
  | .scsi .clearRegistrations _ => .failure
  | op => ordinary op

/-- An active agent takes its first disk for faulty after an update of the disk status; when
it is quiesced it succeeds without releasing that disk.  If the disks cannot be registered
at an update of disks and array, the agent gives everything up and takes the disks
again; when it is quiesced it succeeds without doing anything. -/
theorem role_kept_after_update :
    (∃ setup active signal status quiesced final,
      RunsTo (fun _ => 0) setup [⟨.csiSet .active, active, .success⟩,
        ⟨.diskSignal, signal, .success⟩, ⟨.deviceStatus, status, .success⟩,
        ⟨.csiSet .quiesced, quiesced, .success⟩] final ∧
      heldAfter (active ++ signal ++ status ++ quiesced) "sda" = true) ∧
    ∃ setup active signal signal' status quiesced final,
      RunsTo (fun _ => 0) setup [⟨.csiSet .active, active, .success⟩,
        ⟨.diskSignal, signal, .success⟩, ⟨.raidSignal, signal', .success⟩,
        ⟨.deviceStatus, status, .success⟩, ⟨.csiSet .quiesced, quiesced, .success⟩] final ∧
      heldAfter (active ++ signal ++ signal' ++ status ++ quiesced) "sda" = true := by
  constructor
  · exact ⟨_, _, _, _, _, _, runsTo_play [(.csiSet .active, ordinary), (.diskSignal, ordinary),
      (.deviceStatus, firstMissing), (.csiSet .quiesced, firstMissing)] rfl, by decide +kernel⟩
  · exact ⟨_, _, _, _, _, _, _, runsTo_play [(.csiSet .active, ordinary),
      (.diskSignal, ordinary), (.raidSignal, ordinary), (.deviceStatus, unregistered),
      (.csiSet .quiesced, ordinary)] rfl, by decide +kernel⟩

end Apos.RdeAgent
