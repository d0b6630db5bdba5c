import Apos.RdeAgentTransitions

/-!
# Effects of the MD HA agent

Most exchanges of the agent only ask for something.  The *effects* of a history are the
exchanges that change who holds a disk, the array or the MIPs, and those that change what
the agent takes for its disks.  For each function on the disks this file says which
effects it has, what it returns and how it changes the agent.
-/

namespace Apos.RdeAgent

open Stateful

/-- An exchange that matters outside, or for what the agent holds its disks to be. -/
inductive Effect where
  | taken (disk : String)
  | release (disk : String) (result : ReturnType)
  | assemble (result : ReturnType)
  | unmount (result : ReturnType)
  | activate (result : ReturnType)
  | deactivate (result : ReturnType)
  | portList (list : Option PortList)
  | raidList (list : Option RaidList)
  | reservationAlgo (result : ReturnType)

/-- The effect of one exchange, if any.  A disk is taken by a reservation or a preemption
that succeeds. -/
def effect? : Exchange commands → Option Effect
  | ⟨.scsi .reserveDatadisk disk, .success⟩ => some (.taken disk)
  | ⟨.scsi .preemptDisk disk, .success⟩ => some (.taken disk)
  | ⟨.scsi .releaseReservations disk, result⟩ => some (.release disk result)
  | ⟨.assembleMount, result⟩ => some (.assemble result)
  | ⟨.disableUnmount, result⟩ => some (.unmount result)
  | ⟨.activateMIPs _, result⟩ => some (.activate result)
  | ⟨.deactivateMIPs, result⟩ => some (.deactivate result)
  | ⟨.listPortDisk, list⟩ => some (.portList list)
  | ⟨.listRaidDisks, list⟩ => some (.raidList list)
  | ⟨.mark (.reservationAlgo result), _⟩ => some (.reservationAlgo result)
  | _ => none

def effects (history : List (Exchange commands)) : List Effect :=
  history.filterMap effect?

@[simp]
theorem effects_append (first second : List (Exchange commands)) :
    effects (first ++ second) = effects first ++ effects second :=
  List.filterMap_append

/-! ## The core of the agent -/

/-- What the agent knows of its disks and of its role, apart from registrations. -/
structure Core where
  portOne : DataDisk
  portTwo : DataDisk
  isMIPConfigured : Bool
  isRAIDConfigured : Bool
  isAgentStanby : Bool
  isStateAssgned : Bool
  gracefullDownJobsDone : Bool

def Agent.core (agent : Agent) : Core where
  portOne := { agent.portOne.disk with isRegistered := false }
  portTwo := { agent.portTwo.disk with isRegistered := false }
  isMIPConfigured := agent.isMIPConfigured
  isRAIDConfigured := agent.isRAIDConfigured
  isAgentStanby := agent.isAgentStanby
  isStateAssgned := agent.isStateAssgned
  gracefullDownJobsDone := agent.gracefullDownJobsDone

namespace Core

def disk (core : Core) : Port → DataDisk
  | .one => core.portOne
  | .two => core.portTwo

def mapDisk (port : Port) (update : DataDisk → DataDisk) (core : Core) : Core :=
  match port with
  | .one => { core with portOne := update core.portOne }
  | .two => { core with portTwo := update core.portTwo }

def setReserved (core : Core) (port : Port) (isReserved : Bool) : Core :=
  core.mapDisk port fun disk => { disk with isReserved }

theorem disk_mapDisk (core : Core) (port other : Port) (update : DataDisk → DataDisk) :
    (core.mapDisk port update).disk other =
      if other = port then update (core.disk port) else core.disk other := by
  cases port <;> cases other <;> rfl

end Core

namespace Agent

variable (agent : Agent) (port : Port)

theorem diskname_core : (agent.disk port).diskname = (agent.core.disk port).diskname := by
  cases port <;> rfl

theorem isHealthy_core : (agent.disk port).isHealthy = (agent.core.disk port).isHealthy := by
  cases port <;> rfl

theorem isReserved_core : (agent.disk port).isReserved = (agent.core.disk port).isReserved := by
  cases port <;> rfl

@[simp]
theorem core_setRegistered (isRegistered : Bool) :
    (agent.setRegistered port isRegistered).core = agent.core := by
  cases port <;> rfl

@[simp]
theorem core_setReserved (isReserved : Bool) :
    (agent.setReserved port isReserved).core = agent.core.setReserved port isReserved := by
  cases port <;> rfl

end Agent

theorem exists_flagged (isFlagged : Port → Bool)
    (notNone : ¬(!isFlagged .one && !isFlagged .two) = true) : ∃ port, isFlagged port = true := by
  cases first : isFlagged .one with
  | true => exact ⟨.one, first⟩
  | false => exact ⟨.two, by simpa [first] using notNone⟩

theorem none_flagged (isFlagged : Port → Bool)
    (areBothFalse : (!isFlagged .one && !isFlagged .two) = true) (port : Port) :
    isFlagged port = false := by
  simp only [Bool.and_eq_true, Bool.not_eq_true'] at areBothFalse
  cases port with
  | one => exact areBothFalse.1
  | two => exact areBothFalse.2

/-! ## Listings -/

namespace Core

variable (core : Core) (port : Port)

def setUnhealthy : Core :=
  core.mapDisk port fun disk => { disk with isHealthy := false }

def setFound (diskname : String) : Core :=
  core.mapDisk port fun disk => { disk with diskname, isHealthy := true }

/-- Both disks are taken for faulty, and those in the lines of `--list-port-disk` for
healthy. -/
def withPortList (list : Option PortList) : Core :=
  (list.elim [] PortList.lines).foldl (fun core line =>
    if line.name = "null" then core else core.setFound line.port line.name)
    ((core.setUnhealthy .one).setUnhealthy .two)

/-- Both disks are taken for faulty, and those active or spare in the lines of
`--list-raid-disks` for healthy. -/
def withRaidList (list : Option RaidList) : Core :=
  (list.elim [] RaidList.lines).foldl (fun core line =>
    if line.state = "active" ∨ line.state = "spare" then core.setFound line.port line.name
    else core) ((core.setUnhealthy .one).setUnhealthy .two)

variable {core} (holds : Core → Prop)

theorem withPortList_keeps {list : Option PortList}
    (unhealthy : ∀ core port, holds core → holds (core.setUnhealthy port))
    (found : ∀ core, ∀ line ∈ list.elim [] PortList.lines, line.name ≠ "null" → holds core →
      holds (core.setFound line.port line.name))
    (start : holds core) : holds (core.withPortList list) := by
  apply List.foldlRecOn _ _ (unhealthy _ _ (unhealthy _ _ start))
  intro core ok line member
  split
  · exact ok
  · next isFound => exact found core line member isFound ok

theorem withRaidList_keeps {list : Option RaidList}
    (unhealthy : ∀ core port, holds core → holds (core.setUnhealthy port))
    (found : ∀ core, ∀ line ∈ list.elim [] RaidList.lines,
      line.state = "active" ∨ line.state = "spare" → holds core →
      holds (core.setFound line.port line.name))
    (start : holds core) : holds (core.withRaidList list) := by
  apply List.foldlRecOn _ _ (unhealthy _ _ (unhealthy _ _ start))
  intro core ok line member
  split
  · next isFound => exact found core line member isFound ok
  · exact ok

end Core

namespace Agent

variable (agent : Agent)

theorem core_setDiskHealthy (port : Port) :
    (agent.setDiskHealthy port false).core = agent.core.setUnhealthy port := by
  cases port <;> rfl

theorem core_setFound (port : Port) (name : String) :
    (agent.setFound port name).core = agent.core.setFound port name := by
  cases port <;> rfl

theorem core_findPortDisks (list : PortList) :
    (((agent.setDiskHealthy .one false).setDiskHealthy .two false).findPortDisks
      list.lines).core = agent.core.withPortList (some list) := by
  rw [Core.withPortList, ← core_setDiskHealthy, ← core_setDiskHealthy]
  symm
  apply List.foldl_hom Agent.core
  intro agent line
  split
  · rfl
  · exact (agent.core_setFound _ _).symm

theorem core_findRaidDisks (list : RaidList) :
    (((agent.setDiskHealthy .one false).setDiskHealthy .two false).findRaidDisks
      list.lines).core = agent.core.withRaidList (some list) := by
  rw [Core.withRaidList, ← core_setDiskHealthy, ← core_setDiskHealthy]
  symm
  apply List.foldl_hom Agent.core
  intro agent line
  split
  · exact (agent.core_setFound _ _).symm
  · rfl

end Agent

/-! ## Functions without effects -/

/-- The function has no effects and leaves the core of the agent as it is. -/
def Quiet {α : Type} (act : Act α) : Prop :=
  ∀ before, act.Meets before fun history _ after =>
    effects history = [] ∧ after.core = before.core

namespace Quiet

variable {α β : Type}

theorem of_pure (value : α) : Quiet (pure value) :=
  fun _ => meets_pure.mpr ⟨rfl, rfl⟩

theorem bind {act : Act α} {next : α → Act β} (first : Quiet act)
    (second : ∀ value, Quiet (next value)) : Quiet (act >>= next) := by
  intro before
  rw [meets_bind]
  apply (first before).mono
  rintro left mid state ⟨silent, same⟩
  apply (second mid state).mono
  rintro right value after ⟨stillSilent, stillSame⟩
  rw [effects_append, silent, stillSilent, stillSame, same]
  exact ⟨rfl, rfl⟩

theorem of_ask {op : Op} (silent : ∀ reply, effect? ⟨op, reply⟩ = none) : Quiet (ask op) := by
  intro before
  apply meets_ask.mpr
  intro reply
  exact ⟨by simp [effects, silent reply], rfl⟩

theorem of_get : Quiet get :=
  fun _ => meets_get.mpr ⟨rfl, rfl⟩

theorem of_modify {change : Agent → Agent}
    (same : ∀ agent, (change agent).core = agent.core) : Quiet (modify change) :=
  fun before => meets_modify.mpr ⟨rfl, same before⟩

theorem of_ite {condition : Prop} [Decidable condition] {first second : Act α}
    (left : Quiet first) (right : Quiet second) :
    Quiet (if condition then first else second) := by
  split
  · exact left
  · exact right

end Quiet

theorem launch_quiet {command : ScsiCommand} (disk : String)
    (silent : ∀ result, effect? ⟨.scsi command disk, result⟩ = none) :
    Quiet (launch command disk) :=
  .of_ask silent

theorem attempt_quiet {command : ScsiCommand} (disk : String)
    (silent : ∀ result, effect? ⟨.scsi command disk, result⟩ = none) (attempts : Nat) :
    Quiet (attempt command disk attempts) := by
  induction attempts with
  | zero => exact .of_pure _
  | succ attempts ih =>
    apply (launch_quiet disk silent).bind
    rintro (_ | _)
    · exact .of_pure _
    · exact ih

theorem registerPort_quiet (port credited : Port) : Quiet (registerPort port credited) := by
  have flagged : ∀ port, Quiet (do
      modify (Agent.setRegistered port true)
      pure ReturnType.success) := fun port =>
    (Quiet.of_modify fun agent => agent.core_setRegistered port true).bind fun _ => .of_pure _
  apply Quiet.of_get.bind
  intro agent
  apply Quiet.of_ite
  · apply (attempt_quiet _ (fun _ => rfl) _).bind
    rintro (_ | _)
    · exact flagged port
    · apply (launch_quiet _ fun _ => rfl).bind
      rintro (_ | _)
      · exact flagged credited
      · exact .of_pure _
  · exact .of_pure _

theorem registerReachableDataDisks_quiet : Quiet registerReachableDataDisks := by
  apply (Quiet.of_modify fun agent => agent.core_setRegistered _ _).bind
  intro
  apply (Quiet.of_modify fun agent => agent.core_setRegistered _ _).bind
  intro
  apply (registerPort_quiet _ _).bind
  intro
  apply Quiet.of_ite (.of_pure _)
  apply (registerPort_quiet _ _).bind
  intro
  apply Quiet.of_ite (.of_pure _)
  apply Quiet.of_get.bind
  intro
  exact .of_ite (.of_pure _) (.of_pure _)

theorem watchCounter_quiet (disk : String) (xTimes launches : Nat) (watch : CounterWatch) :
    Quiet (watchCounter disk xTimes launches watch) := by
  induction launches generalizing watch with
  | zero => exact .of_pure _
  | succ launches ih =>
    apply (Quiet.of_ask fun _ => rfl).bind
    rintro (_ | output)
    · exact .of_pure _
    · dsimp only
      split
      · exact .of_pure _
      · apply Quiet.of_ite (.of_pure _)
        apply Quiet.of_ite (.of_pure _)
        split
        · exact .of_pure _
        · exact ih _

theorem checkDiskPRGenerationCounter_quiet (disk : String) :
    Quiet (checkDiskPRGenerationCounter disk) := by
  apply Quiet.of_get.bind
  intro agent
  apply (watchCounter_quiet _ _ _ _).bind
  intro checked
  apply (Quiet.of_ask fun _ => rfl).bind
  intro
  exact .of_pure _

theorem readPortStatus_quiet (port : Port) : Quiet (readPortStatus port) := by
  apply Quiet.of_get.bind
  intro agent
  apply (Quiet.of_ask fun _ => rfl).bind
  rintro (_ | isHealthy)
  · exact .of_pure _
  · apply Quiet.of_modify
    intro agent
    cases port <;> rfl

theorem readControllers_quiet : Quiet readControllers := by
  apply Quiet.of_get.bind
  intro
  apply Quiet.of_ite
  · exact (readPortStatus_quiet _).bind fun _ => readPortStatus_quiet _
  · exact .of_pure _

theorem checkSCSIControllerStatus_quiet : Quiet checkSCSIControllerStatus := by
  refine Quiet.bind (.of_modify fun _ => rfl) fun _ => ?_
  refine Quiet.bind (.of_modify fun _ => rfl) fun _ => ?_
  apply readControllers_quiet.bind
  intro
  apply Quiet.of_get.bind
  intro
  apply Quiet.of_ite
  · exact Quiet.bind (.of_modify fun _ => rfl) fun _ => .of_pure _
  · exact .of_pure _

theorem updateBothNodeDisknControllerstatus_quiet :
    Quiet updateBothNodeDisknControllerstatus := by
  have filled : ∀ node fillOwn fillOther, (∀ agent : Agent, (fillOwn agent).core = agent.core) →
      (∀ status (agent : Agent), (fillOther status agent).core = agent.core) →
      Quiet (updateNodeStatus node fillOwn fillOther) := by
    intro node fillOwn fillOther sameOwn sameOther
    apply (Quiet.of_modify sameOwn).bind
    intro
    apply (Quiet.of_ask fun _ => rfl).bind
    rintro (_ | status)
    · exact .of_pure _
    · exact (Quiet.of_modify (sameOther status)).bind fun _ => .of_pure _
  apply Quiet.of_get.bind
  intro
  apply Quiet.of_ite
  · exact filled _ _ _ (fun _ => rfl) fun _ _ => rfl
  apply Quiet.of_ite
  · exact filled _ _ _ (fun _ => rfl) fun _ _ => rfl
  · exact .of_pure _

theorem isActiveStateTransitionAllowed_quiet : Quiet isActiveStateTransitionAllowed := by
  apply Quiet.of_get.bind
  intro
  apply (Quiet.of_ask fun _ => rfl).bind
  rintro (_ | backPlaneUp)
  · exact .of_pure _
  · refine Quiet.bind (.of_modify fun _ => rfl) fun _ => ?_
    apply Quiet.of_ite
    · apply updateBothNodeDisknControllerstatus_quiet.bind
      intro
      exact Quiet.of_get.bind fun _ => .of_pure _
    · exact Quiet.of_get.bind fun _ => .of_pure _

theorem refusesActive_quiet (previous : HAState) : Quiet (refusesActive previous) := by
  apply Quiet.of_ite
  · exact Quiet.of_get.bind fun _ => .of_pure _
  apply Quiet.of_ite
  · exact isActiveStateTransitionAllowed_quiet.bind fun _ => .of_pure _
  · exact .of_pure _

theorem reportFailover_quiet (recovery : Recovery) : Quiet (reportFailover recovery) := by
  apply (Quiet.of_ask fun _ => rfl).bind
  rintro (_ | _)
  · exact .of_pure _
  · apply (Quiet.of_ask fun _ => rfl).bind
    intro
    exact (Quiet.of_ask fun _ => rfl).bind fun _ => .of_pure _

theorem readConfig_quiet : Quiet readConfig := by
  apply (Quiet.of_ask fun _ => rfl).bind
  rintro (_ | config)
  · exact .of_pure _
  · exact Quiet.bind (.of_modify fun _ => rfl) fun _ => .of_pure _

/-! ## Functions that take and release disks -/

section Disks

variable (before : Agent) (port : Port)

theorem reserveDatadisk_meets (disk : String) :
    (reserveDatadisk disk).Meets before fun history result after =>
      before = after ∧ effects history = if result = .success then [.taken disk] else [] := by
  unfold reserveDatadisk
  induction maxAttempts with
  | zero => exact meets_pure.mpr ⟨rfl, rfl⟩
  | succ attempts ih =>
    apply meets_bind_ask.mpr
    rintro (_ | _)
    · exact meets_pure.mpr ⟨rfl, rfl⟩
    · exact ih

theorem contend_meets (attempts : Nat) (last : ReturnType × Bool) :
    (contend port attempts last).Meets before fun history result after =>
      (result = (.success, false) ∧ effects history = [.taken (before.core.disk port).diskname] ∧
        after.core = before.core.setReserved port true) ∨
      (effects history = [] ∧ after.core = before.core) := by
  induction attempts generalizing before last with
  | zero => exact meets_pure.mpr (.inr ⟨rfl, rfl⟩)
  | succ attempts ih =>
    apply meets_bind_get.mpr
    apply (reserveDatadisk_meets before _).bind
    rintro reserving (_ | _) _ ⟨rfl, taking⟩
    · apply meets_bind_modify.mpr
      apply meets_pure.mpr
      refine .inl ⟨rfl, ?_, Agent.core_setReserved _ _ _⟩
      simpa [← Agent.diskname_core] using taking
    · apply (checkDiskPRGenerationCounter_quiet _ _).bind
      rintro checking checked agent ⟨silent, same⟩
      have retried : ∀ last, (contend port attempts last).Meets agent fun history result after =>
          (result = (.success, false) ∧ effects (reserving ++ (checking ++ history)) =
              [.taken (before.core.disk port).diskname] ∧
            after.core = before.core.setReserved port true) ∨
          (effects (reserving ++ (checking ++ history)) = [] ∧ after.core = before.core) := by
        intro last
        rw [← same]
        simpa [taking, silent] using ih agent last
      apply meets_ite.mpr ⟨fun _ => retried _, fun _ => ?_⟩
      apply meets_ite.mpr ⟨fun _ => ?_, fun _ => retried _⟩
      exact meets_pure.mpr (.inr ⟨by simp [taking, silent], same⟩)

theorem contest_meets :
    (contest port).Meets before fun history result after =>
      (result = (.success, false) ∧ (before.core.disk port).isHealthy = true ∧
        effects history = [.taken (before.core.disk port).diskname] ∧
        after.core = before.core.setReserved port true) ∨
      (effects history = [] ∧ after.core = before.core) := by
  apply meets_bind_get.mpr
  rw [Agent.isHealthy_core]
  apply meets_ite.mpr ⟨fun isContended => ?_, fun _ => meets_pure.mpr (.inr ⟨rfl, rfl⟩)⟩
  apply (contend_meets before port _ _).mono
  rintro history result after (⟨isDone, taking, flagged⟩ | unchanged)
  · exact .inl ⟨isDone, (Bool.and_eq_true _ _ ▸ isContended).1, taking, flagged⟩
  · exact .inr unchanged

theorem preemptUnreserved_meets :
    (preemptUnreserved port).Meets before fun history result after =>
      if (before.core.disk port).isHealthy && !(before.core.disk port).isReserved then
        (result = .success ∧ effects history = [.taken (before.core.disk port).diskname] ∧
          after.core = before.core.setReserved port true) ∨
        (result = .failure ∧ effects history = [] ∧ after.core = before.core)
      else result = .success ∧ effects history = [] ∧ after.core = before.core := by
  apply meets_bind_get.mpr
  rw [Agent.isHealthy_core, Agent.isReserved_core, Agent.diskname_core]
  split
  · apply meets_bind_ask.mpr
    rintro (_ | _)
    · apply meets_bind_modify.mpr
      exact meets_pure.mpr (.inl ⟨rfl, rfl, Agent.core_setReserved _ _ _⟩)
    · exact meets_pure.mpr (.inr ⟨rfl, rfl, rfl⟩)
  · exact meets_pure.mpr ⟨rfl, rfl, rfl⟩

theorem releaseFirst_meets :
    releaseFirst.Meets before fun history _ after =>
      if (before.core.disk .one).isReserved then
        (∃ result, effects history = [.release (before.core.disk .one).diskname result]) ∧
          after.core = before.core.setReserved .one false
      else effects history = [] ∧ after.core = before.core := by
  apply meets_bind_get.mpr
  rw [Agent.isReserved_core, Agent.diskname_core]
  split
  · apply meets_bind_modify.mpr
    apply meets_bind_ask.mpr
    intro result
    exact meets_pure.mpr ⟨⟨result, rfl⟩, Agent.core_setReserved _ _ _⟩
  · exact meets_pure.mpr ⟨rfl, rfl⟩

theorem releaseReserved_meets :
    (releaseReserved port).Meets before fun history result after =>
      if (before.core.disk port).isHealthy && (before.core.disk port).isReserved then
        effects history = [.release (before.core.disk port).diskname result] ∧
          after.core =
            if result = .success then before.core.setReserved port false else before.core
      else result = .success ∧ effects history = [] ∧ after.core = before.core := by
  apply meets_bind_get.mpr
  rw [Agent.isHealthy_core, Agent.isReserved_core, Agent.diskname_core]
  split
  · apply meets_bind_ask.mpr
    rintro (_ | _)
    · apply meets_bind_modify.mpr
      exact meets_pure.mpr ⟨rfl, Agent.core_setReserved _ _ _⟩
    · exact meets_pure.mpr ⟨rfl, rfl⟩
  · exact meets_pure.mpr ⟨rfl, rfl, rfl⟩

end Disks

/-! ## Steps -/

/-- What a function on the disks can do to the core, with the effects that it has. -/
inductive DiskStep (core : Core) : List Effect → Core → Prop where
  | silent : DiskStep core [] core
  | taken (port : Port) (isHealthy : (core.disk port).isHealthy = true) :
      DiskStep core [.taken (core.disk port).diskname] (core.setReserved port true)
  | released (port : Port) (isReserved : (core.disk port).isReserved = true)
      (result : ReturnType) :
      DiskStep core [.release (core.disk port).diskname result] (core.setReserved port false)
  | kept (disk : String) : DiskStep core [.release disk .failure] core
  | deactivated (result : ReturnType) : DiskStep core [.deactivate result] core
  | unmounted (result : ReturnType) : DiskStep core [.unmount result] core
  | portList (list : Option PortList) : DiskStep core [.portList list] (core.withPortList list)
  | raidList (list : Option RaidList) : DiskStep core [.raidList list] (core.withRaidList list)

def Steps {α : Type} (act : Act α) : Prop :=
  ∀ before, act.Meets before fun history _ after =>
    DiskStep before.core (effects history) after.core

namespace Steps

theorem of_quiet {α : Type} {act : Act α} (quiet : Quiet act) : Steps act := by
  intro before
  apply (quiet before).mono
  rintro history _ after ⟨silent, same⟩
  rw [silent, same]
  exact .silent

theorem contest (port : Port) : Steps (contest port) := by
  intro before
  apply (contest_meets before port).mono
  rintro history _ after (⟨-, isHealthy, taking, flagged⟩ | ⟨silent, same⟩)
  · rw [taking, flagged]
    exact .taken port isHealthy
  · rw [silent, same]
    exact .silent

theorem preemptUnreserved (port : Port) : Steps (preemptUnreserved port) := by
  intro before
  apply (preemptUnreserved_meets before port).mono
  intro history _ after spec
  split at spec
  · next isFree =>
      rcases spec with ⟨-, taking, flagged⟩ | ⟨-, silent, same⟩
      · rw [taking, flagged]
        exact .taken port (Bool.and_eq_true _ _ ▸ isFree).1
      · rw [silent, same]
        exact .silent
  · rw [spec.2.1, spec.2.2]
    exact .silent

theorem releaseFirst : Steps releaseFirst := by
  intro before
  apply (releaseFirst_meets before).mono
  intro history _ after spec
  split at spec
  · next isReserved =>
      obtain ⟨⟨result, releasing⟩, cleared⟩ := spec
      rw [releasing, cleared]
      exact .released .one isReserved result
  · rw [spec.1, spec.2]
    exact .silent

theorem releaseReserved (port : Port) : Steps (releaseReserved port) := by
  intro before
  apply (releaseReserved_meets before port).mono
  intro history result after spec
  split at spec
  · next isReserved =>
      rw [spec.1, spec.2]
      cases result with
      | success => exact .released port (Bool.and_eq_true _ _ ▸ isReserved).2 _
      | failure => exact .kept _
  · rw [spec.2.1, spec.2.2]
    exact .silent

theorem deactivateConfiguredMIPs : Steps deactivateConfiguredMIPs := by
  intro before
  apply meets_bind_get.mpr
  exact meets_ite.mpr ⟨fun _ => meets_ask.mpr .deactivated, fun _ => meets_pure.mpr .silent⟩

theorem unmountConfiguredRAID : Steps unmountConfiguredRAID := by
  intro before
  apply meets_bind_get.mpr
  apply meets_ite.mpr ⟨fun _ => ?_, fun _ => meets_pure.mpr .silent⟩
  exact meets_bind_ask.mpr fun _ => meets_ask.mpr .unmounted

theorem checkAvailableDataDisks : Steps checkAvailableDataDisks := by
  intro before
  apply meets_bind_modify.mpr
  apply meets_bind_modify.mpr
  apply meets_bind_ask.mpr
  rintro (_ | list)
  · apply meets_pure.mpr
    rw [Agent.core_setDiskHealthy, Agent.core_setDiskHealthy]
    exact .portList none
  · apply meets_bind_modify.mpr
    apply meets_bind_get.mpr
    have listed := @DiskStep.portList before.core (some list)
    rw [← before.core_findPortDisks list] at listed
    apply meets_ite.mpr ⟨fun _ => ?_, fun _ => ?_⟩
    · apply meets_bind_modify.mpr
      exact meets_pure.mpr listed
    exact meets_ite.mpr ⟨fun _ => meets_pure.mpr listed, fun _ => meets_pure.mpr listed⟩

theorem readRaidDisks : Steps readRaidDisks := by
  intro before
  apply meets_bind_modify.mpr
  apply meets_bind_modify.mpr
  apply meets_bind_ask.mpr
  rintro (_ | list)
  · apply meets_pure.mpr
    rw [Agent.core_setDiskHealthy, Agent.core_setDiskHealthy]
    exact .raidList none
  · apply meets_bind_modify.mpr
    apply meets_pure.mpr
    rw [before.core_findRaidDisks list]
    exact .raidList (some list)

theorem releaseDropped (port : Port) : Steps (releaseDropped port) := by
  intro before
  apply meets_bind_get.mpr
  rw [Agent.isReserved_core, Agent.diskname_core]
  apply meets_ite.mpr ⟨fun isDropped => ?_, fun _ => meets_pure.mpr .silent⟩
  apply meets_bind_ask.mpr
  intro result
  apply meets_modify.mpr
  rw [Agent.core_setReserved]
  exact .released port (Bool.and_eq_true _ _ ▸ isDropped).2 result

theorem reserveAdded (port : Port) : Steps (reserveAdded port) := by
  intro before
  apply meets_bind_get.mpr
  rw [Agent.isHealthy_core, Agent.diskname_core]
  apply meets_ite.mpr ⟨fun isFree => ?_, fun _ => meets_pure.mpr .silent⟩
  apply (reserveDatadisk_meets before _).bind
  rintro reserving (_ | _) _ ⟨rfl, taking⟩
  · apply meets_modify.mpr
    rw [List.append_nil, taking, Agent.core_setReserved]
    exact .taken port (Bool.and_eq_true _ _ ▸ isFree).1
  · apply meets_pure.mpr
    rw [List.append_nil, taking]
    exact .silent

end Steps

end Apos.RdeAgent
