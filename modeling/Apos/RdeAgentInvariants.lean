import Apos.RdeAgentEffects

/-!
# Invariants of the MD HA agent

An invariant between the agent and a view of its history is kept by all the handlers of
the agent if it is kept by the functions that change the core of the agent or have
effects.  These functions are few; this file lists them and goes through the handlers
once.
-/

namespace Apos.RdeAgent

open Stateful

variable {ν : Type}

/-- The invariant is kept by every function without effects and by every function that
updates the state of the disks or gives something up. -/
structure Sturdy (okay : Exchange commands → Prop) (see : ν → Exchange commands → ν)
    (inv : Agent → ν → Prop) : Prop where
  quiet : ∀ {α : Type} {act : Act α}, Quiet act → Keeps okay see inv act
  released : ∀ port, Keeps okay see inv (releaseReserved port)
  deactivated : Keeps okay see inv deactivateConfiguredMIPs
  unmounted : Keeps okay see inv unmountConfiguredRAID
  done : Keeps okay see inv
    (modify fun agent => { agent with gracefullDownJobsDone := true } : Act PUnit)
  stands : Keeps okay see inv
    (modify fun agent => { agent with isAgentStanby := true, isStateAssgned := true } : Act PUnit)
  available : Keeps okay see inv checkAvailableDataDisks
  listed : Keeps okay see inv readRaidDisks
  dropped : ∀ port, Keeps okay see inv (releaseDropped port)
  added : ∀ port, Keeps okay see inv (reserveAdded port)

structure Enduring (okay : Exchange commands → Prop) (see : ν → Exchange commands → ν)
    (inv : Agent → ν → Prop) : Prop extends Sturdy okay see inv where
  reset : Keeps okay see inv (modify Agent.resetForActive : Act PUnit)
  reservation : Keeps okay see inv dataDiskReservationAlgo
  assembled : Keeps okay see inv (ask .assembleMount)
  activated : ∀ onStart, Keeps okay see inv (ask (.activateMIPs onStart))
  raidConfigured : Keeps okay see inv
    (modify fun agent => { agent with isRAIDConfigured := true } : Act PUnit)
  mipConfigured : Keeps okay see inv
    (modify fun agent => { agent with isMIPConfigured := true } : Act PUnit)

section Handlers

variable {okay : Exchange commands → Prop} {see : ν → Exchange commands → ν}
  {inv : Agent → ν → Prop}

section Steps

variable (kept : ∀ {α : Type} {act : Act α}, Steps act → Keeps okay see inv act)
include kept

theorem Sturdy.of_steps
    (done : Keeps okay see inv
      (modify fun agent => { agent with gracefullDownJobsDone := true } : Act PUnit))
    (stands : Keeps okay see inv (modify fun agent =>
      { agent with isAgentStanby := true, isStateAssgned := true } : Act PUnit)) :
    Sturdy okay see inv where
  quiet quiet := kept (.of_quiet quiet)
  released port := kept (.releaseReserved port)
  deactivated := kept .deactivateConfiguredMIPs
  unmounted := kept .unmountConfiguredRAID
  done := done
  stands := stands
  available := kept .checkAvailableDataDisks
  listed := kept .readRaidDisks
  dropped port := kept (.releaseDropped port)
  added port := kept (.reserveAdded port)

theorem reservationJobs_keeps : Keeps okay see inv reservationJobs := by
  apply (kept (.contest .one)).bind
  intro
  apply Keeps.of_ite (.of_pure _)
  apply (kept (.preemptUnreserved .one)).bind
  intro
  apply Keeps.of_ite (.of_pure _)
  apply (kept (.contest .two)).bind
  intro
  apply Keeps.of_ite ((kept .releaseFirst).bind fun _ => .of_pure _)
  apply (kept (.preemptUnreserved .two)).bind
  intro
  apply Keeps.of_ite ((kept .releaseFirst).bind fun _ => .of_pure _)
  apply Keeps.of_get.bind
  intro
  exact .of_ite (.of_pure _) (.of_pure _)

end Steps

namespace Sturdy

variable (sturdy : Sturdy okay see inv)
include sturdy

theorem releaseBothDatadiskReservations : Keeps okay see inv releaseBothDatadiskReservations := by
  apply (sturdy.released .one).bind
  intro
  apply Keeps.of_ite (.of_pure _)
  apply (sturdy.released .two).bind
  intro
  exact .of_ite (.of_pure _) (.of_pure _)

theorem umountRAIDandDeactivateMIPs : Keeps okay see inv umountRAIDandDeactivateMIPs := by
  apply sturdy.deactivated.bind
  intro
  apply sturdy.unmounted.bind
  intro
  exact .of_ite (.of_pure _) (.of_pure _)

theorem handleRdeAgentGracefullDownJobs :
    Keeps okay see inv handleRdeAgentGracefullDownJobs := by
  apply Keeps.of_get.bind
  intro
  apply Keeps.of_ite (.of_pure _)
  apply Keeps.of_ite (.of_pure _)
  apply Keeps.of_ite (.of_pure _)
  apply sturdy.releaseBothDatadiskReservations.bind
  intro
  apply Keeps.of_ite (.of_pure _)
  apply sturdy.umountRAIDandDeactivateMIPs.bind
  intro
  apply Keeps.of_ite (.of_pure _)
  exact sturdy.done.bind fun _ => .of_pure _

theorem initiateFailover (recovery : Recovery) :
    Keeps okay see inv (initiateFailover recovery) := by
  apply Keeps.of_get.bind
  intro
  apply Keeps.of_ite (sturdy.quiet (reportFailover_quiet recovery))
  apply sturdy.handleRdeAgentGracefullDownJobs.bind
  rintro (_ | _)
  · exact sturdy.quiet (reportFailover_quiet recovery)
  · exact sturdy.quiet (reportFailover_quiet .nodeFailover)

theorem failover (recovery : Recovery) :
    Keeps okay see inv (do
      RdeAgent.initiateFailover recovery
      pure ReturnType.failure) :=
  (sturdy.initiateFailover recovery).bind fun _ => .of_pure _

theorem verifySanity : Keeps okay see inv verifySanity := by
  apply (sturdy.dropped .one).bind
  intro
  apply (sturdy.added .one).bind
  intro
  apply (sturdy.dropped .two).bind
  intro
  exact sturdy.added .two

theorem updateDatadisksWithRaidDisks : Keeps okay see inv updateDatadisksWithRaidDisks := by
  apply sturdy.listed.bind
  rintro (_ | list)
  · exact .of_pure _
  · apply Keeps.of_get.bind
    intro
    apply Keeps.of_ite (sturdy.failover _)
    apply sturdy.verifySanity.bind
    intro
    apply Keeps.of_get.bind
    intro
    apply Keeps.of_ite (sturdy.failover _)
    exact .of_ite (.of_pure _) (.of_pure _)

theorem updateBothNodeDisknControllerstatus :
    Keeps okay see inv updateBothNodeDisknControllerstatus :=
  sturdy.quiet updateBothNodeDisknControllerstatus_quiet

theorem registerReachableDataDisks : Keeps okay see inv registerReachableDataDisks :=
  sturdy.quiet registerReachableDataDisks_quiet

theorem performStateTransitionToPassiveJobs (previous : HAState) :
    Keeps okay see inv (performStateTransitionToPassiveJobs previous) := by
  apply sturdy.stands.bind
  intro
  apply Keeps.of_ite (.of_pure _)
  apply Keeps.of_get.bind
  intro
  apply Keeps.of_ite (sturdy.failover _)
  apply sturdy.registerReachableDataDisks.bind
  intro
  apply Keeps.of_ite (.of_pure _)
  apply sturdy.updateBothNodeDisknControllerstatus.bind
  intro
  exact .of_ite (.of_pure _) (.of_pure _)

theorem gracefullDownUnlessDone : Keeps okay see inv gracefullDownUnlessDone := by
  apply Keeps.of_get.bind
  intro
  exact .of_ite (.of_pure _) sturdy.handleRdeAgentGracefullDownJobs

theorem quiesceJobs (target previous : HAState) :
    Keeps okay see inv (quiesceJobs target previous) := by
  apply Keeps.of_ite (.of_pure _)
  exact .of_ite sturdy.gracefullDownUnlessDone (.of_pure _)

theorem performComponentTerminateJobs : Keeps okay see inv performComponentTerminateJobs := by
  refine Keeps.bind (sturdy.quiet (.of_modify fun _ => rfl)) fun _ => ?_
  apply Keeps.of_get.bind
  intro
  exact .of_ite (.of_pure _) sturdy.gracefullDownUnlessDone

theorem performComponentRemoveJobs : Keeps okay see inv performComponentRemoveJobs := by
  apply Keeps.of_get.bind
  intro
  exact .of_ite (.of_pure _) sturdy.gracefullDownUnlessDone

theorem performApplicationShutdownJobs : Keeps okay see inv performApplicationShutdownJobs := by
  apply Keeps.of_get.bind
  intro
  apply Keeps.of_ite
  · exact Keeps.bind (sturdy.quiet (.of_modify fun _ => rfl)) fun _ => .of_pure _
  apply Keeps.of_ite (.of_pure _)
  apply sturdy.handleRdeAgentGracefullDownJobs.bind
  intro
  apply Keeps.of_ite (.of_pure _)
  exact Keeps.bind (sturdy.quiet (.of_modify fun _ => rfl)) fun _ => .of_pure _

theorem answerAmf (previous : HAState) {answer : Act ReturnType} (quiet : Quiet answer) :
    Keeps okay see inv (answerAmf previous answer) := by
  apply (sturdy.quiet quiet).bind
  intro
  exact .of_ite (sturdy.quiet (.of_modify fun _ => rfl)) (.of_pure _)

theorem csiSetCallback {codeOf : ReturnType → Int} {target : HAState}
    (transition : ∀ previous, Keeps okay see inv (transitionJobs codeOf target previous)) :
    Keeps okay see inv (csiSetCallback codeOf target) := by
  apply Keeps.of_get.bind
  intro
  refine Keeps.bind (sturdy.quiet (.of_modify fun _ => rfl)) fun _ => ?_
  apply Keeps.of_ite
  · refine Keeps.bind (sturdy.quiet (.of_ask fun _ => rfl)) fun _ => ?_
    apply (transition _).bind
    intro result
    exact (sturdy.answerAmf _ (.of_ask fun _ => rfl)).bind fun _ => .of_pure _
  · apply (transition _).bind
    intro result
    exact (sturdy.answerAmf _ (.of_ask fun _ => rfl)).bind fun _ => .of_pure _

theorem transitionJobs {codeOf : ReturnType → Int} {target : HAState}
    (notActive : target ≠ .active) (previous : HAState) :
    Keeps okay see inv (transitionJobs codeOf target previous) := by
  cases target with
  | active => exact absurd rfl notActive
  | standby => exact sturdy.performStateTransitionToPassiveJobs previous
  | quiesced | quiescing => exact sturdy.quiesceJobs _ previous
  | undefined => exact .of_pure _

theorem csiRemoveCallback : Keeps okay see inv csiRemoveCallback := by
  refine Keeps.bind (sturdy.quiet (.of_modify fun _ => rfl)) fun _ => ?_
  apply sturdy.performComponentRemoveJobs.bind
  intro result
  exact Keeps.bind (sturdy.quiet (.of_ask fun _ => rfl)) fun _ => .of_pure _

theorem csiTerminateCallback : Keeps okay see inv csiTerminateCallback := by
  refine Keeps.bind (sturdy.quiet (.of_modify fun _ => rfl)) fun _ => ?_
  apply sturdy.performComponentTerminateJobs.bind
  intro result
  exact Keeps.bind (sturdy.quiet (.of_ask fun _ => rfl)) fun _ => .of_pure _

theorem renewDatadiskRegistrations : Keeps okay see inv renewDatadiskRegistrations := by
  apply sturdy.registerReachableDataDisks.bind
  intro
  exact .of_ite (sturdy.failover _) (.of_pure _)

theorem updateDatadiskStatus : Keeps okay see inv updateDatadiskStatus := by
  refine Keeps.bind (sturdy.quiet (.of_modify fun _ => rfl)) fun _ => ?_
  apply (sturdy.quiet checkSCSIControllerStatus_quiet).bind
  intro
  apply sturdy.available.bind
  intro
  apply sturdy.renewDatadiskRegistrations.bind
  intro
  apply sturdy.updateBothNodeDisknControllerstatus.bind
  intro
  exact .of_pure _

theorem updateRaidStatus : Keeps okay see inv updateRaidStatus := by
  refine Keeps.bind (sturdy.quiet (.of_modify fun _ => rfl)) fun _ => ?_
  apply Keeps.of_get.bind
  intro
  apply Keeps.of_ite (.of_pure _)
  apply Keeps.bind
  · apply Keeps.of_get.bind
    intro
    exact .of_ite sturdy.updateDatadisksWithRaidDisks (.of_pure _)
  intro
  exact .of_ite (.of_pure _) sturdy.updateBothNodeDisknControllerstatus

theorem updateDeviceStatus : Keeps okay see inv updateDeviceStatus := by
  apply Keeps.bind
  · apply Keeps.of_get.bind
    intro
    exact .of_ite sturdy.updateDatadiskStatus (.of_pure _)
  intro
  apply Keeps.of_get.bind
  intro
  exact .of_ite sturdy.updateRaidStatus (.of_pure _)

theorem iTimerTimeoutHandler : Keeps okay see inv iTimerTimeoutHandler := by
  apply Keeps.of_get.bind
  intro
  apply Keeps.of_ite (.of_pure _)
  apply Keeps.of_ite
  · exact Keeps.bind (sturdy.quiet (.of_modify fun _ => rfl)) fun _ =>
      sturdy.renewDatadiskRegistrations
  · exact Keeps.bind (sturdy.quiet (.of_modify fun _ => rfl)) fun _ => .of_pure _

theorem exitLoop : Keeps okay see inv exitLoop :=
  sturdy.quiet (.of_modify fun _ => rfl)

theorem exitOnFailure {act : Act ReturnType} (keeps : Keeps okay see inv act) :
    Keeps okay see inv (exitOnFailure act) := by
  apply keeps.bind
  intro
  exact .of_ite (sturdy.exitLoop.bind fun _ => .of_pure _) (.of_pure _)

theorem exitGracefully (isReceived : Agent → Bool) :
    Keeps okay see inv (exitGracefully isReceived) := by
  have exits : Keeps okay see inv (do
      RdeAgent.exitLoop
      pure ReturnType.success) := sturdy.exitLoop.bind fun _ => .of_pure _
  apply Keeps.of_get.bind
  intro
  exact .of_ite (sturdy.handleRdeAgentGracefullDownJobs.bind fun _ => exits) exits

theorem initializeRdeAgentEngine : Keeps okay see inv initializeRdeAgentEngine := by
  apply (sturdy.quiet readConfig_quiet).bind
  intro
  apply Keeps.of_ite (.of_pure _)
  refine Keeps.bind (sturdy.quiet (.of_ask fun _ => rfl)) ?_
  rintro (_ | nodeId)
  · exact .of_pure _
  refine Keeps.bind (sturdy.quiet (.of_modify fun _ => rfl)) fun _ => ?_
  refine Keeps.bind (sturdy.quiet (.of_ask fun _ => rfl)) ?_
  rintro (_ | gepId)
  · exact .of_pure _
  refine Keeps.bind (sturdy.quiet (.of_modify fun _ => rfl)) fun _ => ?_
  refine Keeps.bind (sturdy.quiet (.of_ask fun _ => rfl)) fun (updated : ReturnType) => ?_
  apply Keeps.of_ite (.of_pure _)
  refine Keeps.bind (sturdy.quiet (.of_ask fun _ => rfl)) fun (connected : ReturnType) => ?_
  apply Keeps.of_ite (.of_pure _)
  apply (sturdy.quiet checkSCSIControllerStatus_quiet).bind
  intro
  apply Keeps.of_ite (.of_pure _)
  apply sturdy.available.bind
  intro
  exact .of_ite (.of_pure _) (.of_pure _)

theorem handle (codeOf : ReturnType → Int) {event : Event} (notActive : event ≠ .csiSet .active) :
    Keeps okay see inv (handle codeOf event) := by
  have noted : ∀ change : Agent → Agent, (∀ agent, (change agent).core = agent.core) →
      Keeps okay see inv (do
        modify change
        pure ReturnType.success) := fun change same =>
    (sturdy.quiet (.of_modify same)).bind fun _ => .of_pure _
  cases event with
  | csiSet target =>
    apply sturdy.csiSetCallback
    exact sturdy.transitionJobs fun isActive => notActive (congrArg Event.csiSet isActive)
  | csiRemove => exact sturdy.csiRemoveCallback
  | csiTerminate => exact sturdy.csiTerminateCallback
  | shutdownSignal => exact sturdy.performApplicationShutdownJobs
  | diskSignal | raidSignal | termSignal | intSignal => exact noted _ fun _ => rfl
  | deviceStatus =>
    refine Keeps.bind (sturdy.quiet (.of_modify fun _ => rfl)) fun _ => ?_
    exact sturdy.exitOnFailure sturdy.updateDeviceStatus
  | hangup => exact sturdy.quiet readConfig_quiet
  | term | interrupt => exact sturdy.exitGracefully _
  | timer => exact sturdy.exitOnFailure sturdy.iTimerTimeoutHandler
  | pollError => exact sturdy.exitLoop.bind fun _ => .of_pure _

theorem runsTo {codeOf : ReturnType → Int} {setup : List (Exchange commands)}
    {steps : List AgentStep} {final : Agent} {view : ν}
    (active : ∀ previous, Keeps okay see inv (performStateTransitionToActiveJobs codeOf previous))
    (runs : RunsTo codeOf setup steps final)
    (allOkay : ∀ exchange ∈ setup ++ exchangesOf steps, okay exchange)
    (holds : inv Agent.initial view) :
    inv final ((setup ++ exchangesOf steps).foldl see view) := by
  obtain ⟨start, initialises, handles⟩ := runs
  have startHolds : inv start (setup.foldl see view) := by
    apply (sturdy.initializeRdeAgentEngine Agent.initial view holds).elim initialises
    exact fun exchange member => allOkay exchange (List.mem_append_left _ member)
  rw [List.foldl_append]
  refine handles.keeps (fun step _ => ?_)
    (fun exchange member => allOkay exchange (List.mem_append_right _ member)) startHolds
  by_cases isActive : step.event = .csiSet .active
  · rw [isActive]
    exact sturdy.csiSetCallback active
  · exact sturdy.handle codeOf isActive

end Sturdy

namespace Enduring

variable (enduring : Enduring okay see inv)
include enduring

theorem mountFails (codeOf : ReturnType → Int) (onStart : Bool) :
    Keeps okay see inv (mountFails codeOf onStart) := by
  have raid : Keeps okay see inv configureRAID := by
    apply Keeps.of_get.bind
    intro
    apply Keeps.of_ite (.of_pure _)
    refine Keeps.bind enduring.assembled fun (assembled : ReturnType) => ?_
    apply Keeps.of_ite (enduring.failover _)
    exact enduring.raidConfigured.bind fun _ => .of_pure _
  have mips : Keeps okay see inv (configureMIPs codeOf onStart) := by
    apply Keeps.of_get.bind
    intro
    apply Keeps.of_ite (.of_pure _)
    refine Keeps.bind (enduring.activated onStart) fun (activated : ReturnType) => ?_
    apply Keeps.of_ite (.of_pure _)
    exact enduring.mipConfigured.bind fun _ => .of_pure _
  apply Keeps.bind
  · exact raid.bind fun _ => .of_ite (.of_pure _) mips
  intro
  exact .of_ite (Keeps.of_get.bind fun _ => .of_pure _) (.of_pure _)

theorem performStateTransitionToActiveJobs (codeOf : ReturnType → Int) (previous : HAState) :
    Keeps okay see inv (performStateTransitionToActiveJobs codeOf previous) := by
  apply Keeps.of_ite (.of_pure _)
  apply enduring.reset.bind
  intro
  apply enduring.registerReachableDataDisks.bind
  intro
  apply Keeps.of_ite (.of_pure _)
  apply (enduring.quiet (refusesActive_quiet previous)).bind
  intro
  apply Keeps.of_ite (enduring.failover _)
  apply enduring.reservation.bind
  intro
  apply Keeps.of_ite (enduring.failover _)
  apply (enduring.mountFails codeOf _).bind
  intro
  apply Keeps.of_ite (.of_pure _)
  apply enduring.updateDatadisksWithRaidDisks.bind
  intro
  apply Keeps.of_ite (enduring.failover _)
  apply enduring.updateBothNodeDisknControllerstatus.bind
  intro
  exact .of_ite (enduring.failover _) (.of_pure _)

theorem runsTo {codeOf : ReturnType → Int} {setup : List (Exchange commands)}
    {steps : List AgentStep} {final : Agent} {view : ν} (runs : RunsTo codeOf setup steps final)
    (allOkay : ∀ exchange ∈ setup ++ exchangesOf steps, okay exchange)
    (holds : inv Agent.initial view) :
    inv final ((setup ++ exchangesOf steps).foldl see view) :=
  enduring.toSturdy.runsTo (enduring.performStateTransitionToActiveJobs codeOf) runs allOkay holds

end Enduring

end Handlers

/-! ## Invariants of the flags -/

/-- A property of the core that does not depend on the disks, and that neither the end of
the graceful-down jobs nor the standby role changes. -/
structure FlagsOnly (flags : Core → Prop) : Prop where
  mapDisk : ∀ {core : Core} (port : Port) (update : DataDisk → DataDisk),
    flags core → flags (core.mapDisk port update)
  done : ∀ {core : Core}, flags core → flags { core with gracefullDownJobsDone := true }
  stands : ∀ {core : Core},
    flags core → flags { core with isAgentStanby := true, isStateAssgned := true }

theorem FlagsOnly.keeps {flags : Core → Prop} (only : FlagsOnly flags) {core reached : Core}
    {list : List Effect} (step : DiskStep core list reached) (holds : flags core) :
    flags reached := by
  cases step with
  | taken port _ | released port _ _ => exact only.mapDisk _ _ holds
  | portList list =>
    apply Core.withPortList_keeps flags (fun _ _ => only.mapDisk _ _) _ holds
    exact fun _ _ _ _ => only.mapDisk _ _
  | raidList list =>
    apply Core.withRaidList_keeps flags (fun _ _ => only.mapDisk _ _) _ holds
    exact fun _ _ _ _ => only.mapDisk _ _
  | _ => exact holds

end Apos.RdeAgent
