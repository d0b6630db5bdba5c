import Apos.RdeAgentDisks

/-!
# Role transitions of the MD HA agent

Taking and giving up the active role, failover, and the poll loop that dispatches AMF
callbacks, signals and the timer.  Where the source compares the result of the MIP
command with the number 1, the numeric values of the return type, which are defined
elsewhere, are a parameter `codeOf`.
-/

namespace Apos.RdeAgent

/-! ## Giving up the active role -/

/-- The block of `releaseBothDatadiskReservations` for one port. -/
def releaseReserved (port : Port) : Act ReturnType := do
  let agent ← get
  if (agent.disk port).isHealthy && (agent.disk port).isReserved then
    match ← releaseDataDiskReservation (agent.disk port).diskname with
    | .success => do
        modify (Agent.setReserved port false)
        pure .success
    | .failure => pure .failure
  else pure .success

def releaseBothDatadiskReservations : Act ReturnType := do
  if (← releaseReserved .one) = .failure then return .failure
  if (← releaseReserved .two) = .failure then return .failure
  return .success

def deactivateConfiguredMIPs : Act ReturnType := do
  let agent ← get
  if agent.isMIPConfigured then ask .deactivateMIPs else pure .success

def unmountConfiguredRAID : Act ReturnType := do
  let agent ← get
  if agent.isRAIDConfigured then
    let _ ← ask .cleanup
    ask .disableUnmount
  else pure .success

/-- Both parts are done whatever the first one returns. -/
def umountRAIDandDeactivateMIPs : Act ReturnType := do
  let deactivated ← deactivateConfiguredMIPs
  let unmounted ← unmountConfiguredRAID
  if deactivated = .failure ∨ unmounted = .failure then return .failure
  return .success

def handleRdeAgentGracefullDownJobs : Act ReturnType := do
  let agent ← get
  if !agent.isStateAssgned then return .success
  if agent.isAgentStanby then return .success
  if agent.gracefullDownJobsDone then return .success
  if (← releaseBothDatadiskReservations) = .failure then return .failure
  if (← umountRAIDandDeactivateMIPs) = .failure then return .failure
  modify fun agent => { agent with gracefullDownJobsDone := true }
  return .success

/-! ## Failover -/

def rebootLocalNode : Act Unit := do
  let _ ← ask .finalize
  let _ ← ask .rebootNode
  pure ()

def reportFailover (recovery : Recovery) : Act Unit := do
  match ← ask (.componentErrorReport recovery) with
  | .success => pure ()
  | .failure => rebootLocalNode

def initiateFailover (recovery : Recovery) : Act Unit := do
  let agent ← get
  if agent.gracefullDownJobsDone then reportFailover recovery
  else
    match ← handleRdeAgentGracefullDownJobs with
    | .success => reportFailover recovery
    | .failure => reportFailover .nodeFailover

/-! ## Taking the active role -/

/-- Assemble and mount the array unless that has been done; a failure starts a failover. -/
def configureRAID : Act ReturnType := do
  let agent ← get
  if agent.isRAIDConfigured then return .success
  let assembled : ReturnType ← ask .assembleMount
  if assembled = .failure then
    initiateFailover .componentFailover
    return .failure
  modify fun agent => { agent with isRAIDConfigured := true }
  return .success

/-- Activate the MIPs unless that has been done; the command counts as failed if the code
of its result is 1. -/
def configureMIPs (codeOf : ReturnType → Int) (onStart : Bool) : Act ReturnType := do
  let agent ← get
  if agent.isMIPConfigured then return .success
  let activated : ReturnType ← ask (.activateMIPs onStart)
  if codeOf activated = 1 then return .failure
  modify fun agent => { agent with isMIPConfigured := true }
  return .success

def mountRAIDandActivateMIPs (codeOf : ReturnType → Int) (onStart : Bool) : Act ReturnType := do
  if (← configureRAID) = .failure then return .failure
  configureMIPs codeOf onStart

def Agent.findRaidDisks (agent : Agent) (lines : List RaidLine) : Agent :=
  lines.foldl (fun agent line =>
    if line.state = "active" ∨ line.state = "spare" then agent.setFound line.port line.name
    else agent) agent

def releaseDropped (port : Port) : Act Unit := do
  let agent ← get
  if !(agent.disk port).isHealthy && (agent.disk port).isReserved then
    let _ ← releaseDataDiskReservation (agent.disk port).diskname
    modify (Agent.setReserved port false)
  else pure ()

def reserveAdded (port : Port) : Act Unit := do
  let agent ← get
  if (agent.disk port).isHealthy && !(agent.disk port).isReserved then
    match ← reserveDatadisk (agent.disk port).diskname with
    | .success => modify (Agent.setReserved port true)
    | .failure => pure ()
  else pure ()

/-- The four sanity blocks of `updateDatadisksWithRaidDisks`. -/
def verifySanity : Act Unit := do
  releaseDropped .one
  reserveAdded .one
  releaseDropped .two
  reserveAdded .two

/-- The part of `updateDatadisksWithRaidDisks` that reads the list; without a list both
disks are left unhealthy. -/
def readRaidDisks : Act (Option RaidList) := do
  modify (Agent.setDiskHealthy .one false)
  modify (Agent.setDiskHealthy .two false)
  match ← ask .listRaidDisks with
  | none => pure none
  | some list => do
      modify (Agent.findRaidDisks · list.lines)
      pure (some list)

def updateDatadisksWithRaidDisks : Act ReturnType := do
  match ← readRaidDisks with
  | none => pure .failure
  | some list => do
      let agent ← get
      if !(agent.disk .one).isHealthy && !(agent.disk .two).isHealthy then
        initiateFailover .componentFailover
        return .failure
      verifySanity
      let agent ← get
      if !(agent.disk .one).isReserved && !(agent.disk .two).isReserved then
        initiateFailover .componentFailover
        return .failure
      if !list.exitsZero then return .failure
      return .success

/-! ## Status of both nodes -/

/-- `updatePortStatus` on the lines of the file.  Only a line of port one is scanned, so a
line of port two repeats what the last line of port one said. -/
def Node.readStatus (node : Node) (controller disk : String) : List StatusLine → Node
  | [] => node
  | ⟨.one, controller, disk⟩ :: lines =>
    { node with portOne := ⟨controller = "healthy", disk ≠ "null"⟩ }.readStatus
      controller disk lines
  | ⟨.two, _, _⟩ :: lines =>
    { node with portTwo := ⟨controller = "healthy", disk ≠ "null"⟩ }.readStatus
      controller disk lines

def Agent.ownStatus (agent : Agent) : Node :=
  ⟨⟨agent.portOne.isHealthy, agent.portOne.disk.isHealthy⟩,
    ⟨agent.portTwo.isHealthy, agent.portTwo.disk.isHealthy⟩⟩

/-- The block of `updateBothNodeDisknControllerstatus` for one node number: fill in the own
record and read the file of the node with that number for the other record. -/
def updateNodeStatus (node : Nat) (fillOwn : Agent → Agent)
    (fillOther : DiskStatus → Agent → Agent) : Act ReturnType := do
  modify fillOwn
  match ← ask (.diskStatusFile node) with
  | none => pure .failure
  | some status => do
      modify (fillOther status)
      pure .success

/-- Each node passes its own number where the file of the other node is meant. -/
def updateBothNodeDisknControllerstatus : Act ReturnType := do
  let agent ← get
  if agent.nodeId = 1 then
    updateNodeStatus 1 (fun agent => { agent with nodeA := agent.ownStatus })
      fun status agent => { agent with
        nodeB := agent.nodeB.readStatus status.controllerBuffer status.diskBuffer status.lines }
  else if agent.nodeId = 2 then
    updateNodeStatus 2 (fun agent => { agent with nodeB := agent.ownStatus })
      fun status agent => { agent with
        nodeA := agent.nodeA.readStatus status.controllerBuffer status.diskBuffer status.lines }
  else pure .success

def NodePort.works (port : NodePort) : Bool :=
  port.isHealthy && port.diskIsHealthy

/-- The tests of `IsActiveStateTransitionAllowed` made while the back plane is up.  The
first one asks for the two controllers of node B where its comment speaks of disk one. -/
def Agent.allowedConnected (agent : Agent) (allowed : Bool) : Bool :=
  let a := agent.nodeA
  let b := agent.nodeB
  let allowed :=
    if a.portOne.works && !a.portTwo.works &&
      (!b.portOne.isHealthy || !b.portTwo.isHealthy) && b.portTwo.works then false else allowed
  let allowed :=
    if !a.portOne.works && a.portTwo.works &&
      b.portOne.isHealthy && b.portTwo.diskIsHealthy && !b.portTwo.works then false else allowed
  let own := if agent.nodeId = 1 then some a else if agent.nodeId = 2 then some b else none
  match own with
  | none => allowed
  | some own =>
    if (own.portOne.isHealthy && !own.portOne.diskIsHealthy) || own.portTwo.works ||
      own.portOne.works || (own.portTwo.isHealthy && !own.portTwo.diskIsHealthy) then true
    else allowed

def Agent.allowedDisconnected (agent : Agent) (allowed : Bool) : Bool :=
  if agent.nodeId = 1 && !agent.nodeA.portOne.works && !agent.nodeA.portTwo.works then false
  else if agent.nodeId = 2 && !agent.nodeB.portOne.works && !agent.nodeB.portTwo.works then false
  else allowed

/-- The last tests.  Node one looks at port two of the other node. -/
def Agent.allowedFinally (agent : Agent) (allowed : Bool) : Bool :=
  let a := agent.nodeA
  let b := agent.nodeB
  if agent.nodeId = 1 && ((!a.portOne.isHealthy && !a.portTwo.isHealthy) ||
      (a.portOne.isHealthy && !a.portOne.diskIsHealthy &&
        b.portTwo.isHealthy && !b.portTwo.diskIsHealthy)) then false
  else if agent.nodeId = 2 && ((!b.portOne.isHealthy && !b.portTwo.isHealthy) ||
      (b.portOne.isHealthy && !b.portOne.diskIsHealthy &&
        b.portTwo.isHealthy && !b.portTwo.diskIsHealthy)) then false
  else allowed

/-- The number of the other node, 0 if the own number is neither 1 nor 2. -/
def Agent.remoteNode (agent : Agent) : Nat :=
  if agent.nodeId = 1 then 2 else if agent.nodeId = 2 then 1 else 0

def isActiveStateTransitionAllowed : Act Bool := do
  let agent ← get
  match ← ask (.queryTopology agent.remoteNode) with
  | none => pure false
  | some backPlaneUp => do
      modify fun agent => { agent with backPlaneUp }
      if backPlaneUp then
        let updated ← updateBothNodeDisknControllerstatus
        let agent ← get
        return agent.allowedFinally (agent.allowedConnected (updated = .success))
      else
        let agent ← get
        return agent.allowedFinally (agent.allowedDisconnected true)

/-! ## Transitions -/

def mountFails (codeOf : ReturnType → Int) (onStart : Bool) : Act Bool := do
  if (← mountRAIDandActivateMIPs codeOf onStart) ≠ .success then
    let agent ← get
    return !agent.isRAIDConfigured || !agent.isMIPConfigured
  else return false

def activeCommonJobs (codeOf : ReturnType → Int) (onStart : Bool) : Act ReturnType := do
  if (← dataDiskReservationAlgo) ≠ .success then
    initiateFailover .nodeFailover
    return .failure
  if (← mountFails codeOf onStart) then return .failure
  if (← updateDatadisksWithRaidDisks) ≠ .success then
    initiateFailover .componentFailover
    return .failure
  if (← updateBothNodeDisknControllerstatus) ≠ .success then
    initiateFailover .componentFailover
    return .failure
  return .success

def Agent.resetForActive (agent : Agent) : Agent :=
  { agent with
    isStateAssgned := true, gracefullDownJobsDone := false, isRAIDConfigured := false,
    isMIPConfigured := false, isAgentStanby := false }

/-- Whether the agent must not become active: after a start because both controllers or
both disks were faulty, after standby because the state of the nodes forbids it. -/
def refusesActive (previous : HAState) : Act Bool := do
  if previous = .undefined then
    let agent ← get
    return agent.initiateFailover
  else if previous = .standby then
    let allowed ← isActiveStateTransitionAllowed
    return !allowed
  else return false

def performStateTransitionToActiveJobs (codeOf : ReturnType → Int) (previous : HAState) :
    Act ReturnType := do
  if previous = .active then return .success
  modify Agent.resetForActive
  if (← registerReachableDataDisks) ≠ .success then return .failure
  if (← refusesActive previous) then
    initiateFailover .nodeFailover
    return .failure
  activeCommonJobs codeOf (previous = .undefined)

def performStateTransitionToPassiveJobs (previous : HAState) : Act ReturnType := do
  modify fun agent => { agent with isAgentStanby := true, isStateAssgned := true }
  if previous = .standby then return .success
  let agent ← get
  if previous = .undefined ∧ agent.initiateFailover then
    initiateFailover .nodeFailfast
    return .failure
  if (← registerReachableDataDisks) ≠ .success then return .failure
  if (← updateBothNodeDisknControllerstatus) ≠ .success then return .failure
  return .success

def gracefullDownUnlessDone : Act ReturnType := do
  let agent ← get
  if agent.gracefullDownJobsDone then return .success
  handleRdeAgentGracefullDownJobs

def quiesceJobs (target previous : HAState) : Act ReturnType := do
  if previous = target then return .success
  if previous = .active then gracefullDownUnlessDone else return .failure

def performStateTransitionToQueisingJobs : HAState → Act ReturnType :=
  quiesceJobs .quiescing

def performStateTransitionToQuiescedJobs : HAState → Act ReturnType :=
  quiesceJobs .quiesced

def performComponentTerminateJobs : Act ReturnType := do
  modify fun agent => { agent with terminateRdeAgent := true }
  let agent ← get
  if agent.haState = .standby then return .success
  gracefullDownUnlessDone

def performComponentRemoveJobs : Act ReturnType := do
  let agent ← get
  if agent.haState = .standby then return .success
  gracefullDownUnlessDone

/-- Unless the jobs had been done before, a shutdown that succeeds ends the poll loop
through the selection object. -/
def performApplicationShutdownJobs : Act ReturnType := do
  let agent ← get
  if agent.haState = .standby then
    modify fun agent => { agent with termSelObj := true }
    return .success
  if agent.gracefullDownJobsDone then return .success
  if (← handleRdeAgentGracefullDownJobs) = .failure then return .failure
  modify fun agent => { agent with termSelObj := true }
  return .success

/-! ## Callbacks of AMF -/

/-- The transition that belongs to a target state; UNDEFINED is no target. -/
def transitionJobs (codeOf : ReturnType → Int) (target previous : HAState) : Act ReturnType :=
  match target with
  | .active => performStateTransitionToActiveJobs codeOf previous
  | .standby => performStateTransitionToPassiveJobs previous
  | .quiesced => performStateTransitionToQuiescedJobs previous
  | .quiescing => performStateTransitionToQueisingJobs previous
  | .undefined => pure .success

def answerAmf (previous : HAState) (answer : Act ReturnType) : Act Unit := do
  if (← answer) = .failure then modify fun agent => { agent with haState := previous }
  else pure ()

/-- `coremw_csi_set_callback`, with the result of the transition it performs. -/
def csiSetCallback (codeOf : ReturnType → Int) (target : HAState) : Act ReturnType := do
  let before ← get
  let previous := before.haState
  modify fun agent => { agent with haState := target }
  if target = .quiescing then
    let _ ← ask (.amfResponse .success)
    let result ← transitionJobs codeOf target previous
    answerAmf previous (ask (.quiescingComplete result))
    return result
  else
    let result ← transitionJobs codeOf target previous
    answerAmf previous (ask (.amfResponse result))
    return result

def csiRemoveCallback : Act ReturnType := do
  modify fun agent => { agent with haState := .undefined }
  let result ← performComponentRemoveJobs
  let _ ← ask (.amfResponse result)
  return result

def csiTerminateCallback : Act ReturnType := do
  modify fun agent => { agent with haState := .undefined }
  let result ← performComponentTerminateJobs
  let _ ← ask (.amfResponse result)
  return result

/-! ## The poll loop -/

def renewDatadiskRegistrations : Act ReturnType := do
  if (← registerReachableDataDisks) ≠ .success then
    initiateFailover .nodeFailover
    return .failure
  return .success

def ReturnType.both : ReturnType → ReturnType → ReturnType
  | .success, second => second
  | .failure, _ => .failure

/-- The part of `updateDeviceStatus` for a change of a disk or a controller. -/
def updateDatadiskStatus : Act ReturnType := do
  modify fun agent => { agent with updateDatadiskInfo := false }
  let controllers ← checkSCSIControllerStatus
  let disks ← checkAvailableDataDisks
  let renewed ← renewDatadiskRegistrations
  let updated ← updateBothNodeDisknControllerstatus
  return ((controllers.both disks).both renewed).both updated

def refreshRaidDisks : Act ReturnType := do
  let agent ← get
  if agent.isRAIDConfigured then updateDatadisksWithRaidDisks else return .success

/-- The part of `updateDeviceStatus` for a change of the RAID array. -/
def updateRaidStatus : Act ReturnType := do
  modify fun agent => { agent with updateRaidInfo := false }
  let agent ← get
  if agent.haState ≠ .active then return .success
  if (← refreshRaidDisks) ≠ .success then return .failure
  updateBothNodeDisknControllerstatus

def refreshDatadisks : Act ReturnType := do
  let agent ← get
  if agent.updateDatadiskInfo then updateDatadiskStatus else return .success

/-- A change of the array decides the result alone. -/
def updateDeviceStatus : Act ReturnType := do
  let datadisks ← refreshDatadisks
  let agent ← get
  if agent.updateRaidInfo then updateRaidStatus else return datadisks

def iTimerTimeoutHandler : Act ReturnType := do
  let agent ← get
  if agent.haState ≠ .active then return .success
  let counter := agent.renewDiskRegCounter + 2
  if counter ≥ agent.diskRenewalThreadFreq then
    modify fun agent => { agent with renewDiskRegCounter := 0 }
    renewDatadiskRegistrations
  else
    modify fun agent => { agent with renewDiskRegCounter := counter }
    return .success

/-- `readConfig`: no setting below its default. -/
def readConfig : Act ReturnType := do
  match ← ask .readConfig with
  | none => pure .failure
  | some config => do
      modify fun agent => { agent with
        xTimes := (config.xTimes.map (max 3)).getD agent.xTimes
        diskRenewalThreadFreq :=
          (config.diskRenewalThreadFreq.map (max 3000 · / 1000)).getD
            agent.diskRenewalThreadFreq }
      pure .success

def initializeRdeAgentEngine : Act ReturnType := do
  if (← readConfig) ≠ .success then return .failure
  match ← ask .readNodeId with
  | none => return .failure
  | some nodeId => do
      modify fun agent => { agent with nodeId }
      match ← ask .readHwType with
      | none => return .failure
      | some gepId => do
          modify fun agent => { agent with gepId }
          let updated : ReturnType ← ask .updateDiskStatus
          if updated ≠ .success then return .failure
          let connected : ReturnType ← ask .tipcInitialize
          if connected ≠ .success then return .failure
          if (← checkSCSIControllerStatus) ≠ .success then return .failure
          if (← checkAvailableDataDisks) ≠ .success then return .failure
          return .success

/-- What can happen to the agent: callbacks of AMF, signals, and the events its poll loop
finds. -/
inductive Event where
  | csiSet (target : HAState)
  | csiRemove
  | csiTerminate
  | shutdownSignal
  | diskSignal
  | raidSignal
  | termSignal
  | intSignal
  | deviceStatus
  | hangup
  | term
  | interrupt
  | timer
  | pollError
deriving DecidableEq

def exitLoop : Act Unit :=
  modify fun agent => { agent with hasExited := true }

def exitOnFailure (act : Act ReturnType) : Act ReturnType := do
  let result ← act
  if result ≠ .success then
    exitLoop
    return result
  else return result

/-- Shut down gracefully if the signal has been received, and leave the poll loop. -/
def exitGracefully (isReceived : Agent → Bool) : Act ReturnType := do
  let agent ← get
  if isReceived agent then
    let _ ← handleRdeAgentGracefullDownJobs
    exitLoop
    return .success
  else
    exitLoop
    return .success

def handle (codeOf : ReturnType → Int) : Event → Act ReturnType
  | .csiSet target => csiSetCallback codeOf target
  | .csiRemove => csiRemoveCallback
  | .csiTerminate => csiTerminateCallback
  | .shutdownSignal => performApplicationShutdownJobs
  | .diskSignal => do
      modify fun agent => { agent with updateDatadiskInfo := true, sigrtSelObj := true }
      pure .success
  | .raidSignal => do
      modify fun agent => { agent with updateRaidInfo := true, sigrtSelObj := true }
      pure .success
  | .termSignal => do
      modify fun agent => { agent with sigtermReceived := true, termSelObj := true }
      pure .success
  | .intSignal => do
      modify fun agent => { agent with sigintReceived := true, sigintSelObj := true }
      pure .success
  | .deviceStatus => do
      modify fun agent => { agent with sigrtSelObj := false }
      exitOnFailure updateDeviceStatus
  | .hangup => readConfig
  | .term => exitGracefully Agent.sigtermReceived
  | .interrupt => exitGracefully Agent.sigintReceived
  | .timer => exitOnFailure iTimerTimeoutHandler
  | .pollError => do
      exitLoop
      pure .failure

/-- Nothing is handled after the loop has been left, and once the agent is to terminate
only callbacks and signals come before that.  The loop handles what the selection objects
show. -/
def Enabled (agent : Agent) : Event → Prop
  | .csiSet target => agent.hasExited = false ∧ target ≠ .undefined
  | .csiRemove | .csiTerminate | .shutdownSignal | .diskSignal | .raidSignal | .termSignal
  | .intSignal => agent.hasExited = false
  | .deviceStatus =>
    agent.hasExited = false ∧ agent.terminateRdeAgent = false ∧ agent.sigrtSelObj = true
  | .hangup | .timer | .pollError =>
    agent.hasExited = false ∧ agent.terminateRdeAgent = false
  | .term =>
    agent.hasExited = false ∧ agent.terminateRdeAgent = false ∧ agent.termSelObj = true
  | .interrupt =>
    agent.hasExited = false ∧ agent.terminateRdeAgent = false ∧ agent.sigintSelObj = true

instance (agent : Agent) : DecidablePred (Enabled agent) := fun event => by
  cases event <;> unfold Enabled <;> infer_instance

abbrev AgentStep : Type := Stateful.Step commands Event ReturnType

/-- A run of the agent: it is initialised successfully and then handles events. -/
def RunsTo (codeOf : ReturnType → Int) (setup : List (Exchange commands))
    (steps : List AgentStep) (final : Agent) : Prop :=
  ∃ start, initializeRdeAgentEngine.Executes Agent.initial setup .success start ∧
    Stateful.Runs (handle codeOf) Enabled start steps final

/-! ## Scripted runs -/

/-- The replies on an ordinary node: node one, hardware GEP1, both ports healthy with the
disks `sda` and `sdb`, and every command succeeds. -/
def ordinary : (op : Op) → op.Reply
  | .scsi _ _ => .success
  | .queryGenerationKey _ => some ⟨["1\n"], true⟩
  | .listPortDisk => some ⟨[⟨.one, "sda"⟩, ⟨.two, "sdb"⟩], true⟩
  | .listRaidDisks => some ⟨[⟨.one, "sda", "active"⟩, ⟨.two, "sdb", "active"⟩], true⟩
  | .portStatus _ _ => some true
  | .diskStatusFile _ =>
    some ⟨[⟨.one, "healthy", "sda"⟩, ⟨.two, "healthy", "sdb"⟩], "", ""⟩
  | .assembleMount => .success
  | .disableUnmount => .success
  | .activateMIPs _ => .success
  | .deactivateMIPs => .success
  | .cleanup => .success
  | .queryTopology _ => some true
  | .componentErrorReport _ => .success
  | .finalize => .success
  | .rebootNode => .success
  | .amfResponse _ => .success
  | .quiescingComplete _ => .success
  | .readConfig => some ⟨none, none⟩
  | .readNodeId => some 1
  | .readHwType => some 1
  | .updateDiskStatus => .success
  | .tipcInitialize => .success
  | .mark _ => ()

def playAgent (codeOf : ReturnType → Int) (script : List (Event × ((op : Op) → op.Reply))) :
    Option (List (Exchange commands) × List AgentStep × Agent) :=
  match Program.answered (S := commands) ordinary (initializeRdeAgentEngine .initial) with
  | (setup, some (.success, start)) =>
    (Stateful.play (handle codeOf) Enabled script [] start).map fun played => (setup, played)
  | _ => none

theorem runsTo_play {codeOf : ReturnType → Int}
    (script : List (Event × ((op : Op) → op.Reply))) {setup : List (Exchange commands)}
    {steps : List AgentStep} {final : Agent}
    (played : playAgent codeOf script = some (setup, steps, final)) :
    RunsTo codeOf setup steps final := by
  unfold playAgent at played
  split at played
  · next exchanges start answered =>
      obtain ⟨⟨_, _⟩, playedSteps, isPlayed⟩ := Option.map_eq_some_iff.mp played
      cases isPlayed
      refine ⟨start, ?_, Stateful.runs_play .nil playedSteps⟩
      have returns : (Program.answered (S := commands) ordinary
          (initializeRdeAgentEngine .initial)).2 = some (.success, start) := by rw [answered]
      have executes := Stateful.executes_answered returns
      rwa [answered] at executes
  · cases played

end Apos.RdeAgent
