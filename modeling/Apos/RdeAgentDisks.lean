import Apos.CTexts
import Apos.RdeAgentOperations

/-!
# Data disks of the MD HA agent

Registration, reservation and health of the two data disks, as in `APGHA_RDEAgent`.  The
reservation algorithm reserves the disk of each port.  Where a reservation is refused it
watches the PR generation counter of the disk: a counter that moves belongs to a mate that
is alive, and a counter that stands still lets the agent preempt the reservation.
-/

namespace Apos.RdeAgent

def maxAttempts : Nat := 3

/-! ## Commands on one disk -/

/-- `launchCommand` with a command of `apos_ha_scsi_operations`. -/
def launch (command : ScsiCommand) (disk : String) : Act ReturnType :=
  ask (.scsi command disk)

def attempt (command : ScsiCommand) (disk : String) : Nat → Act ReturnType
  | 0 => pure .failure
  | attempts + 1 => do
      match ← launch command disk with
      | .success => pure .success
      | .failure => attempt command disk attempts

def reserveDatadisk (disk : String) : Act ReturnType :=
  attempt .reserveDatadisk disk maxAttempts

def preemptDataDisk (disk : String) : Act ReturnType :=
  launch .preemptDisk disk

def releaseDataDiskReservation (disk : String) : Act ReturnType :=
  launch .releaseReservations disk

/-! ## Registration -/

/-- The block of `registerReachableDataDisks` for one port.  If the registrations of the
disk have to be cleared, the flag of the port `credited` is set. -/
def registerPort (port credited : Port) : Act ReturnType := do
  let agent ← get
  if (agent.port port).isHealthy && (agent.disk port).isHealthy then
    match ← attempt .registerRenewDatadisk (agent.disk port).diskname maxAttempts with
    | .success => do
        modify (Agent.setRegistered port true)
        pure .success
    | .failure => do
        match ← launch .clearRegistrations (agent.disk port).diskname with
        | .success => do
            modify (Agent.setRegistered credited true)
            pure .success
        | .failure => pure .failure
  else pure .success

def registerReachableDataDisks : Act ReturnType := do
  modify (Agent.setRegistered .one false)
  modify (Agent.setRegistered .two false)
  if (← registerPort .one .one) = .failure then return .failure
  if (← registerPort .two .one) = .failure then return .failure
  let agent ← get
  if !(agent.disk .one).isRegistered && !(agent.disk .two).isRegistered then return .failure
  return .success

/-! ## Generation counter -/

/-- `sscanf(line, "%s", buff)`: a line without a token leaves the buffer as it is. -/
def scanToken (buff line : String) : String :=
  match CText.scanWords line.toList with
  | [] => buff
  | token :: _ => String.ofList token

/-- `atoi`, stored in an `ACE_UINT32`. -/
def generationKey (buff : String) : UInt32 :=
  UInt32.ofInt (CText.atoi buff.toList)

/-- The buffers `line` and `buff` after one command has been read.  A command that prints
nothing leaves the line of the one before; without any line there is no result. -/
def collectCounter (line buff : String) (lines : List String) : Option (String × String) :=
  match lines.getLast? with
  | some last => some (last, lines.foldl scanToken buff)
  | none => if line = "" then none else some (line, scanToken buff line)

/-- The local variables of `checkDiskPRGenerationCounter`; the first key is not known in
the first iteration. -/
structure CounterWatch where
  line : String
  buff : String
  frstPRGenKey : Option UInt32
  spikeRaised : Bool
  iterations : Nat

/-- One iteration after the key has been read: the watch goes on, or it ends and says
whether the counter has changed. -/
def CounterWatch.next (watch : CounterWatch) (xTimes : Nat) (line buff : String) :
    CounterWatch ⊕ Bool :=
  let nextPRGenKey := generationKey buff
  if watch.frstPRGenKey.getD nextPRGenKey ≠ nextPRGenKey then
    if watch.spikeRaised then .inr true
    else if xTimes = 0 then .inr false
    else .inl ⟨line, buff, some nextPRGenKey, true, 0⟩
  else if watch.iterations + 1 = xTimes then .inr false
  else .inl ⟨line, buff, some nextPRGenKey, watch.spikeRaised, watch.iterations + 1⟩

/-- The loop of `checkDiskPRGenerationCounter`: the result and `counterChanged`. -/
def watchCounter (disk : String) (xTimes : Nat) : Nat → CounterWatch → Act (ReturnType × Bool)
  | 0, _ => pure (.success, true)
  | launches + 1, watch => do
      match ← ask (.queryGenerationKey disk) with
      | none => pure (.failure, true)
      | some output =>
        match collectCounter watch.line watch.buff output.lines with
        | none => pure (.failure, true)
        | some (line, buff) =>
          if buff = "" then pure (.failure, true)
          else if !output.exitsZero then pure (.failure, true)
          else
            match watch.next xTimes line buff with
            | .inr counterChanged => pure (.success, counterChanged)
            | .inl watch => watchCounter disk xTimes launches watch

def checkDiskPRGenerationCounter (disk : String) : Act (ReturnType × Bool) := do
  let agent ← get
  let checked ← watchCounter disk agent.xTimes (agent.xTimes * 2) ⟨"", "", none, false, 0⟩
  let _ ← ask (.mark (.counterChecked disk checked.1 checked.2))
  pure checked

/-! ## Reservation -/

/-- The loop in which `dataDiskReservationAlgo` tries to reserve the disk of one port; it
returns `errorCode` and `counterChanged`.  The last call in its body is never reached. -/
def contend (port : Port) : Nat → ReturnType × Bool → Act (ReturnType × Bool)
  | 0, last => pure last
  | attempts + 1, _ => do
      let agent ← get
      match ← reserveDatadisk (agent.disk port).diskname with
      | .success => do
          modify (Agent.setReserved port true)
          pure (.success, false)
      | .failure => do
          let checked ← checkDiskPRGenerationCounter (agent.disk port).diskname
          if checked.1 ≠ .success then contend port attempts (.failure, false)
          else if checked.2 = false then pure (.success, false)
          else contend port attempts (.success, true)

def contest (port : Port) : Act (ReturnType × Bool) := do
  let agent ← get
  if (agent.disk port).isHealthy && (agent.disk port).isRegistered then
    contend port (maxAttempts + 4) (.success, false)
  else pure (.success, false)

def preemptUnreserved (port : Port) : Act ReturnType := do
  let agent ← get
  if (agent.disk port).isHealthy && !(agent.disk port).isReserved then
    match ← preemptDataDisk (agent.disk port).diskname with
    | .success => do
        modify (Agent.setReserved port true)
        pure .success
    | .failure => pure .failure
  else pure .success

def releaseFirst : Act Unit := do
  let agent ← get
  if (agent.disk .one).isReserved then
    modify (Agent.setReserved .one false)
    let _ ← releaseDataDiskReservation (agent.disk .one).diskname
    pure ()
  else pure ()

def reservationJobs : Act ReturnType := do
  let first ← contest .one
  if first.1 ≠ .success ∨ first.2 then return .failure
  if (← preemptUnreserved .one) = .failure then return .failure
  let second ← contest .two
  if second.1 ≠ .success ∨ second.2 then
    releaseFirst
    return .failure
  if (← preemptUnreserved .two) = .failure then
    releaseFirst
    return .failure
  let agent ← get
  if !(agent.disk .one).isReserved && !(agent.disk .two).isReserved then return .failure
  return .success

def dataDiskReservationAlgo : Act ReturnType := do
  let result ← reservationJobs
  let _ ← ask (.mark (.reservationAlgo result))
  pure result

/-! ## Health of controllers and disks -/

def readPortStatus (port : Port) : Act Unit := do
  let agent ← get
  match ← ask (.portStatus agent.gepId port) with
  | some isHealthy => modify (Agent.mapPort port fun controller => { controller with isHealthy })
  | none => pure ()

def readControllers : Act Unit := do
  let agent ← get
  if agent.gepId = 1 ∨ agent.gepId = 2 then
    readPortStatus .one
    readPortStatus .two
  else pure ()

def checkSCSIControllerStatus : Act ReturnType := do
  modify (Agent.mapPort .one fun controller => { controller with isHealthy := false })
  modify (Agent.mapPort .two fun controller => { controller with isHealthy := false })
  readControllers
  let agent ← get
  if !agent.portOne.isHealthy && !agent.portTwo.isHealthy then
    modify fun agent => { agent with initiateFailover := true }
    return .failure
  return .success

/-- The lines of `--list-port-disk`, one after the other. -/
def Agent.findPortDisks (agent : Agent) (lines : List PortLine) : Agent :=
  lines.foldl (fun agent line =>
    if line.name = "null" then agent else agent.setFound line.port line.name) agent

def checkAvailableDataDisks : Act ReturnType := do
  modify (Agent.setDiskHealthy .one false)
  modify (Agent.setDiskHealthy .two false)
  match ← ask .listPortDisk with
  | none => pure .failure
  | some list => do
      modify (Agent.findPortDisks · list.lines)
      let agent ← get
      if !(agent.disk .one).isHealthy && !(agent.disk .two).isHealthy then
        modify fun agent => { agent with initiateFailover := true }
        return .failure
      if !list.exitsZero then return .failure
      return .success

end Apos.RdeAgent
