import Apos.StatefulProgram

/-!
# State and operations of the MD HA agent

The MD agent (`APGHA_RDEAgent`) runs in one thread.  It owns two ports, each with a
controller and a data disk, and takes the active role by reserving the disks with SCSI
persistent reservations, assembling the RAID array and moving the MIP addresses.
Logging and sleeping are left out.
-/

namespace Apos.RdeAgent

inductive ReturnType where
  | success
  | failure
deriving DecidableEq

inductive HAState where
  | undefined
  | active
  | standby
  | quiesced
  | quiescing
deriving DecidableEq

/-- `ACS_APGCC_AMF_RecommendedRecoveryT`, as far as the agent uses it. -/
inductive Recovery where
  | componentFailover
  | nodeFailover
  | nodeFailfast
deriving DecidableEq

inductive Port where
  | one
  | two
deriving DecidableEq

structure DataDisk where
  diskname : String
  isHealthy : Bool
  isRegistered : Bool
  isReserved : Bool

structure Controller where
  isHealthy : Bool
  disk : DataDisk

/-- The health flags of one port in an `APGHA_NodeT`. -/
structure NodePort where
  isHealthy : Bool
  diskIsHealthy : Bool

/-- `APGHA_NodeT` without the disk names, which nothing reads. -/
structure Node where
  portOne : NodePort
  portTwo : NodePort

/-- `APGHA_RDEAgent` together with the HA state of `APOS_HA_RdeAgent_AmfClass`, the
signal flags and selection objects its poll loop looks at, and whether that loop has been
left. -/
structure Agent where
  portOne : Controller
  portTwo : Controller
  nodeA : Node
  nodeB : Node
  nodeId : Nat
  gepId : Nat
  backPlaneUp : Bool
  isMIPConfigured : Bool
  isRAIDConfigured : Bool
  isAgentStanby : Bool
  isStateAssgned : Bool
  diskRenewalThreadFreq : Nat
  renewDiskRegCounter : Nat
  xTimes : Nat
  terminateRdeAgent : Bool
  sigtermReceived : Bool
  sigintReceived : Bool
  updateDatadiskInfo : Bool
  updateRaidInfo : Bool
  gracefullDownJobsDone : Bool
  initiateFailover : Bool
  haState : HAState
  termSelObj : Bool
  sigintSelObj : Bool
  sigrtSelObj : Bool
  hasExited : Bool

namespace Agent

def port (agent : Agent) : Port → Controller
  | .one => agent.portOne
  | .two => agent.portTwo

def disk (agent : Agent) (port : Port) : DataDisk :=
  (agent.port port).disk

def mapPort (port : Port) (change : Controller → Controller) (agent : Agent) : Agent :=
  match port with
  | .one => { agent with portOne := change agent.portOne }
  | .two => { agent with portTwo := change agent.portTwo }

def mapDisk (port : Port) (change : DataDisk → DataDisk) : Agent → Agent :=
  mapPort port fun controller => { controller with disk := change controller.disk }

def setReserved (port : Port) (isReserved : Bool) : Agent → Agent :=
  mapDisk port fun disk => { disk with isReserved }

def setRegistered (port : Port) (isRegistered : Bool) : Agent → Agent :=
  mapDisk port fun disk => { disk with isRegistered }

def setDiskHealthy (port : Port) (isHealthy : Bool) : Agent → Agent :=
  mapDisk port fun disk => { disk with isHealthy }

def setFound (port : Port) (diskname : String) : Agent → Agent :=
  mapDisk port fun disk => { disk with diskname, isHealthy := true }

/-- `Initialize_Agent`.  The fields it leaves uninitialised are set before they are
read. -/
def initial : Agent :=
  let disk : DataDisk := ⟨"", false, false, false⟩
  let node : Node := ⟨⟨false, false⟩, ⟨false, false⟩⟩
  { portOne := ⟨false, disk⟩, portTwo := ⟨false, disk⟩, nodeA := node, nodeB := node,
    nodeId := 0, gepId := 0, backPlaneUp := false, isMIPConfigured := false,
    isRAIDConfigured := false, isAgentStanby := false, isStateAssgned := false,
    diskRenewalThreadFreq := 3000, renewDiskRegCounter := 0, xTimes := 3,
    terminateRdeAgent := false, sigtermReceived := false, sigintReceived := false,
    updateDatadiskInfo := false, updateRaidInfo := false, gracefullDownJobsDone := false,
    initiateFailover := false, haState := .undefined, termSelObj := false,
    sigintSelObj := false, sigrtSelObj := false, hasExited := false }

end Agent

/-! ## Operations -/

/-- The commands of `apos_ha_scsi_operations` that act on one data disk. -/
inductive ScsiCommand where
  | registerRenewDatadisk
  | clearRegistrations
  | reserveDatadisk
  | preemptDisk
  | releaseReservations
deriving DecidableEq

/-- What a command that was opened with `popen` gave: the pieces `fgets` read, and whether
`pclose` found no error code. -/
structure Output where
  lines : List String
  exitsZero : Bool

/-- A line `PORTn: name` of `--list-port-disk`; the name is `null` if there is no disk. -/
structure PortLine where
  port : Port
  name : String

structure PortList where
  lines : List PortLine
  exitsZero : Bool

/-- A line `DISKn: name text state` of `--list-raid-disks`. -/
structure RaidLine where
  port : Port
  name : String
  state : String

structure RaidList where
  lines : List RaidLine
  exitsZero : Bool

/-- A line `PORTn: controller text disk` of a `disk_status` file. -/
structure StatusLine where
  port : Port
  controller : String
  disk : String

/-- A `disk_status` file, and what the two buffers of `updatePortStatus` hold before they
are first written. -/
structure DiskStatus where
  lines : List StatusLine
  controllerBuffer : String
  diskBuffer : String

structure Config where
  xTimes : Option Nat
  diskRenewalThreadFreq : Option Nat

/-- Two calls whose results the properties of the agent are about leave a mark in the
history of operations; a mark is no command. -/
inductive Mark where
  | counterChecked (disk : String) (result : ReturnType) (counterChanged : Bool)
  | reservationAlgo (result : ReturnType)

inductive Op where
  | scsi (command : ScsiCommand) (disk : String)
  | queryGenerationKey (disk : String)
  | listPortDisk
  | listRaidDisks
  | portStatus (gep : Nat) (port : Port)
  | diskStatusFile (node : Nat)
  | assembleMount
  | disableUnmount
  | activateMIPs (onStart : Bool)
  | deactivateMIPs
  | cleanup
  | queryTopology (node : Nat)
  | componentErrorReport (recovery : Recovery)
  | finalize
  | rebootNode
  | amfResponse (result : ReturnType)
  | quiescingComplete (result : ReturnType)
  | readConfig
  | readNodeId
  | readHwType
  | updateDiskStatus
  | tipcInitialize
  | mark (mark : Mark)

/-- Commands run by `launchCommand` succeed or fail; a query gives `none` if it could not
be made. -/
def Op.Reply : Op → Type
  | .scsi _ _ => ReturnType
  | .queryGenerationKey _ => Option Output
  | .listPortDisk => Option PortList
  | .listRaidDisks => Option RaidList
  | .portStatus _ _ => Option Bool
  | .diskStatusFile _ => Option DiskStatus
  | .assembleMount => ReturnType
  | .disableUnmount => ReturnType
  | .activateMIPs _ => ReturnType
  | .deactivateMIPs => ReturnType
  | .cleanup => ReturnType
  | .queryTopology _ => Option Bool
  | .componentErrorReport _ => ReturnType
  | .finalize => ReturnType
  | .rebootNode => ReturnType
  | .amfResponse _ => ReturnType
  | .quiescingComplete _ => ReturnType
  | .readConfig => Option Config
  | .readNodeId => Option Nat
  | .readHwType => Option Nat
  | .updateDiskStatus => ReturnType
  | .tipcInitialize => ReturnType
  | .mark _ => Unit

def commands : Signature := ⟨Op, Op.Reply, Empty⟩

theorem never_halts : commands.Halt → False :=
  Empty.elim

abbrev Act : Type → Type :=
  Stateful commands Agent

abbrev ask (op : Op) : Act op.Reply :=
  Stateful.ask (S := commands) op

end Apos.RdeAgent
