import Apos.ThreadSystem

/-!
# Operations of the DRBD HA agent

The agent `apos_ha_rdeagentd` keeps the flags of its role in the singleton
`Global`, two role objects in `agentHAClass`, a lock file and a memory-mapped
record on disk.  Everything else it learns from commands, from the information
model manager and from the network.  This file lists those operations and says
how the shared world answers each of them.
-/

namespace Apos.DrbdAgent

inductive HaState where
  | undefined
  | active
  | standby
  | quiesced
  | quiescing
  deriving DecidableEq, Repr

inductive ReturnType where
  | success
  | failure
  deriving DecidableEq, Repr

/-- The callbacks of `agentHAClass` that change the role, with the previous HA
state the framework passes. -/
inductive Callback where
  | toActive (previous : HaState)
  | toPassive (previous : HaState)
  | queising (previous : HaState)
  | quiesced (previous : HaState)
  | terminate
  | remove
  | shutdown
  deriving DecidableEq, Repr

/-- `HA_AGENT_PersistantInfoT`, with the connection state read as a C string. -/
structure PersistantInfo where
  cstate : String
  rebootCount : UInt32
  deriving DecidableEq, Repr

structure Mip where
  ipAddress : String
  interface : String
  deriving DecidableEq, Repr

/-- The fields of `HA_AGENT_ConfigT` that the role logic reads. -/
structure AgentConfig where
  rebootTmout : UInt32
  rebootCount : UInt32
  callbackTmout : UInt32
  mipInfo : List Mip
  deriving DecidableEq, Repr

/-- The command lines run through `HA_AGENT_Utils::_execlp`. -/
inductive Command where
  | assemble
  | assembleForce
  | disable
  | activate
  | activateMips
  | deactivateMips
  | startup
  | failoverActive
  | cleanup
  deriving DecidableEq, Repr

/-- The command lines read through `HA_AGENT_Utils::runCommand`. -/
inductive Query where
  | localDisk (resource : String)
  | peerDisk (resource : String)
  | localRole (resource : String)
  | peerHostname
  | peerRole (resource peerName : String)
  | replication (resource : String)
  | connection (resource : String)
  deriving DecidableEq, Repr

/-- Objects allocated with `ACE_NEW_NORETURN` whose absence is an error. -/
inductive Allocation where
  | roleMgr
  | reactor
  | reactorRunner
  | drbdMgr
  | immOm
  | ping
  | arping
  | ndisc
  | lFile
  | drbdMon
  deriving DecidableEq, Repr

inductive MkfifoReply where
  | made
  | existed
  | failed
  deriving DecidableEq, Repr

inductive Handler where
  | pipe
  | sigalrm
  | sigint
  | sighup
  | eventRebuild
  deriving DecidableEq, Repr

inductive Ask where
  | getHAState
  | getConfig
  | peerNodeLockd
  | isVirtualNode
  | ping (mip : Mip)
  | arping (mip : Mip)
  | execlp (command : Command)
  | popen (query : Query)
  | msecSleep (msecs : UInt32)
  | componentReportError
  | sbinReboot
  | apEvent
  | rcfAccess
  | rcfCreate
  | rcfUnlink
  | alloc (what : Allocation)
  | mkfifo
  | openPipe
  | closePipe
  | reactorOpen
  | scheduleTimer
  | registerHandler (handler : Handler)
  | removeHandler (handler : Handler)
  | utilsInit
  | readConfig
  | readMips
  | rebuildInProgress
  deriving DecidableEq, Repr

@[reducible]
def Ask.Reply : Ask → Type
  | .getHAState => HaState
  | .getConfig => AgentConfig
  | .peerNodeLockd | .isVirtualNode | .ping _ | .arping _ => Bool
  | .execlp _ | .sbinReboot => Option Int
  | .popen _ => Option (List String)
  | .msecSleep _ => Unit
  | .componentReportError => ReturnType
  | .rcfAccess | .rcfCreate | .alloc _ | .rebuildInProgress => Bool
  | .mkfifo => MkfifoReply
  | .apEvent | .rcfUnlink | .openPipe | .closePipe | .reactorOpen | .scheduleTimer
  | .registerHandler _ | .removeHandler _ | .utilsInit | .readConfig | .readMips => Int

instance (question : Ask) : DecidableEq question.Reply := by
  cases question <;> infer_instance

/-- The booleans of `Global` and `HA_AGENT_RoleMgr`; a pointer counts as set
when it is not null. -/
inductive Flag where
  | shutdownOrdered
  | haMode
  | tasksDone
  | compRestart
  | rMgrObj
  | haObj
  | startJobsDone
  | regHndlr
  deriving DecidableEq, Repr

inductive Task where
  | actvAdm
  | stbyAdm
  | roleMgr
  | drbdMon
  deriving DecidableEq, Repr

inductive Msgs where
  | agentShutdown
  | roleMgrClose
  | drbdMonTimeout
  | drbdMonClose
  deriving DecidableEq, Repr

/-- Operations on the two role objects of `agentHAClass`.  A created object is
known by its number. -/
inductive ObjectOp where
  | actvHeld
  | stbyHeld
  | newActv
  | newStby
  | deleteActv
  | deleteStby
  deriving DecidableEq, Repr

@[reducible]
def ObjectOp.Reply : ObjectOp → Type
  | .actvHeld | .stbyHeld => Bool
  | .newActv | .newStby => Option Nat
  | .deleteActv | .deleteStby => Unit

/-- Operations of `ACE_Task`: start its thread, post the closing message, read
the queue, wait for the thread. -/
inductive TaskOp where
  | activate (task : Task)
  | putq (task : Task)
  | getq (task : Task)
  | join (task : Task)
  deriving DecidableEq, Repr

@[reducible]
def TaskOp.Reply : TaskOp → Type
  | .activate _ => Int
  | .putq _ => Bool
  | .getq _ => Option Msgs
  | .join _ => Unit

inductive Note where
  | startJobs
  | startJobsReturned (rCode : Int)
  | compRestart
  | nodefailOver
  | stbyStart
  deriving DecidableEq, Repr

inductive Op where
  | read (flag : Flag)
  | write (flag : Flag) (value : Bool)
  | getOldhaState
  | setOldhaState (state : HaState)
  | openLock
  | accessLock
  | unlinkLock
  | loadRecord
  | storeRecord (info : PersistantInfo)
  | object (op : ObjectOp)
  | task (op : TaskOp)
  | ask (question : Ask)
  | note (mark : Note)
  deriving DecidableEq, Repr

@[reducible]
def Op.Reply : Op → Type
  | .read _ => Bool
  | .write _ _ => Unit
  | .getOldhaState => HaState
  | .setOldhaState _ => Unit
  | .openLock => Int
  | .accessLock => Bool
  | .unlinkLock => Int
  | .loadRecord => Option PersistantInfo
  | .storeRecord _ => Unit
  | .object op => op.Reply
  | .task op => op.Reply
  | .ask question => question.Reply
  | .note _ => Unit

instance (op : Op) : DecidableEq op.Reply := by
  rcases op with _ | _ | _ | _ | _ | _ | _ | _ | _ | objectOp | taskOp | question | _
  case object => cases objectOp <;> infer_instance
  case task => cases taskOp <;> infer_instance
  all_goals infer_instance

inductive Halt where
  | exitFailure
  | segmentationFault
  | stackOverflow
  deriving DecidableEq, Repr

@[reducible]
def signature : Signature where
  Op := Op
  Reply := Op.Reply
  Halt := Halt

abbrev Agent (α : Type) : Type := Program signature α

/-- The threads of the agent.  Callbacks run one at a time; `devmon` handles a
role-change message of the device monitor in the reactor of a role manager. -/
inductive Tid where
  | call (number : Nat) (callback : Callback)
  | actvAdm (number : Nat)
  | roleMgr (number : Nat)
  | roleMon (number : Nat)
  | stbyAdm (number : Nat)
  | stbyMon (number : Nat)
  | devmon (number role : Nat)
  deriving DecidableEq, Repr

/-- The world the threads share.  `calling` is the callback handled last, a
created role object is known by its number.  The lock file and the record survive a
reboot; `record` is `none` where the file could not be mapped. -/
structure World where
  flags : Flag → Bool
  oldhaState : HaState
  actvAdmObj : Option Nat
  stbyAdmObj : Option Nat
  created : Nat
  posted : List Tid
  calling : Option Tid
  lockFile : Bool
  record : Option PersistantInfo

/-- How the shared world answers an operation.  Role objects and threads are
answered by the environment here; `perform` gives them their meaning in the
whole process. -/
def act (world : World) : (op : Op) → op.Reply → op.Reply × World
  | .read flag, _ => (world.flags flag, world)
  | .write flag value, _ =>
    ((), { world with flags := Function.update world.flags flag value })
  | .getOldhaState, _ => (world.oldhaState, world)
  | .setOldhaState state, _ => ((), { world with oldhaState := state })
  | .openLock, fd => (fd, if 0 ≤ fd then { world with lockFile := true } else world)
  | .accessLock, succeeds => (world.lockFile && succeeds, world)
  | .unlinkLock, status =>
    (status, if 0 ≤ status then { world with lockFile := false } else world)
  | .loadRecord, _ => (world.record, world)
  | .storeRecord info, _ =>
    ((), { world with record := world.record.map fun _ => info })
  | .object _, proposed => (proposed, world)
  | .task _, proposed => (proposed, world)
  | .ask _, proposed => (proposed, world)
  | .note _, _ => ((), world)

@[reducible]
def machine : Machine signature World where
  act := act

/-! ## Operations as programs -/

def read (flag : Flag) : Agent Bool :=
  Program.perform (S := signature) (.read flag)

def write (flag : Flag) (value : Bool) : Agent Unit :=
  Program.perform (S := signature) (.write flag value)

def getOldhaState : Agent HaState :=
  Program.perform (S := signature) .getOldhaState

def setOldhaState (state : HaState) : Agent Unit :=
  Program.perform (S := signature) (.setOldhaState state)

def ask (question : Ask) : Agent question.Reply :=
  Program.perform (S := signature) (.ask question)

def object (op : ObjectOp) : Agent op.Reply :=
  Program.perform (S := signature) (.object op)

def task (op : TaskOp) : Agent op.Reply :=
  Program.perform (S := signature) (.task op)

def note (mark : Note) : Agent Unit :=
  Program.perform (S := signature) (.note mark)

def exitFailure {α : Type} : Agent α :=
  .halt Halt.exitFailure

end Apos.DrbdAgent
