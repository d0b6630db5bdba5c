import Apos.DrbdAgentRoleMgr

/-!
# Callbacks and threads of the DRBD HA agent

`agentHAClass` answers the callbacks of the availability framework.  It holds at
most one object `HA_AGENT_ACTVAdm` and one object `HA_AGENT_STNBYAdm`, each with
threads of its own.  The callback that starts a role waits for a flag the role's
threads set, so its answer depends on how the threads interleave.
-/

namespace Apos.DrbdAgent

/-! ## `HA_AGENT_ACTVAdm` -/

/-- `Global::roleMgr`: the role manager is made when it is first needed. -/
def roleMgr : Agent Unit := do
  if ← read .rMgrObj then pure ()
  else if ← ask (.alloc .roleMgr) then do
    write .startJobsDone false
    write .regHndlr false
    write .rMgrObj true
  else .halt Halt.segmentationFault

def roleMgrOpen : Agent Int := do
  if (← ask (.registerHandler .sigalrm)) < 0 then pure (-1)
  else if (← task (.activate .roleMgr)) < 0 then pure (-1)
  else pure 0

def startRoleMgr : Agent Int := do
  roleMgr
  if (← roleMgrOpen) < 0 then pure (-1) else pure 0

def roleMgrClose : Agent Unit := do
  let registered ← read .regHndlr
  (if registered then do
      if (← ask (.removeHandler .pipe)) < 0 then pure ()
      else write .regHndlr false
    else pure ())
  let _ ← task (.putq .roleMgr)

def actvShutDownAll : Agent Unit := do
  let _ ← ask (.removeHandler .sighup)
  let _ ← ask (.removeHandler .sigint)
  write .shutdownOrdered true
  roleMgr
  roleMgrClose
  roleMgr
  task (.join .roleMgr)

def actvSvc (depth : Nat) : Agent Int := do
  let rCode ← startRoleMgr
  (if rCode < 0 then reportStartError depth else pure ())
  let _ ← task (.getq .actvAdm)
  actvShutDownAll
  pure 0

def actvInitClasses : Agent Int := do
  let _ ← ask .utilsInit
  if (← ask .readConfig) < 0 then pure (-1)
  else if (← ask .readMips) < 0 then pure (-1)
  else pure 0

def actvStart : Agent Int := do
  write .haObj true
  write .haMode true
  if (← ask (.registerHandler .sigint)) < 0 then pure (-1)
  else if (← ask (.registerHandler .sighup)) < 0 then pure (-1)
  else if (← actvInitClasses) < 0 then pure (-1)
  else task (.activate .actvAdm)

/-! ## `HA_AGENT_STNBYAdm` -/

def stbyInitClasses : Agent Int := do
  if !(← ask (.alloc .lFile)) then pure (-1)
  else if (← ask .readConfig) < 0 then pure (-1)
  else pure 0

def rmlockfile : Agent Int := do
  if ← lFileExist then do
    let _ ← rmLFile
    pure 0
  else pure 0

def stbyStart : Agent Int := do
  note .stbyStart
  write .haObj true
  write .haMode true
  if (← ask (.registerHandler .sigint)) < 0 then pure (-1)
  else if (← ask (.registerHandler .sighup)) < 0 then pure (-1)
  else if (← ask (.registerHandler .eventRebuild)) < 0 then pure (-1)
  else if (← stbyInitClasses) < 0 then pure (-1)
  else if (← rmlockfile) < 0 then pure (-1)
  else task (.activate .stbyAdm)

/-- The part of `HA_AGENT_STNBYAdm::svc` that runs when the monitor is open. -/
def stbyClearRebootCount : Agent Unit := do
  let persis ← getPersisInfo
  let _ ← writePersisInfo { persis.2 with rebootCount := 0 }
  let _ ← removeRCF

def stbySvc (depth : Nat) : Agent MonObj := do
  let monObj ← openMon
  (if monObj = .opened then stbyClearRebootCount else reportStartError depth)
  write .tasksDone true
  let _ ← task (.getq .stbyAdm)
  pure monObj

/-- `HA_AGENT_STNBYAdm::close(u_long)`, run by the thread when `svc` returns. -/
def stbyCloseHook (monObj : MonObj) : Agent Int := do
  closeMon monObj
  write .tasksDone false
  pure 0

def stbyThread (depth : Nat) : Agent Int := do
  let monObj ← stbySvc depth
  stbyCloseHook monObj

def stbyStop : Agent Unit := do
  let _ ← ask (.removeHandler .sighup)
  let _ ← ask (.removeHandler .sigint)
  let _ ← ask (.removeHandler .eventRebuild)
  let _ ← task (.putq .stbyAdm)

/-! ## `agentHAClass` -/

def pollTasks : Nat → Agent Unit
  | 0 => pure ()
  | polls + 1 => do
      if ← read .tasksDone then pure ()
      else if ← read .compRestart then pure ()
      else do
        msecSleep 1000
        pollTasks polls

def waitOntask : Agent Int := do
  let config ← ask .getConfig
  pollTasks (config.callbackTmout.toNat / 1000 + 1)
  if ← read .tasksDone then
    if ← read .compRestart then pure (-1) else pure 0
  else pure (-1)

def stopActv : Agent Unit := do
  if ← object .actvHeld then do
    let _ ← task (.putq .actvAdm)
    task (.join .actvAdm)
    object .deleteActv
  else pure ()

def stopStndby : Agent Unit := do
  if ← object .stbyHeld then do
    stbyStop
    task (.join .stbyAdm)
    object .deleteStby
  else pure ()

/-- The answer of a callback that has just started a role. -/
def answerAfterWait : Agent ReturnType := do
  if (← waitOntask) ≠ 0 then pure .failure else pure .success

/-- The change from standby to active in `activateApp`. -/
def leaveStandby : Agent Unit := do
  if ← object .stbyHeld then do
    stopStndby
    setOldhaState .standby
  else pure ()

def activateApp : Agent ReturnType := do
  leaveStandby
  if ← object .actvHeld then pure .success
  else if (← object .newActv) = none then pure .failure
  else if (← actvStart) < 0 then do
    object .deleteActv
    pure .failure
  else answerAfterWait

def passifyApp : Agent ReturnType := do
  if ← object .stbyHeld then pure .success
  else if (← object .newStby) = none then pure .failure
  else if (← stbyStart) < 0 then do
    object .deleteStby
    pure .failure
  else answerAfterWait

def stopApp : Agent ReturnType := do
  stopActv
  stopStndby
  pure .success

/-- The callbacks `performStateTransitionTo...Jobs` and their relatives. -/
def performJobs : Callback → Agent ReturnType
  | .toActive previous => do
      setOldhaState previous
      activateApp
  | .toPassive previous => do
      setOldhaState previous
      passifyApp
  | .queising _ | .quiesced _ | .terminate | .remove | .shutdown => stopApp

/-! ## The system of threads -/

inductive ThreadResult where
  | answered (rCode : ReturnType)
  | finished (rCode : Int)
  deriving DecidableEq, Repr

def body (depth ticks : Nat) : Tid → Program signature ThreadResult
  | .call _ callback => do
      let rCode ← performJobs callback
      pure (.answered rCode)
  | .actvAdm _ => do
      let rCode ← actvSvc depth
      pure (.finished rCode)
  | .roleMgr _ => do
      let rCode ← roleMgrThread depth
      pure (.finished rCode)
  | .stbyAdm _ => do
      let rCode ← stbyThread depth
      pure (.finished rCode)
  | .roleMon _ | .stbyMon _ => do
      let rCode ← monThread depth ticks
      pure (.finished rCode)
  | .devmon _ _ => do
      let rCode ← processRoleChange depth
      pure (.finished rCode)

/-- The thread behind a task object, as the calling thread sees it. -/
def target (world : World) : Tid → Task → Option Tid
  | .call _ _, .actvAdm => world.actvAdmObj.map .actvAdm
  | .call _ _, .stbyAdm => world.stbyAdmObj.map .stbyAdm
  | .actvAdm number, .actvAdm => some (.actvAdm number)
  | .actvAdm number, .roleMgr => some (.roleMgr number)
  | .roleMgr number, .roleMgr => some (.roleMgr number)
  | .roleMgr number, .drbdMon => some (.roleMon number)
  | .roleMon number, .drbdMon => some (.roleMon number)
  | .stbyAdm number, .stbyAdm => some (.stbyAdm number)
  | .stbyAdm number, .drbdMon => some (.stbyMon number)
  | .stbyMon number, .drbdMon => some (.stbyMon number)
  | _, _ => none

def closing : Task → Msgs
  | .actvAdm | .stbyAdm => .agentShutdown
  | .roleMgr => .roleMgrClose
  | .drbdMon => .drbdMonClose

/-- The flags after `Global::deactivate` has deleted its objects and reset its
members. -/
def deactivatedFlags (flags : Flag → Bool) : Flag → Bool
  | .haObj => flags .haObj
  | .startJobsDone => flags .startJobsDone
  | .regHndlr => flags .regHndlr
  | _ => false

def deactivate (world : World) : World :=
  { world with flags := deactivatedFlags world.flags, oldhaState := .undefined }

/-- Threads that still use an active object or its role manager. -/
def actvInUse (alive : Tid → Bool) : Option Nat → Bool
  | none => false
  | some number =>
    alive (.actvAdm number) || alive (.roleMgr number) || alive (.roleMon number)

def stbyInUse (alive : Tid → Bool) : Option Nat → Bool
  | none => false
  | some number => alive (.stbyAdm number) || alive (.stbyMon number)

/-- The role manager that `deactivate` deletes belongs to the active object. -/
def roleMgrInUse (alive : Tid → Bool) : Option Nat → Bool
  | none => false
  | some number => alive (.roleMgr number) || alive (.roleMon number)

def performObject (world : World) (alive : Tid → Bool) :
    (op : ObjectOp) → op.Reply → Effect signature World Tid (.object op)
  | .actvHeld, _ => .done world.actvAdmObj.isSome world none
  | .stbyHeld, _ => .done world.stbyAdmObj.isSome world none
  | .newActv, none => .done none world none
  | .newActv, some _ =>
    .done (some world.created)
      { world with actvAdmObj := some world.created, created := world.created + 1 }
      none
  | .newStby, none => .done none world none
  | .newStby, some _ =>
    .done (some world.created)
      { world with stbyAdmObj := some world.created, created := world.created + 1 }
      none
  | .deleteActv, _ =>
    if actvInUse alive world.actvAdmObj then .broken
    else .done () { deactivate world with actvAdmObj := none } none
  | .deleteStby, _ =>
    if stbyInUse alive world.stbyAdmObj || roleMgrInUse alive world.actvAdmObj then
      .broken
    else
      .done ()
        { deactivate world with stbyAdmObj := none, oldhaState := .standby } none

def performTask (world : World) (alive : Tid → Bool) (tid : Tid) :
    (op : TaskOp) → op.Reply → Effect signature World Tid (.task op)
  | .activate task, rCode =>
    match target world tid task with
    | none => .blocked
    | some thread => .done rCode world (if rCode < 0 then none else some thread)
  | .putq task, posts =>
    match target world tid task with
    | none => .blocked
    | some thread =>
      .done posts
        (if posts then { world with posted := thread :: world.posted } else world)
        none
  | .getq task, message =>
    match message with
    | none => .done none world none
    | some .drbdMonTimeout =>
      if task = .drbdMon then .done (some .drbdMonTimeout) world none else .blocked
    | some _ =>
      if world.posted.contains tid then .done (some (closing task)) world none
      else .blocked
  | .join task, _ =>
    match target world tid task with
    | none => .blocked
    | some thread => if alive thread then .blocked else .done () world none

def perform (world : World) (alive : Tid → Bool) (tid : Tid) :
    (op : Op) → op.Reply → Effect signature World Tid op
  | .object op, proposed => performObject world alive op proposed
  | .task op, proposed => performTask world alive tid op proposed
  | op, proposed => .done (act world op proposed).1 (act world op proposed).2 none

/-- Callbacks come one after the other; a message of the device monitor needs a
role manager. -/
def admits (world : World) (alive : Tid → Bool) : Tid → Option World
  | .call number callback =>
    if world.calling.any alive then none
    else some { world with calling := some (.call number callback) }
  | .devmon _ role => if alive (.roleMgr role) then some world else none
  | _ => none

/-- A new process starts with the members its constructors set. -/
def rebootWorld (world : World) : World where
  flags := fun _ => false
  oldhaState := .undefined
  actvAdmObj := none
  stbyAdmObj := none
  created := world.created
  posted := []
  calling := none
  lockFile := world.lockFile
  record := world.record

@[reducible]
def system (depth ticks : Nat) : ThreadSystem signature World Tid ThreadResult where
  body := body depth ticks
  perform := perform
  admits := admits
  reboot := rebootWorld

/-- A node on which nothing has run yet: only the two files can be there. -/
def freshWorld (lockFile : Bool) (record : Option PersistantInfo) : World where
  flags := fun _ => false
  oldhaState := .undefined
  actvAdmObj := none
  stbyAdmObj := none
  created := 0
  posted := []
  calling := none
  lockFile := lockFile
  record := record

def Fresh (world : World) : Prop :=
  ∃ lockFile record, world = freshWorld lockFile record

abbrev AgentConfiguration : Type := Config signature World Tid ThreadResult

abbrev AgentEntry : Type := Entry signature Tid ThreadResult

/-! ## A friendly environment

Concrete runs let the environment answer from these replies, changed at the
operations the run is about. -/

/-- A configuration with one movable address and no patience. -/
def sampleConfig : AgentConfig where
  rebootTmout := 0
  rebootCount := 1
  callbackTmout := 0
  mipInfo := [⟨"192.168.169.1", "bond0"⟩]

def favourableAsk : (question : Ask) → question.Reply
  | .getHAState => .active
  | .getConfig => sampleConfig
  | .peerNodeLockd | .isVirtualNode | .ping _ | .arping _ => false
  | .execlp _ | .sbinReboot => some 0
  | .popen (.localDisk _) => some ["UpToDate\n"]
  | .popen (.localRole _) => some ["Secondary\n"]
  | .popen _ => some ["Connected\n"]
  | .msecSleep _ => ()
  | .componentReportError => .success
  | .rcfAccess | .rebuildInProgress => false
  | .rcfCreate | .alloc _ => true
  | .mkfifo => .made
  | .apEvent | .rcfUnlink | .openPipe | .closePipe | .reactorOpen | .scheduleTimer
  | .registerHandler _ | .removeHandler _ | .utilsInit | .readConfig | .readMips => (0 : Int)

def favourable : (op : Op) → op.Reply
  | .read _ => false
  | .write _ _ | .setOldhaState _ | .storeRecord _ | .note _ => ()
  | .getOldhaState => .undefined
  | .openLock | .unlinkLock => (0 : Int)
  | .accessLock => true
  | .loadRecord => none
  | .object .actvHeld | .object .stbyHeld => false
  | .object .newActv | .object .newStby => some 0
  | .object .deleteActv | .object .deleteStby => ()
  | .task (.activate _) => (0 : Int)
  | .task (.putq _) => true
  | .task (.getq _) => some .agentShutdown
  | .task (.join _) => ()
  | .ask question => favourableAsk question

def favourableBut (changed : Op) (reply : changed.Reply) : (op : Op) → op.Reply :=
  Function.update favourable changed reply

def turns (tid : Tid) (count : Nat) (replies : (op : Op) → op.Reply) :
    List (Event signature Tid) :=
  List.replicate count (.step tid replies)

/-- A callback makes the active object `number` and returns; then the role manager
of the object takes some steps. -/
def activation (call number : Nat) (previous : HaState) (steps : Nat)
    (replies : (op : Op) → op.Reply) : List (Event signature Tid) :=
  .arrive (.call call (.toActive previous)) ::
    turns (.call call (.toActive previous)) 18 favourable ++
      turns (.actvAdm number) 7 favourable ++ turns (.roleMgr number) steps replies

def scheduled (check : AgentConfiguration → AgentEntry → Bool)
    (events : List (Event signature Tid)) : AgentConfiguration :=
  (system 1 1).execute check
    (ThreadSystem.initial (freshWorld false (some ⟨"Connected", 0⟩))) events

theorem reaches_scheduled (check : AgentConfiguration → AgentEntry → Bool)
    (events : List (Event signature Tid)) :
    (system 1 1).Reaches Fresh (ThreadSystem.Passing check) (scheduled check events) :=
  ThreadSystem.reaches_execute (.start ⟨false, _, rfl⟩) events

end Apos.DrbdAgent
