import Apos.DrbdAgentCommands

/-!
# The role manager and the DRBD monitor

`HA_AGENT_RoleMgr` takes the active role: it checks the health of the disk,
decides whether another active node may exist, and starts the DRBD jobs.
`HA_AGENT_DRBDMon` supervises the resource afterwards.  Both report errors
through `Global`.

`shutDown_all` and `nodefailOver` call each other without a bound of their own.
They take a `depth` here, the number of nested calls that still fit on the stack
of the thread.
-/

namespace Apos.DrbdAgent

/-! ## Jobs of the active role -/

def startJobs : Agent Int := do
  note .startJobs
  if (← drbdStartJobs) < 0 then do
    note (.startJobsReturned (-1))
    pure (-1)
  else do
    write .startJobsDone true
    note (.startJobsReturned 0)
    pure 0

def stopJobs : Agent Int := do
  if (← drbdStopJobs) < 0 then pure (-1) else pure 0

/-! ## Error reports of `Global` -/

def reboot : Agent Unit := do
  let status ← ask .sbinReboot
  if status = some 0 then exitFailure
  else do
    let config ← ask .getConfig
    msecSleep config.rebootTmout
    exitFailure

/-- The request `componentReportError(ACS_APGCC_NODE_FAILOVER)` and the wait
after it. -/
def reportFailover : Agent Unit := do
  if (← ask .componentReportError) = .success then do
    let config ← ask .getConfig
    msecSleep config.rebootTmout
  else pure ()

/-- The recovery that follows many faults: report to the framework in HA mode,
then exit. -/
def failOrExit {α : Type} (report : Agent Unit) : Agent α := do
  let haMode ← read .haMode
  (if haMode then report else pure ())
  exitFailure

/-- `shutDown_all`, given the call of `nodefailOver` it makes when the jobs
cannot be stopped. -/
def shutDownAllWith (failover : Agent Unit) : Agent Unit := do
  let started ← read .startJobsDone
  (if started then do
      if (← stopJobs) < 0 then failOrExit failover else pure ()
    else pure ())
  write .tasksDone false
  write .startJobsDone false

def nodefailOver : Nat → Agent Unit
  | 0 => .halt Halt.stackOverflow
  | depth + 1 => do
      note .nodefailOver
      let rMgrObj ← read .rMgrObj
      (if rMgrObj then shutDownAllWith (nodefailOver depth) else pure ())
      let haObj ← read .haObj
      (if haObj then reportFailover else pure ())
      reboot

def shutDownAll (depth : Nat) : Agent Unit :=
  shutDownAllWith (nodefailOver depth)

def compRestart (depth : Nat) : Agent Unit := do
  note .compRestart
  let rMgrObj ← read .rMgrObj
  (if rMgrObj then shutDownAll depth else pure ())
  write .compRestart true

def reportStartError (depth : Nat) : Agent Unit := do
  if ← read .haMode then compRestart depth else exitFailure

def getHAState : Agent HaState := do
  if ← read .haObj then ask .getHAState else pure .undefined

/-! ## Start of the role manager -/

def pOpen : Agent Int := do
  if (← ask .mkfifo) = .failed then pure (-1)
  else if (← ask .openPipe) = -1 then pure (-1)
  else pure 0

/-- `initRoleMgr` with the node type it stores in `m_isVirtual`.  The check
after the allocation of `HA_AGENT_LFile` tests another pointer, so a failed
allocation goes unnoticed. -/
def initRoleMgr : Agent (Int × Bool) := do
  if (← pOpen) < 0 then pure (-1, false)
  else if !(← ask (.alloc .reactorRunner)) then pure (-1, false)
  else if (← ask .reactorOpen) ≠ 0 then pure (-1, false)
  else if (← ask (.registerHandler .pipe)) < 0 then pure (-1, false)
  else do
    write .regHndlr true
    if !(← ask (.alloc .drbdMgr)) then pure (-1, false)
    else if !(← ask (.alloc .immOm)) then pure (-1, false)
    else do
      let isVirtual ← ask .isVirtualNode
      if !(← ask (.alloc (if isVirtual then .ping else .arping))) then
        pure (-1, isVirtual)
      else if !(← ask (.alloc .ndisc)) then pure (-1, isVirtual)
      else do
        let _ ← ask (.alloc .lFile)
        pure (0, isVirtual)

/-- The connection states of a disk whose contents are being overwritten by the
peer. -/
def inconsistentState (cstate : String) : Bool :=
  cstate = "StartingSyncT" || cstate = "SyncTarget" || cstate = "PausedSyncT"

/-- The branch of `healthCheck` for a record of unfinished synchronisation. -/
def refuseInconsistent (depth : Nat) (info : PersistantInfo) : Agent Int := do
  let config ← ask .getConfig
  (if config.rebootCount ≤ info.rebootCount then do
      let _ ← ask .apEvent
    else do
      let _ ← createRCF)
  let _ ← writePersisInfo { info with rebootCount := info.rebootCount + 1 }
  failOrExit (nodefailOver depth)

def clearRebootCount (info : PersistantInfo) : Agent Unit := do
  if 0 < info.rebootCount then do
    let _ ← writePersisInfo { info with rebootCount := 0 }
  else pure ()

/-- The branch of `healthCheck` for any other record. -/
def checkLiveHealth (info : PersistantInfo) : Agent Int := do
  clearRebootCount info
  let health ← drbdHealth true
  let _ ← removeRCF
  if health < 0 then pure (-1) else pure 0

def healthCheck (depth : Nat) : Agent Int := do
  let persis ← getPersisInfo
  if persis.1 = true then
    if inconsistentState persis.2.cstate then refuseInconsistent depth persis.2
    else checkLiveHealth persis.2
  else pure (-1)

/-! ## Split-brain algorithm -/

/-- The first level: whether the movable addresses have to be probed. -/
def mustProbe : Agent Bool := do
  if ← ask .peerNodeLockd then pure false
  else if ← read .haMode then
    if (← getOldhaState) = .undefined then lFileExist else pure true
  else pure true

def skipsMip (isVirtual : Bool) (mip : Mip) : Bool :=
  isVirtual && mip.interface = "eth1"

def probeMip (isVirtual : Bool) (mip : Mip) : Agent Bool :=
  if isVirtual then ask (.ping mip) else ask (.arping mip)

/-- The loop over `mipInfo`; it ends at the first answer. -/
def probeMips (isVirtual : Bool) : List Mip → Agent Bool
  | [] => pure false
  | mip :: rest =>
    if skipsMip isVirtual mip then probeMips isVirtual rest
    else do
      if ← probeMip isVirtual mip then pure true
      else probeMips isVirtual rest

def isSplitBrainDetected (isVirtual : Bool) : Agent Bool := do
  if ← mustProbe then do
    let config ← ask .getConfig
    probeMips isVirtual config.mipInfo
  else pure false

def splitBrainAlgo (depth : Nat) (isVirtual : Bool) : Agent Int := do
  if ← isSplitBrainDetected isVirtual then do
    let _ ← lFile
    failOrExit (nodefailOver depth)
  else if ← lFileExist then do
    let _ ← rmLFile
    pure 0
  else pure 0

/-! ## Threads of the role manager -/

/-- The pointer `m_DMObj` and whether its thread was started. -/
inductive MonObj where
  | absent
  | unopened
  | opened
  deriving DecidableEq, Repr

def openMon : Agent MonObj := do
  if !(← ask (.alloc .drbdMon)) then pure .absent
  else if (← task (.activate .drbdMon)) < 0 then pure .unopened
  else pure .opened

/-- `DRBDMon::close` uses the reactor that only the monitor's own thread
creates. -/
def closeMon : MonObj → Agent Unit
  | .absent => pure ()
  | .unopened => .halt Halt.segmentationFault
  | .opened => do
      let _ ← task (.putq .drbdMon)
      task (.join .drbdMon)

/-- The start-up of `HA_AGENT_RoleMgr::svc`, with the monitor object it leaves;
an error was detected unless the monitor is open. -/
def startRole (depth : Nat) : Agent MonObj := do
  let init ← initRoleMgr
  if init.1 < 0 then pure .absent
  else if (← healthCheck depth) < 0 then pure .absent
  else if (← splitBrainAlgo depth init.2) < 0 then pure .absent
  else if (← startJobs) < 0 then pure .absent
  else openMon

def roleMgrSvc (depth : Nat) : Agent MonObj := do
  let monObj ← startRole depth
  (if monObj = .opened then pure () else reportStartError depth)
  write .tasksDone true
  let _ ← task (.getq .roleMgr)
  shutDownAll depth
  pure monObj

/-- `HA_AGENT_RoleMgr::close(u_long)`, run by the thread when `svc` returns. -/
def roleMgrCloseHook (monObj : MonObj) : Agent Int := do
  if ← read .shutdownOrdered then do
    let _ ← ask (.removeHandler .sigalrm)
    closeMon monObj
    let _ ← ask .closePipe
    pure 0
  else exitFailure

def roleMgrThread (depth : Nat) : Agent Int := do
  let monObj ← roleMgrSvc depth
  roleMgrCloseHook monObj

/-- `processMsg` for the message `DRBD_ROLE_CHANGE`; all others are only
traced. -/
def processRoleChange (depth : Nat) : Agent Int := do
  if (← drbdHealth false) < 0 then failOrExit (nodefailOver depth) else pure 0

/-! ## The monitor -/

/-- A standby node that sees neither a connection nor its peer. -/
def lostPeer (info peer : DrbdInfo) : Bool :=
  (info.cstate ≠ "Connected" && info.cstate ≠ "SyncTarget" &&
    info.cstate ≠ "PausedSyncT" && info.cstate ≠ "StartingSyncT") &&
  (peer.role = "Unknown" && peer.dstate = "DUnknown")

/-- The attempts to leave `StandAlone`; the result is `Counter` after the loop
and the argument is `MAX_ATTEMPTS - Counter`. -/
def reconnectAttempts : Nat → Agent Nat
  | 0 => pure 3
  | remaining + 1 => do
      if (← activate) = 0 then pure (3 - (remaining + 1))
      else do
        msecSleep 1000
        reconnectAttempts remaining

def reconnect (depth : Nat) : Agent Int := do
  let counter ← reconnectAttempts 2
  if counter > 3 then do
    if ← read .haMode then do
      nodefailOver depth
      exitFailure
    else pure 0
  else pure 0

def recordStatus (info : DrbdInfo) : Agent Int := do
  let persis ← getPersisInfo
  if persis.1 = false then pure (-1)
  else if info.cstate ≠ "WFConnection" then do
    let _ ← writePersisInfo { persis.2 with cstate := info.cstate }
    pure 0
  else pure 0

/-- The body of `superviseDRBD` once a status has been fetched. -/
def superviseStatus (depth : Nat) (info peer : DrbdInfo) : Agent Int := do
  if info.isConfigured = false then failOrExit (nodefailOver depth)
  else if (← getHAState) = .standby ∧ lostPeer info peer then do
    msecSleep 60000
    failOrExit (nodefailOver depth)
  else if (← getHAState) = .standby ∧ info.cstate = "StandAlone" ∧
      info.role = "Secondary" then reconnect depth
  else recordStatus info

/-- `superviseDRBD`.  The peer is only asked when the local status could not be
fetched. -/
def superviseDRBD (depth : Nat) : Agent Int := do
  let info ← drbdinfo
  if info.1 = 0 then superviseStatus depth info.2 .zero
  else do
    let peer ← peerdrbdinfo
    if peer.1 = 0 then superviseStatus depth info.2 peer.2 else pure (-1)

def monInit : Agent Int := do
  if !(← ask (.alloc .reactor)) then pure (-1)
  else if !(← ask (.alloc .reactorRunner)) then pure (-1)
  else if (← ask .reactorOpen) ≠ 0 then pure (-1)
  else if (← ask .scheduleTimer) < 0 then pure (-1)
  else pure 0

/-- The message loop of the monitor, for at most `ticks` time-outs. -/
def monLoop (depth : Nat) : Nat → Agent Int
  | 0 => do
      let _ ← task (.getq .drbdMon)
      pure 0
  | ticks + 1 => do
      if (← task (.getq .drbdMon)) = some .drbdMonTimeout then do
        if ← ask .rebuildInProgress then monLoop depth ticks
        else do
          let _ ← superviseDRBD depth
          monLoop depth ticks
      else pure 0

def monThread (depth ticks : Nat) : Agent Int := do
  if (← monInit) < 0 then failOrExit (compRestart depth)
  else monLoop depth ticks

end Apos.DrbdAgent
