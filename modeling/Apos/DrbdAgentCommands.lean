import Apos.DrbdAgentOperations

/-!
# Commands, queries and files of the DRBD HA agent

The agent controls DRBD through external commands and learns its state by
parsing their output.  This file follows `HA_AGENT_Utils`, `HA_AGENT_DRBDMgr`,
`HA_AGENT_PWROff` and `HA_AGENT_LFile`; return codes are the integers of the
source.
-/

namespace Apos.DrbdAgent

/-! ## `HA_AGENT_Utils` -/

/-- `_execlp`: 0 exactly when the child could be forked and its status is 0. -/
def execlp (command : Command) : Agent Int := do
  match ← ask (.execlp command) with
  | none => pure (-1)
  | some status => if status ≠ 0 then pure (-1) else pure 0

def msecSleep (msecs : UInt32) : Agent Unit :=
  ask (.msecSleep msecs)

def isEol (character : Char) : Bool :=
  character = '\r' || character = '\n'

/-- The two end-of-line tests `runCommand` makes on a line that `fgets` read. -/
def chompChars (line : List Char) : List Char :=
  match line.reverse with
  | last :: previous :: front =>
    if isEol previous then front.reverse
    else if isEol last then (previous :: front).reverse
    else line
  | [last] => if isEol last then [] else line
  | [] => []

def chomp (line : String) : String :=
  String.ofList (chompChars line.toList)

def outputOf (lines : List String) : String :=
  String.join (lines.map chomp)

def runCommand (query : Query) : Agent (Bool × String) := do
  match ← ask (.popen query) with
  | none => pure (false, "")
  | some lines => pure (true, outputOf lines)

def getDiskState (resource : String) (isLocal : Bool) : Agent (Bool × String) :=
  if resource.length > 0 then
    runCommand (if isLocal then .localDisk resource else .peerDisk resource)
  else pure (false, "")

def getDrbdRole (resource : String) (isLocal : Bool) : Agent (Bool × String) :=
  if resource.length > 0 then
    if isLocal then runCommand (.localRole resource)
    else do
      let peerName ← runCommand .peerHostname
      if peerName.1 then runCommand (.peerRole resource peerName.2)
      else pure (false, "")
  else pure (false, "")

/-- The state string of `getConnectedState`; the connection is only asked for
when replication is established or off. -/
def connectedState (resource : String) : Agent String := do
  let replication ← runCommand (.replication resource)
  if replication.1 then
    if replication.2 = "Established" ∨ replication.2 = "Off" then do
      let connection ← runCommand (.connection resource)
      if connection.1 then pure connection.2 else pure ""
    else pure replication.2
  else pure ""

def getConnectedState (resource : String) : Agent (Bool × String) :=
  if resource.length > 0 then do
    let state ← connectedState resource
    pure (state ≠ "", state)
  else pure (false, "")

def createRCF : Agent Int := do
  if ← ask .rcfAccess then pure 0
  else if ← ask .rcfCreate then pure 0
  else pure (-1)

def removeRCF : Agent Int := do
  if ← ask .rcfAccess then
    if (← ask .rcfUnlink) < 0 then pure (-1) else pure 0
  else pure 0

/-! ## `HA_AGENT_LFile` -/

def lFile : Agent Int := do
  let fd ← Program.perform (S := signature) .openLock
  if fd < 0 then pure (-1) else pure 0

def lFileExist : Agent Bool :=
  Program.perform (S := signature) .accessLock

def rmLFile : Agent Int := do
  let status ← Program.perform (S := signature) .unlinkLock
  if status < 0 then pure (-1) else pure 0

/-! ## `HA_AGENT_PWROff` -/

structure DrbdInfo where
  isConfigured : Bool
  cstate : String
  role : String
  dstate : String
  deriving DecidableEq, Repr

def DrbdInfo.zero : DrbdInfo where
  isConfigured := false
  cstate := ""
  role := ""
  dstate := ""

/-- What `strncpy` into a field of 16 bytes and the forced terminator keep. -/
def field16 (text : String) : String :=
  String.ofList (text.toList.take 15)

def fetchedField (found : Bool × String) : String :=
  if found.1 then field16 found.2 else ""

def infoOfQueries (cstate role dstate : Bool × String) : Int × DrbdInfo :=
  let found := cstate.1 && role.1 && dstate.1
  (if found then 0 else -1,
    { isConfigured := found
      cstate := fetchedField cstate
      role := fetchedField role
      dstate := fetchedField dstate })

def queryInfo (isLocal : Bool) : Agent (Int × DrbdInfo) := do
  let cstate ← getConnectedState "drbd1"
  let role ← getDrbdRole "drbd1" isLocal
  let dstate ← getDiskState "drbd1" isLocal
  pure (infoOfQueries cstate role dstate)

def drbdinfo : Agent (Int × DrbdInfo) :=
  queryInfo true

def peerdrbdinfo : Agent (Int × DrbdInfo) :=
  queryInfo false

/-- `get_persis_info` reads through the mapping without testing it. -/
def getPersisInfo : Agent (Bool × PersistantInfo) := do
  match ← Program.perform (S := signature) .loadRecord with
  | some info => pure (true, info)
  | none => .halt Halt.segmentationFault

def writePersisInfo (info : PersistantInfo) : Agent Bool := do
  Program.perform (S := signature) (.storeRecord info)
  pure true

/-! ## `HA_AGENT_DRBDMgr` -/

/-- `m_assemble_force` is false unless `set_assemble_force` is called, and
nothing calls it. -/
def assemble (assembleForce : Bool) : Agent Int := do
  let rCode ← execlp (if assembleForce then .assembleForce else .assemble)
  if rCode = 0 ∧ assembleForce then do
    let _ ← removeRCF
    pure rCode
  else pure rCode

def setMipAddrs : Agent Int :=
  execlp .activateMips

def usetMipAddrs : Agent Int :=
  execlp .deactivateMips

def aposJobs (options : Command) : Agent Int :=
  execlp options

/-- The result of the clean-up command is overwritten by that of the second
command. -/
def disable : Agent Int := do
  let _ ← execlp .cleanup
  execlp .disable

def activate : Agent Int :=
  execlp .activate

def drbdStartJobs : Agent Int := do
  if (← assemble false) ≠ 0 then pure (-1)
  else if (← setMipAddrs) ≠ 0 then pure (-1)
  else if (← aposJobs .startup) ≠ 0 then pure (-1)
  else pure 0

def drbdStopJobs : Agent Int := do
  if (← aposJobs .failoverActive) ≠ 0 then pure (-1)
  else if (← usetMipAddrs) ≠ 0 then pure (-1)
  else if (← disable) ≠ 0 then pure (-1)
  else pure 0

def maxRetry : Nat := 300

/-- The retry loop of `drbdHealth` with `remaining` rounds to go. -/
def retryDiskState (resource : String) : Nat → String → Agent (Nat × String)
  | 0, state => pure (0, state)
  | remaining + 1, state =>
    if state = "UpToDate" then pure (remaining + 1, state)
    else do
      msecSleep 1000
      let fetched ← getDiskState resource true
      retryDiskState resource remaining fetched.2

def roleHealthy (onStart : Bool) (role : String) : Bool :=
  if onStart then role = "Secondary" || role = "Primary"
  else role = "Primary"

/-- `drbdHealth`.  The flag of the disk query is overwritten by that of the
role query. -/
def drbdHealth (onStart : Bool) : Agent Int := do
  let state ← getDiskState "drbd1" true
  let role ← getDrbdRole "drbd1" true
  let final ← retryDiskState "drbd1" maxRetry state.2
  if roleHealthy onStart role.2 = false then pure (-1)
  else if final.1 = 0 ∧ final.2 ≠ "UpToDate" then pure (-1)
  else if role.1 = false then pure (-1)
  else pure 0

end Apos.DrbdAgent
