import Apos.FbsConfiguration
import Apos.ProgramWorlds
import Apos.UserDbRefinement

/-!
# Sessions on the user database

A command opens the database, makes one change and closes it.  `OpenDbInstance` takes the
lock, copies the database to the work file and creates the temporary file.  `CloseDbInstance`
renames the work file to the database and gives the lock back, whatever the change returned.

Copying a file opens two more streams.  The copying loop is the one of the open handler,
which reads from the temporary file and writes to the work file.  For a copy the reading end
is the stream on the source and the writing end the stream on the destination.
-/

namespace Apos.UserDb

/-- The two streams of the handler, or the two streams of `CopyFile`. -/
inductive StreamPair where
  | handler
  | copying
  deriving DecidableEq, Repr

/-- The modes `"r"`, `"r+"`, `"w"` and `"w+"` of `fopen`. -/
inductive Mode where
  | read
  | readPlus
  | write
  | writePlus
  deriving DecidableEq, Repr

/-- What `fcntl(F_SETLK)` with a write lock returns: success, failure with `EACCES` or
`EAGAIN`, or failure with another error. -/
inductive LockReply where
  | granted
  | refused
  | failed
  deriving DecidableEq, Repr

/-- The system and library calls of a session.  `exit` is the end of the process. -/
inductive SessionOp where
  | openLock
  | setLock
  | clearLock
  | closeLock
  | readConfig
  | stat (path : Text)
  | fopen (pair : StreamPair) (file : DbFile) (path : Text) (mode : Mode)
  | fclose (pair : StreamPair) (file : DbFile)
  | rename (old new : Text)
  | remove (path : Text)
  | library (pair : StreamPair) (op : FileOp)
  | exit
  deriving DecidableEq, Repr

abbrev SessionOp.Reply : SessionOp → Type
  | .openLock => Bool
  | .setLock => LockReply
  | .clearLock => Bool
  | .closeLock => Unit
  | .readConfig => Option Text
  | .stat _ => Bool
  | .fopen _ _ _ _ => Bool
  | .fclose _ _ => Bool
  | .rename _ _ => Bool
  | .remove _ => Bool
  | .library _ op => op.Reply
  | .exit => Unit

abbrev sessionOps : Signature where
  Op := SessionOp
  Reply := SessionOp.Reply
  Halt := Halt

/-- The process and the attributes of its `TDbHandler`: whether the lock file is open, and
the paths once the configuration has been read. -/
structure Session where
  pid : Nat
  handler : TDbHandler
  lckFile : Bool
  config : Option ConfigPaths
  deriving DecidableEq, Repr

abbrev SessionAct : Type → Type :=
  Stateful sessionOps Session

abbrev askSystem (op : SessionOp) : SessionAct op.Reply :=
  Stateful.ask (S := sessionOps) op

def StreamPair.calls (pair : StreamPair) : Inclusion fileOps sessionOps where
  op := .library pair
  reply _ reply := reply
  back _ reply := reply
  reply_back _ _ := rfl
  back_reply _ _ := rfl
  halt cause := cause

def onStreams {α : Type} (pair : StreamPair) (act : Act α) : SessionAct α :=
  Stateful.within pair.calls Session.handler (fun session handler => { session with handler }) act

def setError (enmRetCode : ErrNssDb) (strRetMsg : String) : SessionAct PUnit :=
  modify fun session =>
    { session with handler := { session.handler with retCode := enmRetCode, retMsg := strRetMsg } }

/-! ## Paths -/

/-- `GetConfigValue` for `NSS_CONFIG_WFILE`. -/
def getConfigValue : SessionAct (Option Text) := do
  let session ← get
  match session.config with
  | some paths => pure (some paths.writePath)
  | none => do
      let text : Option Text ← askSystem .readConfig
      match text.bind parsingConfigFile with
      | some paths => do
          modify fun session => { session with config := some paths }
          pure (some paths.writePath)
      | none => pure none

/-- The database path with `SDB_PATH_WORKDBEXT`. -/
def workPath (strDbPath : Text) : Text :=
  strDbPath ++ "~.tmp".toList

def isPathSeparator (symbol : Char) : Bool :=
  symbol == '\\' || symbol == '/'

def pathFileName (strFullPath : Text) : Text :=
  strFullPath.rtakeWhile fun symbol => !isPathSeparator symbol

/-- `P_tmpdir`, the separator, `SDB_PATH_TMPDBSUFFIX`, the process and the file name. -/
def tempPath (pid : Nat) (strDbPath : Text) : Text :=
  "/tmp/~tmp_".toList ++ Nat.toDigits 10 pid ++ pathFileName strDbPath

def derivedPath (path : Nat → Text → Text) : SessionAct (Option Text) := do
  let strDbPath ← getConfigValue
  match strDbPath with
  | some strDbPath => do
      let session ← get
      pure (some (path session.pid strDbPath))
  | none => do
      setError .errDbTmpPath "Unable to obtain temporary database path"
      pure none

def getDatapaseWorkPath : SessionAct (Option Text) :=
  derivedPath fun _ => workPath

def getTempFilePath : SessionAct (Option Text) :=
  derivedPath tempPath

/-! ## The lock -/

/-- `LockDatabase`, which returns whether the database is not locked by another process. -/
def lockDatabase : SessionAct Bool := do
  let session ← get
  if session.lckFile then pure false
  else do
    let opened : Bool ← askSystem .openLock
    if opened then do
      modify fun session => { session with lckFile := true }
      let reply : LockReply ← askSystem .setLock
      match reply with
      | .refused => pure false
      | _ => pure true
    else do
      setError .errDbLockD "Unable to lock the database"
      pure true

def unLockDatabase : SessionAct Bool := do
  let session ← get
  if session.lckFile then do
    let cleared : Bool ← askSystem .clearLock
    let _ : Unit ← askSystem .closeLock
    modify fun session => { session with lckFile := false }
    pure cleared
  else pure false

/-! ## Opening -/

def copyInto (rounds : Nat) (strTo : Text) : SessionAct Bool := do
  let created : Bool ← askSystem (.fopen .copying .work strTo .write)
  if created then do
    let transferred ← onStreams .copying (fileTransfer rounds .tmp .work)
    let _ : Bool ← askSystem (.fclose .copying .work)
    pure transferred
  else do
    setError .errDbCopy "Error while copy a database to temporary file"
    pure false

def copyFile (rounds : Nat) (strFrom strTo : Text) : SessionAct Bool := do
  let opened : Bool ← askSystem (.fopen .copying .tmp strFrom .read)
  if opened then do
    let copied ← copyInto rounds strTo
    let _ : Bool ← askSystem (.fclose .copying .tmp)
    pure copied
  else do
    setError .errDbCopy "Error while copy a database to temporary file"
    pure false

def setWorkFile (isOpen : Bool) : SessionAct PUnit :=
  modify fun session =>
    { session with handler := { session.handler with workFile := isOpen } }

def setTmpFile (isOpen : Bool) : SessionAct PUnit :=
  modify fun session =>
    { session with handler := { session.handler with tmpFile := isOpen } }

def withPath (message : String) (path : Text) : String :=
  message ++ " [" ++ String.ofList path ++ "]"

def createWorkFile (strDbFilePath strDbWorkPath : Text) : SessionAct Bool := do
  let created : Bool ← askSystem (.fopen .handler .work strDbWorkPath .writePlus)
  if created then do
    setWorkFile true
    setError .errDbOk "Success"
    pure true
  else do
    setError .errDbCreate (withPath "Unable to create db file" strDbFilePath)
    pure false

def copyToWorkFile (rounds : Nat) (strDbFilePath strDbWorkPath : Text) : SessionAct Bool := do
  let copied ← copyFile rounds strDbFilePath strDbWorkPath
  if copied then do
    let opened : Bool ← askSystem (.fopen .handler .work strDbWorkPath .readPlus)
    if opened then do
      setWorkFile true
      pure true
    else do
      setError .errDbOpen (withPath "Unable to open db file" strDbFilePath)
      pure false
  else pure false

def prepareWorkFile (rounds : Nat) (strDbFilePath : Text) : SessionAct Bool := do
  let strDbWorkPath ← getDatapaseWorkPath
  match strDbWorkPath with
  | some strDbWorkPath => do
      let found : Bool ← askSystem (.stat strDbFilePath)
      if found then copyToWorkFile rounds strDbFilePath strDbWorkPath
      else createWorkFile strDbFilePath strDbWorkPath
  | none => do
      setError .errDbTmpCreate (withPath "Unable to create temporary file" [])
      pure false

def openWorkFile (rounds : Nat) : SessionAct Bool := do
  let session ← get
  if session.handler.workFile then do
    setError .errDbAlready "Database already open"
    pure false
  else do
    let strDbFilePath ← getConfigValue
    match strDbFilePath with
    | some strDbFilePath => prepareWorkFile rounds strDbFilePath
    | none => do
        setError .errDbPath "Unable to obtain database path from config file"
        pure false

def createTmpFile : SessionAct Bool := do
  let session ← get
  if session.handler.tmpFile then pure true
  else do
    let strTmpFilePath ← getTempFilePath
    match strTmpFilePath with
    | some strTmpFilePath => do
        let created : Bool ← askSystem (.fopen .handler .tmp strTmpFilePath .writePlus)
        if created then do
          setTmpFile true
          pure true
        else do
          setError .errDbTmpCreate "Unable to create temporary file"
          pure false
    | none => pure false

def addTmpFile : SessionAct Bool := do
  let created ← createTmpFile
  if created then pure true
  else do
    let _ : Bool ← askSystem (.fclose .handler .work)
    setWorkFile false
    pure false

def openDbInstance (rounds : Nat) : SessionAct Bool := do
  setError .errDbUnknow "Unknow error"
  let free ← lockDatabase
  if free then do
    let opened ← openWorkFile rounds
    if opened then addTmpFile else pure false
  else do
    setError .errDbLocked "Database is locked from another application"
    pure false

/-! ## Closing -/

def closeTmpFile : SessionAct PUnit := do
  let session ← get
  if session.handler.tmpFile then do
    let _ : Bool ← askSystem (.fclose .handler .tmp)
    setTmpFile false
    let strTmpFile ← getTempFilePath
    match strTmpFile with
    | some strTmpFile => do
        let _ : Bool ← askSystem (.remove strTmpFile)
        pure PUnit.unit
    | none => pure PUnit.unit
  else pure PUnit.unit

def renameWorkFile : SessionAct Bool := do
  let strWorkDb ← getDatapaseWorkPath
  match strWorkDb with
  | some strWorkDb => do
      let strDb ← getConfigValue
      match strDb with
      | some strDb => do
          let renamed : Bool ← askSystem (.rename strWorkDb strDb)
          if renamed then do
            setError .errDbOk "Success"
            pure true
          else do
            setError .errDbRename "Fail to rename work database"
            pure false
      | none => do
          setError .errDbPath "Unable to obtain database path from config file"
          pure false
  | none => pure false

def closeWorkFile : SessionAct Bool := do
  let session ← get
  if session.handler.workFile then do
    let closed : Bool ← askSystem (.fclose .handler .work)
    if closed then do
      setWorkFile false
      renameWorkFile
    else do
      setError .errDbCloseWDb "Fail to close work database (abort)"
      pure false
  else pure false

def closeDbInstance : SessionAct Bool := do
  closeTmpFile
  let closed ← closeWorkFile
  let _ ← unLockDatabase
  pure closed

/-! ## Commands -/

/-- What the change returned and what `CloseDbInstance` returned. -/
structure CommandResult where
  changed : Bool
  closed : Bool
  deriving DecidableEq, Repr

/-- The calls that `nssInsertItem`, `nssRemoveItem` and `nssDeleteDb` make on their handler.
There is no result when the database cannot be opened. -/
def command (rounds : Nat) (call : Call) : SessionAct (Option CommandResult) := do
  let opened ← openDbInstance rounds
  if opened then do
    let changed ← onStreams .handler (call.act rounds)
    let closed ← closeDbInstance
    pure (some ⟨changed, closed⟩)
  else pure none

def newSession (pid : Nat) : Session where
  pid := pid
  handler := ⟨false, false, .errDbOk, "Success"⟩
  lckFile := false
  config := none

end Apos.UserDb
