import Mathlib.Algebra.Group.Nat.Defs
import Mathlib.Data.List.DropRight
import Apos.CNumerals
import Apos.ProgramInterpretation
import Apos.TextFiles

/-!
# The handler of the user database

`TDbHandler` keeps the users of a node in a text file of `passwd` lines.  An open handler
edits a copy of that file, the work file.  Every change copies the lines that stay into a
temporary file and then copies the temporary file back.

A character is one byte of a file.  A loop of the source that ends only when a file ends
takes the number of rounds it may make as an argument and halts when they are used up.
-/

namespace Apos.UserDb

abbrev Text : Type := List Char

structure TsPassword where
  uId : UInt32
  uGid : UInt32
  strName : Text
  strPasswd : Text
  strGecos : Text
  strDir : Text
  strShell : Text
  deriving DecidableEq, Repr

/-- The codes of `errNssDb` that the handler reports. -/
inductive ErrNssDb where
  | errDbOk
  | errDbUnknow
  | errDbCreate
  | errDbOpen
  | errDbAlready
  | errDbNotOpen
  | errDbHandling
  | errDbFormat
  | errDbWrite
  | errDbTmpCreate
  | errDbCopy
  | errDbTruncate
  | errDbUidNotFound
  | errDbRename
  | errDbPath
  | errDbTmpPath
  | errDbCloseWDb
  | errDbLocked
  | errDbLockD
  deriving DecidableEq, Repr

/-- The attributes of `TDbHandler` that its operations on an open database read or set:
whether the two file pointers are set, and the internal error. -/
structure TDbHandler where
  workFile : Bool
  tmpFile : Bool
  retCode : ErrNssDb
  retMsg : String
  deriving DecidableEq, Repr

inductive DbFile where
  | work
  | tmp
  deriving DecidableEq, Repr

/-- The calls of the C library on the two files. -/
inductive FileOp where
  | fseek (file : DbFile)
  | fgets (file : DbFile) (size : Nat)
  | fwrite (file : DbFile) (text : Text)
  | fread (file : DbFile) (count : Nat)
  | ferror (file : DbFile)
  | fileno (file : DbFile)
  | ftruncate (file : DbFile)
  deriving DecidableEq, Repr

/-- `fseek`, `fileno` and `ftruncate` tell whether they succeeded, `fgets` the bytes it
stored, `fwrite` the number of bytes written, `fread` the bytes read. -/
abbrev FileOp.Reply : FileOp → Type
  | .fseek _ => Bool
  | .fgets _ _ => Option Text
  | .fwrite _ _ => Nat
  | .fread _ _ => Text
  | .ferror _ => Bool
  | .fileno _ => Bool
  | .ftruncate _ => Bool

inductive Halt where
  | endless
  | badIndex
  deriving DecidableEq, Repr

abbrev fileOps : Signature where
  Op := FileOp
  Reply := FileOp.Reply
  Halt := Halt

abbrev Act : Type → Type :=
  Stateful fileOps TDbHandler

abbrev ask (op : FileOp) : Act op.Reply :=
  Stateful.ask (S := fileOps) op

def setInternalError (enmRetCode : ErrNssDb) (strRetMsg : String) : Act PUnit :=
  modify fun handler => { handler with retCode := enmRetCode, retMsg := strRetMsg }

/-! ## Lines of the database -/

def isTrimCharacter (symbol : Char) : Bool :=
  " \x0c\n\r\t\x0b".toList.contains symbol

def trimLeft (strIn : Text) : Text :=
  strIn.dropWhile isTrimCharacter

def trimRight (strIn : Text) : Text :=
  strIn.rdropWhile isTrimCharacter

def trim (strIn : Text) : Text :=
  trimRight (trimLeft strIn)

theorem trim_eq_strip (text : Text) : trim text = strip isTrimCharacter text :=
  rfl

/-- `strtoul` with base ten, which converts nothing to 0. -/
def strtoul (text : Text) : Nat :=
  match CText.scanDecimal text with
  | none => 0
  | some scanned => scanned.toUnsigned.1.toNat

/-- What `ParsingLine` makes of a line: one of its two errors, `IUFBS_DB_EMPTY`, or
`IUFBS_DB_SUCCESS` with the record. -/
inductive ParsedLine where
  | missingSeparator
  | separatorInLast
  | empty
  | success (pwd : TsPassword)
  deriving DecidableEq, Repr

/-- Six fields end at a colon, the seventh at the end of the line. -/
def fieldSeparators : List Char :=
  [':', ':', ':', ':', ':', ':', '\n']

def parseLine (pBuf : Text) : ParsedLine :=
  let strLine := trim (CText.cString pBuf)
  if strLine = [] then .empty
  else
    match splitFields fieldSeparators (strLine ++ ['\n']) with
    | some [name, passwd, uid, gid, gecos, dir, shell] =>
      if ':' ∈ shell then .separatorInLast
      else
        .success
          { strName := trim name
            strPasswd := trim passwd
            uId := UInt32.ofNat (strtoul (trim uid))
            uGid := UInt32.ofNat (strtoul (trim gid))
            strGecos := trim gecos
            strDir := trim dir
            strShell := trim shell }
    | _ => .missingSeparator

def parsingLine (pBuf : Text) : Act ParsedLine :=
  if parseLine pBuf = .missingSeparator then do
    setInternalError .errDbFormat "Database format error"
    pure .missingSeparator
  else pure (parseLine pBuf)

/-- The line that `InsertItemInDb` builds in `ostrTuple`. -/
def tuple (pwd : TsPassword) : Text :=
  pwd.strName ++ [':'] ++
  pwd.strPasswd ++ [':'] ++
  Nat.toDigits 10 pwd.uId.toNat ++ [':'] ++
  Nat.toDigits 10 pwd.uGid.toNat ++ [':'] ++
  pwd.strGecos ++ [':'] ++
  pwd.strDir ++ [':'] ++
  pwd.strShell ++ ['\n']

/-! ## The copying loops -/

abbrev maxFileBuffer : Nat := 2048

abbrev maxCpyBuffer : Nat := 4096

/-- The local variables of the loop in `RemoveItemInDb`: `bExit`, `bFound` and
`*pbNlLatest`. -/
structure Scan where
  exit : Bool
  found : Bool
  nlLatest : Bool
  deriving DecidableEq, Repr

/-- Copy the line in the buffer to the temporary file.  The index of its last character is
outside the buffer when the C string is empty. -/
def copyLine (scan : Scan) (pBuf : Text) : Act Scan := do
  let written : Nat ← ask (.fwrite .tmp (CText.cString pBuf))
  match (CText.cString pBuf).getLast? with
  | none => Stateful.stop (S := fileOps) .badIndex
  | some last =>
    pure { scan with
      nlLatest := decide (last = '\n')
      exit := decide (written ≠ (CText.cString pBuf).length) }

def scanLine (uiUid : UInt32) (scan : Scan) (pBuf : Text) : Act Scan := do
  let parsed ← parsingLine pBuf
  match parsed with
  | .success pwd =>
    if uiUid ≠ pwd.uId then copyLine scan pBuf
    else pure { scan with found := true }
  | .empty => copyLine scan pBuf
  | _ => do
      setInternalError .errDbFormat "Database format error"
      pure { scan with exit := true }

/-- The loop of `RemoveItemInDb`.  The next line is read before `bExit` is looked at. -/
def scanLines (uiUid : UInt32) : Nat → Scan → Act Scan
  | 0, _ => Stateful.stop (S := fileOps) .endless
  | rounds + 1, scan => do
      let line : Option Text ← ask (.fgets .work maxFileBuffer)
      match line with
      | none => pure scan
      | some pBuf =>
        if scan.exit then pure scan
        else do
          let scan ← scanLine uiUid scan pBuf
          scanLines uiUid rounds scan

/-- Read a block and look at the error indicator: the block and `bError`. -/
def readBlock (file : DbFile) : Act (Text × Bool) := do
  let block : Text ← ask (.fread file maxCpyBuffer)
  let failed : Bool ← ask (.ferror file)
  if failed then do
    setInternalError .errDbCopy "Error while copy a database to temporary file"
    pure (block, true)
  else pure (block, false)

/-- The loop of `FileTransfer`, which returns `bError`. -/
def copyBlocks (fileIn fileOut : DbFile) : Nat → Text × Bool → Act Bool
  | 0, _ => Stateful.stop (S := fileOps) .endless
  | rounds + 1, (block, bError) =>
    if 0 < block.length ∧ bError = false then do
      let written : Nat ← ask (.fwrite fileOut block)
      if written = block.length then do
        let next ← readBlock fileIn
        copyBlocks fileIn fileOut rounds next
      else do
        setInternalError .errDbCopy "Error while copy a database to temporary file"
        copyBlocks fileIn fileOut rounds (block, true)
    else pure bError

def fileTransfer (rounds : Nat) (fileIn fileOut : DbFile) : Act Bool := do
  let first ← readBlock fileIn
  let bError ← copyBlocks fileIn fileOut rounds first
  pure !bError

/-! ## Operations on the open database -/

def truncate (file : DbFile) : Act Bool := do
  let seeked : Bool ← ask (.fseek file)
  if seeked then do
    let descriptor : Bool ← ask (.fileno file)
    if descriptor then do
      let truncated : Bool ← ask (.ftruncate file)
      if truncated then pure true
      else do
        setInternalError .errDbTruncate "Unable to truncate WorkFile"
        pure false
    else do
      setInternalError .errDbWrite "Write error on database file"
      pure false
  else do
    setInternalError .errDbHandling "Unable to seek the file"
    pure false

def flushTmpFile (rounds : Nat) : Act Bool := do
  let seeked : Bool ← ask (.fseek .tmp)
  if seeked then do
    let truncated ← truncate .work
    if truncated then do
      let transferred ← fileTransfer rounds .tmp .work
      if transferred then truncate .tmp else pure false
    else pure false
  else do
    setInternalError .errDbHandling "Unable to seek the file"
    pure false

/-- `IUFBS_DB_ERROR`, `IUFBS_DB_SUCCESS_FOUND` and `IUFBS_DB_SUCCESS_NOTFOUND`. -/
inductive RemoveFlag where
  | error
  | successFound
  | successNotFound
  deriving DecidableEq, Repr

def seekBoth : Act Bool := do
  let seeked : Bool ← ask (.fseek .work)
  if seeked then ask (.fseek .tmp) else pure false

/-- The private `RemoveItemInDb`: copy every line but those of the uid to the temporary
file.  It returns the flag and whether the last copied line ends with a new line. -/
def copyWithoutItem (rounds : Nat) (uiUid : UInt32) : Act (RemoveFlag × Bool) := do
  let handler ← get
  if handler.workFile && handler.tmpFile then do
    let seeked ← seekBoth
    if seeked then do
      let scan ← scanLines uiUid rounds ⟨false, false, true⟩
      if scan.exit then pure (.error, scan.nlLatest)
      else if scan.found then pure (.successFound, scan.nlLatest)
      else pure (.successNotFound, scan.nlLatest)
    else do
      setInternalError .errDbHandling "Unable to seek the file"
      pure (.error, false)
  else do
    setInternalError .errDbNotOpen "Database not open"
    pure (.error, false)

def removeItemInDb (rounds : Nat) (uiUid : UInt32) : Act Bool := do
  setInternalError .errDbUnknow "Unknow error"
  let handler ← get
  if handler.workFile then do
    let copied ← copyWithoutItem rounds uiUid
    match copied.1 with
    | .successFound => do
        let flushed ← flushTmpFile rounds
        if flushed then do
          setInternalError .errDbOk "Success"
          pure true
        else pure false
    | .successNotFound => do
        setInternalError .errDbUidNotFound "UID not found"
        pure false
    | .error => pure false
  else do
    setInternalError .errDbNotOpen "Database not open"
    pure false

def writeTuple (rounds : Nat) (text : Text) : Act Bool := do
  let written : Nat ← ask (.fwrite .tmp text)
  if written = text.length then do
    setInternalError .errDbOk "Success"
    flushTmpFile rounds
  else do
    setInternalError .errDbWrite "Write error on database file"
    flushTmpFile rounds

def insertItemInDb (rounds : Nat) (pwd : TsPassword) : Act Bool := do
  setInternalError .errDbUnknow "Unknow error"
  let handler ← get
  if handler.workFile then do
    let copied ← copyWithoutItem rounds pwd.uId
    match copied.1 with
    | .error => pure false
    | _ => writeTuple rounds ((if copied.2 then [] else ['\n']) ++ tuple pwd)
  else do
    setInternalError .errDbNotOpen "Database not open"
    pure false

def clearDatabase : Act Bool := do
  setInternalError .errDbUnknow "Unknow error"
  let handler ← get
  if handler.workFile then do
    let truncated ← truncate .work
    if truncated then do
      setInternalError .errDbOk "Success"
      pure true
    else pure false
  else do
    setInternalError .errDbNotOpen "Database not open"
    pure false

/-! ## Files on which every operation succeeds -/

structure Files where
  work : TextFile Char
  tmp : TextFile Char
  deriving DecidableEq

def Files.get (files : Files) : DbFile → TextFile Char
  | .work => files.work
  | .tmp => files.tmp

def Files.set (files : Files) : DbFile → TextFile Char → Files
  | .work, file => { files with work := file }
  | .tmp, file => { files with tmp := file }

/-- The C library on two files with no failing operation.  `fgets` leaves room for the
terminating null character. -/
def Files.answer : (op : FileOp) → Files → op.Reply × Files
  | .fseek file, files => (true, files.set file (files.get file).rewind)
  | .fgets file size, files =>
    let line := takeLine '\n' (size - 1) (files.get file).rest
    if line = [] then (none, files)
    else (some line, files.set file ((files.get file).advance line.length))
  | .fwrite file text, files =>
    (text.length, files.set file ((files.get file).write '\x00' text))
  | .fread file count, files =>
    let block := (files.get file).rest.take count
    (block, files.set file ((files.get file).advance block.length))
  | .ferror _, files => (false, files)
  | .fileno _, files => (true, files)
  | .ftruncate file, files => (true, files.set file (files.get file).truncate)

/-- `act.Gives handler files value handler' files'`: with every file operation succeeding,
the call returns `value`. -/
abbrev Gives {α : Type} (act : Act α) (handler : TDbHandler) (files : Files) (value : α)
    (handler' : TDbHandler) (files' : Files) : Prop :=
  Stateful.Returns (S := fileOps) Files.answer act handler files value handler' files'

end Apos.UserDb
