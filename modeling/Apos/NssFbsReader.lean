import Apos.FbsConfiguration

/-!
# The NSS library of the user database

`nss_fbs.c` answers the lookups of the C library from the file that the user database
command writes.  It keeps one stream on that file, the position of the enumeration and the
kind of the last operation.  Every function runs under one mutex, so that its calls of the
C library are not interleaved with those of another thread.

`fgetpwent_r` is part of the C library.  What it makes of a line is a parameter: the entry
in it, if any, and the size of the buffer it needs.  A stream is the list of the lines of
its file and the number of lines read.
-/

namespace Apos.NssFbs

open UserDb (Text)

structure Passwd where
  pwName : Text
  pwPasswd : Text
  pwUid : UInt32
  pwGid : UInt32
  pwGecos : Text
  pwDir : Text
  pwShell : Text
  deriving DecidableEq, Repr

inductive NssStatus where
  | tryagain
  | unavail
  | notfound
  | success
  deriving DecidableEq, Repr

inductive LastOp where
  | noOp
  | getentOp
  | getbyOp
  deriving DecidableEq, Repr

/-- The static variables of the library.  The stream is set or `NULL`. -/
structure Reader where
  passwdFilepath : Text
  passwdStream : Bool
  passwdPosition : Nat
  lastOp : LastOp
  deriving DecidableEq, Repr

/-- What `fgetpwent_r` returns: 0 with an entry, `ERANGE`, or another error number. -/
inductive Fetched where
  | entry (pwd : Passwd)
  | erange
  | noEntry
  deriving DecidableEq, Repr

/-- `fopen` gives a stream or fails, with or without `EAGAIN`. -/
inductive Opened where
  | stream
  | again
  | failed
  deriving DecidableEq, Repr

inductive ReaderOp where
  | readConfig
  | fopen (path : Text)
  | rewind
  | fclose
  | fgetpos
  | fsetpos (position : Nat)
  | fgetpwent (buflen : Nat)
  deriving DecidableEq, Repr

abbrev ReaderOp.Reply : ReaderOp → Type
  | .readConfig => Option ConfigFile
  | .fopen _ => Opened
  | .rewind => Unit
  | .fclose => Unit
  | .fgetpos => Option Nat
  | .fsetpos _ => Bool
  | .fgetpwent _ => Fetched

inductive ReaderHalt where
  | endless
  deriving DecidableEq, Repr

abbrev readerOps : Signature where
  Op := ReaderOp
  Reply := ReaderOp.Reply
  Halt := ReaderHalt

abbrev ReaderAct : Type → Type :=
  Stateful readerOps Reader

abbrev ask (op : ReaderOp) : ReaderAct op.Reply :=
  Stateful.ask (S := readerOps) op

/-! ## The functions of the library -/

/-- Read the path of the database from the configuration if it is not known yet. -/
def readPasswdFilepath : ReaderAct PUnit := do
  let reader ← get
  if reader.passwdFilepath = [] then do
    let file : Option ConfigFile ← ask .readConfig
    modify fun reader =>
      { reader with passwdFilepath := (getPasswdFilepath file false reader.passwdFilepath).2 }
  else pure PUnit.unit

def initPasswdDatabase : ReaderAct NssStatus := do
  let reader ← get
  if reader.passwdStream then do
    let _ : Unit ← ask .rewind
    pure .success
  else do
    readPasswdFilepath
    let reader ← get
    let opened : Opened ← ask (.fopen reader.passwdFilepath)
    match opened with
    | .stream => do
        modify fun reader => { reader with passwdStream := true }
        pure .success
    | .again => pure .tryagain
    | .failed => pure .unavail

def closePasswdDatabase : ReaderAct PUnit := do
  let reader ← get
  if reader.passwdStream then do
    let _ : Unit ← ask .fclose
    modify fun reader => { reader with passwdStream := false }
  else pure PUnit.unit

/-- A status and, with `NSS_STATUS_SUCCESS`, the entry in `*result`. -/
structure Answer where
  status : NssStatus
  result : Option Passwd
  deriving DecidableEq, Repr

def Answer.found (pwd : Passwd) : Answer :=
  ⟨.success, some pwd⟩

def Answer.notFound : Answer :=
  ⟨.notfound, none⟩

def getentFromPasswd (buflen : Nat) : ReaderAct Answer := do
  let fetched : Fetched ← ask (.fgetpwent buflen)
  match fetched with
  | .entry pwd => pure (.found pwd)
  | .erange => pure ⟨.tryagain, none⟩
  | .noEntry => pure .notFound

def savePosition : ReaderAct NssStatus := do
  let position : Option Nat ← ask .fgetpos
  match position with
  | some position => do
      modify fun reader => { reader with passwdPosition := position }
      pure .success
  | none => do
      let _ : Unit ← ask .fclose
      modify fun reader => { reader with passwdStream := false }
      pure .unavail

def startPasswdDatabase : ReaderAct NssStatus := do
  let status ← initPasswdDatabase
  if status = .success then savePosition else pure status

def setpwent : ReaderAct NssStatus := do
  let status ← startPasswdDatabase
  modify fun reader => { reader with lastOp := .getentOp }
  pure status

def endpwent : ReaderAct NssStatus := do
  closePasswdDatabase
  pure .success

def openForGetpwent : ReaderAct NssStatus := do
  let reader ← get
  if reader.passwdStream then pure .success else startPasswdDatabase

/-- Position the stream if the last operation was not the enumeration. -/
def returnToPosition : ReaderAct NssStatus := do
  let reader ← get
  if reader.lastOp ≠ .getentOp then do
    let positioned : Bool ← ask (.fsetpos reader.passwdPosition)
    if positioned then do
      modify fun reader => { reader with lastOp := .getentOp }
      pure .success
    else pure .unavail
  else pure .success

/-- The position is not checked after an entry. -/
def keepPosition : ReaderAct PUnit := do
  let position : Option Nat ← ask .fgetpos
  match position with
  | some position => modify fun reader => { reader with passwdPosition := position }
  | none => pure PUnit.unit

def nextEntry (buflen : Nat) : ReaderAct Answer := do
  let answer ← getentFromPasswd buflen
  if answer.status = .success then do
    keepPosition
    pure answer
  else do
    modify fun reader => { reader with lastOp := .noOp }
    pure answer

def getpwent (buflen : Nat) : ReaderAct Answer := do
  let status ← openForGetpwent
  if status = .success then do
    let status ← returnToPosition
    if status = .success then nextEntry buflen else pure ⟨status, none⟩
  else pure ⟨status, none⟩

def searchEntry (wanted : Passwd → Bool) (buflen : Nat) : Nat → ReaderAct Answer
  | 0 => Stateful.stop (S := readerOps) .endless
  | rounds + 1 => do
      let answer ← getentFromPasswd buflen
      match answer.result with
      | some pwd => if wanted pwd then pure answer else searchEntry wanted buflen rounds
      | none => pure answer

/-- The common body of the two lookups, which differ in the test of an entry. -/
def lookUp (wanted : Passwd → Bool) (rounds buflen : Nat) : ReaderAct Answer := do
  let status ← initPasswdDatabase
  if status = .success then do
    modify fun reader => { reader with lastOp := .getbyOp }
    let answer ← searchEntry wanted buflen rounds
    closePasswdDatabase
    pure answer
  else pure ⟨status, none⟩

/-- The name starts with neither of the signs of a special entry. -/
def isPlainName (name : Text) : Bool :=
  name.head? != some '+' && name.head? != some '-'

def hasName (name : Text) (pwd : Passwd) : Bool :=
  isPlainName name && name == pwd.pwName

def hasUid (uid : UInt32) (pwd : Passwd) : Bool :=
  pwd.pwUid == uid && isPlainName pwd.pwName

def getpwnam (rounds : Nat) (name : Text) (buflen : Nat) : ReaderAct Answer :=
  lookUp (hasName name) rounds buflen

def getpwuid (rounds : Nat) (uid : UInt32) (buflen : Nat) : ReaderAct Answer :=
  lookUp (hasUid uid) rounds buflen

/-! ## A database file that can be opened and read -/

/-- What `fgetpwent_r` makes of a line without its new line. -/
structure PasswdFormat where
  entry : Text → Option Passwd
  size : Text → Nat

def lineBody (line : Text) : Text :=
  if Ended '\n' line then line.dropLast else line

namespace PasswdFormat

variable (format : PasswdFormat)

def entries (lines : List Text) : List Passwd :=
  lines.filterMap fun line => format.entry (lineBody line)

theorem entries_cons_none {line : Text} {lines : List Text}
    (without : format.entry (lineBody line) = none) :
    format.entries (line :: lines) = format.entries lines := by
  simp [entries, without]

theorem entries_cons_some {line : Text} {lines : List Text} {pwd : Passwd}
    (parsed : format.entry (lineBody line) = some pwd) :
    format.entries (line :: lines) = pwd :: format.entries lines := by
  simp [entries, parsed]

def fetch (buflen : Nat) : List Text → Fetched × Nat
  | [] => (.noEntry, 0)
  | line :: lines =>
    if buflen < format.size (lineBody line) then (.erange, 1)
    else
      match format.entry (lineBody line) with
      | some pwd => (.entry pwd, 1)
      | none => ((fetch buflen lines).1, (fetch buflen lines).2 + 1)

def Fits (lines : List Text) (buflen : Nat) : Prop :=
  ∀ line ∈ lines, format.size (lineBody line) ≤ buflen

/-- The buffer has room for each line that is read when these entries are still to come: the
line of the first of them and the lines without an entry before it. -/
def Room (lines : List Text) (pending : List Passwd) (buflen : Nat) : Prop :=
  ∀ front line later, lines = front ++ line :: later → format.entries (line :: later) = pending →
    format.size (lineBody line) ≤ buflen

variable {format} {lines : List Text} {pending : List Passwd} {buflen : Nat}

theorem Fits.room (fits : format.Fits lines buflen) : format.Room lines pending buflen := by
  rintro front line later rfl -
  exact fits line (by simp)

theorem Room.of_append {front : List Text} (room : format.Room (front ++ lines) pending buflen) :
    format.Room lines pending buflen := by
  rintro between line later rfl
  exact room (front ++ between) line later (by simp)

end PasswdFormat

/-- Seven fields with colons between them.  The line and the pointers of the result take up
the buffer. -/
def sevenFields : PasswdFormat where
  entry body :=
    match splitFields UserDb.fieldSeparators (body ++ ['\n']) with
    | some [name, passwd, uid, gid, gecos, dir, shell] =>
      some
        { pwName := name
          pwPasswd := passwd
          pwUid := UInt32.ofNat (CText.readDigits 10 0 uid)
          pwGid := UInt32.ofNat (CText.readDigits 10 0 gid)
          pwGecos := gecos
          pwDir := dir
          pwShell := shell }
    | _ => none
  size body := body.length + 2

structure World where
  config : Option ConfigFile
  database : Text
  stream : Option (TextFile Text)
  deriving DecidableEq

def World.lines (world : World) : List Text :=
  rawLines '\n' world.database

/-- The C library on a database file that can be opened. -/
def World.answer (format : PasswdFormat) : (op : ReaderOp) → World → op.Reply × World
  | .readConfig, world => (world.config, world)
  | .fopen _, world => (.stream, { world with stream := some ⟨world.lines, 0⟩ })
  | .rewind, world => ((), { world with stream := world.stream.map TextFile.rewind })
  | .fclose, world => ((), { world with stream := none })
  | .fgetpos, world => (world.stream.map TextFile.position, world)
  | .fsetpos position, world =>
    (true, { world with stream := world.stream.map fun file => { file with position } })
  | .fgetpwent buflen, world =>
    match world.stream with
    | none => (.noEntry, world)
    | some file =>
      ((format.fetch buflen file.rest).1,
        { world with stream := some (file.advance (format.fetch buflen file.rest).2) })

end Apos.NssFbs
