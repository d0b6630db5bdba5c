import Apos.UserDbFaults
import Apos.UserDbSession

/-!
# The files of a session

A session works on three paths: the database, the work file beside it and a temporary file
of the process.  The disk maps paths to contents, and a stream is a position in the file on
its path.  Opening, reading, writing, truncating, renaming and closing may fail, and a stream
that cannot be closed may leave only a beginning of what was written.  No stream is open on a
path while the path is renamed or removed, so a stream need not tell the file it was opened
on from the path.
-/

namespace Apos.UserDb

open Stateful

structure Handle where
  path : Text
  position : Nat
  error : Bool
  deriving DecidableEq

structure Disk where
  files : Text → Option Text
  streams : StreamPair → DbFile → Option Handle

namespace Disk

variable (disk : Disk)

def stream (handle : Handle) : OpenStream where
  file := ⟨(disk.files handle.path).getD [], handle.position⟩
  error := handle.error

def setFile (path : Text) (content : Option Text) : Disk :=
  { disk with files := Function.update disk.files path content }

def setStream (pair : StreamPair) (file : DbFile) (handle : Option Handle) : Disk where
  files := disk.files
  streams := Function.update disk.streams pair (Function.update (disk.streams pair) file handle)

def putStream (pair : StreamPair) (file : DbFile) (path : Text) (stream : OpenStream) : Disk :=
  (disk.setFile path (some stream.file.content)).setStream pair file
    (some ⟨path, stream.file.position, stream.error⟩)

/-- The modes that begin with `w` create the file or empty it. -/
def prepare (path : Text) : Mode → Disk
  | .read => disk
  | .readPlus => disk
  | .write => disk.setFile path (some [])
  | .writePlus => disk.setFile path (some [])

def Admits (config : Text) : (op : SessionOp) → op.Reply → Prop
  | .readConfig, text => text = none ∨ text = some config
  | .stat path, found => found = (disk.files path).isSome
  | .fopen _ _ path mode, opened =>
    opened = true → mode = .read ∨ mode = .readPlus → (disk.files path).isSome = true
  | .rename old _, renamed => renamed = true → (disk.files old).isSome = true
  | .library pair op, reply =>
    ∀ handle, disk.streams pair op.file = some handle → (disk.stream handle).Admits op reply
  | _, _ => True

/-- The files after a failing close, which leaves so many bytes of what was written.  The source
of a copy is only read. -/
def lossyFiles (kept : StreamPair → DbFile → Nat) (pair : StreamPair) (file : DbFile) :
    Text → Option Text :=
  if pair = .copying ∧ file = .tmp then disk.files
  else
    match disk.streams pair file with
    | some handle => Function.update disk.files handle.path
        ((disk.files handle.path).map (List.take (kept pair file)))
    | none => disk.files

def after (kept : StreamPair → DbFile → Nat) : (op : SessionOp) → op.Reply → Disk
  | .fopen pair file path mode, opened =>
    if opened then (disk.prepare path mode).setStream pair file (some ⟨path, 0, false⟩) else disk
  | .fclose pair file, closed =>
    let files := if closed then disk.files else disk.lossyFiles kept pair file
    Disk.setStream { disk with files } pair file none
  | .rename old new, renamed =>
    if renamed then (disk.setFile old none).setFile new (disk.files old) else disk
  | .remove path, removed => if removed then disk.setFile path none else disk
  | .library pair op, reply =>
    match disk.streams pair op.file with
    | some handle =>
      disk.putStream pair op.file handle.path ((disk.stream handle).after op reply)
    | none => disk
  | .exit, _ => { disk with streams := fun _ _ => none }
  | _, _ => disk

end Disk

def diskModel (config : Text) (kept : StreamPair → DbFile → Nat) : WorldModel sessionOps Disk where
  admits disk := disk.Admits config
  after disk := disk.after kept

def isLostCopy : Exchange sessionOps → Bool
  | ⟨.fclose .copying .work, closed⟩ => !closed
  | _ => false

def lostCopy (exchanges : List (Exchange sessionOps)) : Bool :=
  exchanges.any isLostCopy

/-- What the copy of the database holds: a part of it is lost if the copy cannot be closed. -/
def copiedText (kept : StreamPair → DbFile → Nat) (exchanges : List (Exchange sessionOps))
    (content : Text) : Text :=
  if lostCopy exchanges then content.take (kept .copying .work) else content

theorem lostCopy_append (first second : List (Exchange sessionOps)) :
    lostCopy (first ++ second) = (lostCopy first || lostCopy second) :=
  List.any_append

theorem copiedText_append_left {kept : StreamPair → DbFile → Nat}
    {first second : List (Exchange sessionOps)} (noClose : lostCopy first = false) :
    copiedText kept (first ++ second) = copiedText kept second := by
  funext content
  rw [copiedText, lostCopy_append, noClose, Bool.false_or, copiedText]

theorem copiedText_append_right {kept : StreamPair → DbFile → Nat}
    {first second : List (Exchange sessionOps)} (noClose : lostCopy second = false) :
    copiedText kept (first ++ second) = copiedText kept first := by
  funext content
  rw [copiedText, lostCopy_append, noClose, Bool.or_false, copiedText]

theorem lostCopy_calls (pair : StreamPair) (inner : List (Exchange fileOps)) :
    lostCopy (inner.map pair.calls.exchange) = false := by
  rw [lostCopy, List.any_map]
  exact List.any_eq_false.mpr fun _ _ => Bool.false_ne_true

/-! ## The three paths -/

def Plain (name : Text) : Prop :=
  ∀ symbol ∈ name, isPathSeparator symbol = false

variable (path : Text)

theorem pathFileName_append {name : Text} (plain : Plain name) :
    pathFileName (path ++ name) = pathFileName path ++ name := by
  have all : ∀ symbol ∈ name.reverse, (!isPathSeparator symbol) = true := by
    intro symbol member
    rw [plain symbol (List.mem_reverse.mp member)]
    rfl
  rw [pathFileName, List.rtakeWhile, List.reverse_append, List.takeWhile_append_of_pos all,
    List.reverse_append, List.reverse_reverse]
  rfl

theorem plain_pathFileName : Plain (pathFileName path) := by
  intro symbol member
  simpa using List.mem_rtakeWhile_imp member

theorem plain_toDigits (number : Nat) : Plain (Nat.toDigits 10 number) := by
  intro symbol member
  have digit := toDigits_isDigit member
  rw [isPathSeparator, Bool.or_eq_false_iff, beq_eq_false_iff_ne, beq_eq_false_iff_ne]
  constructor
  · rintro rfl
    cases digit
  · rintro rfl
    cases digit

theorem plain_of_all {name : Text}
    (all : name.all (fun symbol => !isPathSeparator symbol) = true) : Plain name := by
  intro symbol member
  simpa using List.all_eq_true.mp all symbol member

theorem length_pathFileName_workPath :
    (pathFileName (workPath path)).length = (pathFileName path).length + 5 := by
  have plain : Plain "~.tmp".toList := plain_of_all (by decide)
  rw [workPath, pathFileName_append path plain, List.length_append]
  rfl

theorem plain_append {first second : Text} (left : Plain first) (right : Plain second) :
    Plain (first ++ second) := by
  intro symbol member
  rcases List.mem_append.mp member with early | late
  · exact left symbol early
  · exact right symbol late

theorem length_pathFileName_tempPath (pid : Nat) (path : Text) :
    (pathFileName path).length + 5 < (pathFileName (tempPath pid path)).length := by
  have start : Plain "~tmp_".toList := plain_of_all (by decide)
  have plain : Plain ("~tmp_".toList ++ (Nat.toDigits 10 pid ++ pathFileName path)) :=
    plain_append start (plain_append (plain_toDigits pid) (plain_pathFileName path))
  have regroup : ∀ {fixed directory start digits name : Text}, fixed = directory ++ start →
      fixed ++ digits ++ name = directory ++ (start ++ (digits ++ name)) := by
    rintro _ directory start digits name rfl
    simp only [List.append_assoc]
  have split : tempPath pid path =
      "/tmp/".toList ++ ("~tmp_".toList ++ (Nat.toDigits 10 pid ++ pathFileName path)) :=
    regroup rfl
  have positive : 0 < (Nat.toDigits 10 pid).length := Nat.length_toDigits_pos
  have fixed : "~tmp_".toList.length = 5 := rfl
  rw [split, pathFileName_append _ plain, List.length_append, List.length_append,
    List.length_append, fixed]
  generalize (pathFileName "/tmp/".toList).length = directory
  omega

theorem workPath_ne : workPath path ≠ path := by
  intro same
  have length := length_pathFileName_workPath path
  rw [same] at length
  omega

theorem tempPath_ne (pid : Nat) (path : Text) : tempPath pid path ≠ path := by
  intro same
  have length := length_pathFileName_tempPath pid path
  rw [same] at length
  omega

theorem tempPath_ne_workPath (pid : Nat) (path : Text) : tempPath pid path ≠ workPath path := by
  intro same
  have length := length_pathFileName_tempPath pid path
  rw [same, length_pathFileName_workPath] at length
  omega

/-! ## Two open streams -/

namespace Disk

variable (disk : Disk) (pair : StreamPair) (paths : DbFile → Text)

def place (streams : DbFile → OpenStream) : Disk where
  files := Function.update (Function.update disk.files (paths .work)
    (some (streams .work).file.content)) (paths .tmp) (some (streams .tmp).file.content)
  streams := Function.update disk.streams pair fun file =>
    some ⟨paths file, (streams file).file.position, (streams file).error⟩

variable {paths}

theorem files_place (distinct : paths .work ≠ paths .tmp) (streams : DbFile → OpenStream)
    (file : DbFile) :
    (disk.place pair paths streams).files (paths file) = some (streams file).file.content := by
  cases file with
  | work =>
    rw [place]
    simp only
    rw [Function.update_of_ne distinct, Function.update_self]
  | tmp => exact Function.update_self _ _ _

theorem files_place_of_ne {streams : DbFile → OpenStream} {path : Text}
    (work : path ≠ paths .work) (tmp : path ≠ paths .tmp) :
    (disk.place pair paths streams).files path = disk.files path := by
  rw [place]
  simp only
  rw [Function.update_of_ne tmp, Function.update_of_ne work]

theorem putStream_place (distinct : paths .work ≠ paths .tmp) (streams : DbFile → OpenStream)
    (file : DbFile) (stream : OpenStream) :
    (disk.place pair paths streams).putStream pair file (paths file) stream =
      disk.place pair paths (Function.update streams file stream) := by
  simp only [place, putStream, setFile, setStream, Disk.mk.injEq, Function.update_self,
    Function.update_idem]
  constructor
  · cases file with
    | work =>
      rw [Function.update_comm distinct, Function.update_idem, Function.update_self,
        Function.update_of_ne DbFile.noConfusion, Function.update_comm distinct]
    | tmp =>
      rw [Function.update_idem, Function.update_self, Function.update_of_ne DbFile.noConfusion]
  · congr 1
    funext other
    by_cases same : other = file
    · subst same
      rw [Function.update_self, Function.update_self]
    · rw [Function.update_of_ne same, Function.update_of_ne same]

theorem place_self {streams : DbFile → OpenStream}
    (files : ∀ file, disk.files (paths file) = some (streams file).file.content)
    (handles : disk.streams pair = fun file =>
      some ⟨paths file, (streams file).file.position, (streams file).error⟩) :
    disk.place pair paths streams = disk := by
  simp only [place, ← files, ← handles, Function.update_eq_self]

end Disk

theorem simulates_place (config : Text) (kept : StreamPair → DbFile → Nat) (disk : Disk)
    (pair : StreamPair) {paths : DbFile → Text}
    (distinct : paths .work ≠ paths .tmp) :
    Simulates pair.calls (diskModel config kept) streamsModel (disk.place pair paths) := by
  have handle (streams : DbFile → OpenStream) (file : DbFile) :
      (disk.place pair paths streams).streams pair file =
        some ⟨paths file, (streams file).file.position, (streams file).error⟩ := by
    rw [Disk.place]
    simp only [Function.update_self]
  have stream (streams : DbFile → OpenStream) (file : DbFile) :
      (disk.place pair paths streams).stream
        ⟨paths file, (streams file).file.position, (streams file).error⟩ = streams file := by
    rw [Disk.stream, disk.files_place pair distinct]
    rfl
  constructor
  · intro streams op reply admitted
    have own : ((disk.place pair paths streams).stream _).Admits op reply :=
      admitted _ (handle streams op.file)
    rw [stream] at own
    exact own
  · intro streams op reply _
    have used : (disk.place pair paths streams).after kept (.library pair op) reply =
        (disk.place pair paths streams).putStream pair op.file (paths op.file)
          ((streams op.file).after op reply) := by
      simp only [Disk.after, handle, stream]
    exact used.trans (disk.putStream_place pair distinct streams op.file _)

theorem onStreams_onDisk {α : Type} {config : Text} {kept : StreamPair → DbFile → Nat}
    {session : Session} {disk : Disk}
    {pair : StreamPair} {paths : DbFile → Text} {streams : DbFile → OpenStream} {act : Act α}
    {post : List (Exchange fileOps) → α → TDbHandler → (DbFile → OpenStream) → Prop}
    (distinct : paths .work ≠ paths .tmp) (inPlace : disk.place pair paths streams = disk)
    (ensures : Ensures streamsModel act session.handler streams post) :
    Ensures (diskModel config kept) (onStreams pair act) session disk
      fun exchanges value after reached => ∃ inner handler left,
        exchanges = inner.map pair.calls.exchange ∧ after = { session with handler } ∧
        reached = disk.place pair paths left ∧ post inner value handler left := by
  have whole : Ensures (diskModel config kept) (onStreams pair act) session
      (disk.place pair paths streams) _ :=
    ensures_within (simulates_place config kept disk pair distinct) ensures
  rwa [inPlace] at whole

theorem Disk.files_fclose {config : Text} {kept : StreamPair → DbFile → Nat} {disk : Disk}
    {pair : StreamPair} {file : DbFile} {handle : Handle} {path : Text}
    (isOpen : disk.streams pair file = some handle) (other : path ≠ handle.path) (closed : Bool) :
    ((diskModel config kept).after disk (.fclose pair file) closed).files path =
      disk.files path := by
  cases closed with
  | true => rfl
  | false =>
    have lossy : disk.lossyFiles kept pair file path = disk.files path := by
      rw [Disk.lossyFiles, isOpen]
      split
      · rfl
      · exact Function.update_of_ne other _ _
    exact lossy

/-! ## Copying a file -/

section Copying

variable {config : Text} {kept : StreamPair → DbFile → Nat} {session : Session} {disk : Disk}

def copyPaths (strFrom strTo : Text) : DbFile → Text
  | .work => strTo
  | .tmp => strFrom

structure CopyOutcome (strFrom strTo : Text) (disk : Disk) (left : Text → Text) (isCopied : Bool)
    (reached : Disk) : Prop where
  files : ∀ path, path ≠ strTo → reached.files path = disk.files path
  whole : isCopied = true → reached.files strTo = (disk.files strFrom).map left
  handles : reached.streams .handler = disk.streams .handler

/-- The session, apart from the internal error. -/
structure Session.Alike (session after : Session) : Prop where
  pid : after.pid = session.pid
  lckFile : after.lckFile = session.lckFile
  config : after.config = session.config
  handler : session.handler.Alike after.handler

variable (rounds : Nat) {strFrom strTo : Text}

theorem transfer_onDisk {content : Text} (distinct : strTo ≠ strFrom)
    (source : disk.files strFrom = some content) (target : disk.files strTo = some [])
    (handles : disk.streams .copying = fun file => some ⟨copyPaths strFrom strTo file, 0, false⟩) :
    Ensures (diskModel config kept) (onStreams .copying (fileTransfer rounds .tmp .work))
      session disk fun exchanges transferred after reached =>
        lostCopy exchanges = false ∧ session.Alike after ∧
          CopyOutcome strFrom strTo disk id transferred reached ∧
          ∃ position error, reached.streams .copying .work = some ⟨strTo, position, error⟩ := by
  let streams (file : DbFile) : OpenStream :=
    ⟨⟨if file = .tmp then content else [], 0⟩, false⟩
  have inPlace : disk.place .copying (copyPaths strFrom strTo) streams = disk := by
    apply Disk.place_self
    · intro file
      cases file with
      | work => exact target
      | tmp => exact source
    · exact handles
  have transfers : Ensures streamsModel (fileTransfer rounds .tmp .work) session.handler
      streams _ := fileTransfer_faulty DbFile.noConfusion rounds rfl fun _ => rfl
  have differ : copyPaths strFrom strTo .work ≠ copyPaths strFrom strTo .tmp := distinct
  apply (onStreams_onDisk differ inPlace transfers).mono
  rintro _ transferred _ _ ⟨inner, handler, left, rfl, rfl, rfl, alike, copied, kept⟩
  refine ⟨lostCopy_calls _ _, ⟨rfl, rfl, rfl, alike⟩, ⟨?_, ?_, ?_⟩, ?_⟩
  · intro path other
    by_cases isSource : path = strFrom
    · rw [isSource, source]
      have unchanged := disk.files_place .copying differ left .tmp
      rw [kept] at unchanged
      exact unchanged
    · exact disk.files_place_of_ne .copying other isSource
  · rintro rfl
    have written := disk.files_place .copying differ left .work
    rw [copied.written, copied.whole rfl] at written
    rw [source]
    simpa [TextFile.overlay, streams, TextFile.rest, copyPaths] using written
  · simp [Disk.place]
  · refine ⟨(left .work).file.position, (left .work).error, ?_⟩
    rw [Disk.place]
    simp only [Function.update_self, copyPaths]

theorem handles_setStream_copying (disk : Disk) (file : DbFile) (handle : Option Handle) :
    (disk.setStream .copying file handle).streams .handler = disk.streams .handler := by
  simp [Disk.setStream]

theorem CopyOutcome.closed {left : Text → Text} {isCopied : Bool} {reached : Disk}
    (outcome : CopyOutcome strFrom strTo disk left isCopied reached) (file : DbFile) :
    CopyOutcome strFrom strTo disk left isCopied (reached.setStream .copying file none) where
  files := outcome.files
  whole := outcome.whole
  handles := (handles_setStream_copying reached file none).trans outcome.handles

theorem CopyOutcome.lost {isCopied error : Bool} {reached : Disk} {position : Nat}
    (outcome : CopyOutcome strFrom strTo disk id isCopied reached)
    (handle : reached.streams .copying .work = some ⟨strTo, position, error⟩) :
    CopyOutcome strFrom strTo disk (List.take (kept .copying .work)) isCopied
      { reached with files := reached.lossyFiles kept .copying .work } := by
  have lossy : reached.lossyFiles kept .copying .work = Function.update reached.files strTo
      ((reached.files strTo).map (List.take (kept .copying .work))) := by
    simp only [Disk.lossyFiles, handle, reduceCtorEq, and_false, if_false]
  rw [lossy]
  refine ⟨fun path other => ?_, fun isDone => ?_, outcome.handles⟩
  · exact (Function.update_of_ne other _ _).trans (outcome.files path other)
  · rw [outcome.whole isDone, Option.map_id_apply]
    exact Function.update_self _ _ _

theorem copyInto_onDisk {content : Text} (distinct : strTo ≠ strFrom)
    (source : disk.files strFrom = some content)
    (handle : disk.streams .copying .tmp = some ⟨strFrom, 0, false⟩) :
    Ensures (diskModel config kept) (copyInto rounds strTo) session disk
      fun exchanges isCopied after reached => session.Alike after ∧
        CopyOutcome strFrom strTo disk (copiedText kept exchanges) isCopied reached := by
  apply ensures_bind_ask
  intro created _
  apply ensures_ite_bool
  · rintro rfl
    have sourceKept : ((disk.setFile strTo (some [])).setStream .copying .work
        (some ⟨strTo, 0, false⟩)).files strFrom = some content :=
      (Function.update_of_ne distinct.symm _ _).trans source
    have handles : ((disk.setFile strTo (some [])).setStream .copying .work
        (some ⟨strTo, 0, false⟩)).streams .copying =
          fun file => some ⟨copyPaths strFrom strTo file, 0, false⟩ := by
      funext file
      cases file with
      | work => simp [Disk.setStream, copyPaths]
      | tmp => simpa [Disk.setStream, Disk.setFile, copyPaths] using handle
    apply (transfer_onDisk rounds distinct sourceKept (Function.update_self _ _ _) handles).bind
    rintro transfer transferred after reached ⟨noClose, alike, transfers, _, _, handle⟩
    have outcome : CopyOutcome strFrom strTo disk id transferred reached := by
      refine ⟨fun path other => ?_, fun isTransferred => ?_, ?_⟩
      · exact (transfers.files path other).trans (Function.update_of_ne other _ _)
      · rw [transfers.whole isTransferred, sourceKept, source]
      · exact transfers.handles.trans (handles_setStream_copying _ _ _)
    apply ensures_bind_ask
    intro closed _
    apply ensures_pure
    refine ⟨alike, ?_⟩
    rw [copiedText_append_left rfl, copiedText_append_left noClose]
    cases closed with
    | true => exact outcome.closed .work
    | false => exact (outcome.lost handle).closed .work
  · rintro rfl
    apply ensures_bind_modify
    apply ensures_pure
    exact ⟨⟨rfl, rfl, rfl, ⟨rfl, rfl⟩⟩, fun _ _ => rfl, Bool.noConfusion, rfl⟩

theorem copyFile_onDisk (distinct : strTo ≠ strFrom) :
    Ensures (diskModel config kept) (copyFile rounds strFrom strTo) session disk
      fun exchanges isCopied after reached => session.Alike after ∧
        CopyOutcome strFrom strTo disk (copiedText kept exchanges) isCopied reached := by
  apply ensures_bind_ask
  intro opened found
  apply ensures_ite_bool
  · rintro rfl
    obtain ⟨content, source⟩ := Option.isSome_iff_exists.mp (found rfl (.inl rfl))
    have sourceKept : (disk.setStream .copying .tmp (some ⟨strFrom, 0, false⟩)).files strFrom =
        some content := source
    have handle : (disk.setStream .copying .tmp (some ⟨strFrom, 0, false⟩)).streams .copying .tmp =
        some ⟨strFrom, 0, false⟩ := by simp [Disk.setStream]
    have opens : (diskModel config kept).after disk (.fopen .copying .tmp strFrom .read) true =
        disk.setStream .copying .tmp (some ⟨strFrom, 0, false⟩) := rfl
    rw [opens]
    apply (copyInto_onDisk rounds distinct sourceKept handle).bind
    rintro copying isCopied after reached ⟨alike, outcome⟩
    apply ensures_bind_ask
    intro closed _
    apply ensures_pure
    have whole : CopyOutcome strFrom strTo disk (copiedText kept copying) isCopied reached :=
      ⟨outcome.files, outcome.whole, outcome.handles.trans (handles_setStream_copying _ _ _)⟩
    refine ⟨alike, ?_⟩
    rw [copiedText_append_left rfl, copiedText_append_right rfl]
    cases closed with
    | true | false => exact whole.closed .tmp
  · rintro rfl
    apply ensures_bind_modify
    apply ensures_pure
    exact ⟨⟨rfl, rfl, rfl, ⟨rfl, rfl⟩⟩, fun _ _ => rfl, Bool.noConfusion, rfl⟩

end Copying

/-! ## Opening and closing -/

abbrev Session.Configured (paths : ConfigPaths) (session : Session) : Prop :=
  session.config = none ∨ session.config = some paths

section Opening

variable {config : Text} {kept : StreamPair → DbFile → Nat} {paths : ConfigPaths}
  {session : Session} {disk : Disk}

theorem getConfigValue_onDisk (configured : parsingConfigFile config = some paths)
    (known : session.Configured paths) :
    Ensures (diskModel config kept) getConfigValue session disk
      fun exchanges path after reached => lostCopy exchanges = false ∧ reached = disk ∧
        after.pid = session.pid ∧ after.lckFile = session.lckFile ∧
        after.handler = session.handler ∧ (path = none ∧ after.config = session.config ∨
          path = some paths.writePath ∧ after.config = some paths) := by
  apply ensures_bind_get
  rcases known with unknown | known
  · simp only [unknown]
    apply ensures_bind_ask
    rintro text (rfl | rfl)
    · exact ensures_pure ⟨rfl, rfl, rfl, rfl, rfl, .inl ⟨rfl, unknown⟩⟩
    · simp only [Option.bind_some, configured]
      apply ensures_bind_modify
      exact ensures_pure ⟨rfl, rfl, rfl, rfl, rfl, .inr ⟨rfl, rfl⟩⟩
  · simp only [known]
    exact ensures_pure ⟨rfl, rfl, rfl, rfl, rfl, .inr ⟨rfl, known⟩⟩

theorem getConfigValue_known (known : session.config = some paths) :
    Ensures (diskModel config kept) getConfigValue session disk
      fun exchanges path after reached => exchanges = [] ∧ path = some paths.writePath ∧
        after = session ∧ reached = disk := by
  apply ensures_bind_get
  simp only [known]
  exact ensures_pure ⟨rfl, rfl, rfl, rfl⟩

theorem derivedPath_known (path : Nat → Text → Text) (known : session.config = some paths) :
    Ensures (diskModel config kept) (derivedPath path) session disk
      fun exchanges derived after reached => exchanges = [] ∧
        derived = some (path session.pid paths.writePath) ∧ after = session ∧ reached = disk := by
  apply (getConfigValue_known known).bind
  rintro _ _ after _ ⟨rfl, rfl, rfl, rfl⟩
  apply ensures_bind_get
  exact ensures_pure ⟨rfl, rfl, rfl, rfl⟩

structure WorkOutcome (paths : ConfigPaths) (session : Session) (disk : Disk) (content : Text)
    (opened : Bool) (after : Session) (reached : Disk) : Prop where
  pid : after.pid = session.pid
  files : ∀ path, path ≠ workPath paths.writePath → reached.files path = disk.files path
  tmpFile : after.handler.tmpFile = session.handler.tmpFile
  workFile : opened = true → after.handler.workFile = true
  config : opened = true → after.config = some paths
  content : opened = true → reached.files (workPath paths.writePath) = some content
  handle : opened = true →
    reached.streams .handler .work = some ⟨workPath paths.writePath, 0, false⟩

theorem workOutcome_failed {after : Session} {reached : Disk} {content : Text}
    (pid : after.pid = session.pid)
    (files : ∀ path, path ≠ workPath paths.writePath → reached.files path = disk.files path)
    (tmpFile : after.handler.tmpFile = session.handler.tmpFile) :
    WorkOutcome paths session disk content false after reached :=
  ⟨pid, files, tmpFile, Bool.noConfusion, Bool.noConfusion, Bool.noConfusion, Bool.noConfusion⟩

theorem WorkOutcome.widen {middle after : Session} {reached : Disk} {opened : Bool}
    {content : Text} (outcome : WorkOutcome paths middle disk content opened after reached)
    (pid : middle.pid = session.pid)
    (tmpFile : middle.handler.tmpFile = session.handler.tmpFile) :
    WorkOutcome paths session disk content opened after reached :=
  { outcome with pid := outcome.pid.trans pid, tmpFile := outcome.tmpFile.trans tmpFile }

theorem createWorkFile_onDisk (known : session.config = some paths)
    (absent : disk.files paths.writePath = none) :
    Ensures (diskModel config kept)
      (createWorkFile paths.writePath (workPath paths.writePath)) session disk
      fun exchanges => WorkOutcome paths session disk
        (copiedText kept exchanges ((disk.files paths.writePath).getD [])) := by
  apply ensures_bind_ask
  intro created _
  apply ensures_ite_bool
  · rintro rfl
    apply ensures_bind_modify
    apply ensures_bind_modify
    apply ensures_pure
    constructor
    · rfl
    · exact fun path other => Function.update_of_ne other _ _
    · rfl
    · exact fun _ => rfl
    · exact fun _ => known
    · intro _
      rw [absent]
      exact Function.update_self _ _ _
    · intro _
      simp [diskModel, Disk.after, Disk.prepare, Disk.setStream]
  · rintro rfl
    apply ensures_bind_modify
    exact ensures_pure (workOutcome_failed rfl (fun _ _ => rfl) rfl)

variable (rounds : Nat)

theorem copyToWorkFile_onDisk (known : session.config = some paths)
    (present : (disk.files paths.writePath).isSome = true) :
    Ensures (diskModel config kept)
      (copyToWorkFile rounds paths.writePath (workPath paths.writePath)) session disk
      fun exchanges => WorkOutcome paths session disk
        (copiedText kept exchanges ((disk.files paths.writePath).getD [])) := by
  obtain ⟨content, source⟩ := Option.isSome_iff_exists.mp present
  apply (copyFile_onDisk rounds (workPath_ne paths.writePath)).bind
  rintro copying isCopied middle between ⟨alike, outcome⟩
  apply ensures_ite
  · rintro rfl
    apply ensures_bind_ask
    intro opened _
    apply ensures_ite_bool
    · rintro rfl
      apply ensures_bind_modify
      apply ensures_pure
      constructor
      · exact alike.pid
      · exact outcome.files
      · exact alike.handler.tmpFile
      · exact fun _ => rfl
      · exact fun _ => alike.config.trans known
      · intro _
        have whole := outcome.whole rfl
        rw [source] at whole ⊢
        rw [copiedText_append_right rfl]
        exact whole
      · intro _
        simp [diskModel, Disk.after, Disk.prepare, Disk.setStream]
    · rintro rfl
      apply ensures_bind_modify
      exact ensures_pure
        (workOutcome_failed alike.pid outcome.files alike.handler.tmpFile)
  · intro notCopied
    exact ensures_pure (workOutcome_failed alike.pid outcome.files alike.handler.tmpFile)

theorem openWorkFile_onDisk (configured : parsingConfigFile config = some paths)
    (known : session.Configured paths) :
    Ensures (diskModel config kept) (openWorkFile rounds) session disk
      fun exchanges => WorkOutcome paths session disk
        (copiedText kept exchanges ((disk.files paths.writePath).getD [])) := by
  apply ensures_bind_get
  apply ensures_ite
  · intro _
    apply ensures_bind_modify
    exact ensures_pure (workOutcome_failed rfl (fun _ _ => rfl) rfl)
  · intro _
    apply (getConfigValue_onDisk configured known).bind
    rintro _ path middle disk ⟨noClose, rfl, pid, -, handler, ⟨rfl, -⟩ | ⟨rfl, nowKnown⟩⟩
    · apply ensures_bind_modify
      refine ensures_pure (workOutcome_failed pid (fun _ _ => rfl) ?_)
      rw [← handler]
    · have sameTmp : middle.handler.tmpFile = session.handler.tmpFile := by rw [handler]
      apply (derivedPath_known (fun _ => workPath) nowKnown).bind
      rintro _ _ middle disk ⟨rfl, rfl, rfl, rfl⟩
      apply ensures_bind_ask
      intro found isFound
      have present : found = (disk.files paths.writePath).isSome := isFound
      apply ensures_ite
      · intro exists'
        rw [present] at exists'
        apply (copyToWorkFile_onDisk rounds nowKnown exists').mono
        intro _ _ _ _ outcome
        rw [copiedText_append_left noClose]
        exact outcome.widen pid sameTmp
      · intro notFound
        rw [present, Option.not_isSome_iff_eq_none] at notFound
        apply (createWorkFile_onDisk nowKnown notFound).mono
        intro _ _ _ _ outcome
        rw [copiedText_append_left noClose]
        exact outcome.widen pid sameTmp

def handlerPaths (pid : Nat) (strDbPath : Text) : DbFile → Text
  | .work => workPath strDbPath
  | .tmp => tempPath pid strDbPath

structure OpenOutcome (paths : ConfigPaths) (session : Session) (disk : Disk) (content : Text)
    (opened : Bool) (after : Session) (reached : Disk) : Prop where
  pid : after.pid = session.pid
  files : ∀ path, path ≠ workPath paths.writePath → path ≠ tempPath session.pid paths.writePath →
    reached.files path = disk.files path
  handler : opened = true → after.handler.Opened
  config : opened = true → after.config = some paths
  work : opened = true → reached.files (workPath paths.writePath) = some content
  tmp : opened = true → reached.files (tempPath session.pid paths.writePath) = some []
  handles : opened = true → reached.streams .handler = fun file =>
    some ⟨handlerPaths session.pid paths.writePath file, 0, false⟩

theorem openOutcome_failed {after : Session} {reached : Disk} {content : Text}
    (pid : after.pid = session.pid)
    (files : ∀ path, path ≠ workPath paths.writePath → reached.files path = disk.files path) :
    OpenOutcome paths session disk content false after reached :=
  ⟨pid, fun path other _ => files path other, Bool.noConfusion, Bool.noConfusion,
    Bool.noConfusion, Bool.noConfusion, Bool.noConfusion⟩

theorem addTmpFile_onDisk {middle : Session} {between : Disk} {content : Text}
    (outcome : WorkOutcome paths session disk content true middle between)
    (closed : session.handler.tmpFile = false) :
    Ensures (diskModel config kept) addTmpFile middle between
      fun exchanges opened after reached => (opened = true → lostCopy exchanges = false) ∧
        OpenOutcome paths session disk content opened after reached := by
  have created : Ensures (diskModel config kept) createTmpFile middle between
      fun exchanges created after reached => lostCopy exchanges = false ∧
        after.pid = middle.pid ∧ after.config = middle.config ∧
        after.handler.workFile = middle.handler.workFile ∧
        (created = false → reached = between) ∧
        (created = true → after.handler.tmpFile = true ∧
          reached = (between.setFile (tempPath middle.pid paths.writePath) (some [])).setStream
            .handler .tmp (some ⟨tempPath middle.pid paths.writePath, 0, false⟩)) := by
    apply ensures_bind_get
    apply ensures_ite
    · intro opened
      rw [outcome.tmpFile, closed] at opened
      cases opened
    · intro _
      apply (derivedPath_known tempPath (outcome.config rfl)).bind
      rintro _ _ middle between ⟨rfl, rfl, rfl, rfl⟩
      apply ensures_bind_ask
      intro created _
      apply ensures_ite_bool
      · rintro rfl
        apply ensures_bind_modify
        exact ensures_pure ⟨rfl, rfl, rfl, rfl, Bool.noConfusion, fun _ => ⟨rfl, rfl⟩⟩
      · rintro rfl
        apply ensures_bind_modify
        exact ensures_pure ⟨rfl, rfl, rfl, rfl, fun _ => rfl, Bool.noConfusion⟩
  apply created.bind
  rintro _ isCreated after reached ⟨noClose, pid, sameConfig, workFile, failed, done⟩
  cases isCreated with
  | true =>
    obtain ⟨tmpFile, rfl⟩ := done rfl
    apply ensures_pure
    rw [outcome.pid]
    refine ⟨fun _ => by rw [lostCopy_append, noClose]; rfl, ?_⟩
    constructor
    · exact pid.trans outcome.pid
    · intro path otherWork otherTmp
      exact (Function.update_of_ne otherTmp _ _).trans (outcome.files path otherWork)
    · exact fun _ => ⟨workFile.trans (outcome.workFile rfl), tmpFile⟩
    · exact fun _ => sameConfig.trans (outcome.config rfl)
    · intro _
      rw [← outcome.content rfl]
      exact Function.update_of_ne (tempPath_ne_workPath _ _).symm _ _
    · exact fun _ => Function.update_self _ _ _
    · intro _
      funext file
      cases file with
      | work => simpa [Disk.setStream, Disk.setFile, handlerPaths] using outcome.handle rfl
      | tmp => simp [Disk.setStream, handlerPaths]
  | false =>
    obtain rfl := failed rfl
    apply ensures_bind_ask
    intro _ _
    apply ensures_bind_modify
    refine ensures_pure ⟨Bool.noConfusion, openOutcome_failed (pid.trans outcome.pid) ?_⟩
    exact fun path other => (Disk.files_fclose (outcome.handle rfl) other _).trans
      (outcome.files path other)

theorem lockDatabase_onDisk :
    Ensures (diskModel config kept) lockDatabase session disk
      fun exchanges _ after reached => lostCopy exchanges = false ∧ reached = disk ∧
        after.pid = session.pid ∧ after.config = session.config ∧
        session.handler.Alike after.handler := by
  apply ensures_bind_get
  apply ensures_ite
  · intro _
    exact ensures_pure ⟨rfl, rfl, rfl, rfl, .refl⟩
  · intro _
    apply ensures_bind_ask
    intro opened _
    apply ensures_ite
    · intro _
      apply ensures_bind_modify
      apply ensures_bind_ask
      intro reply _
      cases reply with
      | granted | refused | failed => exact ensures_pure ⟨rfl, rfl, rfl, rfl, .refl⟩
    · intro _
      apply ensures_bind_modify
      exact ensures_pure ⟨rfl, rfl, rfl, rfl, ⟨rfl, rfl⟩⟩

theorem openDbInstance_onDisk (configured : parsingConfigFile config = some paths)
    (known : session.Configured paths) (closed : session.handler.tmpFile = false) :
    Ensures (diskModel config kept) (openDbInstance rounds) session disk
      fun exchanges => OpenOutcome paths session disk
        (copiedText kept exchanges ((disk.files paths.writePath).getD [])) := by
  apply ensures_bind_modify
  apply lockDatabase_onDisk.bind
  rintro _ free locked disk ⟨noClose, rfl, pid, sameConfig, alike⟩
  apply ensures_ite
  · intro _
    have stillKnown : locked.Configured paths := by
      rw [Session.Configured, sameConfig]
      exact known
    apply (openWorkFile_onDisk rounds configured stillKnown).bind
    intro opening opened middle between outcome
    have widened : WorkOutcome paths session disk _ opened middle between :=
      outcome.widen pid alike.tmpFile
    apply ensures_ite
    · rintro rfl
      apply (addTmpFile_onDisk widened closed).mono
      rintro adding opened after reached ⟨noCloseLater, whole⟩
      rw [copiedText_append_left noClose]
      cases opened with
      | true =>
        rw [copiedText_append_right (noCloseLater rfl)]
        exact whole
      | false => exact ⟨whole.pid, whole.files, nofun, nofun, nofun, nofun, nofun⟩
    · intro _
      exact ensures_pure (openOutcome_failed widened.pid widened.files)
  · intro _
    apply ensures_bind_modify
    exact ensures_pure (openOutcome_failed pid fun _ _ => rfl)

structure CloseOutcome (paths : ConfigPaths) (disk : Disk)
    (exchanges : List (Exchange sessionOps)) (closed : Bool) (reached : Disk) : Prop where
  closed_iff : closed = true ↔
    ⟨.rename (workPath paths.writePath) paths.writePath, true⟩ ∈ exchanges
  renamed : closed = true →
    reached.files paths.writePath = disk.files (workPath paths.writePath)
  kept : closed = false → reached.files paths.writePath = disk.files paths.writePath

/-- The streams of the handler are open on the work file and the temporary file. -/
def HandlesPlaced (pid : Nat) (strDbPath : Text) (disk : Disk) : Prop :=
  ∀ file, ∃ handle, disk.streams .handler file = some handle ∧
    handle.path = handlerPaths pid strDbPath file

theorem handles_setStream_tmp (disk : Disk) (handle : Option Handle) :
    (disk.setStream .handler .tmp handle).streams .handler .work = disk.streams .handler .work := by
  simp [Disk.setStream]

theorem closeTmpFile_onDisk (opened : session.handler.tmpFile = true)
    (known : session.config = some paths)
    (placed : HandlesPlaced session.pid paths.writePath disk) :
    Ensures (diskModel config kept) closeTmpFile session disk
      fun exchanges _ after reached => after.config = session.config ∧
        after.handler.workFile = session.handler.workFile ∧
        reached.streams .handler .work = disk.streams .handler .work ∧
        (∀ path, path ≠ tempPath session.pid paths.writePath →
          reached.files path = disk.files path) ∧
        ∀ old new, ⟨.rename old new, true⟩ ∉ exchanges := by
  apply ensures_bind_get
  apply ensures_ite
  · intro _
    apply ensures_bind_ask
    intro closed _
    apply ensures_bind_modify
    apply ensures_bind
    have stillKnown : Session.config { session with
      handler := { session.handler with tmpFile := false } } = some paths := known
    apply (derivedPath_known tempPath stillKnown).mono
    rintro _ _ middle between ⟨rfl, rfl, rfl, rfl⟩
    apply ensures_bind_ask
    intro removed _
    apply ensures_pure
    obtain ⟨handle, isOpen, isPath⟩ := placed .tmp
    have files : ∀ path, path ≠ tempPath session.pid paths.writePath →
        ((diskModel config kept).after disk (.fclose .handler .tmp) closed).files path =
          disk.files path := fun path other => Disk.files_fclose isOpen (isPath ▸ other) closed
    refine ⟨rfl, rfl, ?_, ?_, by simp⟩
    · cases removed <;> exact handles_setStream_tmp disk none
    · intro path other
      cases removed with
      | true => exact (Function.update_of_ne other _ _).trans (files path other)
      | false => exact files path other
  · intro notOpen
    exact absurd opened notOpen

theorem closeWorkFile_onDisk (opened : session.handler.workFile = true)
    (known : session.config = some paths) {handle : Handle}
    (isOpen : disk.streams .handler .work = some handle)
    (isPath : handle.path = workPath paths.writePath) :
    Ensures (diskModel config kept) closeWorkFile session disk
      fun exchanges closed _ reached => CloseOutcome paths disk exchanges closed reached := by
  apply ensures_bind_get
  apply ensures_ite
  · intro _
    apply ensures_bind_ask
    intro closed _
    apply ensures_ite_bool
    · rintro rfl
      apply ensures_bind_modify
      apply ensures_bind
      have stillKnown : Session.config { session with
        handler := { session.handler with workFile := false } } = some paths := known
      apply (derivedPath_known (fun _ => workPath) stillKnown).mono
      rintro _ _ middle between ⟨rfl, rfl, rfl, rfl⟩
      apply (getConfigValue_known stillKnown).bind
      rintro _ _ middle between ⟨rfl, rfl, rfl, rfl⟩
      apply ensures_bind_ask
      intro renamed _
      apply ensures_ite_bool
      · rintro rfl
        apply ensures_bind_modify
        apply ensures_pure
        refine ⟨iff_of_true rfl (by simp), fun _ => ?_, Bool.noConfusion⟩
        exact Function.update_self _ _ _
      · rintro rfl
        apply ensures_bind_modify
        apply ensures_pure
        exact ⟨iff_of_false Bool.false_ne_true (by simp), Bool.noConfusion, fun _ => rfl⟩
    · rintro rfl
      apply ensures_bind_modify
      apply ensures_pure
      refine ⟨iff_of_false Bool.false_ne_true (by simp), Bool.noConfusion, fun _ => ?_⟩
      exact Disk.files_fclose isOpen (isPath ▸ (workPath_ne _).symm) false
  · intro notOpen
    exact absurd opened notOpen

theorem unLockDatabase_onDisk :
    Ensures (diskModel config kept) unLockDatabase session disk
      fun exchanges _ _ reached => reached = disk ∧
        ∀ old new, ⟨.rename old new, true⟩ ∉ exchanges := by
  apply ensures_bind_get
  apply ensures_ite
  · intro _
    apply ensures_bind_ask
    intro cleared _
    apply ensures_bind_ask
    intro _ _
    apply ensures_bind_modify
    exact ensures_pure ⟨rfl, by simp⟩
  · intro _
    exact ensures_pure ⟨rfl, by simp⟩

theorem closeDbInstance_onDisk (opened : session.handler.Opened)
    (known : session.config = some paths)
    (placed : HandlesPlaced session.pid paths.writePath disk) :
    Ensures (diskModel config kept) closeDbInstance session disk
      fun exchanges closed _ reached => CloseOutcome paths disk exchanges closed reached := by
  obtain ⟨handle, isOpen, isPath⟩ := placed .work
  apply (closeTmpFile_onDisk opened.tmpFile known placed).bind
  rintro first _ middle between ⟨sameConfig, workFile, sameHandle, files, noRename⟩
  apply (closeWorkFile_onDisk (workFile.trans opened.workFile) (sameConfig.trans known)
    (sameHandle.trans isOpen) isPath).bind
  intro second closed after renamed outcome
  apply unLockDatabase_onDisk.bind
  rintro third _ unlocked reached ⟨rfl, noRenameLater⟩
  apply ensures_pure
  constructor
  · simp only [List.mem_append, noRename, noRenameLater, List.not_mem_nil, or_false, false_or]
    exact outcome.closed_iff
  · intro isClosed
    rw [outcome.renamed isClosed]
    exact files _ (tempPath_ne_workPath _ _).symm
  · intro notClosed
    rw [outcome.kept notClosed]
    exact files _ (tempPath_ne _ _).symm

end Opening

end Apos.UserDb
