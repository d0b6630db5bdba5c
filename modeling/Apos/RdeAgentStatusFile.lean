import Mathlib.Tactic.MkIffOfInductiveProp
import Apos.CTexts
import Apos.TextFiles
import Apos.RdeAgentTransitions

/-!
# The record of the other node and the text it comes from

Each node writes a `disk_status` file with one line for each of its ports.
`updateBothNodeDisknControllerstatus` copies the state of the own ports into the record of the
own node and lets `updatePortStatus` fill the record of the other node, line by line and through
two buffers that are shared by both ports.  This file follows the bytes: the buffer for the path,
which is too small for any path, the buffer for a line, the buffers for words and the array for
the name of a disk.
-/

namespace Apos.RdeAgent

open CText

abbrev Text : Type := List Char

/-! ## Records -/

structure DiskName where
  bytes : Text
  size : bytes.length = 10

namespace DiskName

/-- `strncpy(diskname, text, strlen(text))` copies no end.  A longer text does not fit. -/
def copy (name : DiskName) (text : Text) : Option DiskName :=
  if fits : text.length ≤ 10 then
    some ⟨text ++ name.bytes.drop text.length, by
      rw [List.length_append, List.length_drop, name.size]
      omega⟩
  else none

/-- `strncpy(diskname, other, sizeof(other))`. -/
def copied (name : DiskName) : DiskName :=
  ⟨CText.cString name.bytes ++ List.replicate (10 - (CText.cString name.bytes).length) '\x00', by
    have short : (CText.cString name.bytes).length ≤ name.bytes.length :=
      (List.takeWhile_sublist _).length_le
    rw [name.size] at short
    rw [List.length_append, List.length_replicate]
    omega⟩

def read (name : DiskName) : Option Text :=
  if '\x00' ∈ name.bytes then some (CText.cString name.bytes) else none

end DiskName

structure PortRecord where
  isHealthy : Bool
  diskIsHealthy : Bool
  diskname : DiskName

structure NodeRecord where
  portOne : PortRecord
  portTwo : PortRecord

def NodeRecord.port (record : NodeRecord) : Port → PortRecord
  | .one => record.portOne
  | .two => record.portTwo

/-! ## Reading -/

/-- The buffers `buff2` and `buff4`, which are not initialised. -/
structure Buffers where
  controller : Text
  disk : Text
  deriving DecidableEq

/-- What is in `buff5` after the loop over the lines of the command that prints the storage path:
the first word of the last line that has one. -/
def storagePath (buff5 config : Text) : Text :=
  let lines := (bufferedLines '\n' 23 config).map CText.cString
  (lines.takeWhile (· ≠ [])).foldl (fun path line => (scanWords line).headD path) buff5

/-- The path that `strcat` makes of it. -/
def statusPath (storage : Text) (node : Nat) : Text :=
  storage ++ ("/ha/nodes/".toList ++ Nat.toDigits 10 node ++ "/disk_status".toList)

/-- What a call of `updatePortStatus` meets: what the command for the storage path prints, if it
can be started, the path and the words that are in the buffers, and what a path that is longer than
its buffer leaves of these words, if the call goes on. -/
structure Stack where
  config : Option Text
  path : Text
  buffers : Buffers
  overrun : Text → Option Buffers

/-- `strcat(buff5, command_string)`.  The buffer has 20 bytes. -/
def Stack.putPath (stack : Stack) (path : Text) : Option Buffers :=
  if path.length < 20 then some stack.buffers else stack.overrun path

theorem putPath_eq_overrun (stack : Stack) (storage : Text) (node : Nat) :
    stack.putPath (statusPath storage node) = stack.overrun (statusPath storage node) := by
  have long : 20 ≤ (statusPath storage node).length := by
    simp only [statusPath, List.length_append]
    have fixed : "/ha/nodes/".toList.length = 10 ∧ "/disk_status".toList.length = 12 := by
      decide +kernel
    omega
  exact if_neg (Nat.not_lt_of_le long)

/-- `sscanf(buff, "%s %s %s %s", buff1, buff2, buff3, buff4)`.  Each buffer has 20 bytes. -/
def Buffers.scan (buffers : Buffers) (buff : Text) : Option Buffers :=
  let words := (scanWords buff).take 4
  if words.all fun word => decide (word.length < 20) then
    some ⟨words.getD 1 buffers.controller, words.getD 3 buffers.disk⟩
  else none

def healthy : Text :=
  "healthy".toList

def null : Text :=
  "null".toList

def PortRecord.take (record : PortRecord) (buffers : Buffers) : Option PortRecord :=
  if CText.cString buffers.disk = null then
    some ⟨CText.cString buffers.controller = healthy, false, record.diskname⟩
  else (record.diskname.copy (CText.cString buffers.disk)).map fun diskname =>
    ⟨CText.cString buffers.controller = healthy, true, diskname⟩

def Port.marker : Port → Text
  | .one => "PORT1:".toList
  | .two => "PORT2:".toList

/-- One round of the loop of `updatePortStatus`.  Only a line of port one is scanned. -/
def readStatusPiece (state : NodeRecord × Buffers) (buff : Text) :
    Option (NodeRecord × Buffers) := do
  let line := CText.cString buff
  let (record, buffers) ←
    if Port.one.marker <:+: line then do
      let buffers ← state.2.scan line
      let portOne ← state.1.portOne.take buffers
      some ({ state.1 with portOne }, buffers)
    else some state
  if Port.two.marker <:+: line then do
    let portTwo ← record.portTwo.take buffers
    some ({ record with portTwo }, buffers)
  else some (record, buffers)

/-- `updatePortStatus` on the file of a node, if it can be opened.  There is no result where a
buffer for words or the array of a name overflows, or the call does not come back from the overflow
of the path. -/
def updatePortStatus (stack : Stack) (files : Nat → Option Text) (node : Nat)
    (record : NodeRecord) : Option (ReturnType × NodeRecord) :=
  match stack.config with
  | none => some (.failure, record)
  | some config => do
      let buffers ← stack.putPath (statusPath (storagePath stack.path config) node)
      match files node with
      | none => some (.failure, record)
      | some text =>
        let (record, _) ← (bufferedLines '\n' 79 text).foldlM readStatusPiece (record, buffers)
        some (.success, record)

/-- The part of the agent that is used here: `PortOne` and `PortTwo` of the agent itself, and
the records of both nodes. -/
structure StatusAgent where
  nodeId : Nat
  own : NodeRecord
  nodeA : NodeRecord
  nodeB : NodeRecord

def PortRecord.copied (record : PortRecord) : PortRecord :=
  { record with diskname := record.diskname.copied }

def NodeRecord.copied (record : NodeRecord) : NodeRecord :=
  ⟨record.portOne.copied, record.portTwo.copied⟩

/-- `updateBothNodeDisknControllerstatus`: each node passes its own number to
`updatePortStatus`. -/
def updateBothRecords (stack : Stack) (files : Nat → Option Text) (agent : StatusAgent) :
    Option (ReturnType × StatusAgent) :=
  if agent.nodeId = 1 then
    (updatePortStatus stack files 1 agent.nodeB).map fun result =>
      (result.1, { agent with nodeA := agent.own.copied, nodeB := result.2 })
  else if agent.nodeId = 2 then
    (updatePortStatus stack files 2 agent.nodeA).map fun result =>
      (result.1, { agent with nodeB := agent.own.copied, nodeA := result.2 })
  else some (.success, agent)

def StatusAgent.peer (agent : StatusAgent) : NodeRecord :=
  if agent.nodeId = 1 then agent.nodeB else agent.nodeA

/-! ## Files -/

structure IsToken (word : Text) : Prop where
  nonempty : word ≠ []
  solid : ∀ char ∈ word, CText.isSpace char = false
  noNul : '\x00' ∉ word
  unmarked : ∀ port : Port, ¬port.marker <:+: word

def tokenCheck (word : Text) : Bool :=
  !word.isEmpty && (word.all fun char => !CText.isSpace char && char ≠ '\x00') &&
    !decide (Port.one.marker <:+: word) && !decide (Port.two.marker <:+: word)

theorem isToken_of_check {word : Text} (checked : tokenCheck word = true) : IsToken word := by
  simp only [tokenCheck, Bool.and_eq_true, List.all_eq_true, Bool.not_eq_true',
    decide_eq_true_eq, decide_eq_false_iff_not, List.isEmpty_eq_false_iff] at checked
  obtain ⟨⟨⟨nonempty, each⟩, notOne⟩, notTwo⟩ := checked
  refine ⟨nonempty, fun char member => (each char member).1,
    fun member => (each _ member).2 rfl, fun port => ?_⟩
  cases port
  · exact notOne
  · exact notTwo

/-- A line `PORTn: <status> DISK: <name>`. -/
structure PortText where
  status : Text
  name : Text
  ending : Text
  isStatus : IsToken status
  isName : IsToken name
  isEnding : ending = [] ∨ ending = ['\n']

namespace PortText

def words (line : PortText) : Text :=
  line.status ++ ' ' :: ("DISK:".toList ++ ' ' :: (line.name ++ line.ending))

def text (port : Port) (line : PortText) : Text :=
  port.marker ++ ' ' :: line.words

end PortText

/-- A `disk_status` file: one line for each port, in either order, and other lines without the
markers. -/
structure StatusText (text : Text) where
  one : PortText
  two : PortText
  oneFirst : Bool
  before : List Text
  between : List Text
  behind : List Text
  lines : rawLines '\n' text = before ++
    (if oneFirst then one.text .one else two.text .two) :: (between ++
      (if oneFirst then two.text .two else one.text .one) :: behind)
  others : ∀ line ∈ before ++ between ++ behind, ∀ port : Port, ¬port.marker <:+: line

def StatusText.line {text : Text} (file : StatusText text) : Port → PortText
  | .one => file.one
  | .two => file.two

structure PortRecord.Says (record : PortRecord) (line : PortText) : Prop where
  controller : record.isHealthy = true ↔ line.status = healthy
  disk : record.diskIsHealthy = true ↔ line.name ≠ null
  diskname : line.name ≠ null → record.diskname.read = some line.name

def statusFiles (agent : StatusAgent) (ownText peerText : Text) (node : Nat) : Option Text :=
  if node = agent.nodeId then some ownText else some peerText

def PeerReported (agent : StatusAgent) (stack : Stack) (ownText : Text) {peerText : Text}
    (peer : StatusText peerText) : Prop :=
  ∃ after, updateBothRecords stack (statusFiles agent ownText peerText) agent =
      some (.success, after) ∧
    ∀ port, (after.peer.port port).Says (peer.line port)

/-! ## Markers -/

theorem not_mem_marker (port : Port) {char : Char} (space : CText.isSpace char = true) :
    char ∉ port.marker := by
  have solid : (port.marker.all fun char => !CText.isSpace char) = true := by
    cases port <;> decide
  intro member
  have notSpace := List.all_eq_true.mp solid char member
  simp [space] at notSpace

theorem marker_ne_nil (port : Port) : port.marker ≠ [] := by
  cases port <;> decide

theorem marker_infix_blank {port : Port} {front rest : Text}
    (occurs : port.marker <:+: front ++ ' ' :: rest) :
    port.marker <:+: front ∨ port.marker <:+: rest :=
  infix_of_cut (not_mem_marker port (by decide)) occurs

namespace PortText

theorem not_marker_infix_words (line : PortText) (port : Port) : ¬port.marker <:+: line.words := by
  have inName : ¬port.marker <:+: line.name ++ line.ending := by
    intro occurs
    rcases line.isEnding with none | newline
    · rw [none, List.append_nil] at occurs
      exact line.isName.unmarked port occurs
    · rw [newline] at occurs
      rcases infix_of_cut (not_mem_marker port (by decide)) occurs with inName | inNil
      · exact line.isName.unmarked port inName
      · exact marker_ne_nil port (List.infix_nil.mp inNil)
  intro occurs
  rcases marker_infix_blank occurs with inStatus | later
  · exact line.isStatus.unmarked port inStatus
  · rcases marker_infix_blank later with inLabel | last
    · revert inLabel
      cases port <;> decide +kernel
    · exact inName last

theorem not_marker_infix_tail (line : PortText) (port : Port) :
    ¬port.marker <:+: ' ' :: line.words := by
  intro occurs
  rcases marker_infix_blank (show port.marker <:+: [] ++ _ from occurs) with inNil | inWords
  · exact marker_ne_nil port (List.infix_nil.mp inNil)
  · exact line.not_marker_infix_words port inWords

theorem not_marker_infix_text (line : PortText) {port other : Port} (different : other ≠ port) :
    ¬other.marker <:+: line.text port := by
  intro occurs
  rcases marker_infix_blank occurs with inMarker | inWords
  · revert inMarker different
    cases port <;> cases other <;> decide +kernel
  · exact line.not_marker_infix_words other inWords

theorem nul_not_mem_text (line : PortText) (port : Port) : '\x00' ∉ line.text port := by
  have inMarker : '\x00' ∉ port.marker := by
    cases port <;> decide
  have inEnding : '\x00' ∉ line.ending := by
    rcases line.isEnding with ending | ending <;> simp [ending]
  have inLabel : '\x00' ∉ "DISK:".toList := by decide +kernel
  simp only [text, words, List.mem_append, List.mem_cons, not_or]
  exact ⟨inMarker, by decide, line.isStatus.noNul, by decide, inLabel, by decide,
    line.isName.noNul, inEnding⟩

def received (port : Port) (line : PortText) : Text :=
  (line.text port).take 79

theorem received_eq (port : Port) (line : PortText) :
    line.received port = port.marker ++ ' ' :: line.words.take 72 := by
  cases port <;> rfl

end PortText

/-! ## The loop -/

theorem readStatusPiece_of_unmarked {buff : Text}
    (unmarked : ∀ port : Port, ¬port.marker <:+: buff) (state : NodeRecord × Buffers) :
    readStatusPiece state buff = some state := by
  have inLine : ∀ port : Port, ¬port.marker <:+: CText.cString buff := fun port occurs =>
    unmarked port (occurs.trans (List.takeWhile_prefix _).isInfix)
  simp [readStatusPiece, inLine]

theorem foldlM_of_unmarked {pieces : List Text}
    (unmarked : ∀ piece ∈ pieces, ∀ port : Port, ¬port.marker <:+: piece)
    (state : NodeRecord × Buffers) : pieces.foldlM readStatusPiece state = some state := by
  induction pieces with
  | nil => rfl
  | cons piece pieces ih =>
    rw [List.foldlM_cons, readStatusPiece_of_unmarked (unmarked piece List.mem_cons_self)]
    exact ih fun other member => unmarked other (List.mem_cons_of_mem _ member)

theorem infix_of_mem_bufferedLines {piece text : Text}
    (member : piece ∈ bufferedLines '\n' 79 text) : piece <:+: text := by
  have whole : (bufferedLines '\n' 79 text).flatten = text := flatten_bufferedLines (by decide) text
  rw [← whole]
  exact List.infix_of_mem_flatten member

theorem foldlM_others {lines : List Text}
    (unmarked : ∀ line ∈ lines, ∀ port : Port, ¬port.marker <:+: line)
    (state : NodeRecord × Buffers) :
    (lines.flatMap (bufferedLines '\n' 79)).foldlM readStatusPiece state = some state := by
  refine foldlM_of_unmarked (fun piece member port occurs => ?_) state
  obtain ⟨line, inLines, inLine⟩ := List.mem_flatMap.mp member
  exact unmarked line inLines port (occurs.trans (infix_of_mem_bufferedLines inLine))

def readPortLine (line : PortText) : Port → NodeRecord × Buffers → Option (NodeRecord × Buffers)
  | .one, state => do
      let buffers ← state.2.scan (line.received .one)
      let portOne ← state.1.portOne.take buffers
      some ({ state.1 with portOne }, buffers)
  | .two, state => do
      let portTwo ← state.1.portTwo.take state.2
      some ({ state.1 with portTwo }, state.2)

theorem cString_received (line : PortText) (port : Port) :
    CText.cString (line.received port) = line.received port :=
  cString_eq_self fun member => line.nul_not_mem_text port (List.mem_of_mem_take member)

theorem readStatusPiece_received (line : PortText) (port : Port) (state : NodeRecord × Buffers) :
    readStatusPiece state (line.received port) = readPortLine line port state := by
  have has : port.marker <:+: line.received port := by
    rw [PortText.received_eq]
    exact (List.prefix_append _ _).isInfix
  have hasNot : ∀ other, other ≠ port → ¬other.marker <:+: line.received port :=
    fun other different occurs =>
      line.not_marker_infix_text different (occurs.trans (List.take_prefix _ _).isInfix)
  cases port with
  | one =>
    have notTwo := hasNot .two (by decide)
    simp only [readStatusPiece, cString_received, if_pos has, if_neg notTwo, readPortLine]
    cases state.2.scan (line.received .one) with
    | none => rfl
    | some buffers => simp only [Option.bind_eq_bind, Option.bind_some]
  | two =>
    have notOne := hasNot .one (by decide)
    simp only [readStatusPiece, cString_received, if_pos has, if_neg notOne, readPortLine]
    rfl

theorem foldlM_portLine (line : PortText) (port : Port) (isLine : IsLine '\n' (line.text port))
    (state : NodeRecord × Buffers) :
    (bufferedLines '\n' 79 (line.text port)).foldlM readStatusPiece state =
      readPortLine line port state := by
  have rest : ∀ piece ∈ bufferedLines '\n' 79 ((line.text port).drop 79), ∀ other : Port,
      ¬other.marker <:+: piece := by
    intro piece member other occurs
    have inTail : (line.text port).drop 79 <:+: ' ' :: line.words := by
      have shape : (line.text port).drop 79 = (' ' :: line.words).drop 73 := by
        cases port <;> rfl
      rw [shape]
      exact (List.drop_suffix _ _).isInfix
    exact line.not_marker_infix_tail other
      (occurs.trans ((infix_of_mem_bufferedLines member).trans inTail))
  rw [bufferedLines_cut (by decide) isLine, List.foldlM_cons]
  have first := readStatusPiece_received line port state
  rw [PortText.received] at first
  rw [first]
  cases readPortLine line port state with
  | none => rfl
  | some state => exact foldlM_of_unmarked rest state

theorem foldlM_around {before between behind : List Text} {first second : Text}
    {readFirst readSecond : NodeRecord × Buffers → Option (NodeRecord × Buffers)}
    (unmarked : ∀ line ∈ before ++ between ++ behind, ∀ port : Port, ¬port.marker <:+: line)
    (isFirst : ∀ state, (bufferedLines '\n' 79 first).foldlM readStatusPiece state =
      readFirst state)
    (isSecond : ∀ state, (bufferedLines '\n' 79 second).foldlM readStatusPiece state =
      readSecond state) (state : NodeRecord × Buffers) :
    ((before ++ first :: (between ++ second :: behind)).flatMap
        (bufferedLines '\n' 79)).foldlM readStatusPiece state =
      (readFirst state).bind readSecond := by
  simp only [List.mem_append] at unmarked
  simp only [List.flatMap_append, List.flatMap_cons, List.foldlM_append, Option.bind_eq_bind]
  rw [foldlM_others fun line member => unmarked line (.inl (.inl member)), Option.bind_some,
    isFirst]
  cases readFirst state with
  | none => rfl
  | some next =>
    rw [Option.bind_some, Option.bind_some,
      foldlM_others fun line member => unmarked line (.inl (.inr member)), Option.bind_some,
      isSecond]
    cases readSecond next with
    | none => rfl
    | some last => exact foldlM_others (fun line member => unmarked line (.inr member)) last

theorem foldlM_file {text : Text} (file : StatusText text) (state : NodeRecord × Buffers) :
    (bufferedLines '\n' 79 text).foldlM readStatusPiece state =
      if file.oneFirst then
        (readPortLine file.one .one state).bind (readPortLine file.two .two)
      else (readPortLine file.two .two state).bind (readPortLine file.one .one) := by
  have isLine : ∀ line ∈ rawLines '\n' text, IsLine '\n' line :=
    fun line member => (lined_rawLines text).isLine member
  rw [bufferedLines_eq_flatMap (by decide)]
  rw [file.lines] at isLine ⊢
  cases oneFirst : file.oneFirst with
  | true =>
    simp only [oneFirst, if_true] at isLine
    exact foldlM_around file.others (foldlM_portLine file.one .one (isLine _ (by simp)))
      (foldlM_portLine file.two .two (isLine _ (by simp))) state
  | false =>
    simp only [oneFirst, Bool.false_eq_true, if_false] at isLine
    exact foldlM_around file.others (foldlM_portLine file.two .two (isLine _ (by simp)))
      (foldlM_portLine file.one .one (isLine _ (by simp))) state

/-! ## The words of a line -/

theorem isToken_label : IsToken "DISK:".toList :=
  isToken_of_check (by decide +kernel)

theorem PortText.scanWords_last (line : PortText) {limit : Nat} (room : 0 < limit) :
    scanWords ((line.name ++ line.ending).take limit) = [line.name.take limit] := by
  obtain ⟨nonempty, solid, -, -⟩ := line.isName
  rcases line.isEnding with none | newline
  · rw [none, List.append_nil]
    exact scanWords_take_word nonempty solid room
  · rw [newline, scanWords_take nonempty solid room (by decide), List.take_nil]
    rfl

/-- The four words of a line go into the buffers whole, or one of them overflows. -/
theorem PortText.scan_received (line : PortText) (buffers : Buffers) :
    buffers.scan (line.received .one) =
      if line.status.length < 20 ∧ line.name.length < 20 then some ⟨line.status, line.name⟩
      else none := by
  have marker : scanWords Port.one.marker = [Port.one.marker] := by decide +kernel
  have blank : CText.isSpace ' ' = true := by decide
  have sizes : Port.one.marker.length = 6 ∧ "DISK:".toList.length = 5 := by decide +kernel
  rw [Buffers.scan, PortText.received_eq, scanWords_append blank, marker, PortText.words,
    scanWords_take line.isStatus.nonempty line.isStatus.solid (by decide) blank]
  by_cases short : line.status.length < 20
  · have status : line.status.take 72 = line.status := List.take_of_length_le (by omega)
    have label : "DISK:".toList.take (72 - line.status.length - 1) = "DISK:".toList :=
      List.take_of_length_le (by omega)
    rw [status, scanWords_take isToken_label.nonempty isToken_label.solid (by omega) blank,
      PortText.scanWords_last line (by omega), label]
    generalize isLeft : 72 - line.status.length - 1 - "DISK:".toList.length - 1 = left
    by_cases named : line.name.length < 20
    · rw [List.take_of_length_le (show line.name.length ≤ left by omega)]
      simp [short, named, sizes]
    · refine (if_neg fun fits => ?_).trans (if_neg fun both => named both.2).symm
      have fourth := List.all_eq_true.mp fits (line.name.take left) (by simp)
      rw [decide_eq_true_eq, List.length_take] at fourth
      omega
  · refine (if_neg fun fits => ?_).trans (if_neg fun both => short both.1).symm
    have second := List.all_eq_true.mp fits (line.status.take 72) (by simp)
    rw [decide_eq_true_eq, List.length_take] at second
    omega

/-! ## The record against the file of the other node -/

/-- What the words of a line, put into a record, say is what a line of the other node says.  A name
is copied over the one that is there, without its end. -/
structure Echoes (record : PortRecord) (status name : Text) (line : PortText) : Prop where
  controller : status = healthy ↔ line.status = healthy
  disk : name = null ↔ line.name = null
  diskname : name ≠ null → name.length ≤ 10 ∧
    '\x00' ∈ record.diskname.bytes.drop name.length ∧
    line.name = name ++ CText.cString (record.diskname.bytes.drop name.length)

theorem exists_copy_read_iff {text want : Text} (record : DiskName) (noNul : '\x00' ∉ text) :
    (∃ after, record.copy text = some after ∧ after.read = some want) ↔
      text.length ≤ 10 ∧ '\x00' ∈ record.bytes.drop text.length ∧
        want = text ++ CText.cString (record.bytes.drop text.length) := by
  unfold DiskName.copy
  split
  · next fits =>
      have cut : CText.cString (text ++ record.bytes.drop text.length) =
          text ++ CText.cString (record.bytes.drop text.length) :=
        List.takeWhile_append_of_pos (decide_ne_of_not_mem noNul)
      simp [DiskName.read, cut, noNul, fits, eq_comm]
  · next long => simp [long]

theorem exists_take_says_iff (record : PortRecord) (buffers : Buffers) (line : PortText) :
    (∃ after, record.take buffers = some after ∧ after.Says line) ↔
      Echoes record (CText.cString buffers.controller) (CText.cString buffers.disk) line := by
  have noNul : '\x00' ∉ CText.cString buffers.disk := fun member => by
    simpa using List.mem_takeWhile_imp member
  unfold PortRecord.take
  by_cases isNull : CText.cString buffers.disk = null
  · simp only [if_pos isNull, Option.some.injEq, exists_eq_left']
    constructor
    · rintro ⟨controller, disk, -⟩
      refine ⟨by simpa using controller, ?_, fun notNull => absurd isNull notNull⟩
      simpa [isNull] using disk
    · rintro ⟨controller, disk, -⟩
      have nullName := disk.mp isNull
      exact ⟨by simpa using controller, by simpa using nullName,
        fun notNull => absurd nullName notNull⟩
  · simp only [if_neg isNull, Option.map_eq_some_iff]
    constructor
    · rintro ⟨after, ⟨name, copied, rfl⟩, controller, disk, diskname⟩
      have notNull : line.name ≠ null := by simpa using disk
      exact ⟨by simpa using controller, iff_of_false isNull notNull,
        fun _ => (exists_copy_read_iff _ noNul).mp ⟨name, copied, diskname notNull⟩⟩
    · rintro ⟨controller, disk, diskname⟩
      obtain ⟨name, copied, isRead⟩ := (exists_copy_read_iff _ noNul).mpr (diskname isNull)
      have notNull : line.name ≠ null := fun same => isNull (disk.mpr same)
      exact ⟨_, ⟨name, copied, rfl⟩, by simpa using controller, by simpa using notNull,
        fun _ => isRead⟩

/-- The words of port one in the own file fit their buffers and say of both ports what the other
file says.  Where the line of port two stands before them, what is in the buffers says it of port
two. -/
@[mk_iff]
structure EchoesPeer {ownText peerText : Text} (own : StatusText ownText)
    (peer : StatusText peerText) (buffers : Buffers) (record : NodeRecord) : Prop where
  fits : own.one.status.length < 20 ∧ own.one.name.length < 20
  one : Echoes record.portOne own.one.status own.one.name peer.one
  two : if own.oneFirst then Echoes record.portTwo own.one.status own.one.name peer.two
    else Echoes record.portTwo (CText.cString buffers.controller) (CText.cString buffers.disk)
      peer.two

theorem forall_port {holds : Port → Prop} : (∀ port, holds port) ↔ holds .one ∧ holds .two :=
  ⟨fun all => ⟨all .one, all .two⟩, fun both port => by cases port; exacts [both.1, both.2]⟩

variable {ownText : Text} (own : StatusText ownText)

theorem foldlM_own (buffers : Buffers) (record : NodeRecord) :
    ((bufferedLines '\n' 79 ownText).foldlM readStatusPiece (record, buffers)).map Prod.fst =
      if own.oneFirst then
        (buffers.scan (own.one.received .one)).bind fun heard =>
          (record.portOne.take heard).bind fun portOne =>
            (record.portTwo.take heard).map fun portTwo => ⟨portOne, portTwo⟩
      else
        (record.portTwo.take buffers).bind fun portTwo =>
          (buffers.scan (own.one.received .one)).bind fun heard =>
            (record.portOne.take heard).map fun portOne => ⟨portOne, portTwo⟩ := by
  rw [foldlM_file own]
  split <;> simp only [readPortLine, Option.bind_eq_bind, Option.bind_assoc, Option.bind_some,
    Option.map_eq_bind, Function.comp_def]

/-- The words of a line have no NUL, so they are read back as they are. -/
theorem exists_take_line_iff (record : PortRecord) (line peer : PortText) :
    (∃ after, record.take ⟨line.status, line.name⟩ = some after ∧ after.Says peer) ↔
      Echoes record line.status line.name peer := by
  rw [exists_take_says_iff, cString_eq_self line.isStatus.noNul, cString_eq_self line.isName.noNul]

theorem foldlM_says_iff {peerText : Text} (peer : StatusText peerText) (buffers : Buffers)
    (record : NodeRecord) :
    (∃ after, ((bufferedLines '\n' 79 ownText).foldlM readStatusPiece (record, buffers)).map
          Prod.fst = some after ∧ ∀ port, (after.port port).Says (peer.line port)) ↔
      EchoesPeer own peer buffers record := by
  rw [echoesPeer_iff, ← exists_take_line_iff, ← exists_take_line_iff, ← exists_take_says_iff,
    foldlM_own own, PortText.scan_received]
  simp only [forall_port, NodeRecord.port, StatusText.line]
  by_cases fits : own.one.status.length < 20 ∧ own.one.name.length < 20
  · rw [if_pos fits]
    cases own.oneFirst with
    | true =>
      simp only [if_true, Option.bind_some]
      cases record.portOne.take ⟨own.one.status, own.one.name⟩ with
      | none => simp
      | some portOne =>
        cases record.portTwo.take ⟨own.one.status, own.one.name⟩ <;> simp [fits]
    | false =>
      simp only [Bool.false_eq_true, if_false]
      cases record.portTwo.take buffers with
      | none => simp
      | some portTwo =>
        simp only [Option.bind_some]
        cases record.portOne.take ⟨own.one.status, own.one.name⟩ <;> simp [fits]
  · rw [if_neg fits]
    cases own.oneFirst <;> cases record.portTwo.take buffers <;> simp [fits]

theorem updatePortStatus_eq_some_iff {stack : Stack} {files : Nat → Option Text} {node : Nat}
    {text : Text} (file : files node = some text) {record after : NodeRecord} :
    updatePortStatus stack files node record = some (.success, after) ↔
      ∃ config buffers, stack.config = some config ∧
        stack.overrun (statusPath (storagePath stack.path config) node) = some buffers ∧
        ((bufferedLines '\n' 79 text).foldlM readStatusPiece (record, buffers)).map Prod.fst =
          some after := by
  unfold updatePortStatus
  cases stack.config with
  | none => simp
  | some config =>
    simp only [putPath_eq_overrun, file, Option.bind_eq_bind, Option.bind_eq_some_iff,
      Option.map_eq_some_iff, Option.some.injEq, Prod.mk.injEq, true_and]
    exact ⟨fun ⟨buffers, left, folded⟩ => ⟨config, buffers, rfl, left, folded⟩,
      fun ⟨_, buffers, same, left, folded⟩ => ⟨buffers, same ▸ left, folded⟩⟩

def StatusAgent.refreshed (agent : StatusAgent) (record : NodeRecord) : StatusAgent :=
  if agent.nodeId = 1 then { agent with nodeA := agent.own.copied, nodeB := record }
  else { agent with nodeB := agent.own.copied, nodeA := record }

theorem peer_refreshed (agent : StatusAgent) (record : NodeRecord) :
    (agent.refreshed record).peer = record := by
  unfold StatusAgent.refreshed
  split <;> simp [StatusAgent.peer, *]

theorem updateBothRecords_eq {agent : StatusAgent}
    (isNode : agent.nodeId = 1 ∨ agent.nodeId = 2) (stack : Stack) (files : Nat → Option Text) :
    updateBothRecords stack files agent =
      (updatePortStatus stack files agent.nodeId agent.peer).map fun result =>
        (result.1, agent.refreshed result.2) := by
  rcases isNode with isOne | isTwo
  · simp [updateBothRecords, StatusAgent.peer, StatusAgent.refreshed, isOne]
  · simp [updateBothRecords, StatusAgent.peer, StatusAgent.refreshed, isTwo]

def samplePort (status name : String)
    (checked : (tokenCheck status.toList && tokenCheck name.toList) = true) : PortText where
  status := status.toList
  name := name.toList
  ending := ['\n']
  isStatus := isToken_of_check (Bool.and_eq_true_iff.mp checked).1
  isName := isToken_of_check (Bool.and_eq_true_iff.mp checked).2
  isEnding := .inr rfl

def goodText : Text :=
  "PORT1: healthy DISK: sda\nPORT2: healthy DISK: sda\n".toList

def badText : Text :=
  "PORT1: faulty DISK: null\nPORT2: faulty DISK: null\n".toList

def sampleFile {text : Text} (port : PortText)
    (lines : rawLines '\n' text = [port.text .one, port.text .two]) : StatusText text :=
  ⟨port, port, true, [], [], [], lines, by simp⟩

def goodFile : StatusText goodText :=
  sampleFile (samplePort "healthy" "sda" (by decide +kernel)) (by decide +kernel)

def badFile : StatusText badText :=
  sampleFile (samplePort "faulty" "null" (by decide +kernel)) (by decide +kernel)

def blankRecord : NodeRecord :=
  ⟨⟨false, false, ⟨List.replicate 10 '\x00', rfl⟩⟩, ⟨false, false, ⟨List.replicate 10 '\x00', rfl⟩⟩⟩

def sampleStatusAgent : StatusAgent :=
  ⟨1, blankRecord, blankRecord, blankRecord⟩

/-- The bytes behind the path are nobody's. -/
def sampleStack : Stack :=
  ⟨some "/storage/system\n".toList, [], ⟨[], []⟩, fun _ => some ⟨[], []⟩⟩

end Apos.RdeAgent
