import Apos.ProgramInterpretation
import Apos.RdeAgentTransitions
import Mathlib.Data.List.Induction

/-!
# When the MD HA agent may become active

With the back plane up `IsActiveStateTransitionAllowed` refreshes the records of both nodes
and puts a dozen tests to them, one after the other.  The tests that refuse the role come
first and those that grant it come last, so that one healthy controller is enough.  This file
states the answer in closed form and says when it is safe: a refusal if the status is not
known or the nodes have no disk in common, and the same answer on both nodes.
-/

namespace Apos.RdeAgent

open Stateful

/-! ## Answers -/

/-- What the `disk_status` file of each node gives when it is read; a file may be missing. -/
abbrev StatusFiles := Nat → Option DiskStatus

def connected : (op : Op) → StatusFiles → op.Reply × StatusFiles
  | .queryTopology _, files => (some true, files)
  | .diskStatusFile node, files => (files node, files)
  | op, files => (ordinary op, files)

def valueWith {α : Type} (files : StatusFiles) (function : Act α) (agent : Agent) : Option α :=
  (Program.interpret (S := commands) connected (function agent) files).1.map Prod.fst

def NodePort.lacksDisk (port : NodePort) : Bool :=
  port.isHealthy && !port.diskIsHealthy

def Node.hasController (node : Node) : Bool :=
  node.portOne.isHealthy || node.portTwo.isHealthy

def Agent.peerRecord (agent : Agent) : Node :=
  if agent.nodeId = 1 then agent.nodeB else agent.nodeA

def Node.heard (node : Node) : Option DiskStatus → Node
  | none => node
  | some status => node.readStatus status.controllerBuffer status.diskBuffer status.lines

variable (node : Node)

theorem Node.grants_eq :
    ((node.portOne.isHealthy && !node.portOne.diskIsHealthy) || node.portTwo.works ||
      node.portOne.works || (node.portTwo.isHealthy && !node.portTwo.diskIsHealthy)) =
      node.hasController := by
  obtain ⟨⟨h1, d1⟩, ⟨h2, d2⟩⟩ := node
  cases h1 <;> cases d1 <;> cases h2 <;> cases d2 <;> rfl

theorem Node.not_hasController :
    (!node.portOne.isHealthy && !node.portTwo.isHealthy) = !node.hasController := by
  rw [Node.hasController, Bool.not_or]

variable {agent : Agent}

theorem allowed_one (isOne : agent.nodeId = 1) (known : Bool) :
    agent.allowedFinally (agent.allowedConnected known) =
      (agent.nodeA.hasController &&
        !(agent.nodeA.portOne.lacksDisk && agent.nodeB.portTwo.lacksDisk)) := by
  simp only [Agent.allowedFinally, Agent.allowedConnected, isOne, if_true, Node.grants_eq,
    Node.not_hasController]
  cases agent.nodeA.hasController <;>
    simp [NodePort.lacksDisk, Bool.and_assoc]

theorem allowed_two (isTwo : agent.nodeId = 2) (known : Bool) :
    agent.allowedFinally (agent.allowedConnected known) =
      (agent.nodeB.hasController &&
        !(agent.nodeB.portOne.lacksDisk && agent.nodeB.portTwo.lacksDisk)) := by
  simp only [Agent.allowedFinally, Agent.allowedConnected, isTwo, if_true, Node.grants_eq,
    Node.not_hasController]
  cases controller : agent.nodeB.hasController <;>
    simp [controller, NodePort.lacksDisk, Bool.and_assoc]

/-- The answer on either node.  Node one looks for the second disk of the other node. -/
def Agent.answer (agent : Agent) (peer : Node) : Bool :=
  agent.ownStatus.hasController &&
    !(agent.ownStatus.portOne.lacksDisk &&
      (if agent.nodeId = 1 then peer else agent.ownStatus).portTwo.lacksDisk)

theorem value_of_returns {α : Type} {files : StatusFiles} {function : Act α}
    {before after : Agent} {value : α}
    (returns : Returns (S := commands) connected function before files value after files) :
    valueWith files function before = some value := by
  unfold valueWith
  rw [returns]
  rfl

def Agent.refreshed (agent : Agent) (file : Option DiskStatus) : Agent :=
  if agent.nodeId = 1 then
    { agent with nodeA := agent.ownStatus, nodeB := agent.nodeB.heard file }
  else { agent with nodeB := agent.ownStatus, nodeA := agent.nodeA.heard file }

def readable (file : Option DiskStatus) : ReturnType :=
  if file.isSome then .success else .failure

variable (files : StatusFiles)

theorem updateNodeStatus_returns (node : Nat) (fillOwn : Agent → Agent)
    (fillOther : DiskStatus → Agent → Agent) (agent : Agent) :
    Returns (S := commands) connected (updateNodeStatus node fillOwn fillOther) agent files
      (readable (files node)) (match files node with
        | none => fillOwn agent
        | some status => fillOther status (fillOwn agent)) files := by
  apply returns_bind returns_modify
  apply returns_bind (returns_ask rfl)
  cases files node with
  | none => exact returns_pure
  | some status => exact returns_bind returns_modify returns_pure

theorem update_returns (files : StatusFiles) {agent : Agent}
    (isNode : agent.nodeId = 1 ∨ agent.nodeId = 2) :
    Returns (S := commands) connected updateBothNodeDisknControllerstatus agent files
      (readable (files agent.nodeId)) (agent.refreshed (files agent.nodeId)) files := by
  apply returns_bind returns_get
  rcases isNode with isOne | isTwo
  · apply Returns.of_if isOne
    have returns := updateNodeStatus_returns files 1
      (fun agent => { agent with nodeA := agent.ownStatus }) (fun status agent => { agent with
        nodeB := agent.nodeB.readStatus status.controllerBuffer status.diskBuffer status.lines })
      agent
    rw [isOne, Agent.refreshed, if_pos isOne]
    cases file : files 1 <;> rw [file] at returns <;> exact returns
  · apply Returns.of_else (by omega)
    apply Returns.of_if isTwo
    have returns := updateNodeStatus_returns files 2
      (fun agent => { agent with nodeB := agent.ownStatus }) (fun status agent => { agent with
        nodeA := agent.nodeA.readStatus status.controllerBuffer status.diskBuffer status.lines })
      agent
    rw [isTwo, Agent.refreshed, if_neg (by omega)]
    cases file : files 2 <;> rw [file] at returns <;> exact returns

theorem value_isActiveStateTransitionAllowed (isNode : agent.nodeId = 1 ∨ agent.nodeId = 2) :
    valueWith files isActiveStateTransitionAllowed agent =
      some (agent.answer (agent.peerRecord.heard (files agent.nodeId))) := by
  have answered : ((({ agent with backPlaneUp := true } : Agent).refreshed
      (files agent.nodeId)).allowedFinally
        ((({ agent with backPlaneUp := true } : Agent).refreshed
          (files agent.nodeId)).allowedConnected (readable (files agent.nodeId) = .success))) =
      agent.answer (agent.peerRecord.heard (files agent.nodeId)) := by
    rcases isNode with isOne | isTwo
    · rw [allowed_one (by simp [Agent.refreshed, isOne])]
      simp [Agent.refreshed, Agent.answer, Agent.peerRecord, isOne, Agent.ownStatus]
    · rw [allowed_two (by simp [Agent.refreshed, isTwo])]
      simp [Agent.refreshed, Agent.answer, isTwo, Agent.ownStatus]
  apply value_of_returns
  apply returns_bind returns_get
  apply returns_bind (returns_ask rfl)
  apply returns_bind returns_modify
  apply Returns.of_if rfl
  apply returns_bind (@update_returns files { agent with backPlaneUp := true } isNode)
  apply returns_bind returns_get
  rw [← answered]
  exact returns_pure

/-! ## What is heard of the second disk -/

/-- The texts that a file leaves for the second port: those of the last line of port one
before the last line of port two, or what the buffers held before. -/
def DiskStatus.heardOfTwo (status : DiskStatus) : Option (String × String) :=
  match status.lines.reverse.dropWhile (·.port = .one) with
  | [] => none
  | _ :: earlier =>
    match earlier.find? (·.port = .one) with
    | some line => some (line.controller, line.disk)
    | none => some (status.controllerBuffer, status.diskBuffer)

def buffersAfter (controller disk : String) (lines : List StatusLine) : String × String :=
  match lines.reverse.find? (·.port = .one) with
  | some line => (line.controller, line.disk)
  | none => (controller, disk)

def portOf (texts : String × String) : NodePort :=
  ⟨texts.1 = "healthy", texts.2 ≠ "null"⟩

theorem buffersAfter_cons (controller disk : String) (line : StatusLine)
    (lines : List StatusLine) :
    buffersAfter controller disk (line :: lines) =
      if line.port = .one then buffersAfter line.controller line.disk lines
      else buffersAfter controller disk lines := by
  unfold buffersAfter
  rw [List.reverse_cons, List.find?_append]
  obtain ⟨_ | _, said, name⟩ := line <;>
    cases lines.reverse.find? (·.port = .one) <;> rfl

theorem Node.readStatus_concat (controller disk : String) (lines : List StatusLine)
    (last : StatusLine) :
    node.readStatus controller disk (lines ++ [last]) =
      match last.port with
      | .one => { node.readStatus controller disk lines with
          portOne := portOf (last.controller, last.disk) }
      | .two => { node.readStatus controller disk lines with
          portTwo := portOf (buffersAfter controller disk lines) } := by
  induction lines generalizing node controller disk with
  | nil => obtain ⟨_ | _, said, name⟩ := last <;> rfl
  | cons line lines ih =>
    obtain ⟨_ | _, said, name⟩ := line
    · rw [buffersAfter_cons]
      exact ih _ said name
    · rw [buffersAfter_cons]
      exact ih _ controller disk

theorem Node.heard_portTwo (status : DiskStatus) :
    (node.heard (some status)).portTwo = status.heardOfTwo.elim node.portTwo portOf := by
  obtain ⟨lines, controller, disk⟩ := status
  unfold Node.heard DiskStatus.heardOfTwo
  dsimp only
  induction lines using List.reverseRecOn with
  | nil => rfl
  | append_singleton lines last ih =>
    rw [Node.readStatus_concat, List.reverse_append, List.reverse_singleton,
      List.singleton_append]
    cases isPort : last.port with
    | one =>
      rw [List.dropWhile_cons_of_pos (by simp [isPort])]
      exact ih
    | two =>
      rw [List.dropWhile_cons_of_neg (by simp [isPort])]
      dsimp only
      unfold buffersAfter
      cases lines.reverse.find? (·.port = .one) <;> rfl

/-! ## Safe answers -/

def DiskStatus.said (status : DiskStatus) : Node :=
  status.lines.foldl (fun node line =>
    match line.port with
    | .one => { node with portOne := portOf (line.controller, line.disk) }
    | .two => { node with portTwo := portOf (line.controller, line.disk) })
    ⟨⟨false, false⟩, ⟨false, false⟩⟩

def Node.usesOnlyOne (node : Node) : Bool :=
  node.portOne.works && !node.portTwo.works

def Node.usesOnlyTwo (node : Node) : Bool :=
  node.portTwo.works && !node.portOne.works

/-- One node can use only its first disk, and the other one only its second. -/
def disjoint (node other : Node) : Bool :=
  (node.usesOnlyOne && other.usesOnlyTwo) || (node.usesOnlyTwo && other.usesOnlyOne)

def Agent.mirrored (agent : Agent) : Agent :=
  { agent with nodeId := agent.remoteNode, nodeA := agent.nodeB, nodeB := agent.nodeA }

def StatusFiles.mirrored (files : StatusFiles) : StatusFiles
  | 1 => files 2
  | 2 => files 1
  | node => files node

/-- The role is refused if the status could not be refreshed and if the nodes have no disk in
common, and the answer on the other node is the same. -/
structure AnswersSafely (files : StatusFiles) (agent : Agent) : Prop where
  unknown : valueWith files updateBothNodeDisknControllerstatus agent = some .failure →
    valueWith files isActiveStateTransitionAllowed agent = some false
  apart : ∀ status, files agent.remoteNode = some status →
    disjoint agent.ownStatus status.said = true →
      valueWith files isActiveStateTransitionAllowed agent = some false
  alike : valueWith files.mirrored isActiveStateTransitionAllowed agent.mirrored =
    valueWith files isActiveStateTransitionAllowed agent

/-- The other node is taken for one with a healthy second controller and no second disk,
after the file of the own node has been read. -/
def Agent.hearsOfLostDisk (agent : Agent) (files : StatusFiles) : Bool :=
  match files agent.nodeId with
  | none => agent.peerRecord.portTwo.lacksDisk
  | some status => (status.heardOfTwo.elim agent.peerRecord.portTwo portOf).lacksDisk

structure Agent.Answerable (agent : Agent) (files : StatusFiles) : Prop where
  readable : (files agent.nodeId).isSome = true ∨ agent.ownStatus.hasController = false ∨
    (agent.ownStatus.portOne.lacksDisk = true ∧ agent.ownStatus.portTwo.lacksDisk = true)
  overlap : ∀ status, files agent.remoteNode = some status →
    disjoint agent.ownStatus status.said = false
  agree : agent.ownStatus.portOne.lacksDisk = true →
    agent.hearsOfLostDisk files = agent.ownStatus.portTwo.lacksDisk

theorem Agent.hearsOfLostDisk_eq (agent : Agent) (files : StatusFiles) :
    (agent.peerRecord.heard (files agent.nodeId)).portTwo.lacksDisk =
      agent.hearsOfLostDisk files := by
  unfold Agent.hearsOfLostDisk
  cases files agent.nodeId with
  | none => rfl
  | some status => rw [Node.heard_portTwo]

theorem value_answer (isNode : agent.nodeId = 1 ∨ agent.nodeId = 2) :
    valueWith files isActiveStateTransitionAllowed agent =
      some (agent.ownStatus.hasController && !(agent.ownStatus.portOne.lacksDisk &&
        if agent.nodeId = 1 then agent.hearsOfLostDisk files
        else agent.ownStatus.portTwo.lacksDisk)) := by
  rw [value_isActiveStateTransitionAllowed files isNode, Agent.answer,
    ← agent.hearsOfLostDisk_eq files]
  split <;> rfl

theorem value_mirrored (isNode : agent.nodeId = 1 ∨ agent.nodeId = 2) :
    valueWith files.mirrored isActiveStateTransitionAllowed agent.mirrored =
      some (agent.ownStatus.hasController && !(agent.ownStatus.portOne.lacksDisk &&
        if agent.nodeId = 1 then agent.ownStatus.portTwo.lacksDisk
        else agent.hearsOfLostDisk files)) := by
  rcases isNode with isOne | isTwo
  · rw [value_answer _ (.inr (by simp [Agent.mirrored, Agent.remoteNode, isOne]))]
    simp [Agent.mirrored, Agent.remoteNode, isOne, Agent.ownStatus]
  · rw [value_answer _ (.inl (by simp [Agent.mirrored, Agent.remoteNode, isTwo]))]
    simp [Agent.mirrored, Agent.remoteNode, isTwo, Agent.ownStatus, Agent.hearsOfLostDisk,
      StatusFiles.mirrored, Agent.peerRecord]

theorem hasController_of_lacksDisk {node : Node} (lacks : node.portOne.lacksDisk = true) :
    node.hasController = true := by
  simp only [NodePort.lacksDisk, Bool.and_eq_true] at lacks
  simp [Node.hasController, lacks.1]

theorem hasController_of_disjoint {node other : Node} (apart : disjoint node other = true) :
    node.hasController = true ∧ (node.portOne.lacksDisk && node.portTwo.lacksDisk) = false := by
  simp only [disjoint, Node.usesOnlyOne, Node.usesOnlyTwo, NodePort.works, Bool.or_eq_true,
    Bool.and_eq_true] at apart
  rcases apart with ⟨⟨usesOne, _⟩, _⟩ | ⟨⟨usesTwo, _⟩, _⟩
  · simp [Node.hasController, NodePort.lacksDisk, usesOne]
  · simp [Node.hasController, NodePort.lacksDisk, usesTwo]

theorem alike_iff (isNode : agent.nodeId = 1 ∨ agent.nodeId = 2) :
    valueWith files.mirrored isActiveStateTransitionAllowed agent.mirrored =
        valueWith files isActiveStateTransitionAllowed agent ↔
      (agent.ownStatus.portOne.lacksDisk = true →
        agent.hearsOfLostDisk files = agent.ownStatus.portTwo.lacksDisk) := by
  rw [value_mirrored files isNode, value_answer files isNode, Option.some.injEq]
  cases lacks : agent.ownStatus.portOne.lacksDisk with
  | false => simp
  | true =>
    rw [hasController_of_lacksDisk lacks]
    rcases isNode with isOne | isTwo
    · simp [isOne, eq_comm]
    · simp [isTwo]

theorem refused_iff (isNode : agent.nodeId = 1 ∨ agent.nodeId = 2)
    (agree : agent.ownStatus.portOne.lacksDisk = true →
      agent.hearsOfLostDisk files = agent.ownStatus.portTwo.lacksDisk) :
    valueWith files isActiveStateTransitionAllowed agent = some false ↔
      agent.ownStatus.hasController = false ∨
        (agent.ownStatus.portOne.lacksDisk = true ∧ agent.ownStatus.portTwo.lacksDisk = true) := by
  rw [value_answer files isNode, Option.some.injEq, Bool.and_eq_false_iff, Bool.not_eq_false',
    Bool.and_eq_true]
  refine or_congr_right (and_congr_right fun lacks => ?_)
  rw [agree lacks, ite_self]

/-- The answers are safe if and only if a status that cannot be refreshed does not matter,
the nodes have a disk in common, and a lost first disk finds the second one lost on either
node or on none. -/
theorem answers_safely_iff (files : StatusFiles) (agent : Agent)
    (isNode : agent.nodeId = 1 ∨ agent.nodeId = 2) :
    AnswersSafely files agent ↔ agent.Answerable files := by
  have updated := value_of_returns (update_returns files isNode)
  have unreadable : valueWith files updateBothNodeDisknControllerstatus agent = some .failure ↔
      ¬(files agent.nodeId).isSome = true := by
    rw [updated, readable]
    split <;> simp [*]
  constructor
  · rintro ⟨unknown, apart, alike⟩
    have agree := (alike_iff files isNode).mp alike
    rw [unreadable, refused_iff files isNode agree] at unknown
    simp only [refused_iff files isNode agree] at apart
    refine ⟨or_iff_not_imp_left.mpr unknown, fun status isPeer => ?_, agree⟩
    refine Bool.eq_false_iff.mpr fun isDisjoint => ?_
    obtain ⟨controller, notBoth⟩ := hasController_of_disjoint isDisjoint
    have refused := apart status isPeer isDisjoint
    simp [controller] at refused
    simp [refused] at notBoth
  · rintro ⟨known, overlap, agree⟩
    have refused := refused_iff files isNode agree
    refine ⟨fun fails => refused.mpr ?_, fun status isPeer isDisjoint => ?_, ?_⟩
    · exact known.resolve_left (unreadable.mp fails)
    · rw [overlap status isPeer] at isDisjoint
      cases isDisjoint
    · exact (alike_iff files isNode).mpr agree

def healthyFiles : StatusFiles := fun _ =>
  some ⟨[⟨.one, "healthy", "sda"⟩, ⟨.two, "healthy", "sdb"⟩], "", ""⟩

def nodeOne (hasFirst hasSecond : Bool) : Agent :=
  { Agent.initial with
    nodeId := 1
    portOne := ⟨true, ⟨"sda", hasFirst, false, false⟩⟩
    portTwo := ⟨true, ⟨"sdb", hasSecond, false, false⟩⟩ }

theorem healthy_nodes_answer_safely : AnswersSafely healthyFiles (nodeOne true true) := by
  refine (answers_safely_iff healthyFiles (nodeOne true true) (.inl rfl)).mpr ⟨.inl rfl, ?_, ?_⟩
  · rintro status ⟨⟩
    decide +kernel
  · decide +kernel

def disjointFiles : StatusFiles
  | 1 => some ⟨[⟨.one, "healthy", "sda"⟩, ⟨.two, "healthy", "null"⟩], "", ""⟩
  | _ => some ⟨[⟨.one, "healthy", "null"⟩, ⟨.two, "healthy", "sdb"⟩], "", ""⟩

/-- The role is granted on disjoint disks, without a status, and only on one node. -/
theorem careless_answers :
    valueWith disjointFiles isActiveStateTransitionAllowed (nodeOne true false) = some true ∧
      ¬AnswersSafely disjointFiles (nodeOne true false) ∧
      ¬AnswersSafely (fun _ => none) (nodeOne true true) ∧
      ¬AnswersSafely healthyFiles (nodeOne false false) := by
  refine ⟨rfl, fun safely => ?_, fun safely => ?_, fun safely => ?_⟩
  · have refused := safely.apart _ rfl (by decide +kernel)
    cases refused
  · have refused := safely.unknown rfl
    cases refused
  · have alike := safely.alike
    cases alike

end Apos.RdeAgent
