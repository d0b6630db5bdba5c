import Apos.RdeAgentEffects

/-!
# Disk flags after one call

What the flags of the two data disks say after one call of the functions that set them.  A
reservation that fails gives back the disk it took, and clears its flag.  A registration
that succeeds may flag the wrong port: where the registrations of the second disk had to
be cleared, the flag of the first one is set.
-/

namespace Apos.RdeAgent

open Stateful

variable {history : List (Exchange commands)} {disk : String}

/-! ## Reservation -/

def Takes (disk : String) (exchange : Exchange commands) : Prop :=
  exchange = ⟨.scsi .reserveDatadisk disk, ReturnType.success⟩ ∨
    exchange = ⟨.scsi .preemptDisk disk, ReturnType.success⟩

def GivesBack (disk : String) (history : List (Exchange commands)) : Prop :=
  ∀ earlier taking later, history = earlier ++ taking :: later → Takes disk taking →
    ∃ result, ⟨.scsi .releaseReservations disk, result⟩ ∈ later

theorem Takes.effect {exchange : Exchange commands} (takes : Takes disk exchange) :
    effect? exchange = some (.taken disk) := by
  rcases takes with rfl | rfl <;> rfl

theorem taken_mem_effects {taking : Exchange commands} (member : taking ∈ history)
    (takes : Takes disk taking) : Effect.taken disk ∈ effects history :=
  List.mem_filterMap.mpr ⟨taking, member, takes.effect⟩

theorem release_mem_of_effects {result : ReturnType}
    (member : Effect.release disk result ∈ effects history) :
    ⟨.scsi .releaseReservations disk, result⟩ ∈ history := by
  obtain ⟨exchange, inHistory, isRelease⟩ := List.mem_filterMap.mp member
  unfold effect? at isRelease
  split at isRelease <;> cases isRelease
  exact inHistory

/-- Where the effects begin with the only taking and go on with a release, the disk is given
back. -/
theorem givesBack_of_effects {result : ReturnType} {rest : List Effect}
    (shape : effects history = .taken disk :: .release disk result :: rest)
    (only : ∀ other, Effect.taken other ∉ rest) : GivesBack disk history := by
  rintro earlier taking later rfl takes
  have shapeAgain : effects earlier ++ .taken disk :: effects later =
      .taken disk :: .release disk result :: rest := by
    rw [← shape, effects_append, effects, effects, effects, List.filterMap_cons, takes.effect]
  refine ⟨result, release_mem_of_effects ?_⟩
  cases start : effects earlier with
  | nil =>
    rw [start, List.nil_append, List.cons.injEq] at shapeAgain
    rw [shapeAgain.2]
    exact List.mem_cons_self
  | cons first more =>
    rw [start, List.cons_append, List.cons.injEq] at shapeAgain
    have inTail : Effect.taken disk ∈ Effect.release disk result :: rest := by
      rw [← shapeAgain.2]
      exact List.mem_append_right _ List.mem_cons_self
    have inRest : Effect.taken disk ∈ rest := by simpa using inTail
    exact absurd inRest (only disk)

/-- What a successful part of the algorithm does for one port: nothing, or it takes the disk
and flags it. -/
def Acquires (port : Port) (before : Core) (list : List Effect) (after : Core) : Prop :=
  (list = [] ∧ after = before) ∨
    (list = [.taken (before.disk port).diskname] ∧ after = before.setReserved port true)

/-- The block of one port, up to the preemption: if it gives up it has taken nothing. -/
theorem contest_acquires (port : Port) (before : Agent) :
    (contest port).Meets before fun history result after =>
      Acquires port before.core (effects history) after.core ∧
        (result.1 ≠ .success ∨ result.2 = true → effects history = [] ∧
          after.core = before.core) := by
  apply (contest_meets before port).mono
  rintro history result after (⟨rfl, _, taking, flagged⟩ | ⟨silent, same⟩)
  · exact ⟨.inr ⟨taking, flagged⟩, by simp⟩
  · exact ⟨.inl ⟨silent, same⟩, fun _ => ⟨silent, same⟩⟩

theorem preemptUnreserved_acquires {port : Port} {start : Core} {earlier : List Effect}
    (before : Agent) (acquired : Acquires port start earlier before.core) :
    (preemptUnreserved port).Meets before fun history result after =>
      Acquires port start (earlier ++ effects history) after.core ∧
        (result = .failure → earlier ++ effects history = [] ∧ after.core = start) := by
  apply (preemptUnreserved_meets before port).mono
  intro history result after met
  rcases acquired with ⟨rfl, same⟩ | ⟨rfl, flagged⟩
  · rw [same] at met
    split at met
    · rcases met with ⟨rfl, taking, flagged⟩ | ⟨rfl, silent, same⟩
      · exact ⟨.inr ⟨taking, flagged⟩, nofun⟩
      · exact ⟨.inl ⟨silent, same⟩, fun _ => ⟨silent, same⟩⟩
    · obtain ⟨rfl, silent, same⟩ := met
      exact ⟨.inl ⟨silent, same⟩, nofun⟩
  · have isReserved : (before.core.disk port).isReserved = true := by
      rw [flagged, Core.setReserved, Core.disk_mapDisk, if_pos rfl]
    rw [isReserved, Bool.not_true, Bool.and_false, if_neg Bool.false_ne_true] at met
    obtain ⟨rfl, silent, same⟩ := met
    refine ⟨.inr ⟨?_, same.trans flagged⟩, nofun⟩
    rw [silent, List.append_nil]

/-- After a failure nothing has been taken, or the disk of port one has been taken, released
and its flag cleared. -/
def Returned (start : Core) (list : List Effect) (after : Core) : Prop :=
  (∀ disk, Effect.taken disk ∉ list) ∨
    ∃ result, list = [.taken (start.disk .one).diskname,
        .release (start.disk .one).diskname result] ∧
      after = (start.setReserved .one true).setReserved .one false

theorem releaseFirst_returns {start : Core} {earlier : List Effect} (before : Agent)
    (acquired : Acquires .one start earlier before.core) :
    releaseFirst.Meets before fun history _ after =>
      Returned start (earlier ++ effects history) after.core := by
  apply (releaseFirst_meets before).mono
  intro history _ after met
  rcases acquired with ⟨rfl, same⟩ | ⟨rfl, flagged⟩
  · left
    split at met
    · obtain ⟨⟨result, releasing⟩, _⟩ := met
      simp [releasing]
    · simp [met.1]
  · right
    rw [flagged] at met
    obtain ⟨⟨result, releasing⟩, cleared⟩ := met
    exact ⟨result, by rw [releasing]; rfl, cleared⟩

theorem not_taken_of_unflagged {start mid last : Core} {first second : List Effect}
    (acquiredOne : Acquires .one start first mid) (acquiredTwo : Acquires .two mid second last)
    (unflagged : ∀ port, (last.disk port).isReserved = false) :
    first ++ second = [] := by
  rcases acquiredTwo with ⟨rfl, rfl⟩ | ⟨_, rfl⟩
  · rcases acquiredOne with ⟨rfl, _⟩ | ⟨_, rfl⟩
    · rfl
    · cases unflagged .one
  · cases unflagged .two

theorem reservationJobs_returns (before : Agent) :
    reservationJobs.Meets before fun history result after =>
      result = .failure → Returned before.core (effects history) after.core := by
  have nothing : ∀ {list : List Effect} {after : Core}, list = [] →
      Returned before.core list after := by
    rintro _ _ rfl
    exact .inl fun _ => List.not_mem_nil
  apply (contest_acquires .one before).bind
  rintro contesting contested agent ⟨acquired, gaveUp⟩
  refine meets_ite.mpr ⟨fun refused => meets_pure.mpr fun _ => nothing ?_, fun _ => ?_⟩
  · rw [List.append_nil]
    exact (gaveUp refused).1
  apply (preemptUnreserved_acquires agent acquired).bind
  rintro preempting preempted agent ⟨acquired, failed⟩
  refine meets_ite.mpr ⟨fun refused => meets_pure.mpr fun _ => nothing ?_, fun _ => ?_⟩
  · simpa using (failed refused).1
  apply (contest_acquires .two agent).bind
  rintro contestingTwo contestedTwo agentTwo ⟨acquiredTwo, gaveUp⟩
  refine meets_ite.mpr ⟨fun refused => ?_, fun _ => ?_⟩
  · obtain ⟨silent, same⟩ := gaveUp refused
    apply (releaseFirst_returns agentTwo (same ▸ acquired)).bind
    intro releasing _ last returned
    apply meets_pure.mpr
    intro _
    simpa [silent] using returned
  apply (preemptUnreserved_acquires agentTwo acquiredTwo).bind
  rintro preemptingTwo preemptedTwo last ⟨acquiredTwo, failed⟩
  refine meets_ite.mpr ⟨fun refused => ?_, fun _ => ?_⟩
  · obtain ⟨silent, same⟩ := failed refused
    apply (releaseFirst_returns last (same ▸ acquired)).bind
    intro releasing _ after returned
    apply meets_pure.mpr
    intro _
    simpa [List.append_eq_nil_iff.mp silent] using returned
  apply meets_bind_get.mpr
  refine meets_ite.mpr ⟨fun unflagged => meets_pure.mpr fun _ => nothing ?_,
    fun _ => meets_pure.mpr nofun⟩
  simp only [Agent.isReserved_core] at unflagged
  have untaken := not_taken_of_unflagged acquired acquiredTwo
    (none_flagged (fun port => (last.core.disk port).isReserved) unflagged)
  simpa using untaken

/-- A call that fails gives back each disk it took, and the flag of the port of this disk is
cleared. -/
theorem failed_reservation_gives_back (before : Agent) :
    dataDiskReservationAlgo.Meets before fun history result after =>
      result = .failure → ∀ disk, (∃ taking ∈ history, Takes disk taking) →
        GivesBack disk history ∧
          ∃ port, (after.disk port).diskname = disk ∧ (after.disk port).isReserved = false := by
  apply (reservationJobs_returns before).bind
  intro jobs result after returned
  apply meets_bind_ask.mpr
  intro reply
  apply meets_pure.mpr
  rintro rfl disk ⟨taking, member, takes⟩
  have marked : effects (jobs ++ ([⟨.mark (.reservationAlgo .failure), reply⟩] ++ [])) =
      effects jobs ++ [.reservationAlgo .failure] := effects_append _ _
  have taken := taken_mem_effects member takes
  rw [marked] at taken
  rcases returned rfl with untaken | ⟨result, shape, cleared⟩
  · simp [untaken] at taken
  · rw [shape] at taken marked
    obtain rfl : disk = (before.core.disk .one).diskname := by simpa using taken
    refine ⟨givesBack_of_effects marked (by simp), .one, ?_, ?_⟩
    · rw [Agent.diskname_core, cleared]
      rfl
    · rw [Agent.isReserved_core, cleared]
      rfl

/-! ## Registration -/

def Agent.works (agent : Agent) (port : Port) : Bool :=
  (agent.port port).isHealthy && (agent.disk port).isHealthy

def Registers (disk : String) (history : List (Exchange commands)) : Prop :=
  ⟨.scsi .registerRenewDatadisk disk, ReturnType.success⟩ ∈ history ∨
    ⟨.scsi .clearRegistrations disk, ReturnType.success⟩ ∈ history

def FlagsRegistered (before after : Agent) (history : List (Exchange commands)) : Prop :=
  ∀ port, (after.disk port).isRegistered = true ↔
    before.works port = true ∧ Registers (before.disk port).diskname history

def clearing (disk : String) : List (Exchange commands) :=
  List.replicate maxAttempts ⟨.scsi .registerRenewDatadisk disk, ReturnType.failure⟩ ++
    [⟨.scsi .clearRegistrations disk, ReturnType.success⟩]

theorem registers_clearing (disk : String) : Registers disk (clearing disk) :=
  .inr (List.mem_append_right _ (List.mem_singleton_self _))

theorem Registers.mono {first second : List (Exchange commands)}
    (registers : Registers disk first) (subset : first ⊆ second) : Registers disk second :=
  registers.imp (@subset _) (@subset _)

def ClearsSecond (agent : Agent) (history : List (Exchange commands)) : Prop :=
  agent.works .two = true ∧ clearing (agent.disk .two).diskname <:+ history

theorem attempt_meets (command : ScsiCommand) (disk : String) (attempts : Nat)
    (before : Agent) :
    (attempt command disk attempts).Meets before fun history result after => after = before ∧
      (result = .success → [⟨.scsi command disk, ReturnType.success⟩] <:+ history) ∧
      (result = .failure →
        history = List.replicate attempts ⟨.scsi command disk, ReturnType.failure⟩) := by
  induction attempts with
  | zero => exact meets_pure.mpr ⟨rfl, nofun, fun _ => rfl⟩
  | succ attempts ih =>
    apply meets_bind_ask.mpr
    rintro (_ | _)
    · exact meets_pure.mpr ⟨rfl, fun _ => List.suffix_refl _, nofun⟩
    · apply ih.mono
      rintro history result after ⟨rfl, succeeds, fails⟩
      refine ⟨rfl, fun isSuccess => ?_, fun isFailure => ?_⟩
      · exact (succeeds isSuccess).trans (List.suffix_append _ _)
      · rw [fails isFailure]
        rfl

/-- The outcomes of the block of one port: nothing to do, registered, cleared or failed. -/
inductive PortOutcome (port credited : Port) (before : Agent) :
    List (Exchange commands) → ReturnType → Agent → Prop where
  | skipped (broken : before.works port = false) :
      PortOutcome port credited before [] .success before
  | registered {history : List (Exchange commands)} (works : before.works port = true)
      (ends : [⟨.scsi .registerRenewDatadisk (before.disk port).diskname,
        ReturnType.success⟩] <:+ history) :
      PortOutcome port credited before history .success (before.setRegistered port true)
  | cleared (works : before.works port = true) :
      PortOutcome port credited before (clearing (before.disk port).diskname) .success
        (before.setRegistered credited true)
  | failed {history : List (Exchange commands)}
      (ends : [⟨.scsi .clearRegistrations (before.disk port).diskname,
        ReturnType.failure⟩] <:+ history) :
      PortOutcome port credited before history .failure before

theorem registerPort_meets (port credited : Port) (before : Agent) :
    (registerPort port credited).Meets before (PortOutcome port credited before) := by
  apply meets_bind_get.mpr
  refine meets_ite.mpr ⟨fun works => ?_, fun broken => ?_⟩
  · apply (attempt_meets _ _ _ before).bind
    rintro attempts (_ | _) _ ⟨rfl, succeeds, fails⟩
    · apply meets_bind_modify.mpr
      apply meets_pure.mpr
      simp only [List.append_nil]
      exact .registered works (succeeds rfl)
    · obtain rfl := fails rfl
      apply meets_bind_ask.mpr
      rintro (_ | _)
      · apply meets_bind_modify.mpr
        apply meets_pure.mpr
        exact .cleared works
      · apply meets_pure.mpr
        exact .failed (List.suffix_append _ _)
  · apply meets_pure.mpr
    exact .skipped (Bool.eq_false_iff.mpr broken)

section Flags

variable (agent : Agent) (port other : Port) (isRegistered : Bool)

@[simp]
theorem works_setRegistered :
    (agent.setRegistered port isRegistered).works other = agent.works other := by
  cases port <;> cases other <;> rfl

@[simp]
theorem diskname_setRegistered :
    ((agent.setRegistered port isRegistered).disk other).diskname =
      (agent.disk other).diskname := by
  cases port <;> cases other <;> rfl

@[simp]
theorem isRegistered_setRegistered :
    ((agent.setRegistered port isRegistered).disk other).isRegistered =
      if other = port then isRegistered else (agent.disk other).isRegistered := by
  cases port <;> cases other <;> rfl

end Flags

def Agent.unregistered (agent : Agent) : Agent :=
  (agent.setRegistered .one false).setRegistered .two false

/-- What holds when the block of port one has not failed: only port one may be flagged, and
it is flagged if and only if it works. -/
structure FirstDone (before : Agent) (history : List (Exchange commands)) (after : Agent) :
    Prop where
  works : ∀ port, after.works port = before.works port
  diskname : ∀ port, (after.disk port).diskname = (before.disk port).diskname
  flaggedOne : (after.disk .one).isRegistered = before.works .one
  unflaggedTwo : (after.disk .two).isRegistered = false
  registers : before.works .one = true → Registers (before.disk .one).diskname history

theorem firstDone {before after : Agent}
    (outcome : PortOutcome .one .one before.unregistered history .success after) :
    FirstDone before history after := by
  cases outcome with
  | skipped broken =>
    simp only [Agent.unregistered, works_setRegistered] at broken
    constructor <;> simp [Agent.unregistered, broken]
  | registered works ends =>
    simp only [Agent.unregistered, works_setRegistered] at works
    constructor <;> simp [Agent.unregistered, works]
    exact .inl (ends.subset (List.mem_singleton_self _))
  | cleared works =>
    simp only [Agent.unregistered, works_setRegistered] at works
    constructor <;> simp [Agent.unregistered, works]
    exact registers_clearing _

theorem FirstDone.flagsRegistered {before agent after : Agent} {rest : List (Exchange commands)}
    (done : FirstDone before history agent)
    (flaggedOne : (after.disk .one).isRegistered = before.works .one)
    (flaggedTwo : (after.disk .two).isRegistered = before.works .two)
    (registers : before.works .two = true → Registers (before.disk .two).diskname rest) :
    FlagsRegistered before after (history ++ rest) := by
  intro port
  cases port with
  | one =>
    rw [flaggedOne]
    refine ⟨fun works => ⟨works, ?_⟩, And.left⟩
    exact (done.registers works).mono (List.subset_append_left _ _)
  | two =>
    rw [flaggedTwo]
    refine ⟨fun works => ⟨works, ?_⟩, And.left⟩
    exact (registers works).mono (List.subset_append_right _ _)

def isCleared : Exchange commands → Bool
  | ⟨.scsi .clearRegistrations _, .success⟩ => true
  | _ => false

theorem not_clearsSecond {agent : Agent} {last : Exchange commands} (ends : [last] <:+ history)
    (notCleared : isCleared last = false) : ¬ClearsSecond agent history := by
  rintro ⟨_, clears⟩
  have endsCleared := (List.suffix_append _ _).trans clears
  have isSuffix := List.suffix_of_suffix_length_le ends endsCleared (Nat.le_refl 1)
  have sameEnd := isSuffix.eq_of_length rfl
  rw [(List.cons.inj sameEnd).1] at notCleared
  cases notCleared

def finishRegistration : Act ReturnType := do
  if (← registerPort .two .one) = .failure then return .failure
  let agent ← get
  if !(agent.disk .one).isRegistered && !(agent.disk .two).isRegistered then return .failure
  return .success

theorem finishRegistration_meets {before agent : Agent} (done : FirstDone before history agent) :
    finishRegistration.Meets agent fun rest result after =>
      ((result = .success → FlagsRegistered before after (history ++ rest)) ↔
        ¬ClearsSecond before (history ++ rest)) := by
  apply (registerPort_meets .two .one agent).bind
  intro rest result after outcome
  cases outcome with
  | skipped broken =>
    rw [done.works] at broken
    have notCleared : ∀ rest, ¬ClearsSecond before (history ++ rest) :=
      fun _ clears => Bool.false_ne_true (broken.symm.trans clears.1)
    refine meets_ite.mpr ⟨nofun, fun _ => meets_bind_get.mpr ?_⟩
    refine meets_ite.mpr ⟨fun _ => meets_pure.mpr ?_, fun _ => meets_pure.mpr ?_⟩
    · exact ⟨fun _ => notCleared _, fun _ => nofun⟩
    · refine iff_of_true (fun _ => ?_) (notCleared _)
      apply done.flagsRegistered done.flaggedOne (done.unflaggedTwo.trans broken.symm)
      exact fun works => absurd (broken.symm.trans works) Bool.false_ne_true
  | registered works ends =>
    rw [done.works] at works
    rw [done.diskname] at ends
    refine meets_ite.mpr ⟨nofun, fun _ => meets_bind_get.mpr ?_⟩
    refine meets_ite.mpr ⟨fun unflagged => by simp at unflagged, fun _ => meets_pure.mpr ?_⟩
    simp only [List.append_nil]
    refine iff_of_true (fun _ => ?_) ?_
    · apply done.flagsRegistered
      · simpa using done.flaggedOne
      · simpa using works.symm
      · exact fun _ => .inl (ends.subset (List.mem_singleton_self _))
    · exact not_clearsSecond (ends.trans (List.suffix_append _ _)) rfl
  | cleared works =>
    rw [done.works] at works
    refine meets_ite.mpr ⟨nofun, fun _ => meets_bind_get.mpr ?_⟩
    refine meets_ite.mpr ⟨fun unflagged => by simp at unflagged, fun _ => meets_pure.mpr ?_⟩
    rw [List.append_nil, done.diskname]
    refine iff_of_false (fun flagged => ?_) fun notCleared => ?_
    · have flaggedTwo := (flagged rfl .two).mpr
        ⟨works, (registers_clearing _).mono (List.subset_append_right _ _)⟩
      simp [done.unflaggedTwo] at flaggedTwo
    · exact notCleared ⟨works, List.suffix_append _ _⟩
  | failed ends =>
    refine meets_ite.mpr ⟨fun _ => meets_pure.mpr ?_, fun succeeded => absurd rfl succeeded⟩
    rw [List.append_nil]
    exact ⟨fun _ => not_clearsSecond (ends.trans (List.suffix_append _ _)) rfl, fun _ => nofun⟩

/-- After a call that succeeds the flags say which disks were registered, if and only if the
call did not clear the registrations of the disk of port two. -/
theorem registration_flags_iff (before : Agent) :
    registerReachableDataDisks.Meets before fun history result after =>
      ((result = .success → FlagsRegistered before after history) ↔
        ¬ClearsSecond before history) := by
  apply meets_bind_modify.mpr
  apply meets_bind_modify.mpr
  apply (registerPort_meets .one .one before.unregistered).bind
  intro history result after outcome
  refine meets_ite.mpr ⟨fun failed => meets_pure.mpr ?_, fun succeeded => ?_⟩
  · subst failed
    cases outcome with
    | failed ends =>
      simp only [List.append_nil]
      exact ⟨fun _ => not_clearsSecond ends rfl, fun _ => nofun⟩
  · obtain rfl : result = .success := by
      cases result with
      | success => rfl
      | failure => exact absurd rfl succeeded
    exact finishRegistration_meets (firstDone outcome)

def secondReachable : Agent :=
  { Agent.initial with portTwo := ⟨true, ⟨"sdb", true, false, false⟩⟩ }

def registrationsRefused : (op : Op) → op.Reply
  | .scsi .registerRenewDatadisk _ => .failure
  | op => ordinary op

/-- Three refused registrations of the second disk, after which its registrations are
cleared: the call succeeds with the first port flagged. -/
theorem second_disk_credited_to_first :
    registerReachableDataDisks.Executes secondReachable (clearing "sdb") .success
        (secondReachable.setRegistered .one true) ∧
      ¬FlagsRegistered secondReachable (secondReachable.setRegistered .one true)
        (clearing "sdb") := by
  constructor
  · have executes := executes_answered (show (Program.answered (S := commands)
      registrationsRefused (registerReachableDataDisks secondReachable)).2 =
        some (.success, _) from rfl)
    exact executes
  · intro flagged
    cases ((flagged .two).mpr ⟨rfl, registers_clearing _⟩)

end Apos.RdeAgent
