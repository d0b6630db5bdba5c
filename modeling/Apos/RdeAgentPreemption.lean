import Apos.RdeAgentTransitions

/-!
# Preemption of a live mate

Before the MD agent preempts the reservation of a disk it should have seen that the
generation counter of that disk stands still.  The check is made in the loop that contends
for the disk, and only a disk that is flagged as registered is contended for.  A healthy
disk whose registration flag is not set is preempted at once.
-/

namespace Apos.RdeAgent

open Stateful

/-- A call of `checkDiskPRGenerationCounter` on the disk has found the counter unchanged. -/
def Checked (disk : String) (history : List (Exchange commands)) : Prop :=
  (⟨.mark (.counterChecked disk .success false), ()⟩ : Exchange commands) ∈ history

/-- Every preemption comes after an unchanged counter has been seen, in the history itself
or in what happened earlier. -/
def GuardedAfter (earlier history : List (Exchange commands)) : Prop :=
  ∀ before disk result after, history = before ++ ⟨.scsi .preemptDisk disk, result⟩ :: after →
    Checked disk (earlier ++ before)

def Agent.ContendsFirst (agent : Agent) : Prop :=
  ∀ port, (agent.disk port).isHealthy = true → (agent.disk port).isReserved = false →
    (agent.disk port).isRegistered = true

/-! ## Guarded histories -/

def isPreemption : Exchange commands → Bool
  | ⟨.scsi .preemptDisk _, _⟩ => true
  | _ => false

def Harmless (history : List (Exchange commands)) : Prop :=
  ∀ exchange ∈ history, isPreemption exchange = false

theorem harmless_nil : Harmless [] :=
  nofun

theorem Harmless.append {first second : List (Exchange commands)} (left : Harmless first)
    (right : Harmless second) : Harmless (first ++ second) := by
  intro exchange member
  rcases List.mem_append.mp member with inFirst | inSecond
  · exact left exchange inFirst
  · exact right exchange inSecond

theorem Harmless.guardedAfter {history : List (Exchange commands)} (harmless : Harmless history)
    (earlier : List (Exchange commands)) : GuardedAfter earlier history := by
  rintro before disk result after rfl
  have isHarmless := harmless ⟨.scsi .preemptDisk disk, result⟩ (by simp)
  cases isHarmless

theorem GuardedAfter.append {earlier first second : List (Exchange commands)}
    (left : GuardedAfter earlier first) (right : GuardedAfter (earlier ++ first) second) :
    GuardedAfter earlier (first ++ second) := by
  intro before disk result after split
  rcases List.append_eq_append_iff.mp split with ⟨rest, rfl, isSecond⟩ | ⟨rest, isFirst, isRest⟩
  · rw [← List.append_assoc]
    exact right rest disk result after isSecond
  · cases rest with
    | nil =>
      rw [List.append_nil] at isFirst
      subst isFirst
      have checked := right [] disk result after isRest.symm
      rwa [List.append_nil] at checked
    | cons exchange rest =>
      cases isRest
      exact left before disk result rest isFirst

theorem guardedAfter_preemption {earlier : List (Exchange commands)} {disk : String}
    {result : ReturnType} (checked : Checked disk earlier) :
    GuardedAfter earlier [⟨.scsi .preemptDisk disk, result⟩] := by
  rintro before other _ after split
  cases before with
  | nil =>
    cases split
    rwa [List.append_nil]
  | cons _ before => cases before <;> cases split

/-! ## The functions of the algorithm -/

section Functions

variable (before : Agent) (port : Port)

theorem reserveDatadisk_harmless (disk : String) :
    (reserveDatadisk disk).Meets before fun history _ after =>
      before = after ∧ Harmless history := by
  unfold reserveDatadisk
  induction maxAttempts with
  | zero => exact meets_pure.mpr ⟨rfl, harmless_nil⟩
  | succ attempts ih =>
    apply meets_bind_ask.mpr
    have launched : ∀ result, Harmless [⟨.scsi .reserveDatadisk disk, result⟩] := by
      simp [Harmless, isPreemption]
    rintro (_ | _)
    · exact meets_pure.mpr ⟨rfl, launched _⟩
    · exact ih.mono fun _ _ _ ⟨same, harmless⟩ => ⟨same, (launched _).append harmless⟩

theorem watchCounter_harmless (disk : String) (xTimes launches : Nat) (watch : CounterWatch) :
    (watchCounter disk xTimes launches watch).Meets before fun history _ after =>
      before = after ∧ Harmless history := by
  induction launches generalizing watch with
  | zero => exact meets_pure.mpr ⟨rfl, harmless_nil⟩
  | succ launches ih =>
    apply meets_bind_ask.mpr
    intro reply
    have asked : Harmless [⟨.queryGenerationKey disk, reply⟩] := by
      simp [Harmless, isPreemption]
    cases reply with
    | none => exact meets_pure.mpr ⟨rfl, asked⟩
    | some output =>
      dsimp only
      split
      · exact meets_pure.mpr ⟨rfl, asked⟩
      · apply meets_ite.mpr ⟨fun _ => meets_pure.mpr ⟨rfl, asked⟩, fun _ => ?_⟩
        apply meets_ite.mpr ⟨fun _ => meets_pure.mpr ⟨rfl, asked⟩, fun _ => ?_⟩
        split
        · exact meets_pure.mpr ⟨rfl, asked⟩
        · apply (ih _).mono
          exact fun _ _ _ ⟨same, harmless⟩ => ⟨same, asked.append harmless⟩

theorem checkDiskPRGenerationCounter_harmless (disk : String) :
    (checkDiskPRGenerationCounter disk).Meets before fun history result after =>
      before = after ∧ Harmless history ∧
        (result = (.success, false) → Checked disk history) := by
  apply meets_bind_get.mpr
  apply (watchCounter_harmless before _ _ _ _).bind
  rintro watching ⟨result, changed⟩ reached ⟨rfl, harmless⟩
  apply meets_bind_ask.mpr
  intro
  apply meets_pure.mpr
  refine ⟨rfl, harmless.append ?_, ?_⟩
  · simp [Harmless, isPreemption]
  · rintro ⟨⟩
    exact List.mem_append_right watching (List.mem_singleton_self _)

theorem contend_harmless (attempts : Nat) (last : ReturnType × Bool)
    (notDone : last ≠ (.success, false)) :
    (contend port attempts last).Meets before fun history result after =>
      Harmless history ∧ (before = after ∨ before.setReserved port true = after) ∧
        (result = (.success, false) →
          before.setReserved port true = after ∨ Checked (before.disk port).diskname history) := by
  induction attempts generalizing last with
  | zero => exact meets_pure.mpr ⟨harmless_nil, .inl rfl, fun isDone => absurd isDone notDone⟩
  | succ attempts ih =>
    apply meets_bind_get.mpr
    apply (reserveDatadisk_harmless before _).bind
    rintro reserving (_ | _) reached ⟨rfl, harmless⟩
    · apply meets_bind_modify.mpr
      exact meets_pure.mpr ⟨by simpa using harmless, .inr rfl, fun _ => .inl rfl⟩
    · apply (checkDiskPRGenerationCounter_harmless before _).bind
      rintro checking ⟨result, changed⟩ reached ⟨rfl, checkHarmless, checked⟩
      have retried : ∀ last, last ≠ (.success, false) →
          (contend port attempts last).Meets before fun history result after =>
            Harmless (reserving ++ (checking ++ history)) ∧
            (before = after ∨ before.setReserved port true = after) ∧
            (result = (.success, false) → before.setReserved port true = after ∨
              Checked (before.disk port).diskname (reserving ++ (checking ++ history))) := by
        intro last notDone
        apply (ih last notDone).mono
        rintro history result after ⟨restHarmless, reached, isDone⟩
        refine ⟨harmless.append (checkHarmless.append restHarmless), reached, fun done => ?_⟩
        refine (isDone done).imp_right fun member => ?_
        exact List.mem_append_right _ (List.mem_append_right _ member)
      apply meets_ite.mpr ⟨fun _ => retried (.failure, false) nofun, fun succeeded => ?_⟩
      apply meets_ite.mpr ⟨fun unchanged => ?_, fun _ => retried (.success, true) nofun⟩
      have isUnchanged : (result, changed) = (.success, false) :=
        Prod.ext (not_not.mp succeeded) unchanged
      apply meets_pure.mpr
      refine ⟨?_, .inl rfl, fun _ => .inr ?_⟩
      · simpa using harmless.append checkHarmless
      · simpa [Checked] using Or.inr (checked isUnchanged)

theorem contest_harmless :
    (contest port).Meets before fun history result after =>
      Harmless history ∧ (before = after ∨ before.setReserved port true = after) ∧
        (result = (.success, false) → (before.disk port).isHealthy = true →
          (before.disk port).isRegistered = true →
          before.setReserved port true = after ∨ Checked (before.disk port).diskname history) := by
  apply meets_bind_get.mpr
  apply meets_ite.mpr ⟨fun _ => ?_, fun isSkipped => ?_⟩
  · apply (contend_harmless before port (maxAttempts + 4) (.failure, false) nofun).mono
    rintro history result after ⟨harmless, reached, isDone⟩
    exact ⟨harmless, reached, fun done _ _ => isDone done⟩
  · apply meets_pure.mpr
    refine ⟨harmless_nil, .inl rfl, fun _ healthy registered => ?_⟩
    simp [healthy, registered] at isSkipped

theorem preemptUnreserved_guarded (earlier : List (Exchange commands))
    (checked : (before.disk port).isHealthy = true → (before.disk port).isReserved = false →
      Checked (before.disk port).diskname earlier) :
    (preemptUnreserved port).Meets before fun history _ after =>
      GuardedAfter earlier history ∧
        (before = after ∨ before.setReserved port true = after) := by
  apply meets_bind_get.mpr
  apply meets_ite.mpr ⟨fun isFree => ?_, fun _ => ?_⟩
  · have guarded : ∀ result, GuardedAfter earlier
        [⟨.scsi .preemptDisk (before.disk port).diskname, result⟩] := by
      intro result
      apply guardedAfter_preemption
      simp only [Bool.and_eq_true, Bool.not_eq_true'] at isFree
      exact checked isFree.1 isFree.2
    apply meets_bind_ask.mpr
    rintro (_ | _)
    · apply meets_bind_modify.mpr
      exact meets_pure.mpr ⟨guarded _, .inr rfl⟩
    · exact meets_pure.mpr ⟨guarded _, .inl rfl⟩
  · exact meets_pure.mpr ⟨harmless_nil.guardedAfter _, .inl rfl⟩

theorem releaseFirst_harmless :
    releaseFirst.Meets before fun history _ _ => Harmless history := by
  apply meets_bind_get.mpr
  apply meets_ite.mpr ⟨fun _ => ?_, fun _ => meets_pure.mpr harmless_nil⟩
  apply meets_bind_modify.mpr
  apply meets_bind_ask.mpr
  intro result
  apply meets_pure.mpr
  simp [Harmless, isPreemption]

end Functions

/-! ## The algorithm -/

theorem setReserved_disk (agent : Agent) (port : Port) :
    ((agent.setReserved port true).disk port).isReserved = true := by
  cases port <;> rfl

theorem contest_guards (before : Agent) (port : Port) (earlier : List (Exchange commands))
    (contends : (before.disk port).isHealthy = true → (before.disk port).isReserved = false →
      (before.disk port).isRegistered = true) :
    (contest port).Meets before fun history result mid =>
      Harmless history ∧ (before = mid ∨ before.setReserved port true = mid) ∧
        (result = (.success, false) →
          (preemptUnreserved port).Meets mid fun rest _ after =>
            GuardedAfter (earlier ++ history) rest ∧
              (mid = after ∨ mid.setReserved port true = after)) := by
  apply (contest_harmless before port).mono
  rintro history result mid ⟨harmless, reached, isDone⟩
  refine ⟨harmless, reached, fun done => ?_⟩
  apply preemptUnreserved_guarded
  intro healthy free
  rcases reached with rfl | rfl
  · rcases isDone done healthy (contends healthy free) with reserved | checked
    · rw [← reserved, setReserved_disk] at free
      cases free
    · exact List.mem_append_right _ checked
  · rw [setReserved_disk] at free
    cases free

theorem eq_done {result : ReturnType × Bool}
    (isDone : ¬(result.1 ≠ .success ∨ result.2 = true)) : result = (.success, false) := by
  obtain ⟨code, changed⟩ := result
  cases code <;> cases changed <;> simp_all

theorem reservationJobs_guarded (before : Agent) (contends : before.ContendsFirst) :
    reservationJobs.Meets before fun history _ _ => GuardedAfter [] history := by
  apply (contest_guards before .one [] (contends .one)).bind
  rintro first firstResult mid ⟨harmless, reached, preempts⟩
  have guarded := harmless.guardedAfter []
  apply meets_ite.mpr ⟨fun _ => meets_pure.mpr (by simpa using guarded), fun done => ?_⟩
  apply (preempts (eq_done done)).bind
  rintro preempting _ later ⟨preemptGuarded, reachedLater⟩
  replace guarded := guarded.append preemptGuarded
  apply meets_ite.mpr ⟨fun _ => meets_pure.mpr (by simpa using guarded), fun _ => ?_⟩
  have isDiskTwo : later.disk .two = before.disk .two := by
    rcases reached with rfl | rfl <;> rcases reachedLater with rfl | rfl <;> rfl
  apply (contest_guards later .two (first ++ preempting) ?_).bind
  swap
  · rw [isDiskTwo]
    exact contends .two
  rintro second secondResult mid ⟨secondHarmless, -, secondPreempts⟩
  replace guarded := guarded.append (secondHarmless.guardedAfter _)
  apply meets_ite.mpr ⟨fun _ => ?_, fun done => ?_⟩
  · apply (releaseFirst_harmless mid).bind
    intro releasing _ _ releaseHarmless
    apply meets_pure.mpr
    simpa using guarded.append (releaseHarmless.guardedAfter _)
  apply (secondPreempts (eq_done done)).bind
  rintro secondPreempting _ last ⟨secondGuarded, -⟩
  replace guarded := guarded.append secondGuarded
  apply meets_ite.mpr ⟨fun _ => ?_, fun _ => ?_⟩
  · apply (releaseFirst_harmless last).bind
    intro releasing _ _ releaseHarmless
    apply meets_pure.mpr
    simpa using guarded.append (releaseHarmless.guardedAfter _)
  apply meets_bind_get.mpr
  apply meets_ite.mpr ⟨fun _ => ?_, fun _ => ?_⟩
  · exact meets_pure.mpr (by simpa using guarded)
  · exact meets_pure.mpr (by simpa using guarded)

theorem dataDiskReservationAlgo_guarded (before : Agent) (contends : before.ContendsFirst) :
    dataDiskReservationAlgo.Meets before fun history _ _ => GuardedAfter [] history := by
  apply (reservationJobs_guarded before contends).bind
  intro history result after guarded
  apply meets_bind_ask.mpr
  intro reply
  apply meets_pure.mpr
  apply guarded.append
  apply Harmless.guardedAfter
  simp [Harmless, isPreemption]

/-! ## An unguarded preemption -/

theorem not_checked_nil (disk : String) : ¬Checked disk [] :=
  List.not_mem_nil

theorem not_checked_launch (command : ScsiCommand) (launched : String) (result : ReturnType)
    (disk : String) : ¬Checked disk [⟨.scsi command launched, result⟩] := by
  intro checked
  cases List.mem_singleton.mp checked

section Admitted

variable {agent : Agent} {port : Port}

theorem contest_skips {post : List (Exchange commands) → ReturnType × Bool → Agent → Prop}
    (isUnregistered : (agent.disk port).isRegistered = false)
    (holds : post [] (.success, false) agent) : (contest port).Admits agent post := by
  apply admits_bind_get
  rw [if_neg (by simp [isUnregistered])]
  exact admits_pure holds

theorem preempts_free {post : List (Exchange commands) → ReturnType → Agent → Prop}
    (isHealthy : (agent.disk port).isHealthy = true)
    (isFree : (agent.disk port).isReserved = false)
    (holds : post [⟨.scsi .preemptDisk (agent.disk port).diskname, .success⟩] .success
      (agent.setReserved port true)) : (preemptUnreserved port).Admits agent post := by
  apply admits_bind_get
  rw [if_pos (by simp [isHealthy, isFree])]
  apply admits_bind
  apply admits_ask ReturnType.success
  apply admits_bind_modify
  exact admits_pure holds

theorem contest_undisputed {post : List (Exchange commands) → ReturnType × Bool → Agent → Prop}
    (holds : ∀ history after, (∀ disk, ¬Checked disk history) →
      (after = agent ∨ after = agent.setReserved port true) →
      post history (.success, false) after) : (contest port).Admits agent post := by
  apply admits_bind_get
  split
  · apply admits_bind_get
    apply admits_bind
    apply admits_bind
    apply admits_ask ReturnType.success
    apply admits_pure
    apply admits_bind_modify
    apply admits_pure
    exact holds _ _ (not_checked_launch _ _ _) (.inr rfl)
  · apply admits_pure
    exact holds _ _ not_checked_nil (.inl rfl)

theorem preempt_undisputed {post : List (Exchange commands) → ReturnType → Agent → Prop}
    (holds : ∀ history after, (∀ disk, ¬Checked disk history) →
      (after = agent ∨ after = agent.setReserved port true) →
      post history .success after) : (preemptUnreserved port).Admits agent post := by
  apply admits_bind_get
  split
  · apply admits_bind
    apply admits_ask ReturnType.success
    apply admits_bind_modify
    apply admits_pure
    exact holds _ _ (not_checked_launch _ _ _) (.inr rfl)
  · apply admits_pure
    exact holds _ _ not_checked_nil (.inl rfl)

end Admitted

theorem not_guardedAfter {history rest : List (Exchange commands)} {disk : String}
    {result : ReturnType} (unchecked : ¬Checked disk history) :
    ¬GuardedAfter [] (history ++ ⟨.scsi .preemptDisk disk, result⟩ :: rest) :=
  fun guarded => unchecked (guarded history disk result rest rfl)

theorem unguarded_of_unregistered {agent : Agent} (port : Port)
    (isHealthy : (agent.disk port).isHealthy = true)
    (isFree : (agent.disk port).isReserved = false)
    (isUnregistered : (agent.disk port).isRegistered = false) :
    dataDiskReservationAlgo.Admits agent fun history _ _ => ¬GuardedAfter [] history := by
  apply admits_bind
  apply admits_bind
  cases port with
  | one =>
    apply contest_skips isUnregistered
    rw [if_neg (by simp)]
    apply admits_bind
    apply preempts_free isHealthy isFree
    apply admits_any never_halts ordinary
    intro rest result after
    apply admits_any never_halts ordinary
    intro marked _ _
    exact not_guardedAfter (not_checked_nil _)
  | two =>
    apply contest_undisputed
    intro first mid firstUnchecked reached
    rw [if_neg (by simp)]
    apply admits_bind
    apply preempt_undisputed
    intro second later secondUnchecked reachedLater
    have isDiskTwo : later.disk .two = agent.disk .two := by
      rcases reached with rfl | rfl <;> rcases reachedLater with rfl | rfl <;> rfl
    rw [← isDiskTwo] at isHealthy isFree isUnregistered
    rw [if_neg nofun]
    apply admits_bind
    apply contest_skips isUnregistered
    rw [if_neg (by simp)]
    apply admits_bind
    apply preempts_free isHealthy isFree
    apply admits_any never_halts ordinary
    intro rest result after
    apply admits_any never_halts ordinary
    intro marked _ _
    have unchecked : ¬Checked (later.disk .two).diskname (first ++ second) := by
      intro checked
      rcases List.mem_append.mp checked with inFirst | inSecond
      · exact firstUnchecked _ inFirst
      · exact secondUnchecked _ inSecond
    simpa using @not_guardedAfter _ (rest ++ marked) _ .success unchecked

/-- The algorithm never preempts a disk whose counter it has not seen unchanged, exactly if
every healthy disk that is not reserved yet is flagged as registered when it is called. -/
theorem preemptions_guarded_iff (agent : Agent) :
    (∀ history result after, dataDiskReservationAlgo.Executes agent history result after →
      GuardedAfter [] history) ↔ agent.ContendsFirst := by
  constructor
  · intro guarded port isHealthy isFree
    cases isRegistered : (agent.disk port).isRegistered with
    | true => rfl
    | false =>
      obtain ⟨history, result, after, executes, unguarded⟩ :=
        unguarded_of_unregistered port isHealthy isFree isRegistered
      exact (unguarded (guarded history result after executes)).elim
  · intro contends history result after executes
    exact (dataDiskReservationAlgo_guarded agent contends).elim executes

/-! ## A run that preempts a disk unseen -/

def isCheck : Exchange commands → Bool
  | ⟨.mark (.counterChecked _ _ _), _⟩ => true
  | _ => false

theorem not_guardedAfter_at {history : List (Exchange commands)} {disk : String}
    {result : ReturnType} (index : Nat)
    (isPreempted : history[index]? = some ⟨.scsi .preemptDisk disk, result⟩)
    (noChecks : (history.take index).all (!isCheck ·) = true) : ¬GuardedAfter [] history := by
  obtain ⟨inside, isExchange⟩ := List.getElem?_eq_some_iff.mp isPreempted
  rw [← List.take_append_drop index history, List.drop_eq_getElem_cons inside, isExchange]
  apply not_guardedAfter
  intro checked
  cases List.all_eq_true.mp noChecks _ checked

def secondCleared : (op : Op) → op.Reply
  | .scsi .registerRenewDatadisk "sdb" => .failure
  | op => ordinary op

def secondControllerFaulty : (op : Op) → op.Reply
  | .portStatus _ .two => some false
  | op => ordinary op

/-- An agent that becomes active after its start preempts the second disk without a look at
its counter, if the registrations of that disk had to be cleared or if only its controller
is faulty. -/
theorem mate_preempted_unseen :
    (∃ setup history final,
      RunsTo (fun _ => 0) setup [⟨.csiSet .active, history, .success⟩] final ∧
        ¬GuardedAfter [] history) ∧
    ∃ setup signal status history final,
      RunsTo (fun _ => 0) setup [⟨.diskSignal, signal, .success⟩,
        ⟨.deviceStatus, status, .success⟩, ⟨.csiSet .active, history, .success⟩] final ∧
        ¬GuardedAfter [] history := by
  constructor
  · refine ⟨_, _, _, runsTo_play [(.csiSet .active, secondCleared)] rfl, ?_⟩
    exact not_guardedAfter_at 6 rfl rfl
  · refine ⟨_, _, _, _, _, runsTo_play [(.diskSignal, ordinary),
      (.deviceStatus, secondControllerFaulty), (.csiSet .active, secondControllerFaulty)] rfl, ?_⟩
    exact not_guardedAfter_at 2 rfl rfl

end Apos.RdeAgent
