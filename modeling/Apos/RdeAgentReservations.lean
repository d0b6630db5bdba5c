import Apos.RdeAgentInvariants

/-!
# Reservation flags of the MD HA agent

The agent keeps a flag for each port that says whether it has reserved the disk of the
port.  The flag is cleared even if the release of the disk fails, and it stays where it is
when a listing gives the port another disk.  As long as releases succeed and every port
keeps its disk, the flags tell the truth.
-/

namespace Apos.RdeAgent

open Stateful

/-! ## Disks that are held -/

abbrev Held : Type := String → Bool

def Held.set (held : Held) (disk : String) (isHeld : Bool) : Held :=
  fun other => if other = disk then isHeld else held other

/-- A disk is held after it has been reserved or preempted, and is not held after it has
been released. -/
def Held.after (held : Held) : Effect → Held
  | .taken disk => held.set disk true
  | .release disk .success => held.set disk false
  | _ => held

/-- A disk is held if the last command that succeeded on it, among reservations, preemptions
and releases, was no release. -/
def heldAfter (history : List (Exchange commands)) : Held :=
  (effects history).foldl Held.after fun _ => false

def Agent.TellsTruth (agent : Agent) (held : Held) : Prop :=
  ∀ port, (agent.disk port).isReserved = held (agent.disk port).diskname

structure DiskNames where
  name : Port → String
  distinct : name .one ≠ name .two
  named : ∀ port, name port ≠ ""

/-- A release succeeds, and a listing that finds a disk in a port finds the disk that belongs
there. -/
def Dependable (names : DiskNames) : Effect → Prop
  | .release _ result => result = .success
  | .portList (some list) =>
    ∀ line ∈ list.lines, line.name ≠ "null" → line.name = names.name line.port
  | .raidList (some list) =>
    ∀ line ∈ list.lines, line.state = "active" ∨ line.state = "spare" →
      line.name = names.name line.port
  | _ => True

/-! ## The invariant -/

/-- Each port has its disk or none yet, and its flag says whether that disk is held. -/
structure Accounted (names : DiskNames) (core : Core) (held : Held) : Prop where
  named : ∀ port, (core.disk port).diskname = names.name port ∨
    (core.disk port).diskname = "" ∧ (core.disk port).isHealthy = false ∧
      (core.disk port).isReserved = false
  flagged : ∀ port, (core.disk port).isReserved = held (names.name port)
  unnamed : held "" = false

namespace Accounted

variable {names : DiskNames} {core : Core} {held : Held} {port : Port}

theorem tellsTruth {agent : Agent} (accounted : Accounted names agent.core held) :
    agent.TellsTruth held := by
  intro port
  rw [Agent.isReserved_core, Agent.diskname_core]
  rcases accounted.named port with isNamed | ⟨isUnnamed, -, isFree⟩
  · rw [isNamed]
    exact accounted.flagged port
  · rw [isUnnamed, isFree]
    exact accounted.unnamed.symm

theorem congr {other : Core} (accounted : Accounted names core held)
    (same : ∀ port, other.disk port = core.disk port) : Accounted names other held where
  named port := by
    rw [same port]
    exact accounted.named port
  flagged port := by
    rw [same port]
    exact accounted.flagged port
  unnamed := accounted.unnamed

theorem name_of_healthy (accounted : Accounted names core held)
    (isHealthy : (core.disk port).isHealthy = true) :
    (core.disk port).diskname = names.name port := by
  rcases accounted.named port with isNamed | ⟨-, isFaulty, -⟩
  · exact isNamed
  · simp [isHealthy] at isFaulty

theorem name_of_reserved (accounted : Accounted names core held)
    (isReserved : (core.disk port).isReserved = true) :
    (core.disk port).diskname = names.name port := by
  rcases accounted.named port with isNamed | ⟨-, -, isFree⟩
  · exact isNamed
  · simp [isReserved] at isFree

theorem set (accounted : Accounted names core held)
    (isNamed : (core.disk port).diskname = names.name port) (isReserved : Bool) :
    Accounted names (core.setReserved port isReserved)
      (held.set (core.disk port).diskname isReserved) where
  named other := by
    rw [Core.setReserved, Core.disk_mapDisk]
    split
    · next same =>
        subst same
        exact .inl isNamed
    · exact accounted.named other
  flagged other := by
    rw [Core.setReserved, Core.disk_mapDisk, isNamed, Held.set]
    have distinct := names.distinct
    cases port <;> cases other <;>
      simp [distinct, distinct.symm, accounted.flagged]
  unnamed := by
    rw [isNamed, Held.set, if_neg (names.named port).symm]
    exact accounted.unnamed

theorem mapDisk {change : DataDisk → DataDisk} (accounted : Accounted names core held)
    (named : (change (core.disk port)).diskname = names.name port ∨
      (change (core.disk port)).diskname = "" ∧ (change (core.disk port)).isHealthy = false ∧
        (change (core.disk port)).isReserved = false)
    (sameFlag : (change (core.disk port)).isReserved = (core.disk port).isReserved) :
    Accounted names (core.mapDisk port change) held where
  named other := by
    rw [Core.disk_mapDisk]
    split
    · next same =>
        subst same
        exact named
    · exact accounted.named other
  flagged other := by
    rw [Core.disk_mapDisk]
    split
    · next same =>
        subst same
        exact sameFlag.trans (accounted.flagged other)
    · exact accounted.flagged other
  unnamed := accounted.unnamed

theorem unhealthy (accounted : Accounted names core held) :
    Accounted names (core.setUnhealthy port) held := by
  apply accounted.mapDisk _ rfl
  exact (accounted.named port).imp_right fun ⟨isUnnamed, _, isFree⟩ => ⟨isUnnamed, rfl, isFree⟩

theorem found (accounted : Accounted names core held) :
    Accounted names (core.setFound port (names.name port)) held :=
  accounted.mapDisk (.inl rfl) rfl

end Accounted

/-! ## The invariant along a history -/

/-- What is held, and whether the reservation algorithm has only ever succeeded while some
disk was held. -/
abbrev Ledger : Type := Held × Prop

def Ledger.after (ledger : Ledger) : Effect → Ledger
  | .reservationAlgo .success => (ledger.1, ledger.2 ∧ ∃ disk, ledger.1 disk = true)
  | effect => (ledger.1.after effect, ledger.2)

def Ledger.see (ledger : Ledger) (exchange : Exchange commands) : Ledger :=
  match effect? exchange with
  | some effect => ledger.after effect
  | none => ledger

theorem foldl_see (history : List (Exchange commands)) (ledger : Ledger) :
    history.foldl Ledger.see ledger = (effects history).foldl Ledger.after ledger := by
  induction history generalizing ledger with
  | nil => rfl
  | cons exchange history ih =>
    rw [List.foldl_cons, ih, Ledger.see]
    cases isEffect : effect? exchange <;> simp [effects, isEffect]

def DependableExchange (names : DiskNames) (exchange : Exchange commands) : Prop :=
  ∀ effect ∈ effect? exchange, Dependable names effect

def Balanced (names : DiskNames) (agent : Agent) (ledger : Ledger) : Prop :=
  Accounted names agent.core ledger.1 ∧ ledger.2

abbrev KeepsBalance (names : DiskNames) {α : Type} (act : Act α) : Prop :=
  Keeps (DependableExchange names) Ledger.see (Balanced names) act

section Balance

variable {names : DiskNames} {α : Type}

theorem Balanced.step {before after : Agent} {ledger : Ledger} {list : List Effect}
    (balanced : Balanced names before ledger) (step : DiskStep before.core list after.core)
    (dependable : ∀ effect ∈ list, Dependable names effect) :
    Balanced names after (list.foldl Ledger.after ledger) := by
  unfold Balanced
  generalize after.core = reached at step ⊢
  refine ⟨?_, by cases step <;> exact balanced.2⟩
  cases step with
  | taken port isHealthy => exact balanced.1.set (balanced.1.name_of_healthy isHealthy) true
  | released port isReserved result =>
    have succeeded : result = .success := dependable _ (List.mem_singleton_self _)
    subst succeeded
    exact balanced.1.set (balanced.1.name_of_reserved isReserved) false
  | kept disk => exact nomatch dependable _ (List.mem_singleton_self _)
  | portList list =>
    have isListed : Dependable names (.portList list) := dependable _ (List.mem_singleton_self _)
    apply Core.withPortList_keeps (Accounted names · ledger.1) _ _ balanced.1
    · exact fun _ _ => Accounted.unhealthy
    intro core line member isFound accounted
    cases list with
    | none => cases member
    | some list =>
      rw [isListed line member isFound]
      exact accounted.found
  | raidList list =>
    have isListed : Dependable names (.raidList list) := dependable _ (List.mem_singleton_self _)
    apply Core.withRaidList_keeps (Accounted names · ledger.1) _ _ balanced.1
    · exact fun _ _ => Accounted.unhealthy
    intro core line member isFound accounted
    cases list with
    | none => cases member
    | some list =>
      rw [isListed line member isFound]
      exact accounted.found
  | _ => exact balanced.1

theorem keepsBalance_of_steps {act : Act α} (steps : Steps act) : KeepsBalance names act := by
  intro before ledger balanced
  apply (steps before).mono
  intro history _ after step allOkay
  rw [foldl_see]
  apply balanced.step step
  intro effect member
  obtain ⟨exchange, inHistory, isEffect⟩ := List.mem_filterMap.mp member
  exact allOkay exchange inHistory effect isEffect

/-! ## The reservation algorithm -/

theorem reservationJobs_reserves (before : Agent) :
    reservationJobs.Meets before fun _ result after =>
      result = .success → ∃ port, (after.core.disk port).isReserved = true := by
  apply meets_bind.mpr
  refine ⟨fun _ => meets_ite.mpr ⟨fun _ => meets_pure.mpr nofun, fun _ => ?_⟩⟩
  apply meets_bind.mpr
  refine ⟨fun _ => meets_ite.mpr ⟨fun _ => meets_pure.mpr nofun, fun _ => ?_⟩⟩
  apply meets_bind.mpr
  refine ⟨fun _ => meets_ite.mpr ⟨fun _ => ?_, fun _ => ?_⟩⟩
  · exact meets_bind.mpr ⟨fun _ => meets_pure.mpr nofun⟩
  apply meets_bind.mpr
  refine ⟨fun _ => meets_ite.mpr ⟨fun _ => ?_, fun _ => ?_⟩⟩
  · exact meets_bind.mpr ⟨fun _ => meets_pure.mpr nofun⟩
  apply meets_bind_get.mpr
  apply meets_ite.mpr ⟨fun _ => meets_pure.mpr nofun, fun isReserved => ?_⟩
  apply meets_pure.mpr
  intro _
  simp only [Agent.isReserved_core] at isReserved
  exact exists_flagged _ isReserved

theorem dataDiskReservationAlgo_keepsBalance : KeepsBalance names dataDiskReservationAlgo := by
  intro before ledger balanced
  apply ((reservationJobs_keeps keepsBalance_of_steps before ledger balanced).and
    (reservationJobs_reserves before)).bind
  rintro history result after ⟨keeps, reserves⟩
  apply meets_bind_ask.mpr
  intro reply
  apply meets_pure.mpr
  intro allOkay
  have balancedAfter : Balanced names after (history.foldl Ledger.see ledger) :=
    keeps fun exchange member => allOkay exchange (List.mem_append_left _ member)
  rw [List.foldl_append]
  cases result with
  | success =>
    obtain ⟨port, isReserved⟩ := reserves rfl
    rw [balancedAfter.1.flagged port] at isReserved
    exact ⟨balancedAfter.1, balancedAfter.2, names.name port, isReserved⟩
  | failure => exact balancedAfter

theorem balanced_enduring :
    Enduring (DependableExchange names) Ledger.see (Balanced names) :=
  have flagged {change : Agent → Agent}
      (same : ∀ agent port, (change agent).core.disk port = agent.core.disk port) :
      KeepsBalance names (modify change) :=
    .of_modify fun _ _ balanced => ⟨balanced.1.congr (same _), balanced.2⟩
  { Sturdy.of_steps keepsBalance_of_steps (flagged fun _ _ => rfl) (flagged fun _ _ => rfl) with
    reset := flagged fun _ _ => rfl
    reservation := dataDiskReservationAlgo_keepsBalance
    assembled := .of_ask fun _ _ _ _ h => h
    activated := fun _ => .of_ask fun _ _ _ _ h => h
    raidConfigured := flagged fun _ _ => rfl
    mipConfigured := flagged fun _ _ => rfl }

end Balance

/-! ## Runs -/

theorem ledger_held (list : List Effect) (ledger : Ledger) :
    (list.foldl Ledger.after ledger).1 = list.foldl Held.after ledger.1 := by
  induction list generalizing ledger with
  | nil => rfl
  | cons effect list ih =>
    rw [List.foldl_cons, List.foldl_cons, ih]
    congr 1
    cases effect with
    | reservationAlgo result => cases result <;> rfl
    | _ => rfl

theorem ledger_sound (list : List Effect) (ledger : Ledger)
    (sound : (list.foldl Ledger.after ledger).2) : ledger.2 := by
  induction list generalizing ledger with
  | nil => exact sound
  | cons effect list ih =>
    have soundAfter := ih _ sound
    cases effect with
    | reservationAlgo result =>
      cases result with
      | success => exact soundAfter.1
      | failure => exact soundAfter
    | _ => exact soundAfter

theorem accounted_initial (names : DiskNames) :
    Accounted names Agent.initial.core fun _ => false where
  named port := by cases port <;> exact .inr ⟨rfl, rfl, rfl⟩
  flagged port := by cases port <;> rfl
  unnamed := rfl

/-- In every run in which releases succeed and every port keeps its disk, the flags tell
which disks are held, and the reservation algorithm succeeds only with a disk held. -/
theorem flags_tell_truth {codeOf : ReturnType → Int} {setup : List (Exchange commands)}
    {steps : List AgentStep} {final : Agent} (names : DiskNames)
    (runs : RunsTo codeOf setup steps final)
    (dependable : ∀ effect ∈ effects (setup ++ exchangesOf steps), Dependable names effect) :
    final.TellsTruth (heldAfter (setup ++ exchangesOf steps)) ∧
      ∀ before after, setup ++ exchangesOf steps =
          before ++ ⟨.mark (.reservationAlgo .success), ()⟩ :: after →
        ∃ disk, heldAfter before disk = true := by
  have balanced : Balanced names final
      ((setup ++ exchangesOf steps).foldl Ledger.see (fun _ => false, True)) := by
    apply balanced_enduring.runsTo runs _ ⟨accounted_initial names, trivial⟩
    intro exchange member effect isEffect
    exact dependable effect (List.mem_filterMap.mpr ⟨exchange, member, isEffect⟩)
  rw [foldl_see] at balanced
  obtain ⟨accounted, sound⟩ := balanced
  constructor
  · rw [ledger_held] at accounted
    exact accounted.tellsTruth
  · intro before after isHistory
    rw [isHistory, effects_append, List.foldl_append] at sound
    have soundThen := ledger_sound (effects after) _ sound
    rw [Ledger.after, ledger_held] at soundThen
    exact soundThen.2

instance (names : DiskNames) : DecidablePred (Dependable names)
  | .release _ result => inferInstanceAs (Decidable (result = .success))
  | .portList (some _) | .raidList (some _) => inferInstanceAs (Decidable (∀ _ ∈ _, _))
  | .portList none | .raidList none | .taken _ | .assemble _ | .unmount _ | .activate _
  | .deactivate _ | .reservationAlgo _ => inferInstanceAs (Decidable True)

def ordinaryNames : DiskNames where
  name
    | .one => "sda"
    | .two => "sdb"
  distinct := by decide
  named port := by cases port <;> decide

/-- An ordinary activation ends with both flags set and both disks held. -/
theorem flags_tell_truth_activated :
    ∃ setup steps final, RunsTo (fun _ => 0) setup steps final ∧
      (final.disk .one).isReserved = true ∧ (final.disk .two).isReserved = true ∧
      final.TellsTruth (heldAfter (setup ++ exchangesOf steps)) :=
  have runs : RunsTo (fun _ => 0) _ _ _ := runsTo_play [(.csiSet .active, ordinary)] rfl
  ⟨_, _, _, runs, rfl, rfl, (flags_tell_truth ordinaryNames runs (by decide +kernel)).1⟩

def firstDropped : (op : Op) → op.Reply
  | .listRaidDisks => some ⟨[⟨.two, "sdb", "active"⟩], true⟩
  | .scsi .releaseReservations "sda" => .failure
  | op => ordinary op

def firstReplaced : (op : Op) → op.Reply
  | .listPortDisk => some ⟨[⟨.one, "sdc"⟩, ⟨.two, "sdb"⟩], true⟩
  | op => ordinary op

/-- An active agent clears the flag of a disk it has failed to release, and keeps the flag
of a port that is found to have another disk. -/
theorem flags_tell_lies :
    (∃ setup active signal status final,
      RunsTo (fun _ => 0) setup [⟨.csiSet .active, active, .success⟩,
        ⟨.raidSignal, signal, .success⟩, ⟨.deviceStatus, status, .success⟩] final ∧
      (final.disk .one).diskname = "sda" ∧ (final.disk .one).isReserved = false ∧
      heldAfter (setup ++ active ++ signal ++ status) "sda" = true) ∧
    ∃ setup active signal status final,
      RunsTo (fun _ => 0) setup [⟨.csiSet .active, active, .success⟩,
        ⟨.diskSignal, signal, .success⟩, ⟨.deviceStatus, status, .success⟩] final ∧
      (final.disk .one).diskname = "sdc" ∧ (final.disk .one).isReserved = true ∧
      heldAfter (setup ++ active ++ signal ++ status) "sdc" = false := by
  constructor
  · exact ⟨_, _, _, _, _, runsTo_play [(.csiSet .active, ordinary), (.raidSignal, ordinary),
      (.deviceStatus, firstDropped)] rfl, rfl, rfl, by decide +kernel⟩
  · exact ⟨_, _, _, _, _, runsTo_play [(.csiSet .active, ordinary), (.diskSignal, ordinary),
      (.deviceStatus, firstReplaced)] rfl, rfl, rfl, by decide +kernel⟩

end Apos.RdeAgent
