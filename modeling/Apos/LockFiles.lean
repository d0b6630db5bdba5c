import Apos.ThreadSystem

/-!
# Locks that are files

A file serves as a lock: a client may enter when the file is absent, and whoever removes the
file lets the next client in.  Nothing on the disk tells who made the file, so the file alone
does not keep two clients apart.  What does is an order among the steps of the clients: nobody
clears the way while another client has cleared it and not made the file yet, and nobody removes
the file while another client is inside.
-/

namespace Apos

/-- Where a client of a lock file stands.  A client that has found the file absent and not made
it yet is `cleared`. -/
inductive LockStage where
  | outside
  | cleared
  | inside
  deriving DecidableEq, Repr

/-- At most one client has cleared the way or is inside, and the file is there while a client
is inside. -/
structure Exclusive {Tid : Type} (stages : Tid → LockStage) (present : Bool) : Prop where
  alone : ∀ first second, stages first ≠ .outside → stages second ≠ .outside → first = second
  kept : ∀ tid, stages tid = .inside → present = true

/-- The steps of a client that respect the others: its stage after the step, and whether the
file is there before and after it. -/
inductive RespectfulStep {Tid : Type} (stages : Tid → LockStage) (tid : Tid) :
    LockStage → Bool → Bool → Prop where
  | stays (present : Bool) : RespectfulStep stages tid (stages tid) present present
  | withdraws (present : Bool) : RespectfulStep stages tid .outside present present
  | clears (unchallenged : ∀ other, other ≠ tid → stages other ≠ .cleared) :
      RespectfulStep stages tid .cleared false false
  | enters (present : Bool) (isCleared : stages tid = .cleared) :
      RespectfulStep stages tid .inside present true
  | creates (unchallenged : ∀ other, other ≠ tid → stages other ≠ .cleared) :
      RespectfulStep stages tid .inside false true
  | removes (present : Bool) (harmless : ∀ other, other ≠ tid → stages other ≠ .inside) :
      RespectfulStep stages tid .outside present false

namespace Exclusive

variable {Tid : Type} {stages : Tid → LockStage} {present : Bool}

theorem mono (exclusive : Exclusive stages present) {later : Tid → LockStage}
    (falls : ∀ tid, later tid = stages tid ∨ later tid = .outside) :
    Exclusive later present where
  alone first second firstClaims secondClaims := by
    apply exclusive.alone
    · rcases falls first with same | gone
      · rwa [← same]
      · exact absurd gone firstClaims
    · rcases falls second with same | gone
      · rwa [← same]
      · exact absurd gone secondClaims
  kept tid isInside := by
    rcases falls tid with same | gone
    · exact exclusive.kept tid (same ▸ isInside)
    · rw [gone] at isInside
      cases isInside

theorem inside_unique (exclusive : Exclusive stages present) {first second : Tid}
    (firstInside : stages first = .inside) (secondInside : stages second = .inside) :
    first = second := by
  apply exclusive.alone <;> simp [firstInside, secondInside]

theorem outside_of_absent (exclusive : Exclusive stages false) {tid : Tid}
    (notCleared : stages tid ≠ .cleared) : stages tid = .outside := by
  cases stage : stages tid with
  | outside => rfl
  | cleared => exact absurd stage notCleared
  | inside => cases exclusive.kept tid stage

variable [DecidableEq Tid]

theorem claim {tid : Tid} {after : LockStage} {now : Bool}
    (others : ∀ other, other ≠ tid → stages other = .outside)
    (made : after = .inside → now = true) :
    Exclusive (Function.update stages tid after) now where
  alone first second firstClaims secondClaims := by
    have onlyTid (other : Tid)
        (claims : Function.update stages tid after other ≠ .outside) : other = tid := by
      by_contra different
      rw [Function.update_of_ne different] at claims
      exact claims (others other different)
    rw [onlyTid first firstClaims, onlyTid second secondClaims]
  kept other isInside := by
    by_cases same : other = tid
    · rw [same, Function.update_self] at isInside
      exact made isInside
    · rw [Function.update_of_ne same, others other same] at isInside
      cases isInside

theorem withdraw (exclusive : Exclusive stages present) (tid : Tid) :
    Exclusive (Function.update stages tid .outside) present := by
  apply exclusive.mono
  intro other
  by_cases same : other = tid
  · rw [same, Function.update_self]
    exact .inr rfl
  · exact .inl (Function.update_of_ne same _ _)

theorem step (exclusive : Exclusive stages present) {tid : Tid} {after : LockStage} {now : Bool}
    (respectful : RespectfulStep stages tid after present now) :
    Exclusive (Function.update stages tid after) now := by
  cases respectful with
  | stays =>
    rw [Function.update_eq_self]
    exact exclusive
  | withdraws => exact exclusive.withdraw tid
  | clears unchallenged =>
    apply claim
    · exact fun other different =>
        exclusive.outside_of_absent (unchallenged other different)
    · nofun
  | enters _ isCleared =>
    apply claim
    · intro other different
      by_contra claims
      exact different (exclusive.alone other tid claims (by simp [isCleared]))
    · exact fun _ => rfl
  | creates unchallenged =>
    apply claim
    · exact fun other different =>
        exclusive.outside_of_absent (unchallenged other different)
    · exact fun _ => rfl
  | removes _ harmless =>
    constructor
    · exact (exclusive.withdraw tid).alone
    · intro other isInside
      by_cases same : other = tid
      · rw [same, Function.update_self] at isInside
        cases isInside
      · rw [Function.update_of_ne same] at isInside
        exact absurd isInside (harmless other same)

end Exclusive

/-! ## Clients that are threads -/

/-- How the exchanges of a thread move it between the stages of a lock, and whether the file is
there in a world. -/
structure LockReading (S : Signature) (World : Type) where
  see : LockStage → Exchange S → LockStage
  present : World → Bool

namespace LockReading

variable {S : Signature} {World Tid Result : Type} [DecidableEq Tid]
variable (reading : LockReading S World)

/-- The stage of a running thread; a thread that does not run is outside. -/
def stage (config : Config S World Tid Result) (tid : Tid) : LockStage :=
  if (config.threads tid).isSome then
    (history tid config.log).foldl reading.see .outside
  else .outside

variable {config : Config S World Tid Result} {tid : Tid}

theorem stage_of_alive (alive : config.Alive tid) :
    reading.stage config tid = (history tid config.log).foldl reading.see .outside :=
  if_pos alive

theorem stage_of_not_alive (gone : ¬config.Alive tid) : reading.stage config tid = .outside :=
  if_neg gone

theorem stage_falls {after : Config S World Tid Result} (alive : after.Alive tid → config.Alive tid)
    (same : history tid after.log = history tid config.log) :
    reading.stage after tid = reading.stage config tid ∨
      reading.stage after tid = .outside := by
  by_cases living : after.Alive tid
  · left
    rw [reading.stage_of_alive living, reading.stage_of_alive (alive living), same]
  · exact .inr (reading.stage_of_not_alive living)

def Respects (config : Config S World Tid Result) (tid : Tid) (exchange : Exchange S)
    (world : World) (spawned : Option Tid) : Prop :=
  spawned = none ∧
    RespectfulStep (reading.stage config) tid (reading.see (reading.stage config tid) exchange)
      (reading.present config.world) (reading.present world)

/-- The rule for lock files: if threads ask for an operation only where the stage they have reached
allows it, and then respect the other threads, the lock keeps them apart in every reachable
configuration. -/
theorem exclusive_of_reaches {system : ThreadSystem S World Tid Result}
    {asks : LockStage → S.Op → Prop} {starts : World → Prop}
    {allowed : Config S World Tid Result → Entry S Tid Result → Prop}
    (careful : ∀ tid, Program.Always (Program.folding reading.see asks) (fun _ _ => True) .outside
      (system.body tid))
    (admits : ∀ world alive tid, system.admits world alive tid = some world)
    (steps : ∀ config tid op proposed reply world spawned,
      system.perform config.world (fun other => (config.threads other).isSome) tid op
        proposed = .done reply world spawned →
      asks (reading.stage config tid) op → allowed config (.did tid ⟨op, reply⟩) →
      reading.Respects config tid ⟨op, reply⟩ world spawned)
    (reaches : system.Reaches starts allowed config) :
    Exclusive (reading.stage config) (reading.present config.world) := by
  have silentStage {config after : Config S World Tid Result} {entry : Entry S Tid Result}
      (silent : ∀ tid exchange, entry ≠ Entry.did tid exchange)
      (logged : after.log = config.log ++ [entry]) (tid : Tid) :
      history tid after.log = history tid config.log := by
    rw [logged]
    exact ThreadSystem.history_snoc_of_silent entry silent tid config.log
  have lawful : system.Lawful (fun _ reached => asks (reached.foldl reading.see .outside))
      (fun _ _ _ => True) := fun tid =>
    @Program.Always.of_folding S Result LockStage reading.see asks (fun _ _ => True) .outside _ []
      (careful tid)
  apply ThreadSystem.Reaches.invariant lawful ?start ?boot ?arrive ?quiet ?act reaches
  case start =>
    intro world starting
    constructor <;> simp [stage, ThreadSystem.initial]
  case boot =>
    intro config after exclusive rebooted gone started logged
    have outside (tid : Tid) : reading.stage after tid = .outside :=
      reading.stage_of_not_alive (gone tid)
    constructor <;> simp [outside]
  case arrive =>
    intro config after tid world reached exclusive fresh admitted permitted same starts logged
    rw [admits, Option.some.injEq] at admitted
    rw [same, ← admitted]
    apply exclusive.mono
    intro other
    have kept := silentStage (by simp) logged other
    by_cases isNew : other = tid
    · right
      have empty := ((reached.tracks tid).idle fresh).1
      unfold stage
      rw [kept, isNew, empty]
      simp
    · apply reading.stage_falls _ kept
      intro living
      rcases starts.alive other living with before | ⟨new, _⟩
      · exact before
      · exact absurd (Option.some.inj new).symm isNew
  case quiet =>
    intro config after entry exclusive silent same starts logged
    rw [same]
    apply exclusive.mono
    exact fun tid => reading.stage_falls starts.of_none (silentStage silent logged tid)
  case act =>
    intro config after tid op proposed reply world spawned reached exclusive living performs
      permitted isAllowed same starts logged
    rw [← reading.stage_of_alive living] at permitted
    obtain ⟨rfl, respectful⟩ :=
      steps config tid op proposed reply world spawned performs permitted isAllowed
    rw [same]
    apply (exclusive.step respectful).mono
    intro other
    by_cases isActor : other = tid
    · subst isActor
      rw [Function.update_self]
      by_cases still : after.Alive other
      · left
        rw [reading.stage_of_alive still, reading.stage_of_alive living, logged,
          ThreadSystem.history_snoc_did_self, List.foldl_append]
        rfl
      · exact .inr (reading.stage_of_not_alive still)
    · rw [Function.update_of_ne isActor]
      apply reading.stage_falls starts.of_none
      rw [logged]
      exact ThreadSystem.history_snoc_of_ne (Ne.symm isActor) _ _

end LockReading

end Apos
