import Mathlib.Algebra.Ring.Nat
import Apos.LockFiles

/-!
# The lock of the cluster configuration editor

`clu_parse` edits `cluster.conf` between a call of `lockfile` and its own `unlock`.  `lockfile`
makes the lock file when there is none and waits otherwise, but it takes a lock file older than
three seconds for abandoned and removes it, and no limit is set to the time an edit with its
reload may take.  `unlock` removes the file whoever made it, and a call that finds no
`cluster.conf` goes through `unlock` without having asked for the lock.

The system below runs any number of `clu_parse` calls.  Before each step any time may pass.
-/

namespace Apos.CluParse

/-! ## One call -/

inductive Attempt where
  | created
  | waits
  | expired
  deriving DecidableEq, Repr

/-- The steps of a call that matter to the lock; `edit` stands for all commands between
`lockfile` and `unlock`. -/
inductive Op where
  | testConf
  | attemptLock
  | edit
  | removeLock
  deriving DecidableEq, Repr

/-- What a step has come to, and how many seconds have passed before it. -/
structure Timed (Value : Type) where
  elapsed : Nat
  value : Value

abbrev commands : Signature where
  Op := Op
  Reply
    | .testConf => Timed Bool
    | .attemptLock => Timed Attempt
    | .edit => Timed Nat
    | .removeLock => Timed Unit
  Halt := Empty

/-- How a call has ended; a call that is still waiting when its rounds are used up takes no
further step. -/
inductive Ending where
  | exited (status : Nat)
  | waiting
  deriving DecidableEq, Repr

abbrev Run : Type := Program commands Ending

def unlock (status : Nat) : Run :=
  .call .removeLock fun _ => .pure (.exited status)

/-- `lockfile -r -1`: it tries again until it has made the file. -/
def lockfile : (rounds : Nat) → (next : Run) → Run
  | 0, _ => .pure .waiting
  | rounds + 1, next =>
    .call .attemptLock fun reply =>
      match reply.value with
      | .created => next
      | .waits => lockfile rounds next
      | .expired => lockfile rounds next

def main (rounds : Nat) : Run :=
  .call .testConf fun found =>
    if found.value then
      lockfile rounds <| .call .edit fun status => unlock status.value
    else unlock 1

/-! ## Stages of a call -/

/-- A call is inside from the moment `lockfile` has made the file until its own removal. -/
def see (stage : LockStage) : Exchange commands → LockStage
  | ⟨.attemptLock, ⟨_, .created⟩⟩ => .inside
  | ⟨.removeLock, _⟩ => .outside
  | _ => stage

def AsksOutside (stage : LockStage) (op : Op) : Prop :=
  op = .attemptLock → stage = .outside

def Careful (stage : LockStage) (run : Run) : Prop :=
  Program.Always (Program.folding see AsksOutside) (fun _ _ => True) stage run

theorem careful_call {stage : LockStage} {op : Op} {next : commands.Reply op → Run}
    (permitted : AsksOutside stage op)
    (continued : ∀ reply, Careful (see stage ⟨op, reply⟩) (next reply)) :
    Careful stage (.call op next) :=
  Program.always_folding_call.mpr ⟨permitted, continued⟩

theorem careful_unlock (stage : LockStage) (status : Nat) : Careful stage (unlock status) :=
  careful_call nofun fun _ => trivial

theorem careful_lockfile {next : Run} (continued : Careful .inside next) (rounds : Nat) :
    Careful .outside (lockfile rounds next) := by
  induction rounds with
  | zero => trivial
  | succ rounds ih =>
    refine careful_call (fun _ => rfl) fun reply => ?_
    obtain ⟨elapsed, attempt⟩ := reply
    cases attempt with
    | created => exact continued
    | waits | expired => exact ih

theorem careful_main (rounds : Nat) : Careful .outside (main rounds) := by
  refine careful_call nofun fun found => ?_
  split
  · apply careful_lockfile
    exact careful_call nofun fun status => careful_unlock _ status.value
  · exact careful_unlock _ 1

/-! ## Any number of calls -/

structure LockWorld where
  clock : Nat
  made : Option Nat
  deriving DecidableEq, Repr

/-- `-l 3`: the age in seconds above which `lockfile` removes a lock file. -/
def lockTimeout : Nat := 3

def attempt (made : Option Nat) (now : Nat) : Attempt × Option Nat :=
  match made with
  | none => (.created, some now)
  | some time => if lockTimeout < now - time then (.expired, none) else (.waits, some time)

theorem attempt_cases (made : Option Nat) (now : Nat) :
    (made = none ∧ attempt made now = (.created, some now)) ∨
      (∃ time, made = some time ∧ attempt made now = (.waits, some time)) ∨
      ∃ time, made = some time ∧ attempt made now = (.expired, none) := by
  cases made with
  | none => exact .inl ⟨rfl, rfl⟩
  | some time =>
    right
    by_cases old : lockTimeout < now - time
    · exact .inr ⟨time, rfl, if_pos old⟩
    · exact .inl ⟨time, rfl, if_neg old⟩

/-- Calls may start at any time; `rounds` bounds the tries of each of them. -/
def system {Tid : Type} (rounds : Tid → Nat) : ThreadSystem commands LockWorld Tid Ending where
  body tid := main (rounds tid)
  perform world _ _ op proposed :=
    match op with
    | .testConf => .done proposed ⟨world.clock + proposed.elapsed, world.made⟩ none
    | .attemptLock =>
      let now := world.clock + proposed.elapsed
      .done ⟨proposed.elapsed, (attempt world.made now).1⟩
        ⟨now, (attempt world.made now).2⟩ none
    | .edit => .done proposed ⟨world.clock + proposed.elapsed, world.made⟩ none
    | .removeLock => .done proposed ⟨world.clock + proposed.elapsed, none⟩ none
  admits world _ _ := some world
  reboot world := world

def lockReading : LockReading commands LockWorld where
  see := see
  present world := world.made.isSome

abbrev State (Tid : Type) : Type := Config commands LockWorld Tid Ending

variable {Tid : Type} [DecidableEq Tid]

def Inside (state : State Tid) (tid : Tid) : Prop :=
  lockReading.stage state tid = .inside

instance (state : State Tid) (tid : Tid) : Decidable (Inside state tid) :=
  inferInstanceAs (Decidable (_ = _))

/-- The condition on a step, seen from the state before it: `lockfile` removes a lock file for
its age only while no other call is inside, and so does a call through `unlock`. -/
def Orderly (state : State Tid) : Entry commands Tid Ending → Prop
  | .did tid ⟨.attemptLock, ⟨_, .expired⟩⟩ => ∀ other, other ≠ tid → ¬Inside state other
  | .did tid ⟨.removeLock, _⟩ => ∀ other, other ≠ tid → ¬Inside state other
  | _ => True

def MutuallyExclusive (state : State Tid) : Prop :=
  ∀ first second, Inside state first → Inside state second → first = second

theorem see_ne_cleared {stage : LockStage} (notCleared : stage ≠ .cleared)
    (exchange : Exchange commands) : see stage exchange ≠ .cleared := by
  unfold see
  split
  · nofun
  · nofun
  · exact notCleared

/-- `lockfile` tests and makes the file in one step, so no call is ever between the two. -/
theorem stage_ne_cleared (state : State Tid) (tid : Tid) :
    lockReading.stage state tid ≠ .cleared := by
  have folded (exchanges : List (Exchange commands)) {stage : LockStage}
      (notCleared : stage ≠ .cleared) : exchanges.foldl see stage ≠ .cleared := by
    induction exchanges generalizing stage with
    | nil => exact notCleared
    | cons exchange exchanges ih => exact ih (see_ne_cleared notCleared exchange)
  unfold LockReading.stage
  split
  · exact folded _ (by decide)
  · decide

theorem respectful_of_orderly {rounds : Tid → Nat} {state : State Tid} {tid : Tid} {op : Op}
    {proposed reply : commands.Reply op} {world : LockWorld} {spawned : Option Tid}
    (performs : (system rounds).perform state.world
      (fun other => (state.threads other).isSome) tid op proposed = .done reply world spawned)
    (permitted : AsksOutside (lockReading.stage state tid) op)
    (orderly : Orderly state (.did tid ⟨op, reply⟩)) :
    lockReading.Respects state tid ⟨op, reply⟩ world spawned := by
  change spawned = none ∧
    RespectfulStep _ tid (see _ _) state.world.made.isSome world.made.isSome
  cases op with
  | testConf =>
    cases performs
    exact ⟨rfl, .stays _⟩
  | attemptLock =>
    cases performs
    refine ⟨rfl, ?_⟩
    rcases attempt_cases state.world.made (state.world.clock + proposed.elapsed) with
      ⟨absent, comes⟩ | ⟨time, isThere, comes⟩ | ⟨time, isThere, comes⟩
    · rw [comes, absent]
      exact .creates fun other _ => stage_ne_cleared state other
    · rw [comes, isThere]
      exact .stays true
    · rw [comes] at orderly ⊢
      have seen : see (lockReading.stage state tid)
          ⟨.attemptLock, ⟨proposed.elapsed, .expired⟩⟩ = .outside :=
        permitted rfl
      rw [seen]
      exact .removes _ orderly
  | edit =>
    cases performs
    exact ⟨rfl, .stays _⟩
  | removeLock =>
    cases performs
    exact ⟨rfl, .removes _ orderly⟩

/-- In every run whose steps are orderly, at most one `clu_parse` at a time is between its
return from `lockfile` and its own `unlock`, whatever the lock file is at the start. -/
theorem lockfile_excludes_when_orderly (rounds : Tid → Nat) {state : State Tid}
    (reaches : (system rounds).Reaches (fun _ => True) Orderly state) :
    MutuallyExclusive state := by
  have exclusive := @LockReading.exclusive_of_reaches _ _ _ _ _ lockReading _ (system rounds)
    AsksOutside _ _ (fun tid => careful_main (rounds tid)) (fun _ _ _ => rfl)
    (fun _ _ _ _ _ _ _ => respectful_of_orderly) reaches
  exact fun _ _ => exclusive.inside_unique

/-! ## Schedules -/

instance {calls : Nat} (state : State (Fin calls)) (entry : Entry commands (Fin calls) Ending) :
    Decidable (Orderly state entry) := by
  unfold Orderly
  split <;> infer_instance

def afterSeconds (elapsed : Nat) (confExists : Bool) : (op : Op) → commands.Reply op
  | .testConf => ⟨elapsed, confExists⟩
  | .attemptLock => ⟨elapsed, .waits⟩
  | .edit => ⟨elapsed, 0⟩
  | .removeLock => ⟨elapsed, ()⟩

def atOnce {calls : Nat} (tid : Fin calls) : Event commands (Fin calls) :=
  .step tid (afterSeconds 0 true)

def scheduled {calls : Nat}
    (check : State (Fin calls) → Entry commands (Fin calls) Ending → Bool)
    (events : List (Event commands (Fin calls))) : State (Fin calls) :=
  (system fun _ => 5).execute check (ThreadSystem.initial ⟨0, none⟩) events

theorem reaches_scheduled {calls : Nat}
    (check : State (Fin calls) → Entry commands (Fin calls) Ending → Bool)
    (events : List (Event commands (Fin calls))) :
    (system fun _ => 5).Reaches (fun _ => True) (ThreadSystem.Passing check)
      (scheduled check events) :=
  ThreadSystem.reaches_execute (.start trivial) events

local instance twoCalls : NeZero 2 :=
  ⟨by decide⟩

local instance threeCalls : NeZero 3 :=
  ⟨by decide⟩

def oneWaiting : State (Fin 2) :=
  scheduled (fun state entry => decide (Orderly state entry))
    [.arrive 0, .arrive 1, atOnce 0, atOnce 0, atOnce 1, .step 1 (afterSeconds 2 true)]

theorem lockfile_excludes_waiting_call :
    Inside oneWaiting 0 ∧ MutuallyExclusive oneWaiting := by
  refine ⟨by decide +kernel, lockfile_excludes_when_orderly (fun _ => 5) ?_⟩
  exact (reaches_scheduled _ _).mono fun _ _ passing => of_decide_eq_true passing

def lockExpires : State (Fin 2) :=
  scheduled (fun _ _ => true)
    [.arrive 0, .arrive 1, atOnce 0, atOnce 0, atOnce 1, .step 1 (afterSeconds 4 true), atOnce 1]

/-- The second call finds no `cluster.conf`, removes the lock file of the first one, and the
third call enters. -/
def removedUnasked : State (Fin 3) :=
  scheduled (fun _ _ => true)
    [.arrive 0, .arrive 1, .arrive 2, atOnce 0, atOnce 0, .step 1 (afterSeconds 0 false),
      atOnce 1, atOnce 2, atOnce 2]

/-- Two calls are inside together when the first one takes four seconds, and two are after a
call without a `cluster.conf`. -/
theorem lockfile_admits_two_calls :
    ((system fun _ => 5).Reaches (fun _ => True) (fun _ _ => True) lockExpires ∧
      ¬MutuallyExclusive lockExpires) ∧
    (system fun _ => 5).Reaches (fun _ => True) (fun _ _ => True) removedUnasked ∧
      ¬MutuallyExclusive removedUnasked := by
  refine ⟨⟨(reaches_scheduled _ _).mono fun _ _ _ => trivial, ?_⟩,
    (reaches_scheduled _ _).mono fun _ _ _ => trivial, ?_⟩
  · intro exclusive
    have together : Inside lockExpires 0 ∧ Inside lockExpires 1 := by decide +kernel
    cases exclusive 0 1 together.1 together.2
  · intro exclusive
    have together : Inside removedUnasked 0 ∧ Inside removedUnasked 2 := by decide +kernel
    cases exclusive 0 2 together.1 together.2

end Apos.CluParse
