import Mathlib.Algebra.Ring.Nat
import Apos.LockFiles

/-!
# The lock of the VLAN mapping file

`vlandef -v` protects the mapping between VLANs and adapters by a lock file.  `trylock` tests
the file, `lock` touches it, and every exit of the script but that of a usage error goes through
`unlock`, which removes it.  The test and the touch are two commands, and `unlock` does not ask
who made the file: a run that gives up waiting removes the file of the run it has waited for.

The system below runs any number of `vlandef -v` processes on one lock file.  A run is written
with continuations, since a failed check or a signal leaves the script from wherever it is.
-/

namespace Apos.Vlandef

/-! ## One run -/

inductive Part where
  | sanityCheck
  | parseArgs
  | confirm
  | checkArgs (index : Nat)
  | createVlan (index : Nat)
  | restore
  deriving DecidableEq, Repr

/-- The commands of a run.  `signalled` is no command of the script: it asks whether a trapped
signal has arrived when a command has ended. -/
inductive Op where
  | testLock
  | touchLock
  | removeLock
  | sleep
  | perform (part : Part)
  | signalled
  deriving DecidableEq, Repr

/-- A part of the script either goes on or names the status to leave the script with. -/
abbrev commands : Signature where
  Op := Op
  Reply
    | .testLock => Bool
    | .touchLock => Unit
    | .removeLock => Unit
    | .sleep => Unit
    | .perform _ => Option Nat
    | .signalled => Bool
  Halt := Empty

/-- How a run has ended; a run that is still waiting for the lock when its rounds are used up
takes no further step. -/
inductive Ending where
  | exited (status : Nat)
  | waiting
  deriving DecidableEq, Repr

abbrev Run : Type := Program commands Ending

def exitSucs : Nat := 0

def exitFail : Nat := 1

def lockTime : Nat := 10

def leave (status : Nat) : Run :=
  .call .removeLock fun _ => .pure (.exited status)

/-- `vlandef_abort`: the signals are ignored from here on, and a restoration that fails leaves
through `console_abort`. -/
def vlandefAbort : Run :=
  .call (.perform .restore) fun failure =>
    leave (failure.getD exitFail)

def command (op : Op) (next : commands.Reply op → Run) : Run :=
  .call op fun reply =>
    .call .signalled fun isSignalled =>
      if isSignalled then vlandefAbort else next reply

/-- A part of the script whose failures leave through `unlock`. -/
def check (part : Part) (next : Run) : Run :=
  command (.perform part) fun
    | none => next
    | some status => leave status

/-- The test at the end of `trylock`. -/
def lastTest (next : Bool → Run) : Run :=
  command .testLock fun isThere => next (!isThere)

/-- The loop of `trylock`.  A round in which the file disappears and comes back is not
counted, so the number of rounds is not bounded by `LOCK_TIME`. -/
def waitForLock : (rounds count : Nat) → (next : Bool → Run) → Run
  | 0, _, _ => .pure .waiting
  | rounds + 1, count, next =>
    if count ≤ lockTime then
      command .testLock fun isThere =>
        if isThere then
          command .sleep fun _ =>
            command .testLock fun remains =>
              if remains then waitForLock rounds (count + 1) next else lastTest next
        else
          command .testLock fun remains =>
            if remains then waitForLock rounds count next else lastTest next
    else lastTest next

def trylock (rounds : Nat) (next : Bool → Run) : Run :=
  command .testLock fun isThere =>
    if isThere then waitForLock rounds 0 next else next true

def lock (rounds : Nat) (next : Run) : Run :=
  trylock rounds fun succeeds =>
    if succeeds then command .touchLock fun _ => next else leave exitFail

/-- The loop of `vlandef_apg` over the VLANs from `index` on. -/
def createVlans : (left index : Nat) → (next : Run) → Run
  | 0, _, next => next
  | left + 1, index, next =>
    check (.checkArgs index) <|
      check (.createVlan index) <|
        createVlans left (index + 1) next

def vlandefApg (rounds vlans : Nat) (next : Run) : Run :=
  lock rounds <| createVlans vlans 0 <| command .removeLock fun _ => next

/-- `parse_args`: a usage error exits without `unlock`. -/
def parseArgs (next : Run) : Run :=
  command (.perform .parseArgs) fun
    | none => next
    | some status => .pure (.exited status)

/-- The main part of the script for `-v` with as many VLANs as given. -/
def main (rounds vlans : Nat) : Run :=
  check .sanityCheck <| parseArgs <| check .confirm <|
    vlandefApg rounds vlans (.pure (.exited exitSucs))

/-! ## Stages of a run -/

/-- A run is cleared when its last test has not found the file, inside after its touch, and
outside again after its removal. -/
def see (stage : LockStage) : Exchange commands → LockStage
  | ⟨.testLock, isThere⟩ =>
    if stage = .inside then .inside else if isThere then .outside else .cleared
  | ⟨.touchLock, _⟩ => .inside
  | ⟨.removeLock, _⟩ => .outside
  | _ => stage

/-- A run touches the file only when its last test has not found it. -/
def TouchesCleared (stage : LockStage) (op : Op) : Prop :=
  op = .touchLock → stage = .cleared

def Careful (stage : LockStage) (run : Run) : Prop :=
  Program.Always (Program.folding see TouchesCleared) (fun _ _ => True) stage run

variable {stage : LockStage} {op : Op}

theorem careful_call {next : commands.Reply op → Run} (permitted : TouchesCleared stage op)
    (continued : ∀ reply, Careful (see stage ⟨op, reply⟩) (next reply)) :
    Careful stage (.call op next) :=
  Program.always_folding_call.mpr ⟨permitted, continued⟩

theorem careful_leave (stage : LockStage) (status : Nat) : Careful stage (leave status) :=
  careful_call nofun fun _ => trivial

theorem careful_vlandefAbort (stage : LockStage) : Careful stage vlandefAbort :=
  careful_call nofun fun _ => careful_leave stage _

theorem careful_command {next : commands.Reply op → Run} (permitted : TouchesCleared stage op)
    (continued : ∀ reply, Careful (see stage ⟨op, reply⟩) (next reply)) :
    Careful stage (command op next) := by
  apply careful_call permitted
  intro reply
  refine careful_call nofun fun isSignalled => ?_
  split
  · exact careful_vlandefAbort _
  · exact continued reply

theorem careful_check {part : Part} {next : Run} (continued : Careful stage next) :
    Careful stage (check part next) := by
  refine careful_command nofun fun failure => ?_
  cases failure with
  | none => exact continued
  | some status => exact careful_leave _ status

theorem see_testLock_ne_inside (notInside : stage ≠ .inside) (isThere : Bool) :
    see stage ⟨.testLock, isThere⟩ ≠ .inside := by
  cases isThere <;> simp [see, notInside]

section Waiting

variable {next : Bool → Run}

theorem careful_lastTest {stage : LockStage} (notInside : stage ≠ .inside)
    (fails : ∀ later, Careful later (next false)) (succeeds : Careful .cleared (next true)) :
    Careful stage (lastTest next) := by
  refine careful_command nofun fun isThere => ?_
  cases isThere with
  | false => simpa [see, notInside] using succeeds
  | true => exact fails _

theorem careful_waitForLock (fails : ∀ later, Careful later (next false))
    (succeeds : Careful .cleared (next true)) (rounds count : Nat) {stage : LockStage}
    (notInside : stage ≠ .inside) : Careful stage (waitForLock rounds count next) := by
  induction rounds generalizing count stage with
  | zero => trivial
  | succ rounds ih =>
    have retest (counted : Nat) {reached : LockStage} (outside : reached ≠ .inside) :
        Careful reached (command .testLock fun remains =>
          if remains then waitForLock rounds counted next else lastTest next) := by
      refine careful_command nofun fun remains => ?_
      have still := see_testLock_ne_inside outside remains
      split
      · exact ih counted still
      · exact careful_lastTest still fails succeeds
    unfold waitForLock
    split
    · refine careful_command nofun fun isThere => ?_
      have still := see_testLock_ne_inside notInside isThere
      split
      · exact careful_command nofun fun _ => retest (count + 1) still
      · exact retest count still
    · exact careful_lastTest notInside fails succeeds

theorem careful_trylock (fails : ∀ later, Careful later (next false))
    (succeeds : Careful .cleared (next true)) (rounds : Nat) :
    Careful .outside (trylock rounds next) := by
  refine careful_command nofun fun isThere => ?_
  cases isThere with
  | false => exact succeeds
  | true => exact careful_waitForLock fails succeeds rounds 0 nofun

end Waiting

theorem careful_lock {next : Run} (continued : Careful .inside next) (rounds : Nat) :
    Careful .outside (lock rounds next) := by
  apply careful_trylock
  · exact fun later => careful_leave later exitFail
  · exact careful_command (fun _ => rfl) fun _ => continued

theorem careful_createVlans {next : Run} (left index : Nat) (continued : Careful stage next) :
    Careful stage (createVlans left index next) := by
  induction left generalizing index with
  | zero => exact continued
  | succ left ih => exact careful_check (careful_check (ih (index + 1)))

theorem careful_main (rounds vlans : Nat) : Careful .outside (main rounds vlans) := by
  apply careful_check
  refine careful_command nofun fun failure => ?_
  cases failure with
  | some status => trivial
  | none =>
    apply careful_check
    apply careful_lock
    apply careful_createVlans
    exact careful_command nofun fun _ => trivial

/-! ## Any number of runs -/

/-- What each run has been called with. -/
structure Calls (Tid : Type) where
  rounds : Tid → Nat
  vlans : Tid → Nat

/-- The world is the lock file: is it there?  Runs may start at any time. -/
def system {Tid : Type} (calls : Calls Tid) : ThreadSystem commands Bool Tid Ending where
  body tid := main (calls.rounds tid) (calls.vlans tid)
  perform world _ _ op proposed :=
    match op with
    | .testLock => .done world world none
    | .touchLock => .done () true none
    | .removeLock => .done () false none
    | .sleep => .done () world none
    | .perform _ => .done proposed world none
    | .signalled => .done proposed world none
  admits world _ _ := some world
  reboot world := world

def lockReading : LockReading commands Bool where
  see := see
  present := id

abbrev State (Tid : Type) : Type := Config commands Bool Tid Ending

variable {Tid : Type} [DecidableEq Tid]

/-- The run is between the return of `lock` and its own `unlock`. -/
def Inside (state : State Tid) (tid : Tid) : Prop :=
  lockReading.stage state tid = .inside

instance (state : State Tid) (tid : Tid) : Decidable (Inside state tid) :=
  inferInstanceAs (Decidable (_ = _))

/-- The run has passed its last test of the lock file and not touched the file yet. -/
def Passed (state : State Tid) (tid : Tid) : Prop :=
  lockReading.stage state tid = .cleared

instance (state : State Tid) (tid : Tid) : Decidable (Passed state tid) :=
  inferInstanceAs (Decidable (_ = _))

/-- The condition on a step, seen from the state before it: a test finds the lock file absent
only while no other run has passed its own test without touching the file yet, and a run removes
the lock file only while no other run is inside. -/
def Orderly (state : State Tid) : Entry commands Tid Ending → Prop
  | .did tid ⟨.testLock, false⟩ => ∀ other, other ≠ tid → ¬Passed state other
  | .did tid ⟨.removeLock, _⟩ => ∀ other, other ≠ tid → ¬Inside state other
  | _ => True

def MutuallyExclusive (state : State Tid) : Prop :=
  ∀ first second, Inside state first → Inside state second → first = second

theorem respectful_of_orderly {calls : Calls Tid} {state : State Tid} {tid : Tid}
    {proposed reply : commands.Reply op} {world : Bool} {spawned : Option Tid}
    (performs : (system calls).perform state.world
      (fun other => (state.threads other).isSome) tid op proposed = .done reply world spawned)
    (permitted : TouchesCleared (lockReading.stage state tid) op)
    (orderly : Orderly state (.did tid ⟨op, reply⟩)) :
    lockReading.Respects state tid ⟨op, reply⟩ world spawned := by
  change spawned = none ∧ RespectfulStep _ tid (see _ _) state.world world
  cases op with
  | testLock =>
    cases performs
    refine ⟨rfl, ?_⟩
    by_cases isInside : lockReading.stage state tid = .inside
    · have seen : see (lockReading.stage state tid) ⟨.testLock, state.world⟩ =
          lockReading.stage state tid := by
        simp [see, isInside]
      rw [seen]
      exact .stays _
    · cases found : state.world with
      | true =>
        have seen : see (lockReading.stage state tid) ⟨.testLock, true⟩ = .outside := by
          simp [see, isInside]
        rw [seen]
        exact .withdraws _
      | false =>
        have seen : see (lockReading.stage state tid) ⟨.testLock, false⟩ = .cleared := by
          simp [see, isInside]
        rw [found] at orderly
        rw [seen]
        exact .clears orderly
  | touchLock =>
    cases performs
    exact ⟨rfl, .enters _ (permitted rfl)⟩
  | removeLock =>
    cases performs
    exact ⟨rfl, .removes _ orderly⟩
  | sleep | perform | signalled =>
    cases performs
    exact ⟨rfl, .stays _⟩

/-- In every run whose steps are orderly, at most one `vlandef -v` at a time is between the
return of `lock` and its own `unlock`, whatever the lock file is at the start. -/
theorem lock_excludes_when_orderly (calls : Calls Tid) {state : State Tid}
    (reaches : (system calls).Reaches (fun _ => True) Orderly state) :
    MutuallyExclusive state := by
  have exclusive := @LockReading.exclusive_of_reaches _ _ _ _ _ lockReading _ (system calls)
    TouchesCleared _ _ (fun tid => careful_main (calls.rounds tid) (calls.vlans tid))
    (fun _ _ _ => rfl) (fun _ _ _ _ _ _ _ => respectful_of_orderly) reaches
  exact fun _ _ => exclusive.inside_unique

/-! ## Schedules -/

instance {runs : Nat} (state : State (Fin runs)) (entry : Entry commands (Fin runs) Ending) :
    Decidable (Orderly state entry) := by
  unfold Orderly
  split <;> infer_instance

def calm : (op : Op) → commands.Reply op
  | .testLock => false
  | .touchLock => ()
  | .removeLock => ()
  | .sleep => ()
  | .perform _ => none
  | .signalled => false

def advance {runs : Nat} (tid : Fin runs) (steps : Nat) : List (Event commands (Fin runs)) :=
  List.replicate steps (.step tid calm)

/-- Each run has one VLAN to create and waits as long as it takes. -/
def oneVlan (runs : Nat) : Calls (Fin runs) :=
  ⟨fun _ => 20, fun _ => 1⟩

def scheduled {runs : Nat}
    (check : State (Fin runs) → Entry commands (Fin runs) Ending → Bool)
    (events : List (Event commands (Fin runs))) : State (Fin runs) :=
  (system (oneVlan runs)).execute check (ThreadSystem.initial false) events

theorem reaches_scheduled {runs : Nat}
    (check : State (Fin runs) → Entry commands (Fin runs) Ending → Bool)
    (events : List (Event commands (Fin runs))) :
    (system (oneVlan runs)).Reaches (fun _ => True) (ThreadSystem.Passing check)
      (scheduled check events) :=
  ThreadSystem.reaches_execute (.start trivial) events

local instance twoRuns : NeZero 2 :=
  ⟨by decide⟩

local instance threeRuns : NeZero 3 :=
  ⟨by decide⟩

def oneWaiting : State (Fin 2) :=
  scheduled (fun state entry => decide (Orderly state entry))
    ([.arrive 0, .arrive 1] ++ advance 0 10 ++ advance 1 20)

theorem lock_excludes_waiting_run : Inside oneWaiting 0 ∧ MutuallyExclusive oneWaiting := by
  refine ⟨by decide +kernel, lock_excludes_when_orderly (oneVlan 2) ?_⟩
  exact (reaches_scheduled _ _).mono fun _ _ passing => of_decide_eq_true passing

/-- Two runs test the lock file before either of them touches it. -/
def twoTests : State (Fin 2) :=
  scheduled (fun _ _ => true)
    ([.arrive 0, .arrive 1] ++ advance 0 8 ++ advance 1 8 ++ advance 0 1 ++ advance 1 1)

/-- The second run waits in vain for the first one and removes its lock file, and the third
run enters. -/
def thirdEnters : State (Fin 3) :=
  scheduled (fun _ _ => true)
    ([.arrive 0, .arrive 1, .arrive 2] ++ advance 0 9 ++ advance 1 77 ++ advance 2 9)

/-- Two runs are inside together after two interleaved tests, and two are after a run between
them has given up waiting. -/
theorem lock_admits_two_runs :
    ((system (oneVlan 2)).Reaches (fun _ => True) (fun _ _ => True) twoTests ∧
      ¬MutuallyExclusive twoTests) ∧
    (system (oneVlan 3)).Reaches (fun _ => True) (fun _ _ => True) thirdEnters ∧
      ¬MutuallyExclusive thirdEnters := by
  refine ⟨⟨(reaches_scheduled _ _).mono fun _ _ _ => trivial, ?_⟩,
    (reaches_scheduled _ _).mono fun _ _ _ => trivial, ?_⟩
  · intro exclusive
    have together : Inside twoTests 0 ∧ Inside twoTests 1 := by decide +kernel
    cases exclusive 0 1 together.1 together.2
  · intro exclusive
    have together : Inside thirdEnters 0 ∧ Inside thirdEnters 2 := by decide +kernel
    cases exclusive 0 2 together.1 together.2

end Apos.Vlandef
