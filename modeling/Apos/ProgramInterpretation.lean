import Apos.StatefulProgram

/-!
# Programs in an environment that answers

An environment with a state of its own answers every operation and changes by answering
it.  In such an environment a program with a state has exactly one course.  `Returns` says
how that course ends, and the rules below compose it along the program.
-/

namespace Apos

variable {S : Signature} {α β σ φ : Type}

/-- Run a program in an environment.  A program that halts returns nothing. -/
def Program.interpret (answer : (op : S.Op) → φ → S.Reply op × φ) :
    Program S α → φ → Option α × φ
  | .pure value, environment => (some value, environment)
  | .halt _, environment => (none, environment)
  | .call op next, environment =>
    (next (answer op environment).1).interpret answer (answer op environment).2

theorem Program.interpret_bind (answer : (op : S.Op) → φ → S.Reply op × φ)
    {program : Program S α} {next : α → Program S β} {environment mid : φ} {value : α}
    (returns : program.interpret answer environment = (some value, mid)) :
    (program.bind next).interpret answer environment = (next value).interpret answer mid := by
  induction program generalizing environment with
  | pure start =>
    cases returns
    rfl
  | halt cause => cases returns
  | call op rest ih => exact ih _ returns

namespace Stateful

def stop (cause : S.Halt) : Stateful S σ α :=
  fun _ => .halt cause

/-- In the environment `environment` the program returns `value`, leaves the state `after`
and leaves the environment `environment'`. -/
def Returns (answer : (op : S.Op) → φ → S.Reply op × φ) (act : Stateful S σ α) (before : σ)
    (environment : φ) (value : α) (after : σ) (environment' : φ) : Prop :=
  Program.interpret answer (act before) environment = (some (value, after), environment')

variable {answer : (op : S.Op) → φ → S.Reply op × φ} {before after : σ}
  {environment environment' : φ} {value : α}

theorem Returns.unique {act : Stateful S σ α} {otherValue : α} {otherAfter : σ}
    {otherEnvironment : φ}
    (returns : Returns answer act before environment value after environment')
    (other : Returns answer act before environment otherValue otherAfter otherEnvironment) :
    otherValue = value ∧ otherAfter = after ∧ otherEnvironment = environment' := by
  have same := other.symm.trans returns
  simp only [Prod.mk.injEq, Option.some.injEq] at same
  exact ⟨same.1.1, same.1.2, same.2⟩

theorem returns_pure : Returns answer (pure value) before environment value before environment :=
  rfl

theorem returns_bind {act : Stateful S σ α} {next : α → Stateful S σ β} {mid : σ} {between : φ}
    {last : β} (first : Returns answer act before environment value mid between)
    (second : Returns answer (next value) mid between last after environment') :
    Returns answer (act >>= next) before environment last after environment' :=
  (Program.interpret_bind answer first).trans second

theorem returns_ask {op : S.Op} {reply : S.Reply op}
    (answered : answer op environment = (reply, environment')) :
    Returns answer (ask op) before environment reply before environment' := by
  simp only [Returns, ask, Program.interpret, answered]

theorem returns_get : Returns answer get before environment before before environment :=
  rfl

theorem returns_modify {change : σ → σ} :
    Returns answer (modify change) before environment PUnit.unit (change before) environment :=
  rfl

theorem Returns.of_if {condition : Prop} [Decidable condition] {first second : Stateful S σ α}
    (holds : condition)
    (returns : Returns answer first before environment value after environment') :
    Returns answer (if condition then first else second) before environment value after
      environment' := by
  rwa [if_pos holds]

theorem Returns.of_else {condition : Prop} [Decidable condition] {first second : Stateful S σ α}
    (fails : ¬condition)
    (returns : Returns answer second before environment value after environment') :
    Returns answer (if condition then first else second) before environment value after
      environment' := by
  rwa [if_neg fails]

end Stateful

end Apos
