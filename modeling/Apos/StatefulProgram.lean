import Apos.EffectProgram

/-!
# Sequential programs with a state of their own

A component that runs in one thread keeps its state to itself and talks to the outside
by operations.  Such a component is a program of `Apos.EffectProgram` over a state
transformer.  This file describes its executions: the exchanges made, the value returned
and the state left behind.  It gives the rules by which an invariant between the state
and a view of the exchanges is kept by a program, by a handler of events and by a whole
run of events.
-/

namespace Apos

variable {S : Signature} {α β σ ν : Type}

/-! ## Complete executions -/

/-- `program.Yields exchanges value`: with exactly these exchanges the program returns
`value`. -/
inductive Program.Yields : Program S α → List (Exchange S) → α → Prop where
  | pure (value : α) : Yields (.pure value) [] value
  | call {op : S.Op} {next : S.Reply op → Program S α} (reply : S.Reply op)
      {exchanges : List (Exchange S)} {value : α}
      (rest : Yields (next reply) exchanges value) :
      Yields (.call op next) (⟨op, reply⟩ :: exchanges) value

namespace Program

theorem yields_pure {value returned : α} {exchanges : List (Exchange S)} :
    (Program.pure value : Program S α).Yields exchanges returned ↔
      exchanges = [] ∧ returned = value := by
  constructor
  · rintro ⟨⟩
    exact ⟨rfl, rfl⟩
  · rintro ⟨rfl, rfl⟩
    exact .pure _

theorem yields_call {op : S.Op} {next : S.Reply op → Program S α}
    {exchanges : List (Exchange S)} {value : α} :
    (Program.call op next).Yields exchanges value ↔
      ∃ reply rest, exchanges = ⟨op, reply⟩ :: rest ∧ (next reply).Yields rest value := by
  constructor
  · rintro ⟨⟩
    exact ⟨_, _, rfl, ‹_›⟩
  · rintro ⟨reply, rest, rfl, yields⟩
    exact .call reply yields

theorem yields_bind {program : Program S α} {next : α → Program S β}
    {exchanges : List (Exchange S)} {value : β} :
    (program.bind next).Yields exchanges value ↔
      ∃ first mid second, program.Yields first mid ∧ (next mid).Yields second value ∧
        exchanges = first ++ second := by
  induction program generalizing exchanges with
  | pure start => simp [Program.bind, yields_pure]
  | halt cause =>
    constructor
    · rintro ⟨⟩
    · rintro ⟨_, _, _, ⟨⟩, _, _⟩
  | call op rest ih =>
    simp only [Program.bind, yields_call, ih]
    constructor
    · rintro ⟨reply, _, rfl, first, mid, second, left, right, rfl⟩
      exact ⟨_, mid, second, ⟨reply, first, rfl, left⟩, right, rfl⟩
    · rintro ⟨_, mid, second, ⟨reply, first, rfl, left⟩, right, rfl⟩
      exact ⟨reply, first ++ second, rfl, first, mid, second, left, right, rfl⟩

/-- The execution in which every operation gets its reply from `answers`. -/
def answered (answers : (op : S.Op) → S.Reply op) :
    Program S α → List (Exchange S) × Option α
  | .pure value => ([], some value)
  | .halt _ => ([], none)
  | .call op next =>
    (⟨op, answers op⟩ :: (answered answers (next (answers op))).1,
      (answered answers (next (answers op))).2)

theorem yields_answered {answers : (op : S.Op) → S.Reply op} {program : Program S α}
    {value : α} (returns : (program.answered answers).2 = some value) :
    program.Yields (program.answered answers).1 value := by
  induction program with
  | pure start =>
    cases returns
    exact .pure _
  | halt cause => cases returns
  | call op next ih => exact .call _ (ih _ returns)

theorem reply_of_mem_answered {answers : (op : S.Op) → S.Reply op} {program : Program S α}
    {exchange : Exchange S} (member : exchange ∈ (program.answered answers).1) :
    exchange.2 = answers exchange.1 := by
  induction program with
  | pure | halt => cases member
  | call op next ih =>
    rcases List.mem_cons.mp member with rfl | later
    · rfl
    · exact ih _ later

theorem answered_returns (cannotHalt : S.Halt → False) (answers : (op : S.Op) → S.Reply op)
    (program : Program S α) : ∃ value, (program.answered answers).2 = some value := by
  induction program with
  | pure value => exact ⟨value, rfl⟩
  | halt cause => exact (cannotHalt cause).elim
  | call op next ih => exact ih _

end Program

abbrev Stateful (S : Signature) (σ : Type) : Type → Type :=
  StateT σ (Program S)

namespace Stateful

def ask (op : S.Op) : Stateful S σ (S.Reply op) :=
  fun state => .call op fun reply => .pure (reply, state)

/-- `act.Executes before exchanges value after`: started in the state `before`, the program
makes these exchanges, returns `value` and leaves the state `after`. -/
def Executes (act : Stateful S σ α) (before : σ) (exchanges : List (Exchange S))
    (value : α) (after : σ) : Prop :=
  Program.Yields (act before) exchanges (value, after)

variable {before after : σ} {exchanges : List (Exchange S)} {value : α}

@[simp]
theorem executes_pure {returned : α} :
    Executes (pure value : Stateful S σ α) before exchanges returned after ↔
      exchanges = [] ∧ returned = value ∧ after = before := by
  apply Iff.trans (@Program.yields_pure S _ (value, before) (returned, after) exchanges)
  rw [Prod.mk.injEq]

@[simp]
theorem executes_bind {act : Stateful S σ α} {next : α → Stateful S σ β} {returned : β} :
    Executes (act >>= next) before exchanges returned after ↔
      ∃ first mid state second, Executes act before first mid state ∧
        Executes (next mid) state second returned after ∧ exchanges = first ++ second := by
  have paths := @Program.yields_bind S _ _ (act before) (fun reached => next reached.1 reached.2)
    exchanges (returned, after)
  constructor
  · intro executes
    obtain ⟨first, ⟨mid, state⟩, second, left, right, split⟩ := paths.mp executes
    exact ⟨first, mid, state, second, left, right, split⟩
  · rintro ⟨first, mid, state, second, left, right, split⟩
    exact paths.mpr ⟨first, (mid, state), second, left, right, split⟩

@[simp]
theorem executes_ask {op : S.Op} {reply : S.Reply op} :
    Executes (ask op) before exchanges reply after ↔
      exchanges = [⟨op, reply⟩] ∧ after = before := by
  unfold Executes ask
  simp only [Program.yields_call, Program.yields_pure, Prod.mk.injEq]
  constructor
  · rintro ⟨_, _, rfl, rfl, rfl, rfl⟩
    exact ⟨rfl, rfl⟩
  · rintro ⟨rfl, rfl⟩
    exact ⟨_, _, rfl, rfl, rfl, rfl⟩

@[simp]
theorem executes_get {read : σ} :
    Executes (get : Stateful S σ σ) before exchanges read after ↔
      exchanges = [] ∧ read = before ∧ after = before := by
  apply Iff.trans (@Program.yields_pure S _ (before, before) (read, after) exchanges)
  rw [Prod.mk.injEq]

@[simp]
theorem executes_modify {change : σ → σ} {done : PUnit} :
    Executes (modify change : Stateful S σ PUnit) before exchanges done after ↔
      exchanges = [] ∧ after = change before := by
  apply Iff.trans (@Program.yields_pure S _ (PUnit.unit, change before) (done, after) exchanges)
  simp only [Prod.mk.injEq, true_and]

theorem executes_answered {act : Stateful S σ α} {answers : (op : S.Op) → S.Reply op}
    (returns : (Program.answered answers (act before)).2 = some (value, after)) :
    Executes act before (Program.answered answers (act before)).1 value after :=
  Program.yields_answered returns

/-! ## Postconditions -/

/-- Every execution from the state `before` satisfies the postcondition, which receives the
exchanges, the value and the state left behind. -/
structure Meets (act : Stateful S σ α) (before : σ)
    (post : List (Exchange S) → α → σ → Prop) : Prop where
  intro ::
  elim : ∀ {exchanges value after}, act.Executes before exchanges value after →
    post exchanges value after

section Meets

variable {post : List (Exchange S) → α → σ → Prop}

theorem Meets.mono {act : Stateful S σ α} {weaker : List (Exchange S) → α → σ → Prop}
    (meets : act.Meets before post)
    (implies : ∀ exchanges value after, post exchanges value after →
      weaker exchanges value after) : act.Meets before weaker :=
  ⟨fun executes => implies _ _ _ (meets.elim executes)⟩

theorem Meets.and {act : Stateful S σ α} {other : List (Exchange S) → α → σ → Prop}
    (meets : act.Meets before post) (meetsOther : act.Meets before other) :
    act.Meets before fun exchanges value after =>
      post exchanges value after ∧ other exchanges value after :=
  ⟨fun executes => ⟨meets.elim executes, meetsOther.elim executes⟩⟩

theorem meets_pure :
    Meets (pure value : Stateful S σ α) before post ↔ post [] value before := by
  constructor
  · exact fun meets => meets.elim (executes_pure.mpr ⟨rfl, rfl, rfl⟩)
  · intro holds
    constructor
    intro exchanges returned after executes
    obtain ⟨rfl, rfl, rfl⟩ := executes_pure.mp executes
    exact holds

theorem meets_bind {act : Stateful S σ α} {next : α → Stateful S σ β}
    {post : List (Exchange S) → β → σ → Prop} :
    Meets (act >>= next) before post ↔
      Meets act before fun first mid state =>
        Meets (next mid) state fun second => post (first ++ second) := by
  constructor
  · intro meets
    exact ⟨fun left => ⟨fun right =>
      meets.elim (executes_bind.mpr ⟨_, _, _, _, left, right, rfl⟩)⟩⟩
  · intro meets
    constructor
    intro exchanges returned after executes
    obtain ⟨first, mid, state, second, left, right, rfl⟩ := executes_bind.mp executes
    exact (meets.elim left).elim right

theorem Meets.bind {act : Stateful S σ α} {next : α → Stateful S σ β}
    {post : List (Exchange S) → β → σ → Prop} {mid : List (Exchange S) → α → σ → Prop}
    (meets : act.Meets before mid)
    (rest : ∀ first value state, mid first value state →
      Meets (next value) state fun second => post (first ++ second)) :
    Meets (act >>= next) before post :=
  meets_bind.mpr (meets.mono rest)

theorem meets_ask {op : S.Op} {post : List (Exchange S) → S.Reply op → σ → Prop} :
    Meets (ask op) before post ↔ ∀ reply, post [⟨op, reply⟩] reply before := by
  constructor
  · exact fun meets reply => meets.elim (executes_ask.mpr ⟨rfl, rfl⟩)
  · intro holds
    constructor
    intro exchanges reply after executes
    obtain ⟨rfl, rfl⟩ := executes_ask.mp executes
    exact holds reply

theorem meets_get {post : List (Exchange S) → σ → σ → Prop} :
    Meets (get : Stateful S σ σ) before post ↔ post [] before before := by
  constructor
  · exact fun meets => meets.elim (executes_get.mpr ⟨rfl, rfl, rfl⟩)
  · intro holds
    constructor
    intro exchanges read after executes
    obtain ⟨rfl, rfl, rfl⟩ := executes_get.mp executes
    exact holds

theorem meets_modify {change : σ → σ} {post : List (Exchange S) → PUnit → σ → Prop} :
    Meets (modify change : Stateful S σ PUnit) before post ↔
      post [] PUnit.unit (change before) := by
  constructor
  · exact fun meets => meets.elim (executes_modify.mpr ⟨rfl, rfl⟩)
  · intro holds
    constructor
    intro exchanges done after executes
    obtain ⟨rfl, rfl⟩ := executes_modify.mp executes
    exact holds

section Binds

variable {post : List (Exchange S) → β → σ → Prop}

theorem meets_bind_ask {op : S.Op} {next : S.Reply op → Stateful S σ β} :
    Meets (ask op >>= next) before post ↔
      ∀ reply, Meets (next reply) before fun second => post ([⟨op, reply⟩] ++ second) :=
  meets_bind.trans meets_ask

theorem meets_bind_get {next : σ → Stateful S σ β} :
    Meets (get >>= next) before post ↔ Meets (next before) before post :=
  meets_bind.trans meets_get

theorem meets_bind_modify {change : σ → σ} {next : PUnit → Stateful S σ β} :
    Meets (modify change >>= next) before post ↔ Meets (next .unit) (change before) post :=
  meets_bind.trans meets_modify

end Binds

theorem meets_ite {condition : Prop} [Decidable condition] {first second : Stateful S σ α} :
    Meets (if condition then first else second) before post ↔
      (condition → Meets first before post) ∧ (¬condition → Meets second before post) := by
  split <;> simp [*]

end Meets

def Admits (act : Stateful S σ α) (before : σ)
    (post : List (Exchange S) → α → σ → Prop) : Prop :=
  ∃ exchanges value after, act.Executes before exchanges value after ∧
    post exchanges value after

section Admits

variable {post : List (Exchange S) → α → σ → Prop}

theorem admits_any {act : Stateful S σ α} (cannotHalt : S.Halt → False)
    (answers : (op : S.Op) → S.Reply op)
    (holds : ∀ exchanges value after, post exchanges value after) : act.Admits before post := by
  obtain ⟨⟨value, after⟩, returns⟩ := Program.answered_returns cannotHalt answers (act before)
  exact ⟨_, value, after, executes_answered returns, holds _ _ _⟩

theorem admits_pure (holds : post [] value before) :
    Admits (pure value : Stateful S σ α) before post :=
  ⟨[], value, before, executes_pure.mpr ⟨rfl, rfl, rfl⟩, holds⟩

theorem admits_bind {act : Stateful S σ α} {next : α → Stateful S σ β}
    {post : List (Exchange S) → β → σ → Prop}
    (admits : Admits act before fun first mid state =>
      Admits (next mid) state fun second => post (first ++ second)) :
    Admits (act >>= next) before post := by
  obtain ⟨first, mid, state, left, second, value, after, right, holds⟩ := admits
  exact ⟨first ++ second, value, after,
    executes_bind.mpr ⟨first, mid, state, second, left, right, rfl⟩, holds⟩

theorem admits_ask {op : S.Op} {post : List (Exchange S) → S.Reply op → σ → Prop}
    (reply : S.Reply op) (holds : post [⟨op, reply⟩] reply before) :
    Admits (ask op) before post :=
  ⟨_, reply, before, executes_ask.mpr ⟨rfl, rfl⟩, holds⟩

theorem admits_get {post : List (Exchange S) → σ → σ → Prop} (holds : post [] before before) :
    Admits (get : Stateful S σ σ) before post :=
  ⟨[], before, before, executes_get.mpr ⟨rfl, rfl, rfl⟩, holds⟩

theorem admits_modify {change : σ → σ} {post : List (Exchange S) → PUnit → σ → Prop}
    (holds : post [] PUnit.unit (change before)) :
    Admits (modify change : Stateful S σ PUnit) before post :=
  ⟨[], PUnit.unit, change before, executes_modify.mpr ⟨rfl, rfl⟩, holds⟩

theorem admits_bind_get {next : σ → Stateful S σ β} {post : List (Exchange S) → β → σ → Prop}
    (admits : Admits (next before) before post) : Admits (get >>= next) before post :=
  admits_bind (admits_get admits)

theorem admits_bind_modify {change : σ → σ} {next : PUnit → Stateful S σ β}
    {post : List (Exchange S) → β → σ → Prop}
    (admits : Admits (next .unit) (change before) post) :
    Admits (modify change >>= next) before post :=
  admits_bind (admits_modify admits)

end Admits

/-! ## Invariants -/

/-- The program keeps `inv`, a relation between its state and a view of the exchanges, as
long as every exchange is `okay`. -/
def Keeps (okay : Exchange S → Prop) (see : ν → Exchange S → ν) (inv : σ → ν → Prop)
    (act : Stateful S σ α) : Prop :=
  ∀ before view, inv before view → act.Meets before fun exchanges _ after =>
    (∀ exchange ∈ exchanges, okay exchange) → inv after (exchanges.foldl see view)

/-- From a state and a view in `pre` the program leads to a value, a state and a view in
`post`, as long as every exchange is `okay`. -/
def Leads (okay : Exchange S → Prop) (see : ν → Exchange S → ν) (pre : σ → ν → Prop)
    (act : Stateful S σ α) (post : α → σ → ν → Prop) : Prop :=
  ∀ before view, pre before view → act.Meets before fun exchanges value after =>
    (∀ exchange ∈ exchanges, okay exchange) → post value after (exchanges.foldl see view)

section Keeps

variable {okay : Exchange S → Prop} {see : ν → Exchange S → ν} {inv : σ → ν → Prop}

theorem Leads.bind {pre : σ → ν → Prop} {act : Stateful S σ α} {mid : α → σ → ν → Prop}
    {next : α → Stateful S σ β} {post : β → σ → ν → Prop} (first : Leads okay see pre act mid)
    (second : ∀ value, Leads okay see (mid value) (next value) post) :
    Leads okay see pre (act >>= next) post := by
  intro before view holds
  rw [meets_bind]
  constructor
  intro left value state ranFirst
  constructor
  intro right last after ranSecond allOkay
  rw [List.foldl_append]
  have midHolds : mid value state (left.foldl see view) := by
    apply (first before view holds).elim ranFirst
    exact fun exchange member => allOkay exchange (List.mem_append_left _ member)
  apply (second value state _ midHolds).elim ranSecond
  exact fun exchange member => allOkay exchange (List.mem_append_right _ member)

theorem Leads.of_ite {condition : Prop} [Decidable condition] {pre : σ → ν → Prop}
    {first second : Stateful S σ α} {post : α → σ → ν → Prop}
    (left : Leads okay see pre first post) (right : Leads okay see pre second post) :
    Leads okay see pre (if condition then first else second) post := by
  split <;> assumption

theorem Keeps.of_pure (value : α) : Keeps okay see inv (pure value : Stateful S σ α) :=
  fun _ _ holds => meets_pure.mpr fun _ => holds

theorem Keeps.bind {act : Stateful S σ α} {next : α → Stateful S σ β}
    (first : Keeps okay see inv act) (second : ∀ value, Keeps okay see inv (next value)) :
    Keeps okay see inv (act >>= next) :=
  Leads.bind first second

theorem Keeps.of_ask {op : S.Op}
    (neutral : ∀ state view reply, okay ⟨op, reply⟩ → inv state view →
      inv state (see view ⟨op, reply⟩)) :
    Keeps okay see inv (ask op : Stateful S σ (S.Reply op)) :=
  fun before view holds => meets_ask.mpr fun reply allOkay =>
    neutral before view reply (allOkay _ (List.mem_singleton_self _)) holds

theorem Keeps.of_get : Keeps okay see inv (get : Stateful S σ σ) :=
  fun _ _ holds => meets_get.mpr fun _ => holds

theorem Keeps.of_modify {change : σ → σ}
    (unaffected : ∀ state view, inv state view → inv (change state) view) :
    Keeps okay see inv (modify change : Stateful S σ PUnit) :=
  fun before view holds => meets_modify.mpr fun _ => unaffected before view holds

theorem Keeps.of_ite {condition : Prop} [Decidable condition] {first second : Stateful S σ α}
    (left : Keeps okay see inv first) (right : Keeps okay see inv second) :
    Keeps okay see inv (if condition then first else second) :=
  Leads.of_ite left right

end Keeps

/-! ## Runs of events -/

structure Step (S : Signature) (Event β : Type) where
  event : Event
  exchanges : List (Exchange S)
  value : β

variable {Event : Type}

def exchangesOf (steps : List (Step S Event β)) : List (Exchange S) :=
  steps.flatMap Step.exchanges

/-- `Runs handle enabled start steps final`: from the state `start` the events of `steps` are
handled one after the other, each in a state in which it is enabled, and `final` is the
state after the last one. -/
inductive Runs (handle : Event → Stateful S σ β) (enabled : σ → Event → Prop) (start : σ) :
    List (Step S Event β) → σ → Prop where
  | nil : Runs handle enabled start [] start
  | snoc {steps : List (Step S Event β)} {mid final : σ} {event : Event}
      {exchanges : List (Exchange S)} {value : β}
      (before : Runs handle enabled start steps mid) (isEnabled : enabled mid event)
      (executes : (handle event).Executes mid exchanges value final) :
      Runs handle enabled start (steps ++ [⟨event, exchanges, value⟩]) final

theorem Runs.keeps {handle : Event → Stateful S σ β} {enabled : σ → Event → Prop}
    {okay : Exchange S → Prop} {see : ν → Exchange S → ν} {inv : σ → ν → Prop}
    {start final : σ} {steps : List (Step S Event β)} {view : ν}
    (runs : Runs handle enabled start steps final)
    (keeps : ∀ step ∈ steps, Keeps okay see inv (handle step.event))
    (allOkay : ∀ exchange ∈ exchangesOf steps, okay exchange) (holds : inv start view) :
    inv final ((exchangesOf steps).foldl see view) := by
  induction runs with
  | nil => exact holds
  | @snoc steps mid final event exchanges value before isEnabled executes ih =>
    simp only [exchangesOf, List.flatMap_append, List.mem_append, List.flatMap_singleton,
      List.foldl_append] at *
    have midHolds : inv mid ((steps.flatMap Step.exchanges).foldl see view) := by
      apply ih
      · exact fun step member => keeps step (.inl member)
      · exact fun exchange member => allOkay exchange (.inl member)
    have keepsLast := keeps ⟨event, exchanges, value⟩ (.inr (List.mem_singleton_self _))
    apply (keepsLast mid _ midHolds).elim executes
    exact fun exchange member => allOkay exchange (.inr member)

/-- Handle the events of a script, each with the replies it comes with, after the steps
already made. -/
def play (handle : Event → Stateful S σ β) (enabled : σ → Event → Prop)
    [∀ state, DecidablePred (enabled state)] :
    List (Event × ((op : S.Op) → S.Reply op)) → List (Step S Event β) → σ →
      Option (List (Step S Event β) × σ)
  | [], steps, state => some (steps, state)
  | (event, answers) :: script, steps, state =>
    if enabled state event then
      match Program.answered answers (handle event state) with
      | (exchanges, some (value, after)) =>
        play handle enabled script (steps ++ [⟨event, exchanges, value⟩]) after
      | (_, none) => none
    else none

theorem runs_play {handle : Event → Stateful S σ β} {enabled : σ → Event → Prop}
    [∀ state, DecidablePred (enabled state)]
    {script : List (Event × ((op : S.Op) → S.Reply op))} {start mid final : σ}
    {steps all : List (Step S Event β)} (runs : Runs handle enabled start steps mid)
    (played : play handle enabled script steps mid = some (all, final)) :
    Runs handle enabled start all final := by
  induction script generalizing steps mid with
  | nil =>
    cases played
    exact runs
  | cons entry script ih =>
    obtain ⟨event, answers⟩ := entry
    unfold play at played
    split at played
    · next isEnabled =>
        split at played
        · next exchanges value after answered =>
            apply ih _ played
            apply Runs.snoc runs isEnabled
            have returns : (Program.answered answers (handle event mid)).2 =
                some (value, after) := by rw [answered]
            have executes := executes_answered returns
            rwa [answered] at executes
        · cases played
    · cases played

end Stateful

end Apos
