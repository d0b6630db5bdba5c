import Mathlib.Data.List.Basic
import Mathlib.Data.Sigma.Basic

/-!
# Programs as trees of atomic operations

A sequential piece of an event-driven daemon issues atomic operations on a
state it shares with the rest of the process and with its environment.  A
`Program` is the finite tree of those operations, branching on every reply.
The same tree is run sequentially against an environment, followed along one
history of replies, or interleaved with the trees of other threads.

The predicate transformer `Always` states what holds at every operation and at
every end of a program while an observer watches the exchanged replies.
-/

namespace Apos

/-- Atomic operations, the type of the reply to each of them, and the ways in
which the whole process can end. -/
structure Signature where
  Op : Type
  Reply : Op → Type
  Halt : Type

inductive Program (S : Signature) (α : Type) : Type where
  | pure (value : α)
  | halt (cause : S.Halt)
  | call (op : S.Op) (next : S.Reply op → Program S α)

inductive Outcome (S : Signature) (α : Type) : Type where
  | returned (value : α)
  | halted (cause : S.Halt)

abbrev Exchange (S : Signature) : Type := (op : S.Op) × S.Reply op

/-- An observer moves from state to state along the exchanges of a program and
restricts the operations the program may issue in each state. -/
structure Observer (S : Signature) (σ : Type) where
  observes : σ → (op : S.Op) → S.Reply op → σ → Prop
  permits : σ → S.Op → Prop

namespace Program

variable {S : Signature} {α β σ : Type}

def bind (program : Program S α) (next : α → Program S β) : Program S β :=
  match program with
  | .pure value => next value
  | .halt cause => .halt cause
  | .call op rest => .call op fun reply => (rest reply).bind next

instance : Monad (Program S) where
  pure := .pure
  bind := bind

def perform (op : S.Op) : Program S (S.Reply op) :=
  .call op .pure

@[simp]
theorem pure_bind (value : α) (next : α → Program S β) :
    ((Program.pure value : Program S α) >>= next) = next value :=
  rfl

@[simp]
theorem monad_pure_bind (value : α) (next : α → Program S β) :
    ((Pure.pure value : Program S α) >>= next) = next value :=
  rfl

@[simp]
theorem call_bind (op : S.Op) (rest : S.Reply op → Program S α)
    (next : α → Program S β) :
    ((Program.call op rest : Program S α) >>= next) =
      .call op fun reply => rest reply >>= next :=
  rfl

@[simp]
theorem perform_bind (op : S.Op) (next : S.Reply op → Program S β) :
    @Bind.bind (Program S) _ (no_index (S.Reply op)) _ (perform op) next =
      .call op next :=
  rfl

variable {condition : Prop}

@[simp]
theorem ite_bind [Decidable condition] (first second : Program S α) (next : α → Program S β) :
    ((if condition then first else second) >>= next) =
      if condition then first >>= next else second >>= next := by
  split <;> rfl

theorem bind_assoc {γ : Type} (program : Program S α)
    (first : α → Program S β) (second : β → Program S γ) :
    ((program >>= first) >>= second) =
      program >>= fun value => first value >>= second := by
  induction program with
  | pure | halt => rfl
  | call op rest ih =>
    simp only [call_bind]
    congr 1
    funext reply
    exact ih reply

/-! ## Always -/

/-- Every operation the program issues is permitted and every way it can end
satisfies `post`, for all replies the observer admits. -/
def Always (observer : Observer S σ) (post : σ → Outcome S α → Prop) :
    σ → Program S α → Prop
  | state, .pure value => post state (.returned value)
  | state, .halt cause => post state (.halted cause)
  | state, .call op next =>
    observer.permits state op ∧
      ∀ reply after, observer.observes state op reply after →
        Always observer post after (next reply)

variable {observer : Observer S σ}

variable {state : σ} {value : α}

@[simp]
theorem always_pure {post : σ → Outcome S α → Prop} :
    Always observer post state (.pure value) ↔
      post state (.returned value) :=
  Iff.rfl

@[simp]
theorem always_monad_pure {post : σ → Outcome S α → Prop} :
    Always observer post state (Pure.pure value) ↔
      post state (.returned value) :=
  Iff.rfl

@[simp]
theorem always_halt {post : σ → Outcome S α → Prop} {cause : S.Halt} :
    Always observer post state (.halt cause) ↔ post state (.halted cause) :=
  Iff.rfl

variable {program : Program S α}

theorem Always.mono {post weaker : σ → Outcome S α → Prop}
    (implies : ∀ state outcome, post state outcome → weaker state outcome)
    (always : Always observer post state program) : Always observer weaker state program := by
  induction program generalizing state with
  | pure | halt => exact implies state _ always
  | call op next ih =>
    exact ⟨always.1, fun reply after observed =>
      ih reply (always.2 reply after observed)⟩

/-- Sequencing: what the first program leaves behind must suffice for the
second one, and a process that already ended stays ended. -/
theorem Always.bind {mid : σ → Outcome S α → Prop}
    {post : σ → Outcome S β → Prop} {state : σ} {program : Program S α}
    {next : α → Program S β}
    (first : Always observer mid state program)
    (second : ∀ after value, mid after (.returned value) →
      Always observer post after (next value))
    (ended : ∀ after cause, mid after (.halted cause) →
      post after (.halted cause)) :
    Always observer post state (program >>= next) := by
  induction program generalizing state with
  | pure value => exact second state value first
  | halt cause => exact ended state cause first
  | call op rest ih =>
    exact ⟨first.1, fun reply after observed =>
      ih reply (first.2 reply after observed)⟩

def Returning (post : σ → α → Prop) (state : σ) : Outcome S α → Prop
  | .returned value => post state value
  | .halted _ => True

theorem returning_mono {post weaker : σ → α → Prop}
    (implies : ∀ state value, post state value → weaker state value) (state : σ) :
    ∀ outcome : Outcome S α, Returning post state outcome → Returning weaker state outcome
  | .returned value => implies state value
  | .halted _ => id

theorem Always.bind_returning {mid : σ → Outcome S α → Prop} {post : σ → β → Prop}
    {next : α → Program S β} (first : Always observer mid state program)
    (second : ∀ after value, mid after (.returned value) →
      Always observer (Returning post) after (next value)) :
    Always observer (Returning post) state (program >>= next) :=
  first.bind second fun _ _ _ => trivial

variable {first second : Program S α}

theorem always_ite {post : σ → Outcome S α → Prop} [Decidable condition] :
    Always observer post state (if condition then first else second) ↔
      (condition → Always observer post state first) ∧
        (¬condition → Always observer post state second) := by
  split <;> simp_all

/-! ## Operations a program can issue -/

def Uses (allowed : S.Op → Prop) : Program S α → Prop
  | .pure _ => True
  | .halt _ => True
  | .call op next => allowed op ∧ ∀ reply, (next reply).Uses allowed

theorem Uses.bind {allowed : S.Op → Prop} {program : Program S α}
    {next : α → Program S β} (first : program.Uses allowed)
    (second : ∀ value, (next value).Uses allowed) :
    (program >>= next).Uses allowed := by
  induction program with
  | pure value => exact second value
  | halt cause => trivial
  | call op rest ih =>
    exact ⟨first.1, fun reply => ih reply (first.2 reply)⟩

variable {allowed : S.Op → Prop} {op : S.Op}

theorem uses_perform (isAllowed : allowed op) : (perform op).Uses allowed :=
  ⟨isAllowed, fun _ => trivial⟩

theorem uses_ite [Decidable condition] (left : first.Uses allowed) (right : second.Uses allowed) :
    (if condition then first else second).Uses allowed := by
  split
  · exact left
  · exact right

/-! ## Views and histories -/

variable {next : S.Reply op → Program S α}

def folding (see : σ → Exchange S → σ) (permits : σ → S.Op → Prop) :
    Observer S σ where
  observes view op reply after := after = see view ⟨op, reply⟩
  permits := permits

theorem always_folding_call {see : σ → Exchange S → σ} {permits : σ → S.Op → Prop}
    {post : σ → Outcome S α → Prop} {view : σ} :
    Always (folding see permits) post view (.call op next) ↔
      permits view op ∧
        ∀ reply, Always (folding see permits) post (see view ⟨op, reply⟩)
          (next reply) := by
  constructor
  · intro always
    exact ⟨always.1, fun reply => always.2 reply _ rfl⟩
  · rintro ⟨permitted, continued⟩
    refine ⟨permitted, ?_⟩
    rintro reply after rfl
    exact continued reply

theorem always_folding_bind {see : σ → Exchange S → σ} {permits : σ → S.Op → Prop}
    {post : σ → Outcome S α → Prop} {view : σ} (permitted : permits view op)
    (continued : ∀ reply, Always (folding see permits) post (see view ⟨op, reply⟩) (next reply)) :
    Always (folding see permits) post view (perform op >>= next) :=
  always_folding_call.mpr ⟨permitted, continued⟩

def recording (permits : List (Exchange S) → S.Op → Prop) :
    Observer S (List (Exchange S)) where
  observes history op reply after := after = history ++ [⟨op, reply⟩]
  permits := permits

variable {permits : List (Exchange S) → S.Op → Prop} {post : List (Exchange S) → Outcome S α → Prop}
  {history : List (Exchange S)}

theorem always_recording_call :
    Always (recording permits) post history (.call op next) ↔
      permits history op ∧
        ∀ reply, Always (recording permits) post
          (history ++ [⟨op, reply⟩]) (next reply) :=
  @always_folding_call _ _ _ _ _ (fun history exchange => history ++ [exchange]) permits post
    history

theorem always_recording_bind (permitted : permits history op)
    (continued : ∀ reply, Always (recording permits) post (history ++ [⟨op, reply⟩]) (next reply)) :
    Always (recording permits) post history (perform op >>= next) :=
  always_recording_call.mpr ⟨permitted, continued⟩

/-- `Follows program history rest`: after exactly the exchanges of `history`
the program has `rest` left to do. -/
inductive Follows (program : Program S α) :
    List (Exchange S) → Program S α → Prop where
  | start : Follows program [] program
  | step {history : List (Exchange S)} {op : S.Op}
      {next : S.Reply op → Program S α} (reply : S.Reply op)
      (before : Follows program history (.call op next)) :
      Follows program (history ++ [⟨op, reply⟩]) (next reply)

theorem Follows.always {permits : List (Exchange S) → S.Op → Prop}
    {post : List (Exchange S) → Outcome S α → Prop}
    {program rest : Program S α} {history : List (Exchange S)}
    (follows : Follows program history rest)
    (always : Always (recording permits) post [] program) :
    Always (recording permits) post history rest := by
  induction follows with
  | start => exact always
  | step reply before ih => exact ih.2 reply _ rfl

/-! ## Complete paths -/

/-- Every complete path of the program satisfies `post`, which receives the
exchanges of the path and the way it ends. -/
def Ends : Program S α → (List (Exchange S) → Outcome S α → Prop) → Prop
  | .pure value, post => post [] (.returned value)
  | .halt cause, post => post [] (.halted cause)
  | .call op next, post =>
    ∀ reply, (next reply).Ends fun exchanges => post (⟨op, reply⟩ :: exchanges)

@[simp]
theorem ends_pure : (Program.pure value : Program S α).Ends post ↔ post [] (.returned value) :=
  Iff.rfl

@[simp]
theorem ends_monad_pure : (Pure.pure value : Program S α).Ends post ↔ post [] (.returned value) :=
  Iff.rfl

@[simp]
theorem ends_halt {cause : S.Halt} :
    (Program.halt cause : Program S α).Ends post ↔ post [] (.halted cause) :=
  Iff.rfl

@[simp]
theorem ends_call :
    (Program.call op next).Ends post ↔
      ∀ reply, (next reply).Ends fun exchanges =>
        post (⟨op, reply⟩ :: exchanges) :=
  Iff.rfl

@[simp]
theorem ends_ite [Decidable condition] :
    (if condition then first else second).Ends post ↔
      (condition → first.Ends post) ∧ (¬condition → second.Ends post) := by
  split <;> simp_all

theorem Ends.mono {weaker : List (Exchange S) → Outcome S α → Prop} (ends : program.Ends post)
    (implies : ∀ exchanges outcome, post exchanges outcome → weaker exchanges outcome) :
    program.Ends weaker := by
  induction program generalizing post weaker with
  | pure | halt => exact implies _ _ ends
  | call op next ih =>
    intro reply
    exact ih reply (ends reply) fun exchanges outcome => implies _ outcome

theorem Ends.bind {program : Program S α} {next : α → Program S β}
    {mid : List (Exchange S) → Outcome S α → Prop}
    {post : List (Exchange S) → Outcome S β → Prop}
    (first : program.Ends mid)
    (second : ∀ exchanges value, mid exchanges (.returned value) →
      (next value).Ends fun later => post (exchanges ++ later))
    (ended : ∀ exchanges cause, mid exchanges (.halted cause) →
      post exchanges (.halted cause)) :
    (program >>= next).Ends post := by
  induction program generalizing mid post with
  | pure value => exact second [] value first
  | halt cause => exact ended [] cause first
  | call op rest ih =>
    intro reply
    refine ih reply (first reply) ?_ ?_
    · intro exchanges value reached
      exact second _ value reached
    · intro exchanges cause reached
      exact ended _ cause reached

theorem Ends.bind_congr {first second : α → Program S β} (agree : program.Ends fun _ outcome =>
      ∀ value, outcome = .returned value → first value = second value) :
    program >>= first = program >>= second := by
  induction program with
  | pure value => exact agree value rfl
  | halt cause => rfl
  | call op rest ih =>
    simp only [call_bind]
    congr 1
    funext reply
    exact ih reply (agree reply)

def Returns (program : Program S α) : Prop :=
  program.Ends fun _ outcome => ∃ value, outcome = .returned value

theorem Returns.bind_ends {next : α → Program S β} {post : Outcome S β → Prop}
    (returns : program.Returns) (second : ∀ value, (next value).Ends fun _ => post) :
    (program >>= next).Ends fun _ => post :=
  Ends.bind returns (fun _ value _ => second value)
    fun _ _ ⟨_, impossible⟩ => by cases impossible

theorem Uses.ends {allowed : S.Op → Prop} {program : Program S α}
    {post : List (Exchange S) → Outcome S α → Prop}
    (uses : program.Uses allowed) (ends : program.Ends post) :
    program.Ends fun exchanges outcome =>
      (∀ exchange ∈ exchanges, allowed exchange.1) ∧ post exchanges outcome := by
  induction program generalizing post with
  | pure | halt => exact ⟨by simp, ends⟩
  | call op next ih =>
    intro reply
    refine (ih reply (uses.2 reply) (ends reply)).mono ?_
    rintro exchanges outcome ⟨within, reached⟩
    exact ⟨List.forall_mem_cons.mpr ⟨uses.1, within⟩, reached⟩

theorem ends_trivial (program : Program S α) :
    program.Ends fun _ _ => True := by
  induction program with
  | pure | halt => trivial
  | call op next ih => exact fun reply => ih reply

def Obeys (permits : List (Exchange S) → S.Op → Prop) (history : List (Exchange S))
    (program : Program S α) : Prop :=
  Always (recording permits) (fun _ _ => True) history program

theorem Uses.obeys (uses : program.Uses allowed)
    (permitted : ∀ reached op, allowed op → permits reached op) (history : List (Exchange S)) :
    program.Obeys permits history := by
  induction program generalizing history with
  | pure | halt => trivial
  | call op next ih =>
    exact always_recording_call.mpr
      ⟨permitted history op uses.1, fun reply => ih reply (uses.2 reply) _⟩

/-- A program that obeys a law leaves a history extended by one of its complete
paths. -/
theorem Obeys.always (obeys : program.Obeys permits history) (ends : program.Ends post) :
    Always (recording permits)
      (fun reached outcome => ∃ exchanges, reached = history ++ exchanges ∧
        post exchanges outcome) history program := by
  induction program generalizing post history with
  | pure | halt => exact ⟨[], by simp, ends⟩
  | call op next ih =>
    obtain ⟨permitted, continued⟩ := always_recording_call.mp obeys
    refine always_recording_call.mpr ⟨permitted, fun reply => ?_⟩
    refine (ih reply (continued reply) (ends reply)).mono ?_
    rintro reached outcome ⟨exchanges, rfl, reachedPost⟩
    exact ⟨⟨op, reply⟩ :: exchanges, by simp, reachedPost⟩

theorem Obeys.bind {permits : List (Exchange S) → S.Op → Prop}
    {program : Program S α} {next : α → Program S β} {history : List (Exchange S)}
    (first : program.Obeys permits history)
    (second : ∀ reached value, (next value).Obeys permits reached) :
    (program >>= next).Obeys permits history :=
  Always.bind first (fun reached value _ => second reached value) fun _ _ _ => trivial

def Halts (program : Program S α) : Prop :=
  program.Ends fun _ outcome => ∃ cause, outcome = .halted cause

theorem Halts.of_bind {next : α → Program S β} (halts : ∀ value, (next value).Halts) :
    (program >>= next).Halts :=
  (ends_trivial program).bind (fun _ value _ => halts value)
    fun _ cause _ => ⟨cause, rfl⟩

theorem Halts.ends (halts : program.Halts)
    (ended : ∀ exchanges cause, post exchanges (.halted cause)) : program.Ends post :=
  Ends.mono halts fun exchanges _ ⟨cause, halted⟩ => halted ▸ ended exchanges cause

theorem Always.of_folding {see : σ → Exchange S → σ}
    {permits : σ → S.Op → Prop} {post : σ → Outcome S α → Prop} {start : σ}
    {program : Program S α} {history : List (Exchange S)}
    (always : Always (folding see permits) post (history.foldl see start) program) :
    Always (recording fun reached => permits (reached.foldl see start))
      (fun reached => post (reached.foldl see start)) history program := by
  induction program generalizing history with
  | pure | halt => exact always
  | call op next ih =>
    obtain ⟨permitted, continued⟩ := always_folding_call.mp always
    refine always_recording_call.mpr ⟨permitted, fun reply => ih reply ?_⟩
    simpa using continued reply

end Program

/-! ## Sequential runs -/

/-- An environment proposes a reply to every operation, depending on all that
has been exchanged before. -/
abbrev Environment (S : Signature) : Type :=
  List (Exchange S) → (op : S.Op) → S.Reply op

/-- A machine answers an operation from its state and from what the environment
proposes, and moves to its next state. -/
structure Machine (S : Signature) (σ : Type) where
  act : σ → (op : S.Op) → S.Reply op → S.Reply op × σ

@[ext]
structure Finished (S : Signature) (σ α : Type) where
  outcome : Outcome S α
  state : σ
  history : List (Exchange S)

namespace Program

variable {S : Signature} {α β σ : Type}

def run (machine : Machine S σ) (env : Environment S) :
    Program S α → σ → List (Exchange S) → Finished S σ α
  | .pure value, state, history => ⟨.returned value, state, history⟩
  | .halt cause, state, history => ⟨.halted cause, state, history⟩
  | .call op next, state, history =>
    let answer := machine.act state op (env history op)
    run machine env (next answer.1) answer.2
      (history ++ [⟨op, answer.1⟩])

variable (machine : Machine S σ) (env : Environment S)

@[simp]
theorem run_pure (value : α) (state : σ) (history : List (Exchange S)) :
    (Program.pure value : Program S α).run machine env state history =
      ⟨.returned value, state, history⟩ :=
  rfl

@[simp]
theorem run_monad_pure (value : α) (state : σ)
    (history : List (Exchange S)) :
    (Pure.pure value : Program S α).run machine env state history =
      ⟨.returned value, state, history⟩ :=
  rfl

@[simp]
theorem run_halt (cause : S.Halt) (state : σ) (history : List (Exchange S)) :
    (Program.halt cause : Program S α).run machine env state history =
      ⟨.halted cause, state, history⟩ :=
  rfl

theorem run_call (op : S.Op) (next : S.Reply op → Program S α) (state : σ)
    (history : List (Exchange S)) :
    (Program.call op next).run machine env state history =
      (next (machine.act state op (env history op)).1).run machine env
        (machine.act state op (env history op)).2
        (history ++ [⟨op, (machine.act state op (env history op)).1⟩]) :=
  rfl

theorem run_bind (program : Program S α) (next : α → Program S β) (state : σ)
    (history : List (Exchange S)) :
    (program >>= next).run machine env state history =
      match (program.run machine env state history).outcome with
      | .returned value =>
        (next value).run machine env
          (program.run machine env state history).state
          (program.run machine env state history).history
      | .halted cause =>
        ⟨.halted cause, (program.run machine env state history).state,
          (program.run machine env state history).history⟩ := by
  induction program generalizing state history with
  | pure | halt => rfl
  | call op rest ih =>
    simp only [call_bind, run_call]
    exact ih _ _ _

variable {program : Program S α}

theorem run_bind_returned {next : α → Program S β} {state after : σ}
    {history reached : List (Exchange S)} {value : α}
    (returned : program.run machine env state history = ⟨.returned value, after, reached⟩) :
    (program >>= next).run machine env state history =
      (next value).run machine env after reached := by
  rw [run_bind, returned]

theorem Ends.run {post : List (Exchange S) → Outcome S α → Prop} (ends : program.Ends post)
    (state : σ) (history : List (Exchange S)) :
    ∃ exchanges, (program.run machine env state history).history = history ++ exchanges ∧
      post exchanges (program.run machine env state history).outcome := by
  induction program generalizing post state history with
  | pure | halt => exact ⟨[], by simp, ends⟩
  | call op next ih =>
    obtain ⟨exchanges, extended, reached⟩ := ih _ (ends _)
      (machine.act state op (env history op)).2
      (history ++ [⟨op, (machine.act state op (env history op)).1⟩])
    exact ⟨⟨op, _⟩ :: exchanges, by simpa [run_call] using extended, reached⟩

theorem Uses.run_state {allowed : S.Op → Prop} (uses : program.Uses allowed) {inv : σ → Prop}
    (keeps : ∀ state op reply, allowed op → inv state → inv (machine.act state op reply).2)
    {state : σ} (holds : inv state) (history : List (Exchange S)) :
    inv (program.run machine env state history).state := by
  induction program generalizing state history with
  | pure | halt => exact holds
  | call op next ih => exact ih _ (uses.2 _) (keeps state op _ uses.1 holds) _

end Program

end Apos
