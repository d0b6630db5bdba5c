import Apos.ProgramInterpretation

/-!
# Programs on a world that may fail

The outside of a program is a world that admits some replies to an operation, several of
them where an operation can fail, and that changes with the operation and the reply.
`Ensures` states what holds of every execution that such a world allows, with rules that
follow the structure of the program.

A component is often part of a larger one.  Its operations are then operations of the
larger component, its state is a part of the larger state and its world a part of the
larger world.  What it ensures on its own it ensures there.
-/

namespace Apos

variable {S T : Signature} {α β σ τ ω φ : Type}

/-- A world, seen through the replies it admits and its changes. -/
structure WorldModel (S : Signature) (ω : Type) where
  admits : ω → (op : S.Op) → S.Reply op → Prop
  after : ω → (op : S.Op) → S.Reply op → ω

namespace WorldModel

variable (model : WorldModel S ω)

def Allows : ω → List (Exchange S) → Prop
  | _, [] => True
  | world, ⟨op, reply⟩ :: exchanges =>
    model.admits world op reply ∧ Allows (model.after world op reply) exchanges

def final (world : ω) (exchanges : List (Exchange S)) : ω :=
  exchanges.foldl (fun reached exchange => model.after reached exchange.1 exchange.2) world

@[simp]
theorem final_nil (world : ω) : model.final world [] = world :=
  rfl

@[simp]
theorem final_cons (world : ω) (exchange : Exchange S) (exchanges : List (Exchange S)) :
    model.final world (exchange :: exchanges) =
      model.final (model.after world exchange.1 exchange.2) exchanges :=
  rfl

@[simp]
theorem final_append (world : ω) (first second : List (Exchange S)) :
    model.final world (first ++ second) = model.final (model.final world first) second :=
  List.foldl_append

theorem allows_append {world : ω} {first second : List (Exchange S)} :
    model.Allows world (first ++ second) ↔
      model.Allows world first ∧ model.Allows (model.final world first) second := by
  induction first generalizing world with
  | nil => exact (and_iff_right trivial).symm
  | cons exchange first ih =>
    obtain ⟨op, reply⟩ := exchange
    rw [List.cons_append, Allows, Allows, ih, and_assoc, final_cons]

end WorldModel

namespace Stateful

variable {model : WorldModel S ω} {before after : σ} {world : ω} {value : α}

/-- Every execution from the state `before` that the world allows satisfies the
postcondition, which receives the exchanges, the value, the state left behind and the world
afterwards. -/
structure Ensures (model : WorldModel S ω) (act : Stateful S σ α) (before : σ) (world : ω)
    (post : List (Exchange S) → α → σ → ω → Prop) : Prop where
  intro ::
  elim : ∀ {exchanges value after}, act.Executes before exchanges value after →
    model.Allows world exchanges → post exchanges value after (model.final world exchanges)

section Ensures

variable {post : List (Exchange S) → α → σ → ω → Prop}

theorem Ensures.mono {act : Stateful S σ α} {weaker : List (Exchange S) → α → σ → ω → Prop}
    (ensures : Ensures model act before world post)
    (implies : ∀ exchanges value after reached, post exchanges value after reached →
      weaker exchanges value after reached) : Ensures model act before world weaker :=
  ⟨fun executes allowed => implies _ _ _ _ (ensures.elim executes allowed)⟩

theorem ensures_pure (holds : post [] value before world) :
    Ensures model (pure value : Stateful S σ α) before world post := by
  constructor
  intro exchanges returned after executes _
  obtain ⟨rfl, rfl, rfl⟩ := executes_pure.mp executes
  exact holds

theorem ensures_bind {act : Stateful S σ α} {next : α → Stateful S σ β}
    {post : List (Exchange S) → β → σ → ω → Prop}
    (ensures : Ensures model act before world fun first mid state reached =>
      Ensures model (next mid) state reached fun second => post (first ++ second)) :
    Ensures model (act >>= next) before world post := by
  constructor
  intro exchanges returned after executes allowed
  obtain ⟨first, mid, state, second, left, right, rfl⟩ := executes_bind.mp executes
  obtain ⟨allowedFirst, allowedSecond⟩ := model.allows_append.mp allowed
  rw [model.final_append]
  exact (ensures.elim left allowedFirst).elim right allowedSecond

theorem Ensures.bind {act : Stateful S σ α} {next : α → Stateful S σ β}
    {post : List (Exchange S) → β → σ → ω → Prop} {mid : List (Exchange S) → α → σ → ω → Prop}
    (ensures : Ensures model act before world mid)
    (rest : ∀ first value state reached, mid first value state reached →
      Ensures model (next value) state reached fun second => post (first ++ second)) :
    Ensures model (act >>= next) before world post :=
  ensures_bind (ensures.mono rest)

theorem ensures_ask {op : S.Op} {post : List (Exchange S) → S.Reply op → σ → ω → Prop}
    (holds : ∀ reply, model.admits world op reply →
      post [⟨op, reply⟩] reply before (model.after world op reply)) :
    Ensures model (ask op) before world post := by
  constructor
  intro exchanges reply after executes allowed
  obtain ⟨rfl, rfl⟩ := executes_ask.mp executes
  exact holds reply allowed.1

theorem ensures_get {post : List (Exchange S) → σ → σ → ω → Prop}
    (holds : post [] before before world) :
    Ensures model (get : Stateful S σ σ) before world post := by
  constructor
  intro exchanges read after executes _
  obtain ⟨rfl, rfl, rfl⟩ := executes_get.mp executes
  exact holds

theorem ensures_modify {change : σ → σ} {post : List (Exchange S) → PUnit → σ → ω → Prop}
    (holds : post [] PUnit.unit (change before) world) :
    Ensures model (modify change : Stateful S σ PUnit) before world post := by
  constructor
  intro exchanges done after executes _
  obtain ⟨rfl, rfl⟩ := executes_modify.mp executes
  exact holds

section Binds

variable {post : List (Exchange S) → β → σ → ω → Prop}

theorem ensures_bind_ask {op : S.Op} {next : S.Reply op → Stateful S σ β}
    (ensures : ∀ reply, model.admits world op reply →
      Ensures model (next reply) before (model.after world op reply) fun second =>
        post ([⟨op, reply⟩] ++ second)) :
    Ensures model (ask op >>= next) before world post :=
  ensures_bind (ensures_ask ensures)

theorem ensures_bind_get {next : σ → Stateful S σ β}
    (ensures : Ensures model (next before) before world post) :
    Ensures model (get >>= next) before world post :=
  ensures_bind (ensures_get ensures)

theorem ensures_bind_modify {change : σ → σ} {next : PUnit → Stateful S σ β}
    (ensures : Ensures model (next .unit) (change before) world post) :
    Ensures model (modify change >>= next) before world post :=
  ensures_bind (ensures_modify ensures)

end Binds

theorem ensures_ite {condition : Prop} [Decidable condition] {first second : Stateful S σ α}
    (left : condition → Ensures model first before world post)
    (right : ¬condition → Ensures model second before world post) :
    Ensures model (if condition then first else second) before world post := by
  split
  · next holds => exact left holds
  · next fails => exact right fails

theorem ensures_ite_bool {flag : Bool} {first second : Stateful S σ α}
    (left : flag = true → Ensures model first before world post)
    (right : flag = false → Ensures model second before world post) :
    Ensures model (if flag then first else second) before world post :=
  ensures_ite left fun fails => right (eq_false_of_ne_true fails)

theorem ensures_stop {cause : S.Halt} :
    Ensures model (stop cause : Stateful S σ α) before world post := by
  constructor
  intro exchanges returned after executes
  cases executes

end Ensures

/-! ## The operations a program asks for -/

/-- Whatever the state and the replies, the program asks only for such operations. -/
structure Only (asked : S.Op → Prop) (act : Stateful S σ α) : Prop where
  intro ::
  elim : ∀ {before exchanges value after}, act.Executes before exchanges value after →
    ∀ exchange ∈ exchanges, asked exchange.1

section Only

variable {asked : S.Op → Prop}

theorem Only.of_pure (value : α) : Only asked (pure value : Stateful S σ α) := by
  constructor
  intro before exchanges returned after executes
  obtain ⟨rfl, -, -⟩ := executes_pure.mp executes
  exact List.forall_mem_nil _

theorem Only.bind {act : Stateful S σ α} {next : α → Stateful S σ β}
    (first : Only asked act) (second : ∀ value, Only asked (next value)) :
    Only asked (act >>= next) := by
  constructor
  intro before exchanges returned after executes exchange member
  obtain ⟨left, mid, state, right, ranFirst, ranSecond, rfl⟩ := executes_bind.mp executes
  rcases List.mem_append.mp member with early | late
  · exact first.elim ranFirst exchange early
  · exact (second mid).elim ranSecond exchange late

theorem Only.of_ask {op : S.Op} (isAsked : asked op) :
    Only asked (ask op : Stateful S σ (S.Reply op)) := by
  constructor
  intro before exchanges reply after executes exchange member
  obtain ⟨rfl, -⟩ := executes_ask.mp executes
  rw [List.mem_singleton.mp member]
  exact isAsked

theorem Only.of_get : Only asked (get : Stateful S σ σ) := by
  constructor
  intro before exchanges read after executes
  obtain ⟨rfl, -, -⟩ := executes_get.mp executes
  exact List.forall_mem_nil _

theorem Only.of_modify (change : σ → σ) : Only asked (modify change : Stateful S σ PUnit) := by
  constructor
  intro before exchanges done after executes
  obtain ⟨rfl, -⟩ := executes_modify.mp executes
  exact List.forall_mem_nil _

theorem Only.of_ite {condition : Prop} [Decidable condition] {first second : Stateful S σ α}
    (left : Only asked first) (right : Only asked second) :
    Only asked (if condition then first else second) := by
  split
  · exact left
  · exact right

theorem Only.of_stop (cause : S.Halt) : Only asked (stop cause : Stateful S σ α) := by
  constructor
  intro before exchanges returned after executes
  cases executes

theorem Only.mono {act : Stateful S σ α} {more : S.Op → Prop} (only : Only asked act)
    (implies : ∀ op, asked op → more op) : Only more act :=
  ⟨fun executes exchange member => implies _ (only.elim executes exchange member)⟩

theorem Ensures.and_only {act : Stateful S σ α} {post : List (Exchange S) → α → σ → ω → Prop}
    (ensures : Ensures model act before world post) (only : Only asked act) :
    Ensures model act before world fun exchanges value after reached =>
      (∀ exchange ∈ exchanges, asked exchange.1) ∧ post exchanges value after reached :=
  ⟨fun executes allowed => ⟨only.elim executes, ensures.elim executes allowed⟩⟩

end Only

end Stateful

/-! ## Replies chosen by the world -/

namespace Program

variable (model : WorldModel S ω) (choose : ω → (op : S.Op) → S.Reply op)

def inWorld : Program S α → ω → List (Exchange S) × Option α
  | .pure value, _ => ([], some value)
  | .halt _, _ => ([], none)
  | .call op next, world =>
    let rest := (next (choose world op)).inWorld (model.after world op (choose world op))
    (⟨op, choose world op⟩ :: rest.1, rest.2)

variable {model choose}

theorem yields_inWorld {program : Program S α} {world : ω} {value : α}
    (returns : (program.inWorld model choose world).2 = some value) :
    program.Yields (program.inWorld model choose world).1 value := by
  induction program generalizing world with
  | pure start =>
    cases returns
    exact .pure _
  | halt cause => cases returns
  | call op next ih => exact .call _ (ih _ returns)

theorem allows_inWorld (admitted : ∀ world op, model.admits world op (choose world op))
    (program : Program S α) (world : ω) :
    model.Allows world (program.inWorld model choose world).1 := by
  induction program generalizing world with
  | pure | halt => trivial
  | call op next ih => exact ⟨admitted world op, ih _ _⟩

end Program

/-! ## Components of a larger component -/

/-- The operations of one signature among those of another, with the same replies. -/
structure Inclusion (S T : Signature) where
  op : S.Op → T.Op
  reply : (inner : S.Op) → S.Reply inner → T.Reply (op inner)
  back : (inner : S.Op) → T.Reply (op inner) → S.Reply inner
  reply_back : ∀ inner reply', reply inner (back inner reply') = reply'
  back_reply : ∀ inner reply', back inner (reply inner reply') = reply'
  halt : S.Halt → T.Halt

namespace Inclusion

variable (inclusion : Inclusion S T)

def exchange (exchange : Exchange S) : Exchange T :=
  ⟨inclusion.op exchange.1, inclusion.reply exchange.1 exchange.2⟩

end Inclusion

def Program.includeIn (inclusion : Inclusion S T) : Program S α → Program T α
  | .pure value => .pure value
  | .halt cause => .halt (inclusion.halt cause)
  | .call op next =>
    .call (inclusion.op op) fun reply => (next (inclusion.back op reply)).includeIn inclusion

theorem Program.yields_includeIn {inclusion : Inclusion S T} {program : Program S α}
    {exchanges : List (Exchange T)} {value : α} :
    (program.includeIn inclusion).Yields exchanges value ↔
      ∃ inner, program.Yields inner value ∧ exchanges = inner.map inclusion.exchange := by
  induction program generalizing exchanges with
  | pure start =>
    rw [includeIn, yields_pure]
    constructor
    · rintro ⟨rfl, rfl⟩
      exact ⟨[], .pure _, rfl⟩
    · rintro ⟨inner, yields, rfl⟩
      obtain ⟨rfl, rfl⟩ := yields_pure.mp yields
      exact ⟨rfl, rfl⟩
  | halt cause =>
    constructor
    · rintro ⟨⟩
    · rintro ⟨inner, ⟨⟩, -⟩
  | call op next ih =>
    rw [includeIn, yields_call]
    constructor
    · rintro ⟨reply, rest, rfl, yields⟩
      obtain ⟨inner, innerYields, rfl⟩ := (ih _).mp yields
      refine ⟨⟨op, inclusion.back op reply⟩ :: inner, .call _ innerYields, ?_⟩
      rw [List.map_cons, Inclusion.exchange, inclusion.reply_back]
    · rintro ⟨inner, yields, rfl⟩
      obtain ⟨reply, rest, rfl, restYields⟩ := yields_call.mp yields
      refine ⟨inclusion.reply op reply, rest.map inclusion.exchange, rfl, ?_⟩
      rw [inclusion.back_reply]
      exact (ih _).mpr ⟨rest, restYields, rfl⟩

namespace Stateful

variable {inclusion : Inclusion S T} {part : τ → σ} {update : τ → σ → τ}

def within (inclusion : Inclusion S T) (part : τ → σ) (update : τ → σ → τ)
    (act : Stateful S σ α) : Stateful T τ α :=
  fun state => (Program.includeIn inclusion (act (part state))).bind fun reached =>
    .pure (reached.1, update state reached.2)

theorem executes_within {act : Stateful S σ α} {before after : τ}
    {exchanges : List (Exchange T)} {value : α} :
    (within inclusion part update act).Executes before exchanges value after ↔
      ∃ inner left, act.Executes (part before) inner value left ∧
        exchanges = inner.map inclusion.exchange ∧ after = update before left := by
  unfold Executes within
  rw [Program.yields_bind]
  constructor
  · rintro ⟨first, ⟨mid, left⟩, second, yields, rest, rfl⟩
    obtain ⟨inner, innerYields, rfl⟩ := Program.yields_includeIn.mp yields
    obtain ⟨rfl, same⟩ := Program.yields_pure.mp rest
    obtain ⟨rfl, rfl⟩ := Prod.mk.inj same
    exact ⟨inner, left, innerYields, List.append_nil _, rfl⟩
  · rintro ⟨inner, left, innerYields, rfl, rfl⟩
    exact ⟨_, (value, left), [], Program.yields_includeIn.mpr ⟨inner, innerYields, rfl⟩,
      .pure _, (List.append_nil _).symm⟩

/-- The part of the world that belongs to a component changes as its own world does. -/
structure Simulates (inclusion : Inclusion S T) (outer : WorldModel T ω)
    (inner : WorldModel S φ) (place : φ → ω) : Prop where
  admits : ∀ world op reply, outer.admits (place world) (inclusion.op op)
    (inclusion.reply op reply) → inner.admits world op reply
  after : ∀ world op reply, inner.admits world op reply →
    outer.after (place world) (inclusion.op op) (inclusion.reply op reply) =
      place (inner.after world op reply)

variable {outer : WorldModel T ω} {inner : WorldModel S φ} {place : φ → ω}

theorem Simulates.allows (simulates : Simulates inclusion outer inner place) {world : φ}
    {exchanges : List (Exchange S)}
    (allowed : outer.Allows (place world) (exchanges.map inclusion.exchange)) :
    inner.Allows world exchanges ∧
      outer.final (place world) (exchanges.map inclusion.exchange) =
        place (inner.final world exchanges) := by
  induction exchanges generalizing world with
  | nil => exact ⟨trivial, rfl⟩
  | cons exchange exchanges ih =>
    obtain ⟨op, reply⟩ := exchange
    have admitted := simulates.admits world op reply allowed.1
    have rest := allowed.2
    rw [simulates.after world op reply admitted] at rest
    obtain ⟨allowedRest, finalRest⟩ := ih rest
    refine ⟨⟨admitted, allowedRest⟩, ?_⟩
    rw [List.map_cons, WorldModel.final_cons, WorldModel.final_cons]
    rw [← finalRest, ← simulates.after world op reply admitted]
    rfl

theorem ensures_within (simulates : Simulates inclusion outer inner place)
    {act : Stateful S σ α} {before : τ} {world : φ}
    {post : List (Exchange S) → α → σ → φ → Prop}
    (ensures : Ensures inner act (part before) world post) :
    Ensures outer (within inclusion part update act) before (place world)
      fun exchanges value after reached => ∃ innerExchanges left innerReached,
        exchanges = innerExchanges.map inclusion.exchange ∧ after = update before left ∧
        reached = place innerReached ∧ post innerExchanges value left innerReached := by
  constructor
  intro exchanges value after executes allowed
  obtain ⟨innerExchanges, left, innerExecutes, rfl, rfl⟩ := executes_within.mp executes
  obtain ⟨innerAllowed, reached⟩ := simulates.allows allowed
  exact ⟨innerExchanges, left, _, rfl, rfl, reached, ensures.elim innerExecutes innerAllowed⟩

theorem Only.within {asked : T.Op → Prop} {act : Stateful S σ α}
    (included : ∀ op, asked (inclusion.op op)) : Only asked (within inclusion part update act) := by
  constructor
  intro before exchanges value after executes exchange member
  obtain ⟨inner, left, -, rfl, -⟩ := executes_within.mp executes
  obtain ⟨⟨op, reply⟩, -, rfl⟩ := List.mem_map.mp member
  exact included op

end Stateful

end Apos
