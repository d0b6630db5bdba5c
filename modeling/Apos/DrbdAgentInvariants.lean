import Apos.DrbdAgentSteps

/-!
# Invariants of the agent process

Threads belong to role objects, and a role object is only replaced when none of
its threads is left.  This file derives from the laws of the threads which role
object is held while a thread runs and what a callback may rely on between two of
its own operations.
-/

namespace Apos.DrbdAgent

variable {world after : World} {alive : Tid → Bool} {tid : Tid} {spawned : Option Tid}

/-! ## What callbacks know -/

structure Knows (view : CallView) (world : World) : Prop where
  held : ∀ side value, view.held side = some value → (world.held side).isSome = value
  old : ∀ state, view.old = some state → world.oldhaState = state

theorem Knows.of_sameRoles {view : CallView} (knows : Knows view world)
    (same : SameRoles world after) : Knows view after where
  held side value known := by rw [same.held side, knows.held side value known]
  old state known := by rw [same.oldhaState, knows.old state known]

theorem see_of_notRole (view : CallView) (exchange : Exchange signature)
    (notRole : kind exchange.1 ≠ .role) :
    (∀ side, (view.see exchange).held side = view.held side) ∧
      (view.see exchange).old = view.old := by
  unfold CallView.see
  split
  all_goals first
    | exact (notRole rfl).elim
    | exact ⟨fun side => by cases side <;> rfl, rfl⟩

theorem Knows.see {view : CallView} {op : Op} {proposed reply : op.Reply}
    (knows : Knows view world)
    (performs : perform world alive tid op proposed = .done reply after spawned) :
    Knows (view.see ⟨op, reply⟩) after := by
  by_cases isRole : kind op = .role
  · obtain ⟨actvKnown, stbyKnown⟩ := And.intro (knows.held .actv) (knows.held .stby)
    have bySides {view : CallView} {world : World}
        (actvKnows : ∀ value, view.actv = some value → world.actvAdmObj.isSome = value)
        (stbyKnows : ∀ value, view.stby = some value → world.stbyAdmObj.isSome = value)
        (oldKnows : ∀ state, view.old = some state → world.oldhaState = state) :
        Knows view world := by
      refine ⟨fun side => ?_, oldKnows⟩
      cases side with
      | actv => exact actvKnows
      | stby => exact stbyKnows
    rcases kind_eq_role isRole with ⟨objectOp, rfl⟩ | ⟨state, rfl⟩ | rfl | rfl
    · obtain ⟨step, _⟩ := perform_object performs
      cases step with
      | actvHeld => exact bySides (fun _ => Option.some.inj) stbyKnown knows.old
      | stbyHeld => exact bySides actvKnown (fun _ => Option.some.inj) knows.old
      | noActv => exact knows
      | newActv => exact bySides (fun _ => Option.some.inj) stbyKnown knows.old
      | noStby => exact knows
      | newStby => exact bySides actvKnown (fun _ => Option.some.inj) knows.old
      | deleteActv unused =>
        exact bySides (fun _ => Option.some.inj) stbyKnown (fun _ => Option.some.inj)
      | deleteStby unused unmanaged =>
        exact bySides actvKnown (fun _ => Option.some.inj) (fun _ => Option.some.inj)
    · cases performs
      exact bySides actvKnown stbyKnown (fun _ => Option.some.inj)
    · cases performs
      exact bySides actvKnown stbyKnown knows.old
    · cases performs
      exact bySides actvKnown stbyKnown knows.old
  · obtain ⟨heldSame, oldSame⟩ := see_of_notRole view ⟨op, reply⟩ isRole
    have kept := knows.of_sameRoles (perform_sameRoles performs isRole)
    exact ⟨fun side value known => kept.held side value (heldSame side ▸ known),
      fun state known => kept.old state (oldSame ▸ known)⟩

theorem callView_snoc (history : History) (exchange : Exchange signature) :
    callView (history ++ [exchange]) = (callView history).see exchange := by
  simp [callView]

/-! ## Well-formed configurations -/

/-- A running thread works for a role object that is held, at most one callback
is being handled and knows what it has seen, and objects are numbered in the order
of their creation. -/
structure Wellformed (config : AgentConfiguration) : Prop where
  belongs : ∀ tid side number, config.Alive tid → tid.object = some (side, number) →
    config.world.held side = some number
  calling : ∀ number callback, config.Alive (.call number callback) →
    config.world.calling = some (.call number callback)
  knows : ∀ number callback, config.Alive (.call number callback) →
    Knows (callView (history (.call number callback) config.log)) config.world
  held_lt : ∀ side number, config.world.held side = some number →
    number < config.world.created
  started_lt : ∀ tid side number, config.started tid = true →
    tid.object = some (side, number) → number < config.world.created

variable {config : AgentConfiguration} {number : Nat}

theorem Wellformed.only_call (wellformed : Wellformed config) {other : Nat}
    {callback otherCallback : Callback} (alive : config.Alive (.call number callback))
    (otherAlive : config.Alive (.call other otherCallback)) :
    Tid.call number callback = .call other otherCallback :=
  Option.some.inj ((wellformed.calling number callback alive).symm.trans
    (wellformed.calling other otherCallback otherAlive))

theorem exists_call_of_role {tid : Tid} {history : History} {op : Op}
    (law : agentLaw tid history op) (isRole : kind op = .role) :
    ∃ number callback, tid = .call number callback := by
  by_contra background
  push Not at background
  exact agentLaw_kind background law isRole

variable {op : Op} {proposed reply : op.Reply}

theorem Wellformed.stays_held (wellformed : Wellformed config) (living : config.Alive tid)
    (performs : perform config.world (fun other => (config.threads other).isSome) tid op
      proposed = .done reply after spawned) (law : agentLaw tid (history tid config.log) op)
    {other : Tid} {side : Side} (running : config.Alive other)
    (object : other.object = some (side, number)) : after.held side = some number := by
  have held := wellformed.belongs other side number running object
  by_cases isRole : kind op = .role
  · obtain ⟨caller, callback, rfl⟩ := exists_call_of_role law isRole
    have knows := wellformed.knows caller callback living
    rcases kind_eq_role isRole with ⟨objectOp, rfl⟩ | ⟨state, rfl⟩ | rfl | rfl
    · refine (perform_object performs).1.keeps ?_ ?_ running object held
      · rintro rfl
        simpa using knows.held .actv false law.2.2.1
      · rintro rfl
        simpa using knows.held .stby false law.2.2.1
    all_goals
      cases performs
      exact held
  · rw [(perform_sameRoles performs isRole).held side]
    exact held

theorem Wellformed.spawned_held (wellformed : Wellformed config) (living : config.Alive tid)
    (performs : perform config.world (fun other => (config.threads other).isSome) tid op
      proposed = .done reply after spawned) {thread : Tid} (isSpawned : spawned = some thread)
    {side : Side} (object : thread.object = some (side, number)) :
    config.world.held side = some number ∧ after.held side = some number := by
  obtain ⟨task, rCode, isActivate, _, found⟩ := perform_spawned performs isSpawned
  have notRole : kind op ≠ .role := by
    rw [show op = .task (.activate task) from congrArg Sigma.fst isActivate]
    simp [kind]
  have held : config.world.held side = some number := by
    rcases target_object found object with isHeld | isOwn
    · exact isHeld
    · exact wellformed.belongs tid side number living isOwn
  exact ⟨held, (perform_sameRoles performs notRole).held side ▸ held⟩

section Runs

variable {depth ticks : Nat} {allowed : AgentConfiguration → AgentEntry → Prop}

variable {config : AgentConfiguration}

theorem Wellformed.act {next : AgentConfiguration} (wellformed : Wellformed config)
    (living : config.Alive tid)
    (performs : perform config.world (fun other => (config.threads other).isSome) tid op
      proposed = .done reply after spawned) (law : agentLaw tid (history tid config.log) op)
    (worldEq : next.world = after) (starts : ThreadSystem.StartsAtMost config next spawned)
    (logEq : next.log = config.log ++ [.did tid ⟨op, reply⟩]) : Wellformed next := by
  subst worldEq
  have oldCall {number : Nat} {callback : Callback}
      (alive : next.Alive (.call number callback)) : config.Alive (.call number callback) := by
    rcases starts.alive _ alive with before | ⟨isSpawned, _⟩
    · exact before
    · obtain ⟨_, _, _, _, found⟩ := perform_spawned performs isSpawned
      cases target_isSome found
  constructor
  case belongs =>
    intro other side number alive object
    rcases starts.alive other alive with before | ⟨isSpawned, _⟩
    · exact wellformed.stays_held living performs law before object
    · exact (wellformed.spawned_held living performs isSpawned object).2
  case calling =>
    intro number callback alive
    rw [perform_calling performs]
    exact wellformed.calling number callback (oldCall alive)
  case knows =>
    intro number callback alive
    have knows := wellformed.knows number callback (oldCall alive)
    rw [logEq]
    by_cases same : tid = .call number callback
    · subst same
      rw [ThreadSystem.history_snoc_did_self, callView_snoc]
      exact knows.see performs
    · rw [ThreadSystem.history_snoc_of_ne same]
      refine knows.of_sameRoles (perform_sameRoles performs fun isRole => ?_)
      obtain ⟨caller, otherCallback, rfl⟩ := exists_call_of_role law isRole
      exact same (wellformed.only_call living (oldCall alive))
  case held_lt =>
    intro side number held
    rcases perform_held performs held with before | ⟨rfl, smaller⟩
    · exact Nat.lt_of_lt_of_le (wellformed.held_lt side number before)
        (perform_created_le performs)
    · exact smaller
  case started_lt =>
    intro other side number launched object
    refine Nat.lt_of_lt_of_le ?_ (perform_created_le performs)
    rcases starts.started other launched with before | isSpawned
    · exact wellformed.started_lt other side number before object
    · exact wellformed.held_lt side number
        (wellformed.spawned_held living performs isSpawned object).1

theorem Wellformed.arrive {next : AgentConfiguration} (wellformed : Wellformed config)
    (unused : history tid config.log = [])
    (admitted : admits config.world (fun other => (config.threads other).isSome) tid = some after)
    (worldEq : next.world = after) (starts : ThreadSystem.StartsAtMost config next (some tid))
    (logEq : next.log = config.log ++ [.arrived tid]) : Wellformed next := by
  subst worldEq
  obtain ⟨external, onlyCalling, arrivals⟩ := admits_cases admitted
  have same : SameRoles config.world next.world := by
    rw [onlyCalling]
    exact ⟨fun side => by cases side <;> rfl, rfl, rfl⟩
  have kept (other : Tid) : history other next.log = history other config.log := by
    rw [logEq, ThreadSystem.history_snoc_of_silent (.arrived tid) (by simp)]
  constructor
  case belongs =>
    intro other side number alive object
    rcases starts.alive other alive with before | ⟨isNew, _⟩
    · rw [same.held side]
      exact wellformed.belongs other side number before object
    · obtain rfl := Option.some.inj isNew
      rw [external] at object
      cases object
  case calling =>
    intro number callback alive
    rcases starts.alive _ alive with before | ⟨isNew, _⟩
    · have handled := wellformed.calling number callback before
      rcases arrivals with ⟨_, _, _, idle, _⟩ | ⟨_, _, _, unchanged⟩
      · rw [handled] at idle
        exact absurd before (by simpa [Config.Alive] using idle)
      · rw [unchanged]
        exact handled
    · obtain rfl := Option.some.inj isNew
      rcases arrivals with ⟨_, _, _, _, handled⟩ | ⟨_, _, impossible, _⟩
      · exact handled
      · cases impossible
  case knows =>
    intro number callback alive
    rw [kept]
    rcases starts.alive _ alive with before | ⟨isNew, _⟩
    · exact (wellformed.knows number callback before).of_sameRoles same
    · obtain rfl := Option.some.inj isNew
      rw [unused]
      exact ⟨by rintro (_ | _) value ⟨⟩, by rintro state ⟨⟩⟩
  case held_lt =>
    intro side number held
    rw [same.created]
    exact wellformed.held_lt side number (same.held side ▸ held)
  case started_lt =>
    intro other side number launched object
    rw [same.created]
    rcases starts.started other launched with before | isNew
    · exact wellformed.started_lt other side number before object
    · obtain rfl := Option.some.inj isNew
      rw [external] at object
      cases object

theorem wellformed_of_reaches (reaches : (system depth ticks).Reaches Fresh allowed config) :
    Wellformed config := by
  refine ThreadSystem.Reaches.invariant (system_lawful depth ticks) ?start ?boot ?arrive ?quiet
    ?act reaches
  case start =>
    rintro _ ⟨lockFile, record, rfl⟩
    refine ⟨?_, ?_, ?_, ?_, ?_⟩
    · rintro tid side number ⟨⟩
    · rintro number callback ⟨⟩
    · rintro number callback ⟨⟩
    · rintro (_ | _) number ⟨⟩
    · rintro tid side number ⟨⟩
  case boot =>
    intro config after wellformed worldEq dead startedEq logEq
    refine ⟨?_, ?_, ?_, ?_, ?_⟩
    · exact fun tid side number alive => (dead tid alive).elim
    · exact fun number callback alive => (dead _ alive).elim
    · exact fun number callback alive => (dead _ alive).elim
    · rw [worldEq]
      rintro (_ | _) number ⟨⟩
    · rw [worldEq, startedEq]
      exact wellformed.started_lt
  case arrive =>
    intro config after tid world reached wellformed fresh admitted _ worldEq starts logEq
    exact wellformed.arrive ((reached.tracks tid).idle fresh).1 admitted worldEq starts logEq
  case quiet =>
    intro config after entry wellformed silent worldEq starts logEq
    have before {tid : Tid} (alive : after.Alive tid) : config.Alive tid := starts.of_none alive
    refine ⟨?_, ?_, ?_, ?_, ?_⟩
    · intro tid side number alive
      exact worldEq ▸ wellformed.belongs tid side number (before alive)
    · intro number callback alive
      exact worldEq ▸ wellformed.calling number callback (before alive)
    · intro number callback alive
      rw [worldEq, logEq, ThreadSystem.history_snoc_of_silent entry silent]
      exact wellformed.knows number callback (before alive)
    · rw [worldEq]
      exact wellformed.held_lt
    · intro tid side number launched
      rcases starts.started tid launched with old | impossible
      · exact worldEq ▸ wellformed.started_lt tid side number old
      · cases impossible
  case act =>
    intro config after tid op proposed reply world spawned _ wellformed living performs law _
      worldEq starts logEq
    exact wellformed.act living performs law worldEq starts logEq

theorem lt_created_of_mem (reaches : (system depth ticks).Reaches Fresh allowed config)
    {side : Side} {number : Nat} (object : tid.object = some (side, number))
    {exchange : Exchange signature} (member : exchange ∈ history tid config.log) :
    number < config.world.created := by
  refine (wellformed_of_reaches reaches).started_lt tid side number ?_ object
  by_contra unstarted
  rw [((reaches.tracks tid).idle (by simpa using unstarted)).1] at member
  cases member

structure Performed (depth ticks : Nat) (allowed : AgentConfiguration → AgentEntry → Prop)
    (config after : AgentConfiguration) (tid : Tid) (op : Op) (reply : op.Reply)
    (spawned : Option Tid) : Prop where
  reached : (system depth ticks).Reaches Fresh allowed config
  living : config.Alive tid
  performs : ∃ proposed, perform config.world (fun other => (config.threads other).isSome)
    tid op proposed = .done reply after.world spawned
  law : agentLaw tid (history tid config.log) op
  permitted : allowed config (.did tid ⟨op, reply⟩)
  starts : ThreadSystem.StartsAtMost config after spawned
  log_eq : after.log = config.log ++ [.did tid ⟨op, reply⟩]

/-- A move without an operation: a thread arrives or ends, or the process ends. -/
structure Quiet (allowed : AgentConfiguration → AgentEntry → Prop)
    (config after : AgentConfiguration) (entry : AgentEntry) : Prop where
  silent : ∀ tid exchange, entry ≠ .did tid exchange
  world_eq : after.world = { config.world with calling := after.world.calling }
  alive : ∀ tid, after.Alive tid → config.Alive tid ∨
    tid.object = none ∧ history tid config.log = [] ∧ entry = .arrived tid ∧
      allowed config entry
  log_eq : after.log = config.log ++ [entry]

theorem Quiet.history_eq {after : AgentConfiguration} {entry : AgentEntry}
    (quiet : Quiet allowed config after entry) (tid : Tid) :
    history tid after.log = history tid config.log := by
  rw [quiet.log_eq, ThreadSystem.history_snoc_of_silent entry quiet.silent]

theorem Quiet.alive_of_object {after : AgentConfiguration} {entry : AgentEntry}
    (quiet : Quiet allowed config after entry) {tid : Tid} {object : Side × Nat}
    (belongs : tid.object = some object) (alive : after.Alive tid) : config.Alive tid := by
  rcases quiet.alive tid alive with before | ⟨external, _⟩
  · exact before
  · rw [external] at belongs
    cases belongs

theorem agent_invariant {inv : AgentConfiguration → Prop}
    (start : ∀ world, Fresh world → inv (ThreadSystem.initial world))
    (boot : ∀ config after, inv config → after.world = rebootWorld config.world →
      (∀ tid, ¬after.Alive tid) → (∀ tid, history tid after.log = history tid config.log) →
      after.log = config.log ++ [.booted] → inv after)
    (quiet : ∀ config after entry, inv config → Quiet allowed config after entry → inv after)
    (act : ∀ config after tid op reply spawned, inv config →
      Performed depth ticks allowed config after tid op reply spawned → inv after)
    (reaches : (system depth ticks).Reaches Fresh allowed config) : inv config := by
  refine ThreadSystem.Reaches.invariant (system_lawful depth ticks) start ?boot ?arrive ?quiet
    ?act reaches
  case boot =>
    intro config after holds worldEq dead _ logEq
    refine boot config after holds worldEq dead (fun tid => ?_) logEq
    rw [logEq, ThreadSystem.history_snoc_of_silent .booted (by simp)]
  case arrive =>
    intro config after tid world reached holds fresh admitted permitted worldEq starts logEq
    subst worldEq
    obtain ⟨external, onlyCalling, _⟩ := admits_cases admitted
    refine quiet config after (.arrived tid) holds ⟨by simp, onlyCalling, ?_, logEq⟩
    intro other alive
    rcases starts.alive other alive with before | ⟨isNew, _⟩
    · exact .inl before
    · obtain rfl := Option.some.inj isNew
      exact .inr ⟨external, ((reached.tracks tid).idle fresh).1, rfl, permitted⟩
  case quiet =>
    intro config after entry holds silent worldEq starts logEq
    exact quiet config after entry holds ⟨silent, by rw [worldEq],
      fun tid alive => .inl (starts.of_none alive), logEq⟩
  case act =>
    intro config after tid op proposed reply world spawned reached holds living performs law
      permitted worldEq starts logEq
    subst worldEq
    exact act config after tid op reply spawned holds
      ⟨reached, living, ⟨proposed, performs⟩, law, permitted, starts, logEq⟩

section Performed

variable {config next : AgentConfiguration}
  (performed : Performed depth ticks allowed config next tid op reply spawned)

include performed

theorem Performed.wellformed : Wellformed config :=
  wellformed_of_reaches performed.reached

theorem Performed.history_self :
    history tid next.log = history tid config.log ++ [⟨op, reply⟩] := by
  rw [performed.log_eq, ThreadSystem.history_snoc_did_self]

variable {other : Tid}

theorem Performed.history_of_ne (different : tid ≠ other) :
    history other next.log = history other config.log := by
  rw [performed.log_eq, ThreadSystem.history_snoc_of_ne different]

variable {exchange : Exchange signature}

theorem Performed.mem_history (member : exchange ∈ history other config.log) :
    exchange ∈ history other next.log := by
  rw [performed.log_eq, history_append]
  exact List.mem_append_left _ member

theorem Performed.mem_cases (member : exchange ∈ history other next.log) :
    exchange ∈ history other config.log ∨ tid = other ∧ exchange = ⟨op, reply⟩ := by
  by_cases same : tid = other
  · subst same
    rw [performed.history_self] at member
    exact (List.mem_append.mp member).imp_right fun last => ⟨rfl, List.mem_singleton.mp last⟩
  · rw [performed.history_of_ne same] at member
    exact .inl member

theorem Performed.was_held {side : Side} {number : Nat}
    (object : other.object = some (side, number)) (member : exchange ∈ history other config.log)
    (held : next.world.held side = some number) : config.world.held side = some number := by
  obtain ⟨proposed, performs⟩ := performed.performs
  rcases perform_held performs held with before | ⟨isCreated, _⟩
  · exact before
  · exact absurd isCreated (Nat.ne_of_lt (lt_created_of_mem performed.reached object member))

theorem Performed.was_alive (alive : next.Alive other) :
    config.Alive other ∨ history other next.log = [] := by
  rcases performed.starts.alive other alive with before | ⟨_, fresh⟩
  · exact .inl before
  · obtain ⟨unused, noThread⟩ := (performed.reached.tracks other).idle fresh
    have different : tid ≠ other := by
      rintro rfl
      have living := performed.living
      simp [Config.Alive, noThread] at living
    exact .inr ((performed.history_of_ne different).trans unused)

theorem Performed.call_alive {number : Nat} {callback : Callback}
    (alive : next.Alive (.call number callback)) : config.Alive (.call number callback) := by
  rcases performed.starts.alive _ alive with before | ⟨isSpawned, _⟩
  · exact before
  · obtain ⟨proposed, performs⟩ := performed.performs
    obtain ⟨_, _, _, _, found⟩ := perform_spawned performs isSpawned
    cases target_isSome found

end Performed

end Runs

end Apos.DrbdAgent
