import Apos.DrbdAgentInvariants

/-!
# The roles of a node

`agentHAClass` holds an object for the active role, one for the standby role, or
none.  The framework learns from the answers of the callbacks which role a node has
taken.  This file finds the runs in which at most one role object is held at a time,
and the runs in which a success means that the role is really up.
-/

namespace Apos.DrbdAgent

variable {depth ticks : Nat} {allowed : AgentConfiguration → AgentEntry → Prop}
variable {config : AgentConfiguration}

/-! ## How role objects change -/

def Callback.side : Callback → Option Side
  | .toActive _ => some .actv
  | .toPassive _ => some .stby
  | _ => none

theorem side_of_toActive {callback : Callback} (toActive : callback.isToActive = true) :
    callback.side = some .actv := by
  cases callback <;> first | rfl | cases toActive

theorem side_of_toPassive {callback : Callback} (toPassive : callback.isToPassive = true) :
    callback.side = some .stby := by
  cases callback <;> first | rfl | cases toPassive

/-- A thread leaves the role objects alone, or it is a callback that makes one for
its role where none is held, or one that deletes an object that is held. -/
inductive RoleChange (config after : AgentConfiguration) (op : Op) : Tid → Prop where
  | same (tid : Tid) (held : ∀ side, after.world.held side = config.world.held side)
      (kept : ∀ flag, config.world.flags flag = true →
        after.world.flags flag = true ∨ op = .write flag false) :
      RoleChange config after op tid
  | made (number : Nat) (callback : Callback) (side : Side)
      (isNew : op = .object (newObject side)) (asked : callback.side = some side)
      (free : config.world.held side = none)
      (isMade : after.world.held side = some config.world.created)
      (others : ∀ other, other ≠ side → after.world.held other = config.world.held other)
      (alone : side = .actv → config.world.held .stby = none)
      (flags : after.world.flags = config.world.flags) :
      RoleChange config after op (.call number callback)
  | deleted (number : Nat) (callback : Callback) (side : Side)
      (held : config.world.held side ≠ none) (freed : after.world.held side = none)
      (others : ∀ other, other ≠ side → after.world.held other = config.world.held other)
      (flags : after.world.flags = deactivatedFlags config.world.flags) :
      RoleChange config after op (.call number callback)

section Step

variable {tid : Tid} {op : Op} {reply : op.Reply} {spawned : Option Tid}
  {after : AgentConfiguration}

theorem Performed.roleChange
    (performed : Performed depth ticks allowed config after tid op reply spawned) :
    RoleChange config after op tid := by
  obtain ⟨proposed, performs⟩ := performed.performs
  have law := performed.law
  by_cases isRole : kind op = .role
  · obtain ⟨number, callback, rfl⟩ := exists_call_of_role law isRole
    have knows := performed.wellformed.knows number callback performed.living
    have free (side : Side) (known : (callView (history (.call number callback)
        config.log)).held side = some false) : config.world.held side = none := by
      simpa using knows.held side false known
    have held (side : Side) (known : (callView (history (.call number callback)
        config.log)).held side = some true) : config.world.held side ≠ none := by
      simpa [Option.isSome_iff_ne_none] using knows.held side true known
    rcases kind_eq_role isRole with ⟨objectOp, rfl⟩ | ⟨state, rfl⟩ | rfl | rfl
    · obtain ⟨step, _⟩ := perform_object performs
      generalize worldEq : after.world = world at step
      cases step with
      | newActv =>
        refine .made number callback .actv rfl (side_of_toActive law.1) (free .actv law.2.2.1)
          ?_ ?_ (fun _ => free .stby law.2.2.2.1) ?_
        · rw [worldEq]; rfl
        · rintro (_ | _) different
          · exact (different rfl).elim
          · rw [worldEq]; rfl
        · rw [worldEq]
      | newStby =>
        refine .made number callback .stby rfl (side_of_toPassive law.1) (free .stby law.2.2.1)
          ?_ ?_ (fun impossible => by cases impossible) ?_
        · rw [worldEq]; rfl
        · rintro (_ | _) different
          · rw [worldEq]; rfl
          · exact (different rfl).elim
        · rw [worldEq]
      | deleteActv unused =>
        refine .deleted number callback .actv (held .actv law.2) ?_ ?_ ?_
        · rw [worldEq]; rfl
        · rintro (_ | _) different
          · exact (different rfl).elim
          · rw [worldEq]; rfl
        · rw [worldEq]; rfl
      | deleteStby unused unmanaged =>
        refine .deleted number callback .stby (held .stby law.2) ?_ ?_ ?_
        · rw [worldEq]; rfl
        · rintro (_ | _) different
          · rw [worldEq]; rfl
          · exact (different rfl).elim
        · rw [worldEq]; rfl
      | _ =>
        refine .same _ (fun side => by rw [worldEq]) fun flag isSet => ?_
        rw [worldEq]
        exact .inl isSet
    all_goals
      refine .same _ (fun side => ?_) fun flag => perform_flag_kept performs (by simp)
      obtain ⟨_, worldEq, _⟩ := perform_act performs (by simp) (by simp)
      rw [worldEq]
      cases side <;> rfl
  · refine .same _ (perform_sameRoles performs isRole).held fun flag =>
      perform_flag_kept performs ?_
    rintro objectOp rfl
    exact isRole rfl

end Step

/-! ## One role at a time -/

/-- Callbacks to the standby role arrive only while no active object is held. -/
def passiveWhenInactive (config : AgentConfiguration) : AgentEntry → Bool
  | .arrived (.call _ (.toPassive _)) => config.world.actvAdmObj.isNone
  | _ => true

/-- At most one role object is held, and a callback to the standby role finds no
active object while it runs. -/
structure OneRole (config : AgentConfiguration) : Prop where
  single : config.world.held .actv = none ∨ config.world.held .stby = none
  passive : ∀ number callback, callback.side = some .stby →
    config.Alive (.call number callback) → config.world.held .actv = none

theorem OneRole.side_eq (oneRole : OneRole config) {side other : Side} {number : Nat}
    (held : config.world.held side = some number) (otherHeld : config.world.held other ≠ none) :
    other = side := by
  rcases oneRole.single with noActv | noStby
  · cases side <;> cases other <;> simp_all
  · cases side <;> cases other <;> simp_all

theorem OneRole.single_act {after : AgentConfiguration} {tid : Tid} {op : Op}
    {reply : op.Reply} {spawned : Option Tid} (oneRole : OneRole config)
    (performed : Performed depth ticks allowed config after tid op reply spawned) :
    after.world.held .actv = none ∨ after.world.held .stby = none := by
  cases performed.roleChange with
  | same _ held kept =>
    rw [held .actv, held .stby]
    exact oneRole.single
  | made number callback side isNew asked free isMade others alone flags =>
    cases side with
    | actv =>
      rw [others .stby (by simp)]
      exact .inr (alone rfl)
    | stby =>
      rw [others .actv (by simp)]
      exact .inl (oneRole.passive number callback asked performed.living)
  | deleted number callback side held freed others flags =>
    cases side with
    | actv => exact .inl freed
    | stby => exact .inr freed

theorem OneRole.passive_act {after : AgentConfiguration} {tid : Tid} {op : Op}
    {reply : op.Reply} {spawned : Option Tid} (oneRole : OneRole config)
    (performed : Performed depth ticks allowed config after tid op reply spawned)
    {number : Nat} {callback : Callback} (asked : callback.side = some .stby)
    (alive : after.Alive (.call number callback)) : after.world.held .actv = none := by
  have before := oneRole.passive number callback asked (performed.call_alive alive)
  cases performed.roleChange with
  | same _ held kept => rw [held .actv, before]
  | made caller makes side isNew otherAsked free isMade others alone flags =>
    obtain ⟨rfl, rfl⟩ := Tid.call.inj
      (performed.wellformed.only_call performed.living (performed.call_alive alive))
    obtain rfl := Option.some.inj (otherAsked.symm.trans asked)
    rw [others .actv (by simp), before]
  | deleted caller deletes side held freed others flags =>
    cases side with
    | actv => exact freed
    | stby => rw [others .actv (by simp), before]

theorem oneRole_of_reaches (reaches : (system depth ticks).Reaches Fresh
    (ThreadSystem.Passing passiveWhenInactive) config) : OneRole config := by
  refine agent_invariant ?start ?boot ?quiet ?act reaches
  case start =>
    rintro _ ⟨lockFile, record, rfl⟩
    exact ⟨.inl rfl, fun _ _ _ _ => rfl⟩
  case boot =>
    intro config after _ worldEq _ _ _
    exact ⟨.inl (by rw [worldEq]; rfl), fun _ _ _ _ => by rw [worldEq]; rfl⟩
  case quiet =>
    intro config after entry oneRole quiet
    have sameHeld (side : Side) : after.world.held side = config.world.held side := by
      rw [quiet.world_eq]
      cases side <;> rfl
    refine ⟨?_, fun number callback asked alive => ?_⟩
    · rw [sameHeld, sameHeld]
      exact oneRole.single
    · rw [sameHeld]
      rcases quiet.alive _ alive with before | ⟨_, _, rfl, passes⟩
      · exact oneRole.passive number callback asked before
      · cases callback with
        | toPassive previous =>
          simpa [ThreadSystem.Passing, passiveWhenInactive, World.held] using passes
        | _ => cases asked
  case act =>
    intro config after tid op reply spawned oneRole performed
    exact ⟨oneRole.single_act performed, fun _ _ => oneRole.passive_act performed⟩

/-- As long as callbacks to the standby role only come to inactive nodes, the two role
objects are never held together, in particular not when a callback returns. -/
theorem one_role_at_a_time (reaches : (system depth ticks).Reaches Fresh
    (ThreadSystem.Passing passiveWhenInactive) config) :
    ¬(config.world.actvAdmObj.isSome = true ∧ config.world.stbyAdmObj.isSome = true) := by
  rintro ⟨actvHeld, stbyHeld⟩
  rcases (oneRole_of_reaches reaches).single with noActv | noStby
  · rw [show config.world.actvAdmObj = none from noActv] at actvHeld
    cases actvHeld
  · rw [show config.world.stbyAdmObj = none from noStby] at stbyHeld
    cases stbyHeld

theorem one_role_after_activation :
    (scheduled passiveWhenInactive (activation 0 0 .undefined 0 favourable)).world.actvAdmObj =
        some 0 ∧
      ¬((scheduled passiveWhenInactive
          (activation 0 0 .undefined 0 favourable)).world.actvAdmObj.isSome = true ∧
        (scheduled passiveWhenInactive
          (activation 0 0 .undefined 0 favourable)).world.stbyAdmObj.isSome = true) :=
  ⟨by decide +kernel, one_role_at_a_time (reaches_scheduled _ _)⟩

def passiveWhileActive : List (Event signature Tid) :=
  activation 0 0 .undefined 0 favourable ++
  .arrive (.call 1 (.toPassive .active)) ::
    turns (.call 1 (.toPassive .active)) 13 favourable ++
    turns (.stbyAdm 1) 6 favourable ++ turns (.call 1 (.toPassive .active)) 4 favourable

theorem both_roles_at_return :
    ∃ config, (system 1 1).Reaches Fresh (fun _ _ => True) config ∧
      config.Returns (.call 1 (.toPassive .active)) (.answered .success) ∧
      config.world.actvAdmObj.isSome = true ∧ config.world.stbyAdmObj.isSome = true :=
  ⟨scheduled (fun _ _ => true) passiveWhileActive,
    (reaches_scheduled _ _).mono fun _ _ _ => trivial,
    by decide +kernel, by decide +kernel, by decide +kernel⟩

end Apos.DrbdAgent
