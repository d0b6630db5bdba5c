import Apos.RdeAgentInvariants

/-!
# The order of an activation

The MD agent takes the active role in three steps: it reserves its disks, assembles the array and
activates the MIPs, and it skips what a flag says is done.  In every run the array is assembled
right after a reservation that succeeded, and the MIPs are activated right after that.
-/

namespace Apos.RdeAgent

open Stateful

def InOrder (last : Option Effect) : Effect → Prop
  | .assemble _ => last = some (.reservationAlgo .success)
  | .activate _ => last = some (.assemble .success)
  | _ => True

def Orderly (last : Option Effect) : List Effect → Prop
  | [] => True
  | effect :: list => InOrder last effect ∧ Orderly (some effect) list

/-- The last effect, and whether all of them have been in order. -/
abbrev Progress : Type := Option Effect × Prop

def Progress.after (progress : Progress) (effect : Effect) : Progress :=
  (some effect, progress.2 ∧ InOrder progress.1 effect)

def Progress.see (progress : Progress) (exchange : Exchange commands) : Progress :=
  match effect? exchange with
  | some effect => progress.after effect
  | none => progress

theorem foldl_progress (history : List (Exchange commands)) (progress : Progress) :
    (history.foldl Progress.see progress).2 ↔
      progress.2 ∧ Orderly progress.1 (effects history) := by
  induction history generalizing progress with
  | nil => exact (iff_of_eq (and_true _)).symm
  | cons exchange history ih =>
    rw [List.foldl_cons, ih, Progress.see]
    cases isEffect : effect? exchange with
    | none => simp [effects, isEffect]
    | some effect => simp [effects, isEffect, Orderly, Progress.after, and_assoc]

abbrev InProgress (flags : Core → Prop) (agent : Agent) (progress : Progress) : Prop :=
  progress.2 ∧ flags agent.core

abbrev LeadsOn {α : Type} (pre : Agent → Progress → Prop) (act : Act α)
    (post : α → Agent → Progress → Prop) : Prop :=
  Leads (fun _ => True) Progress.see pre act post

namespace FlagsOnly

variable {flags : Core → Prop} (only : FlagsOnly flags)
include only

theorem inProgress_of_steps {α : Type} {act : Act α} (steps : Steps act) :
    Keeps (fun _ => True) Progress.see (InProgress flags) act := by
  rintro before progress ⟨ordered, holds⟩
  apply (steps before).mono
  intro history _ after step _
  refine ⟨(foldl_progress _ _).mpr ⟨ordered, ?_⟩, only.keeps step holds⟩
  generalize effects history = list, after.core = reached at step ⊢
  cases step with
  | silent => trivial
  | _ => exact ⟨trivial, trivial⟩

theorem inProgress : Sturdy (fun _ => True) Progress.see (InProgress flags) :=
  .of_steps only.inProgress_of_steps (.of_modify fun _ _ holds => ⟨holds.1, only.done holds.2⟩)
    (.of_modify fun _ _ holds => ⟨holds.1, only.stands holds.2⟩)

theorem reserves : LeadsOn (InProgress flags) dataDiskReservationAlgo fun result agent progress =>
    progress.1 = some (.reservationAlgo result) ∧ InProgress flags agent progress := by
  refine Leads.bind (reservationJobs_keeps only.inProgress_of_steps) fun result => ?_
  rintro _ progress ⟨ordered, holds⟩
  apply meets_bind_ask.mpr
  intro
  exact meets_pure.mpr fun _ => ⟨rfl, ⟨ordered, trivial⟩, holds⟩

end FlagsOnly

/-! ## The flags of an activation -/

def Core.Assigned (core : Core) : Prop :=
  core.isStateAssgned = true

def Core.Unassembled (core : Core) : Prop :=
  core.Assigned ∧ core.isRAIDConfigured = false

/-- The agent has been assigned a state, and the array and the MIPs count as configured. -/
def Core.Configured (core : Core) : Prop :=
  core.isStateAssgned = true ∧ core.isRAIDConfigured = true ∧ core.isMIPConfigured = true

theorem assigned_only : FlagsOnly Core.Assigned where
  mapDisk port _ holds := by cases port <;> exact holds
  done := id
  stands _ := rfl

theorem unassembled_only : FlagsOnly Core.Unassembled where
  mapDisk port _ holds := by cases port <;> exact holds
  done := id
  stands holds := ⟨rfl, holds.2⟩

theorem configured_only : FlagsOnly Core.Configured where
  mapDisk port _ holds := by cases port <;> exact holds
  done := id
  stands holds := ⟨rfl, holds.2⟩

/-- The effects are in order, and a success means that everything is configured. -/
abbrev Activated (result : ReturnType) (agent : Agent) (progress : Progress) : Prop :=
  progress.2 ∧ (result = .success → agent.core.Configured)

theorem FlagsOnly.failover {flags : Core → Prop} (only : FlagsOnly flags) (recovery : Recovery) :
    LeadsOn (InProgress flags) (do
      initiateFailover recovery
      pure ReturnType.failure) Activated :=
  Leads.bind (only.inProgress.initiateFailover recovery) fun _ _ _ holds =>
    meets_pure.mpr fun _ => ⟨holds.1, nofun⟩

/-! ## The steps of an activation -/

abbrev AfterReservation (agent : Agent) (progress : Progress) : Prop :=
  progress.1 = some (.reservationAlgo .success) ∧ InProgress Core.Unassembled agent progress

theorem configureRAID_leads :
    LeadsOn AfterReservation configureRAID fun result agent progress =>
      InProgress Core.Assigned agent progress ∧ (result = .success →
        progress.1 = some (.assemble .success) ∧ agent.isRAIDConfigured = true) := by
  rintro before progress ⟨reserved, ordered, isAssigned, unassembled⟩
  apply meets_bind_get.mpr
  rw [if_neg (show ¬before.isRAIDConfigured = true from Bool.eq_false_iff.mp unassembled)]
  apply meets_bind_ask.mpr
  rintro (_ | _)
  · apply meets_bind_modify.mpr
    exact meets_pure.mpr fun _ => ⟨⟨⟨ordered, reserved⟩, isAssigned⟩, fun _ => ⟨rfl, rfl⟩⟩
  · apply (assigned_only.inProgress.initiateFailover .componentFailover before
      (progress.see ⟨.assembleMount, .failure⟩) ⟨⟨ordered, reserved⟩, isAssigned⟩).bind
    intro history _ after kept
    refine meets_pure.mpr fun _ => ⟨?_, nofun⟩
    rw [List.append_nil]
    exact kept fun _ _ => trivial

variable (codeOf : ReturnType → Int)

theorem configureMIPs_leads (onStart : Bool) :
    LeadsOn (fun agent progress => InProgress Core.Assigned agent progress ∧
      progress.1 = some (.assemble .success) ∧ agent.isRAIDConfigured = true)
      (configureMIPs codeOf onStart) fun result agent progress =>
      InProgress Core.Assigned agent progress ∧ (result = .success → agent.core.Configured) := by
  rintro before progress ⟨⟨ordered, isAssigned⟩, assembled, raid⟩
  apply meets_bind_get.mpr
  apply meets_ite.mpr ⟨fun mip => ?_, fun _ => ?_⟩
  · exact meets_pure.mpr fun _ => ⟨⟨ordered, isAssigned⟩, fun _ => ⟨isAssigned, raid, mip⟩⟩
  apply meets_bind_ask.mpr
  intro (activated : ReturnType)
  apply meets_ite.mpr ⟨fun _ => ?_, fun _ => ?_⟩
  · exact meets_pure.mpr fun _ => ⟨⟨⟨ordered, assembled⟩, isAssigned⟩, nofun⟩
  · apply meets_bind_modify.mpr
    exact meets_pure.mpr fun _ =>
      ⟨⟨⟨ordered, assembled⟩, isAssigned⟩, fun _ => ⟨isAssigned, raid, rfl⟩⟩

theorem mountFails_leads (onStart : Bool) :
    LeadsOn AfterReservation (mountFails codeOf onStart) fun fails agent progress =>
      progress.2 ∧ (fails = false → agent.core.Configured) := by
  have mounts : LeadsOn AfterReservation (mountRAIDandActivateMIPs codeOf onStart)
      fun result agent progress =>
      InProgress Core.Assigned agent progress ∧ (result = .success → agent.core.Configured) := by
    refine Leads.bind configureRAID_leads fun result before progress ⟨inProgress, done⟩ => ?_
    cases result with
    | success => exact configureMIPs_leads codeOf onStart before progress ⟨inProgress, done rfl⟩
    | failure => exact meets_pure.mpr fun _ => ⟨inProgress, nofun⟩
  refine Leads.bind mounts fun result before progress ⟨⟨ordered, isAssigned⟩, configures⟩ => ?_
  cases result with
  | success => exact meets_pure.mpr fun _ => ⟨ordered, fun _ => configures rfl⟩
  | failure =>
    apply meets_bind_get.mpr
    refine meets_pure.mpr fun _ => ⟨ordered, fun isConfigured => ⟨isAssigned, ?_⟩⟩
    show before.isRAIDConfigured = true ∧ before.isMIPConfigured = true
    simpa using isConfigured

theorem activeCommonJobs_leads (onStart : Bool) :
    LeadsOn (InProgress Core.Unassembled) (activeCommonJobs codeOf onStart) Activated := by
  refine Leads.bind unassembled_only.reserves fun result => ?_
  cases result with
  | failure => exact fun _ _ holds => unassembled_only.failover _ _ _ holds.2
  | success =>
    refine Leads.bind (mountFails_leads codeOf onStart) fun fails => ?_
    rintro before progress ⟨ordered, configures⟩
    cases fails with
    | true => exact meets_pure.mpr fun _ => ⟨ordered, nofun⟩
    | false =>
      refine Leads.bind configured_only.inProgress.updateDatadisksWithRaidDisks (fun result => ?_)
        before progress ⟨ordered, configures rfl⟩
      apply Leads.of_ite (configured_only.failover _)
      refine Leads.bind configured_only.inProgress.updateBothNodeDisknControllerstatus
        fun result => ?_
      apply Leads.of_ite (configured_only.failover _)
      exact fun _ _ holds => meets_pure.mpr fun _ => ⟨holds.1, fun _ => holds.2⟩

theorem performStateTransitionToActiveJobs_leads {previous : HAState}
    (notActive : previous ≠ .active) :
    LeadsOn (fun _ progress => progress.2) (performStateTransitionToActiveJobs codeOf previous)
      Activated := by
  rw [performStateTransitionToActiveJobs, if_neg notActive]
  intro before progress ordered
  apply meets_bind_modify.mpr
  refine Leads.bind unassembled_only.inProgress.registerReachableDataDisks (fun result => ?_) _
    progress ⟨ordered, rfl, rfl⟩
  refine Leads.of_ite (fun _ _ holds => meets_pure.mpr fun _ => ⟨holds.1, nofun⟩) ?_
  refine Leads.bind (unassembled_only.inProgress.quiet (refusesActive_quiet previous))
    fun refuses => ?_
  exact Leads.of_ite (unassembled_only.failover _) (activeCommonJobs_leads codeOf _)

/-- In every run the array is assembled only right after the reservation algorithm has succeeded,
and the MIPs are activated only right after the array has been assembled. -/
theorem activations_in_order {codeOf : ReturnType → Int} {setup : List (Exchange commands)}
    {steps : List AgentStep} {final : Agent} (runs : RunsTo codeOf setup steps final) :
    Orderly none (effects (setup ++ exchangesOf steps)) := by
  have any : FlagsOnly fun _ => True := ⟨fun _ _ _ => trivial, fun _ => trivial, fun _ => trivial⟩
  have active (previous : HAState) : Keeps (fun _ => True) Progress.see (InProgress fun _ => True)
      (performStateTransitionToActiveJobs codeOf previous) := by
    by_cases isActive : previous = .active
    · rw [performStateTransitionToActiveJobs, if_pos isActive]
      exact .of_pure _
    · intro before progress holds
      apply (performStateTransitionToActiveJobs_leads codeOf isActive before progress holds.1).mono
      exact fun _ _ _ activated allOkay => ⟨(activated allOkay).1, trivial⟩
  have kept := any.inProgress.runsTo active runs (fun _ _ => trivial)
    (show InProgress _ _ (none, True) from ⟨trivial, trivial⟩)
  exact ((foldl_progress _ _).mp kept.1).2

theorem activations_in_order_ordinary :
    ∃ setup steps final, RunsTo (fun _ => 0) setup steps final ∧
      final.isRAIDConfigured = true ∧ final.isMIPConfigured = true ∧
      Orderly none (effects (setup ++ exchangesOf steps)) :=
  have runs : RunsTo (fun _ => 0) _ _ _ := runsTo_play [(.csiSet .active, ordinary)] rfl
  ⟨_, _, _, runs, rfl, rfl, activations_in_order runs⟩

end Apos.RdeAgent
