import Apos.RdeAgentEffects

/-!
# The graceful-down jobs of the MD HA agent

To give up what it holds, the agent releases its disks, deactivates the MIPs and unmounts
the array.  It does nothing of this if the jobs have been done or it counts as standby, it
releases only disks that are taken for healthy, and it stops at the first release that
fails.  This file lists the effects the jobs can have.
-/

namespace Apos.RdeAgent

open Stateful

namespace Core

variable (core : Core) (port : Port)

def skipsJobs : Bool :=
  !core.isStateAssgned || core.isAgentStanby || core.gracefullDownJobsDone

abbrev Releases : Prop :=
  (core.disk port).isHealthy = true ∧ (core.disk port).isReserved = true

def released : List Effect :=
  if core.Releases port then [.release (core.disk port).diskname .success] else []

/-- The deactivation of the MIPs and the unmounting of the array, with their results. -/
def closing (deactivation unmount : ReturnType) : List Effect :=
  (if core.isMIPConfigured then [.deactivate deactivation] else []) ++
    if core.isRAIDConfigured then [.unmount unmount] else []

theorem released_congr {other : Core} (same : other.disk port = core.disk port) :
    other.released port = core.released port := by
  simp [released, Releases, same]

theorem disk_setReserved_of_ne {other : Port} (isOther : other ≠ port) (isReserved : Bool) :
    (core.setReserved port isReserved).disk other = core.disk other := by
  rw [setReserved, disk_mapDisk, if_neg isOther]

@[simp]
theorem closing_setReserved (isReserved : Bool) (deactivation unmount : ReturnType) :
    (core.setReserved port isReserved).closing deactivation unmount =
      core.closing deactivation unmount := by
  cases port <;> rfl

theorem mem_closing {deactivation unmount : ReturnType} {effect : Effect} :
    effect ∈ core.closing deactivation unmount ↔
      core.isMIPConfigured = true ∧ effect = .deactivate deactivation ∨
        core.isRAIDConfigured = true ∧ effect = .unmount unmount := by
  unfold closing
  split <;> split <;> simp [*]

end Core

/-- The results and effects the graceful-down jobs can have.  They stop at the first release
that fails. -/
inductive DownJobs (core : Core) : ReturnType → List Effect → Prop where
  | skipped (skips : core.skipsJobs = true) : DownJobs core .success []
  | firstKept (works : core.skipsJobs = false) (releases : core.Releases .one) :
      DownJobs core .failure [.release (core.disk .one).diskname .failure]
  | secondKept (works : core.skipsJobs = false) (releases : core.Releases .two) :
      DownJobs core .failure
        (core.released .one ++ [.release (core.disk .two).diskname .failure])
  | closed (works : core.skipsJobs = false) {result : ReturnType}
      (deactivation unmount : ReturnType)
      (succeeds : result = .success → deactivation = .success ∧ unmount = .success) :
      DownJobs core result
        (core.released .one ++ (core.released .two ++ core.closing deactivation unmount))

theorem releaseReserved_cases (before : Agent) (port : Port) :
    (releaseReserved port).Meets before fun history result after =>
      (result = .failure ∧ before.core.Releases port ∧
        effects history = [.release (before.core.disk port).diskname .failure]) ∨
      (result = .success ∧ effects history = before.core.released port ∧
        (∀ other, other ≠ port → after.core.disk other = before.core.disk other) ∧
        after.core.closing = before.core.closing) := by
  apply (releaseReserved_meets before port).mono
  intro history result after spec
  unfold Core.released
  split at spec
  · next isReserved =>
      have releases : before.core.Releases port := Bool.and_eq_true_iff.mp isReserved
      rw [if_pos releases]
      cases result with
      | failure => exact .inl ⟨rfl, releases, spec.1⟩
      | success =>
        rw [if_pos rfl] at spec
        refine .inr ⟨rfl, spec.1, ?_, ?_⟩
        · intro other isOther
          rw [spec.2, Core.disk_setReserved_of_ne _ _ isOther]
        · funext deactivation unmount
          rw [spec.2, Core.closing_setReserved]
  · next isFree =>
      have releases : ¬before.core.Releases port := fun releases =>
        isFree (Bool.and_eq_true_iff.mpr releases)
      rw [if_neg releases]
      exact .inr ⟨spec.1, spec.2.1, fun _ _ => by rw [spec.2.2], by rw [spec.2.2]⟩

theorem umountRAIDandDeactivateMIPs_meets (before : Agent) :
    umountRAIDandDeactivateMIPs.Meets before fun history result after =>
      before = after ∧ ∃ deactivation unmount,
        effects history = before.core.closing deactivation unmount ∧
        (result = .success → deactivation = .success ∧ unmount = .success) := by
  have deactivates : deactivateConfiguredMIPs.Meets before fun history result after =>
      before = after ∧
        effects history = if before.core.isMIPConfigured then [.deactivate result] else [] := by
    apply meets_bind_get.mpr
    apply meets_ite.mpr ⟨fun isConfigured => ?_, fun isConfigured => ?_⟩
    · apply meets_ask.mpr
      intro reply
      exact ⟨rfl, (if_pos isConfigured).symm⟩
    · exact meets_pure.mpr ⟨rfl, (if_neg isConfigured).symm⟩
  have unmounts : unmountConfiguredRAID.Meets before fun history result after =>
      before = after ∧
        effects history = if before.core.isRAIDConfigured then [.unmount result] else [] := by
    apply meets_bind_get.mpr
    apply meets_ite.mpr ⟨fun isConfigured => ?_, fun isConfigured => ?_⟩
    · apply meets_bind_ask.mpr
      intro
      apply meets_ask.mpr
      intro reply
      exact ⟨rfl, (if_pos isConfigured).symm⟩
    · exact meets_pure.mpr ⟨rfl, (if_neg isConfigured).symm⟩
  apply deactivates.bind
  rintro deactivating deactivation _ ⟨rfl, deactivated⟩
  apply unmounts.bind
  rintro unmounting unmount _ ⟨rfl, unmounted⟩
  have closed : effects (deactivating ++ (unmounting ++ [])) =
      before.core.closing deactivation unmount := by
    simp [deactivated, unmounted, Core.closing]
  apply meets_ite.mpr ⟨fun _ => ?_, fun isDone => ?_⟩
  · exact meets_pure.mpr ⟨rfl, deactivation, unmount, closed, nofun⟩
  · refine meets_pure.mpr ⟨rfl, deactivation, unmount, closed, fun _ => ?_⟩
    cases deactivation <;> cases unmount <;> simp_all

theorem releaseBothDatadiskReservations_meets (before : Agent) :
    releaseBothDatadiskReservations.Meets before fun history result after =>
      (result = .failure ∧
        (before.core.Releases .one ∧
            effects history = [.release (before.core.disk .one).diskname .failure] ∨
          before.core.Releases .two ∧ effects history =
            before.core.released .one ++ [.release (before.core.disk .two).diskname .failure])) ∨
      (result = .success ∧
        effects history = before.core.released .one ++ before.core.released .two ∧
        after.core.closing = before.core.closing) := by
  apply (releaseReserved_cases before .one).bind
  rintro first result mid (⟨rfl, releases, isKept⟩ | ⟨rfl, released, sameDisk, sameClosing⟩)
  · rw [if_pos rfl]
    exact meets_pure.mpr (.inl ⟨rfl, .inl ⟨releases, by simpa using isKept⟩⟩)
  have sameSecond := sameDisk .two (by decide)
  rw [if_neg (by decide)]
  apply (releaseReserved_cases mid .two).bind
  rintro second result after (⟨rfl, releases, isKept⟩ | ⟨rfl, releasedToo, -, sameClosingToo⟩)
  · rw [if_pos rfl]
    rw [sameSecond] at isKept
    rw [Core.Releases, sameSecond] at releases
    exact meets_pure.mpr (.inl ⟨rfl, .inr ⟨releases, by simp [released, isKept]⟩⟩)
  · rw [if_neg (by decide)]
    apply meets_pure.mpr
    refine .inr ⟨rfl, ?_, sameClosingToo.trans sameClosing⟩
    simp [released, releasedToo, Core.released_congr _ _ sameSecond]

theorem handleRdeAgentGracefullDownJobs_meets (before : Agent) :
    handleRdeAgentGracefullDownJobs.Meets before fun history result _ =>
      DownJobs before.core result (effects history) := by
  apply meets_bind_get.mpr
  apply meets_ite.mpr ⟨fun isUnassigned => ?_, fun isAssigned => ?_⟩
  · exact meets_pure.mpr (.skipped (by simp_all [Core.skipsJobs, Agent.core]))
  apply meets_ite.mpr ⟨fun isStanby => ?_, fun notStanby => ?_⟩
  · exact meets_pure.mpr (.skipped (by simp_all [Core.skipsJobs, Agent.core]))
  apply meets_ite.mpr ⟨fun isDone => ?_, fun notDone => ?_⟩
  · exact meets_pure.mpr (.skipped (by simp_all [Core.skipsJobs, Agent.core]))
  have works : before.core.skipsJobs = false := by simp_all [Core.skipsJobs, Agent.core]
  apply (releaseBothDatadiskReservations_meets before).bind
  rintro releasing result mid (⟨rfl, kept⟩ | ⟨rfl, released, closing⟩)
  · rw [if_pos rfl]
    apply meets_pure.mpr
    rw [List.append_nil]
    rcases kept with ⟨releases, isKept⟩ | ⟨releases, isKept⟩
    · rw [isKept]
      exact .firstKept works releases
    · rw [isKept]
      exact .secondKept works releases
  rw [if_neg (by decide)]
  apply (umountRAIDandDeactivateMIPs_meets mid).bind
  rintro unmounting result _ ⟨rfl, deactivation, unmount, isClosed, succeeds⟩
  have isEffects : effects releasing ++ effects unmounting = before.core.released .one ++
      (before.core.released .two ++ before.core.closing deactivation unmount) := by
    rw [released, isClosed, closing, List.append_assoc]
  apply meets_ite.mpr ⟨fun isFailed => ?_, fun isDone => ?_⟩
  · apply meets_pure.mpr
    subst isFailed
    rw [List.append_nil, effects_append, isEffects]
    exact .closed works _ _ nofun
  · apply meets_bind_modify.mpr
    apply meets_pure.mpr
    rw [List.append_nil, effects_append, isEffects]
    exact .closed works _ _ fun _ => succeeds (by cases result <;> simp_all)

end Apos.RdeAgent
