import Mathlib.Data.List.Basic

/-!
# Loops that wait for one input

A program waits for the answer to a request on a channel that others use too.  It takes one
input after the other, and each input makes it go on, succeed or give up.  This file says
when such a loop succeeds, and when it does so exactly on the answers it waits for.
-/

namespace Apos

inductive Verdict where
  | goOn
  | succeed
  | giveUp
  deriving DecidableEq, Repr

namespace Verdict

variable {α : Type} (judge : α → Verdict)

def endsAt : List α → Option α
  | [] => none
  | input :: inputs => if judge input = .goOn then endsAt inputs else some input

def succeeds : List α → Bool
  | [] => false
  | input :: inputs =>
    match judge input with
    | .goOn => succeeds inputs
    | .succeed => true
    | .giveUp => false

theorem succeeds_iff (inputs : List α) :
    succeeds judge inputs = true ↔ ∃ earlier input later, inputs = earlier ++ input :: later ∧
      (∀ other ∈ earlier, judge other = .goOn) ∧ judge input = .succeed := by
  induction inputs with
  | nil => simp [succeeds]
  | cons first inputs ih =>
    rw [succeeds]
    cases verdict : judge first with
    | succeed => exact iff_of_true rfl ⟨[], first, inputs, rfl, by simp, verdict⟩
    | goOn =>
      rw [ih]
      constructor
      · rintro ⟨earlier, input, later, rfl, waits, accepted⟩
        refine ⟨first :: earlier, input, later, rfl, ?_, accepted⟩
        simpa [verdict] using waits
      · rintro ⟨_ | ⟨before, earlier⟩, input, later, shape, waits, accepted⟩
        · obtain ⟨rfl, -⟩ := List.cons.inj shape
          simp [verdict] at accepted
        · obtain ⟨rfl, rfl⟩ := List.cons.inj shape
          exact ⟨earlier, input, later, rfl, fun other member =>
            waits other (List.mem_cons_of_mem _ member), accepted⟩
    | giveUp =>
      refine iff_of_false (by simp) ?_
      rintro ⟨_ | ⟨before, earlier⟩, input, later, shape, waits, accepted⟩
      · obtain ⟨rfl, -⟩ := List.cons.inj shape
        simp [verdict] at accepted
      · obtain ⟨rfl, -⟩ := List.cons.inj shape
        simpa [verdict] using waits _ List.mem_cons_self

theorem succeeds_of_reached {earlier later : List α} {input : α}
    (waits : ∀ other ∈ earlier, judge other ≠ .giveUp) (accepted : judge input = .succeed) :
    succeeds judge (earlier ++ input :: later) = true := by
  induction earlier with
  | nil => simp [succeeds, accepted]
  | cons first earlier ih =>
    rw [List.cons_append, succeeds]
    cases verdict : judge first with
    | succeed => rfl
    | goOn => exact ih fun other member => waits other (List.mem_cons_of_mem _ member)
    | giveUp => exact absurd verdict (waits first List.mem_cons_self)

variable {judge}

structure Awaits (judge : α → Verdict) (isAnswer : α → Prop) (inputs : List α) : Prop where
  succeeds : succeeds judge inputs = true ↔ ∃ input ∈ inputs, isAnswer input
  patient : ∀ input, endsAt judge inputs = some input → isAnswer input

section Steps

variable {isAnswer : α → Prop} {first : α} {inputs : List α}

theorem awaits_cons_of_goOn (verdict : judge first = .goOn) (other : ¬isAnswer first) :
    Awaits judge isAnswer (first :: inputs) ↔ Awaits judge isAnswer inputs := by
  constructor
  · rintro ⟨succeeds, patient⟩
    simp only [Verdict.succeeds, verdict, List.exists_mem_cons_iff, other,
      false_or] at succeeds
    rw [endsAt, if_pos verdict] at patient
    exact ⟨succeeds, patient⟩
  · rintro ⟨succeeds, patient⟩
    refine ⟨?_, ?_⟩
    · simpa only [Verdict.succeeds, verdict, List.exists_mem_cons_iff, other,
        false_or] using succeeds
    · rwa [endsAt, if_pos verdict]

theorem awaits_cons_of_succeed (verdict : judge first = .succeed) (answers : isAnswer first) :
    Awaits judge isAnswer (first :: inputs) where
  succeeds :=
    iff_of_true (by simp [Verdict.succeeds, verdict]) ⟨first, List.mem_cons_self, answers⟩
  patient := by
    intro input ended
    rw [endsAt, if_neg (by simp [verdict]), Option.some.injEq] at ended
    exact ended ▸ answers

theorem not_awaits_cons_of_giveUp (verdict : judge first = .giveUp) :
    ¬Awaits judge isAnswer (first :: inputs) := by
  rintro ⟨succeeds, patient⟩
  have answers := patient first (by rw [endsAt, if_neg (by simp [verdict])])
  have isTrue := succeeds.mpr ⟨first, List.mem_cons_self, answers⟩
  simp [Verdict.succeeds, verdict] at isTrue

end Steps

theorem awaits_iff {isAnswer : α → Prop} (sound : ∀ input, judge input = .succeed → isAnswer input)
    (watchful : ∀ input, judge input = .goOn → ¬isAnswer input) (inputs : List α) :
    Awaits judge isAnswer inputs ↔
      ∀ earlier input later, inputs = earlier ++ input :: later →
        (∀ other ∈ earlier, ¬isAnswer other) → judge input ≠ .giveUp := by
  induction inputs with
  | nil => exact ⟨fun _ => by simp, fun _ => ⟨by simp [Verdict.succeeds], by simp [endsAt]⟩⟩
  | cons first inputs ih =>
    cases verdict : judge first with
    | goOn =>
      have other := watchful first verdict
      rw [awaits_cons_of_goOn verdict other, ih]
      constructor
      · rintro harmless (_ | ⟨before, earlier⟩) input later shape early
        · obtain ⟨rfl, -⟩ := List.cons.inj shape
          simp [verdict]
        · obtain ⟨rfl, rfl⟩ := List.cons.inj shape
          exact harmless earlier input later rfl fun other member =>
            early other (List.mem_cons_of_mem _ member)
      · rintro harmless earlier input later rfl early
        refine harmless (first :: earlier) input later rfl ?_
        simpa [other] using early
    | succeed =>
      have answers := sound first verdict
      refine iff_of_true (awaits_cons_of_succeed verdict answers) ?_
      rintro (_ | ⟨before, earlier⟩) input later shape early
      · obtain ⟨rfl, -⟩ := List.cons.inj shape
        simp [verdict]
      · obtain ⟨rfl, -⟩ := List.cons.inj shape
        exact absurd answers (early _ List.mem_cons_self)
    | giveUp =>
      refine iff_of_false (not_awaits_cons_of_giveUp verdict) fun harmless => ?_
      exact harmless [] first inputs rfl (by simp) verdict

end Verdict

end Apos
