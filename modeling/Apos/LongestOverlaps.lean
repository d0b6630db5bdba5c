import Mathlib.Data.List.Infix
import Mathlib.Order.Lattice.Nat

/-!
# Overlaps of a pattern with the end of a text

A search that goes through a text once keeps the length of the longest beginning of the pattern
that ends the text read so far.  When the next symbol does not continue this beginning, the
candidates that are left are the beginnings that end it.  This file states the set of the
candidates, and how its greatest element is found again after one more symbol from the greatest
elements for the beginnings of the pattern itself.
-/

namespace Apos

variable {α : Type}

/-- The lengths below a bound of the beginnings of a pattern that end a text. -/
def overlaps (pattern text : List α) (bound : Nat) : Set Nat :=
  { size | size < bound ∧ pattern.take size <:+ text }

/-- The length of the longest proper beginning of a beginning of the pattern that also ends it. -/
noncomputable def border (pattern : List α) (size : Nat) : Nat :=
  sSup (overlaps pattern (pattern.take size) size)

theorem zero_mem_overlaps (pattern text : List α) {bound : Nat} (positive : 0 < bound) :
    0 ∈ overlaps pattern text bound :=
  ⟨positive, by simp⟩

theorem isGreatest_border (pattern : List α) {size : Nat} (positive : 0 < size) :
    IsGreatest (overlaps pattern (pattern.take size) size) (border pattern size) := by
  have nonempty : (overlaps pattern (pattern.take size) size).Nonempty :=
    ⟨0, zero_mem_overlaps _ _ positive⟩
  have bounded : BddAbove (overlaps pattern (pattern.take size) size) :=
    ⟨size, fun _ isOverlap => Nat.le_of_lt isOverlap.1⟩
  exact ⟨Nat.sSup_mem nonempty bounded, fun _ isOverlap => le_csSup bounded isOverlap⟩

theorem succ_mem_overlaps_iff {pattern text : List α} {bound size : Nat} {symbol : α}
    (inside : bound ≤ pattern.length) :
    size + 1 ∈ overlaps pattern (text ++ [symbol]) (bound + 1) ↔
      size ∈ overlaps pattern text bound ∧ pattern[size]? = some symbol := by
  constructor
  · rintro ⟨below, ends⟩
    have within : size < pattern.length := by omega
    rw [List.take_succ_eq_append_getElem within] at ends
    obtain ⟨front, whole⟩ := ends
    rw [← List.append_assoc] at whole
    obtain ⟨same, last⟩ := List.append_singleton_inj.mp whole
    refine ⟨⟨by omega, front, same⟩, ?_⟩
    rw [List.getElem?_eq_getElem within, last]
  · rintro ⟨⟨below, front, same⟩, next⟩
    obtain ⟨within, isNext⟩ := List.getElem?_eq_some_iff.mp next
    refine ⟨by omega, front, ?_⟩
    rw [List.take_succ_eq_append_getElem within, isNext, ← List.append_assoc, same]

theorem mem_overlaps_take {pattern text : List α} {bound size longer : Nat}
    (isOverlap : size ∈ overlaps pattern text bound) (shorter : size < longer)
    (ends : pattern.take longer <:+ text) :
    size ∈ overlaps pattern (pattern.take longer) longer := by
  refine ⟨shorter, List.suffix_of_suffix_length_le isOverlap.2 ends ?_⟩
  simp only [List.length_take]
  omega

section FallingBack

structure HoldsCandidates (pattern text : List α) (bound : Nat) (symbol : α) (size : Nat) :
    Prop where
  isOverlap : size ∈ overlaps pattern text bound
  covers : ∀ other ∈ overlaps pattern text bound, pattern[other]? = some symbol → other ≤ size

variable {pattern text : List α} {bound size : Nat} {symbol : α}

theorem HoldsCandidates.fallBack (holds : HoldsCandidates pattern text bound symbol size)
    (positive : 0 < size) (differs : pattern[size]? ≠ some symbol) :
    HoldsCandidates pattern text bound symbol (border pattern size) ∧
      border pattern size < size := by
  obtain ⟨⟨below, ends⟩, longest⟩ := isGreatest_border pattern positive
  refine ⟨⟨⟨?_, ?_⟩, ?_⟩, below⟩
  · exact Nat.lt_trans below holds.isOverlap.1
  · exact ends.trans holds.isOverlap.2
  · intro other isOverlap continues
    have atMost := holds.covers other isOverlap continues
    have different : other ≠ size := by
      rintro rfl
      exact differs continues
    apply longest
    exact mem_overlaps_take isOverlap (Nat.lt_of_le_of_ne atMost different) holds.isOverlap.2

theorem HoldsCandidates.isGreatest [DecidableEq α]
    (holds : HoldsCandidates pattern text bound symbol size)
    (inside : bound ≤ pattern.length) (ends : size = 0 ∨ pattern[size]? = some symbol) :
    IsGreatest (overlaps pattern (text ++ [symbol]) (bound + 1))
      (if pattern[size]? = some symbol then size + 1 else size) := by
  split
  · next continues =>
      refine ⟨(succ_mem_overlaps_iff inside).mpr ⟨holds.isOverlap, continues⟩, ?_⟩
      rintro (_ | other) isOverlap
      · exact Nat.zero_le _
      · obtain ⟨shorter, next⟩ := (succ_mem_overlaps_iff inside).mp isOverlap
        exact Nat.succ_le_succ (holds.covers other shorter next)
  · next differs =>
      obtain rfl := ends.resolve_right differs
      refine ⟨zero_mem_overlaps _ _ (Nat.succ_pos _), ?_⟩
      rintro (_ | other) isOverlap
      · exact Nat.le_refl _
      · obtain ⟨shorter, next⟩ := (succ_mem_overlaps_iff inside).mp isOverlap
        obtain rfl := Nat.le_zero.mp (holds.covers other shorter next)
        exact absurd next differs

theorem holdsCandidates_of_isGreatest (greatest : IsGreatest (overlaps pattern text bound) size)
    (symbol : α) : HoldsCandidates pattern text bound symbol size :=
  ⟨greatest.1, fun _ isOverlap _ => greatest.2 isOverlap⟩

end FallingBack

theorem length_mem_overlaps_iff {pattern text : List α} :
    pattern.length ∈ overlaps pattern text (pattern.length + 1) ↔ pattern <:+ text := by
  constructor
  · rintro ⟨-, ends⟩
    rwa [List.take_length] at ends
  · intro ends
    exact ⟨Nat.lt_succ_self _, by rwa [List.take_length]⟩

end Apos
