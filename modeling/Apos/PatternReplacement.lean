import Mathlib.Algebra.Group.Nat.Defs
import Mathlib.Data.List.Infix

/-!
# Replacing the occurrences of a pattern

A pattern whose first symbol does not come back in it occurs at places that do not touch.  This
file replaces all of the places of such a pattern by a value, and compares the outcome with texts
in which only some of them are replaced.
-/

namespace Apos

variable {α : Type}

def BeginsOnce (pattern : List α) : Prop :=
  ∃ first tail, pattern = first :: tail ∧ first ∉ tail

inductive SomeReplaced (pattern value : List α) : List α → List α → Nat → Prop where
  | nil : SomeReplaced pattern value [] [] 0
  | keep {text outcome : List α} {count : Nat} (symbol : α)
      (further : SomeReplaced pattern value text outcome count) :
      SomeReplaced pattern value (symbol :: text) (symbol :: outcome) count
  | put {text outcome : List α} {count : Nat}
      (further : SomeReplaced pattern value text outcome count) :
      SomeReplaced pattern value (pattern ++ text) (value ++ outcome) (count + 1)

section Outcomes

variable {first : α} {tail pattern value text outcome : List α} {count more : Nat}

theorem SomeReplaced.append
    (here : SomeReplaced pattern value text outcome count) {further reached : List α}
    (there : SomeReplaced pattern value further reached more) :
    SomeReplaced pattern value (text ++ further) (outcome ++ reached) (count + more) := by
  induction here with
  | nil => rwa [Nat.zero_add]
  | keep symbol _ ih => exact ih.keep symbol
  | put _ ih =>
    rw [List.append_assoc, List.append_assoc, Nat.add_right_comm]
    exact ih.put

theorem SomeReplaced.refl (pattern value text : List α) :
    SomeReplaced pattern value text text 0 := by
  induction text with
  | nil => exact .nil
  | cons symbol text ih => exact ih.keep symbol

theorem SomeReplaced.length_add
    (replaced : SomeReplaced pattern value text outcome count) :
    outcome.length + count * pattern.length = text.length + count * value.length := by
  induction replaced with
  | nil => simp
  | keep symbol _ ih =>
    rw [List.length_cons, List.length_cons]
    omega
  | put _ ih =>
    rw [List.length_append, List.length_append, Nat.succ_mul, Nat.succ_mul]
    omega

theorem SomeReplaced.front {front : List α} (absent : first ∉ front)
    (replaced : SomeReplaced (first :: tail) value (front ++ text) outcome count) :
    ∃ rest, outcome = front ++ rest ∧ SomeReplaced (first :: tail) value text rest count := by
  induction front generalizing outcome with
  | nil => exact ⟨outcome, rfl, replaced⟩
  | cons symbol front ih =>
    rw [List.mem_cons, not_or] at absent
    generalize shape : symbol :: front ++ text = whole at replaced
    cases replaced with
    | nil => cases shape
    | keep _ further =>
      obtain ⟨rfl, rfl⟩ := List.cons.inj shape
      obtain ⟨rest, rfl, kept⟩ := ih absent.2 further
      exact ⟨rest, rfl, kept⟩
    | put further => exact absurd (List.cons.inj shape).1.symm absent.1

theorem SomeReplaced.length_eq_of_append {further : List α}
    (replaced : SomeReplaced pattern value text outcome count)
    (others : SomeReplaced pattern value text further more) (fewer : count ≤ more)
    (sizes : pattern.length + outcome.length = value.length + further.length) :
    pattern.length = value.length := by
  obtain ⟨added, rfl⟩ := Nat.exists_eq_add_of_le fewer
  have size := replaced.length_add
  have otherSize := others.length_add
  rw [Nat.add_mul, Nat.add_mul] at otherSize
  have multiples : (added + 1) * pattern.length = (added + 1) * value.length := by
    rw [Nat.succ_mul, Nat.succ_mul]
    omega
  exact Nat.eq_of_mul_eq_mul_left (Nat.succ_pos added) multiples

theorem SomeReplaced.eq_of_value_eq
    (replaced : SomeReplaced pattern pattern text outcome count) : outcome = text := by
  induction replaced with
  | nil => rfl
  | keep symbol _ ih | put _ ih => rw [ih]

theorem SomeReplaced.mem {symbol : α} (replaced : SomeReplaced pattern value text outcome count)
    (outside : symbol ∉ pattern) (member : symbol ∈ text) : symbol ∈ outcome := by
  induction replaced with
  | nil => exact member
  | keep other _ ih =>
    obtain rfl | later := List.mem_cons.mp member
    · exact List.mem_cons_self
    · exact List.mem_cons_of_mem _ (ih later)
  | put _ ih =>
    obtain inPattern | later := List.mem_append.mp member
    · exact absurd inPattern outside
    · exact List.mem_append_right _ (ih later)

end Outcomes

variable [DecidableEq α]

def occurrences (pattern : List α) : List α → Nat
  | [] => 0
  | symbol :: rest =>
    (if pattern <+: symbol :: rest then 1 else 0) + occurrences pattern rest

def replaceBehind (pattern value : List α) : Nat → List α → List α
  | _, [] => []
  | 0, symbol :: rest =>
    if pattern <+: symbol :: rest then
      value ++ replaceBehind pattern value (pattern.length - 1) rest
    else
      symbol :: replaceBehind pattern value 0 rest
  | skipped + 1, _ :: rest => replaceBehind pattern value skipped rest

def replaceAll (pattern value text : List α) : List α :=
  replaceBehind pattern value 0 text

theorem replaceBehind_eq_drop (pattern value : List α) (skipped : Nat) (text : List α) :
    replaceBehind pattern value skipped text = replaceAll pattern value (text.drop skipped) := by
  induction text generalizing skipped with
  | nil => simp [replaceAll, replaceBehind]
  | cons symbol rest ih =>
    cases skipped with
    | zero => rfl
    | succ skipped => exact ih skipped

section Places

variable {first : α} {tail pattern value text outcome : List α} {count : Nat}

theorem replaceAll_append_pattern (first : α) (tail value text : List α) :
    replaceAll (first :: tail) value (first :: tail ++ text) =
      value ++ replaceAll (first :: tail) value text := by
  have occurs : first :: tail <+: first :: (tail ++ text) := ⟨text, rfl⟩
  rw [List.cons_append, replaceAll, replaceBehind, if_pos occurs, replaceBehind_eq_drop,
    List.length_cons, Nat.add_sub_cancel, List.drop_left]

theorem replaceAll_cons {symbol : α} (absent : ¬ pattern <+: symbol :: text) :
    replaceAll pattern value (symbol :: text) = symbol :: replaceAll pattern value text := by
  rw [replaceAll, replaceBehind, if_neg absent]
  rfl

theorem occurrences_append_of_not_mem {front : List α} (absent : first ∉ front) (text : List α) :
    occurrences (first :: tail) (front ++ text) = occurrences (first :: tail) text := by
  induction front with
  | nil => rfl
  | cons symbol front ih =>
    rw [List.mem_cons, not_or] at absent
    have notHere : ¬ first :: tail <+: symbol :: (front ++ text) := by
      intro occurs
      exact absent.1 (List.cons_prefix_cons.mp occurs).1
    rw [List.cons_append, occurrences, if_neg notHere, Nat.zero_add, ih absent.2]

theorem occurrences_append_pattern (apart : first ∉ tail) (text : List α) :
    occurrences (first :: tail) (first :: tail ++ text) = occurrences (first :: tail) text + 1 := by
  have occurs : first :: tail <+: first :: (tail ++ text) := ⟨text, rfl⟩
  rw [List.cons_append, occurrences, if_pos occurs, occurrences_append_of_not_mem apart,
    Nat.add_comm]

theorem SomeReplaced.le_occurrences (once : BeginsOnce pattern)
    (replaced : SomeReplaced pattern value text outcome count) :
    count ≤ occurrences pattern text := by
  obtain ⟨first, tail, rfl, apart⟩ := once
  induction replaced with
  | nil => exact Nat.zero_le _
  | keep symbol _ ih =>
    rw [occurrences]
    omega
  | put _ ih =>
    rw [occurrences_append_pattern apart]
    exact Nat.succ_le_succ ih

theorem someReplaced_replaceAll (once : BeginsOnce pattern) (value text : List α) :
    SomeReplaced pattern value text (replaceAll pattern value text)
      (occurrences pattern text) := by
  obtain ⟨first, tail, rfl, apart⟩ := once
  induction length : text.length using Nat.strongRecOn generalizing text with
  | ind size ih =>
    cases text with
    | nil => exact .nil
    | cons symbol rest =>
      by_cases occurs : first :: tail <+: symbol :: rest
      · obtain ⟨behind, shape⟩ := occurs
        have shorter : behind.length < size := by
          rw [← length, ← shape, List.length_append, List.length_cons]
          omega
        rw [← shape, replaceAll_append_pattern, occurrences_append_pattern apart]
        exact (ih _ shorter behind rfl).put
      · rw [replaceAll_cons occurs, occurrences, if_neg occurs, Nat.zero_add]
        apply SomeReplaced.keep
        apply ih rest.length _ rest rfl
        rw [← length, List.length_cons]
        exact Nat.lt_succ_self _

/-- A text in which some places are replaced has all of them replaced when none is left, or when
the value is the pattern itself. -/
theorem SomeReplaced.eq_replaceAll_iff (once : BeginsOnce pattern)
    (replaced : SomeReplaced pattern value text outcome count) :
    outcome = replaceAll pattern value text ↔
      value = pattern ∨ count = occurrences pattern text := by
  have ⟨first, tail, shape, apart⟩ := once
  subst shape
  induction replaced with
  | nil => exact iff_of_true rfl (.inr rfl)
  | @keep text outcome count symbol further ih =>
    by_cases occurs : first :: tail <+: symbol :: text
    · obtain ⟨behind, shape⟩ := occurs
      obtain ⟨rfl, isText⟩ := List.cons.inj shape
      rw [← isText] at further
      obtain ⟨rest, rfl, kept⟩ := further.front apart
      have fewer := kept.le_occurrences once
      rw [← shape, ← List.cons_append, replaceAll_append_pattern,
        occurrences_append_pattern apart]
      constructor
      · intro same
        have sizes := congrArg List.length same
        rw [List.length_append, List.length_append] at sizes
        have all := someReplaced_replaceAll once value behind
        have sameSize := kept.length_eq_of_append all fewer sizes
        exact .inl (List.append_inj_left same sameSize).symm
      · rintro (rfl | all)
        · rw [kept.eq_of_value_eq, (someReplaced_replaceAll once _ behind).eq_of_value_eq]
        · omega
    · rw [replaceAll_cons occurs, occurrences, if_neg occurs, Nat.zero_add,
        List.cons_inj_right]
      exact ih
  | put further ih =>
    rw [replaceAll_append_pattern, occurrences_append_pattern apart, List.append_cancel_left_eq,
      Nat.add_right_cancel_iff]
    exact ih

end Places

end Apos
