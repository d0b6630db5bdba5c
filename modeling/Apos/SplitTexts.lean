import Mathlib.Data.List.Basic

/-!
# Texts that are split at a separator

The pieces of a text between the places of a separator.  There is one more of them than places, and
they hold the symbols of the text without the separator.
-/

namespace Apos

variable {α : Type} [DecidableEq α] {separator : α}

theorem splitOn_cons (symbol : α) (text : List α) :
    (symbol :: text).splitOn separator =
      if symbol = separator then [] :: text.splitOn separator
      else (text.splitOn separator).modifyHead (List.cons symbol) := by
  rw [List.splitOn_eq_splitOnP, List.splitOnP_cons_eq_if_modifyHead, List.splitOn_eq_splitOnP]
  simp only [beq_iff_eq]

theorem splitOn_cut {front : List α} (absent : separator ∉ front) (rest : List α) :
    (front ++ separator :: rest).splitOn separator = front :: rest.splitOn separator := by
  have unbroken : ∀ symbol ∈ front, (symbol == separator) = false := by
    intro symbol member
    rw [beq_eq_false_iff_ne]
    rintro rfl
    exact absent member
  exact List.splitOnP_append_cons_of_forall_mem unbroken separator (by simp) rest

theorem splitOn_of_not_mem {text : List α} (absent : separator ∉ text) :
    text.splitOn separator = [text] := by
  refine List.splitOnP_eq_singleton fun symbol member => ?_
  rw [beq_eq_false_iff_ne]
  rintro rfl
  exact absent member

theorem length_splitOn (text : List α) :
    (text.splitOn separator).length = text.count separator + 1 := by
  induction text with
  | nil => rfl
  | cons symbol text ih =>
    rw [splitOn_cons, List.count_cons]
    split
    · next same => simp [ih, same]
    · next other => simp [ih, other]

theorem exists_mem_splitOn_iff {text : List α} {symbol : α} :
    (∃ piece ∈ text.splitOn separator, symbol ∈ piece) ↔ symbol ∈ text ∧ symbol ≠ separator := by
  induction text with
  | nil => simp
  | cons first text ih =>
    rw [splitOn_cons]
    split
    · next same =>
        simp only [List.mem_cons, exists_eq_or_imp, List.not_mem_nil, false_or, ih, same]
        constructor
        · exact fun found => ⟨.inr found.1, found.2⟩
        · rintro ⟨rfl | member, distinct⟩
          · exact absurd rfl distinct
          · exact ⟨member, distinct⟩
    · next other =>
        obtain ⟨piece, more, pieces⟩ :=
          List.exists_cons_of_ne_nil (List.splitOn_ne_nil separator text)
        rw [pieces] at ih ⊢
        simp only [List.modifyHead_cons, List.mem_cons, exists_eq_or_imp] at ih ⊢
        rw [or_assoc, ih]
        constructor
        · rintro (rfl | ⟨member, distinct⟩)
          · exact ⟨.inl rfl, other⟩
          · exact ⟨.inr member, distinct⟩
        · rintro ⟨rfl | member, distinct⟩
          · exact .inl rfl
          · exact .inr ⟨member, distinct⟩

theorem mem_of_mem_splitOn {text piece : List α} {symbol : α}
    (isPiece : piece ∈ text.splitOn separator) (member : symbol ∈ piece) :
    symbol ∈ text ∧ symbol ≠ separator :=
  exists_mem_splitOn_iff.mp ⟨piece, isPiece, member⟩

end Apos
