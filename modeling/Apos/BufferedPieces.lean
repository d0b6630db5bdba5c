import Apos.TextFiles

/-!
# Pieces of a text

A reader with a limited buffer takes a piece of a text up to the end of a line, or as much as fits
the buffer.  Pieces that are complete in this sense are taken again as they are when they are
written one after the other, also when some of them are left out.
-/

namespace Apos

variable {α : Type} {stop : α} {limit : Nat}

/-- The reader looks no further: the piece ends a line or fills the buffer. -/
def Complete (stop : α) (limit : Nat) (piece : List α) : Prop :=
  Ended stop piece ∨ piece.length = limit

/-- Consecutive pieces: only the last one may be incomplete. -/
def Pieces (stop : α) (limit : Nat) : List (List α) → Prop
  | [] => True
  | piece :: pieces =>
    (IsLine stop piece ∧ piece.length ≤ limit) ∧
      (pieces ≠ [] → Complete stop limit piece) ∧ Pieces stop limit pieces

theorem Pieces.sublist {pieces fewer : List (List α)} (isPieces : Pieces stop limit pieces)
    (sublist : fewer.Sublist pieces) : Pieces stop limit fewer := by
  induction sublist with
  | slnil => trivial
  | cons piece _ ih => exact ih isPieces.2.2
  | cons_cons piece sublist ih =>
    refine ⟨isPieces.1, fun more => isPieces.2.1 ?_, ih isPieces.2.2⟩
    rintro rfl
    exact more (List.sublist_nil.mp sublist)

theorem Pieces.append {pieces others : List (List α)} (first : Pieces stop limit pieces)
    (complete : ∀ piece ∈ pieces, Complete stop limit piece) (second : Pieces stop limit others) :
    Pieces stop limit (pieces ++ others) := by
  induction pieces with
  | nil => exact second
  | cons piece pieces ih =>
    rw [List.forall_mem_cons] at complete
    exact ⟨first.1, fun _ => complete.1, ih first.2.2 complete.2⟩

theorem Pieces.ne_nil {pieces : List (List α)} (isPieces : Pieces stop limit pieces)
    (some : pieces ≠ []) : pieces.flatten ≠ [] := by
  cases pieces with
  | nil => exact absurd rfl some
  | cons piece pieces =>
    rw [List.flatten_cons]
    exact List.append_ne_nil_of_left_ne_nil isPieces.1.1.nonempty _

theorem Pieces.complete_front {front : List (List α)} {last : List α}
    (isPieces : Pieces stop limit (front ++ [last])) :
    ∀ piece ∈ front, Complete stop limit piece := by
  induction front with
  | nil => exact List.forall_mem_nil _
  | cons piece front ih =>
    rw [List.forall_mem_cons]
    exact ⟨isPieces.2.1 (by simp), ih isPieces.2.2⟩

theorem Pieces.complete {pieces : List (List α)} (isPieces : Pieces stop limit pieces)
    (ended : Ended stop pieces.flatten) : ∀ piece ∈ pieces, Complete stop limit piece := by
  induction pieces with
  | nil => exact List.forall_mem_nil _
  | cons piece pieces ih =>
    rw [List.flatten_cons, Ended] at ended
    rw [List.forall_mem_cons]
    by_cases last : pieces = []
    · subst last
      rw [List.flatten_nil, List.append_nil] at ended
      exact ⟨.inl ended, List.forall_mem_nil _⟩
    · rw [List.getLast?_append_of_ne_nil _ (isPieces.2.2.ne_nil last)] at ended
      exact ⟨isPieces.2.1 last, ih isPieces.2.2 ended⟩

variable [DecidableEq α]

theorem takeLine_piece {piece rest : List α} (isLine : IsLine stop piece)
    (short : piece.length ≤ limit) (complete : rest ≠ [] → Complete stop limit piece) :
    takeLine stop limit (piece ++ rest) = piece := by
  by_cases ended : Ended stop piece
  · exact takeLine_line isLine (fun _ => ended) short
  · by_cases atEnd : rest = []
    · exact takeLine_line isLine (fun more => absurd atEnd more) short
    · have full : piece.length = limit := (complete atEnd).resolve_left ended
      have absent : stop ∉ piece := by
        obtain ⟨body, rfl, -⟩ | ⟨-, absent⟩ := isLine.ended_or_not_mem
        · exact absurd (ended_snoc body) ended
        · exact absent
      have whole : piece.take limit = piece := List.take_of_length_le short
      rw [takeLine_long (by rwa [whole]) (Nat.le_of_eq full.symm), whole]

theorem bufferedLines_flatten_pieces {pieces : List (List α)}
    (isPieces : Pieces stop limit pieces) : bufferedLines stop limit pieces.flatten = pieces := by
  induction pieces with
  | nil => rfl
  | cons piece pieces ih =>
    obtain ⟨⟨isLine, short⟩, complete, later⟩ := isPieces
    have first : takeLine stop limit (piece ++ pieces.flatten) = piece := by
      apply takeLine_piece isLine short
      intro more
      apply complete
      rintro rfl
      exact more rfl
    have more : takeLine stop limit (piece ++ pieces.flatten) ≠ [] := by
      rw [first]
      exact isLine.nonempty
    rw [List.flatten_cons, bufferedLines_of_ne_nil more, first, List.drop_left, ih later]

theorem takeLine_eq_or_complete (limit : Nat) (text : List α) :
    takeLine stop limit text = text ∨ Complete stop limit (takeLine stop limit text) := by
  induction text generalizing limit with
  | nil =>
    left
    cases limit <;> rfl
  | cons symbol rest ih =>
    cases limit with
    | zero => exact .inr (.inr rfl)
    | succ limit =>
      rw [takeLine]
      split
      · next same => exact .inr (.inl (by rw [same]; rfl))
      · obtain whole | ended | full := ih limit
        · exact .inl (by rw [whole])
        · refine .inr (.inl ?_)
          rw [Ended] at ended ⊢
          rw [List.getLast?_cons, ended]
          rfl
        · exact .inr (.inr (by rw [List.length_cons, full]))

theorem pieces_bufferedLines (text : List α) :
    Pieces stop limit (bufferedLines stop limit text) := by
  induction length : text.length using Nat.strongRecOn generalizing text with
  | ind count ih =>
    by_cases ends : takeLine stop limit text = []
    · rw [bufferedLines_of_eq_nil ends]
      trivial
    · rw [bufferedLines_of_ne_nil ends]
      have positive := List.length_pos_of_ne_nil ends
      have isPart : takeLine stop limit text <+: text := takeLine_prefix limit text
      have part := isPart.length_le
      refine ⟨⟨⟨ends, stop_not_mem_dropLast_takeLine limit text⟩, length_takeLine_le limit text⟩,
        ?_, ih _ (by rw [List.length_drop]; omega) _ rfl⟩
      intro more
      apply (takeLine_eq_or_complete limit text).resolve_left
      intro whole
      rw [whole, List.drop_length] at more
      exact more rfl

theorem bufferedLines_append_ended (room : 0 < limit) {text : List α}
    (ended : text = [] ∨ Ended stop text) (rest : List α) :
    bufferedLines stop limit (text ++ rest) =
      bufferedLines stop limit text ++ bufferedLines stop limit rest := by
  obtain rfl | ended := ended
  · rfl
  · have first : Pieces stop limit (bufferedLines stop limit text) :=
      pieces_bufferedLines text
    have second : Pieces stop limit (bufferedLines stop limit rest) :=
      pieces_bufferedLines rest
    have complete := first.complete (by rwa [flatten_bufferedLines room])
    have both := bufferedLines_flatten_pieces (first.append complete second)
    rwa [List.flatten_append, flatten_bufferedLines room, flatten_bufferedLines room] at both

theorem bufferedLines_snoc (room : 0 < limit) {front : List (List α)} {last : List α}
    (isPieces : Pieces stop limit (front ++ [last])) (notEnded : ¬ Ended stop last) :
    bufferedLines stop limit ((front ++ [last]).flatten ++ [stop]) =
      front ++ if last.length < limit then [last ++ [stop]] else [last, [stop]] := by
  have complete := isPieces.complete_front
  have first := isPieces.sublist (List.sublist_append_left front [last])
  obtain ⟨⟨isLine, short⟩, -⟩ := isPieces.sublist (List.sublist_append_right front [last])
  have absent : stop ∉ last := by
    obtain ⟨body, rfl, -⟩ | ⟨-, absent⟩ := isLine.ended_or_not_mem
    · exact absurd (ended_snoc body) notEnded
    · exact absent
  have ending : Pieces stop limit
      (if last.length < limit then [last ++ [stop]] else [last, [stop]]) := by
    split
    · next fits =>
        refine ⟨⟨isLine_snoc absent, ?_⟩, fun more => absurd rfl more, trivial⟩
        rw [List.length_append]
        exact fits
    · next full =>
        have isFull : last.length = limit := Nat.le_antisymm short (Nat.le_of_not_lt full)
        refine ⟨⟨isLine, short⟩, fun _ => .inr isFull, ⟨⟨by simp, by simp⟩, room⟩, ?_, trivial⟩
        exact fun more => absurd rfl more
  have whole := bufferedLines_flatten_pieces (first.append complete ending)
  rw [← whole]
  congr 1
  split <;> simp

end Apos
