import Mathlib.Data.List.DropRight

/-!
# Texts between spaces

A text is stripped of the spaces at both of its ends.  What counts as a space is a
parameter, since two readers of one text need not agree on it.  An assignment is a line
with a separator: the stripped text before the first separator is the key and the stripped
text after it is the value.
-/

namespace Apos

variable {α : Type} {space : α → Bool}

theorem decide_ne_of_not_mem [DecidableEq α] {stop : α} {text : List α} (absent : stop ∉ text) :
    ∀ symbol ∈ text, decide (symbol ≠ stop) = true := by
  intro symbol member
  apply decide_eq_true
  rintro rfl
  exact absent member

structure Bare (space : α → Bool) (text : List α) : Prop where
  head : ∀ symbol ∈ text.head?, space symbol = false
  last : ∀ symbol ∈ text.getLast?, space symbol = false

def strip (space : α → Bool) (text : List α) : List α :=
  (text.dropWhile space).rdropWhile space

theorem dropWhile_padded {lead text : List α} (spaces : ∀ symbol ∈ lead, space symbol = true)
    (head : ∀ symbol ∈ text.head?, space symbol = false) :
    (lead ++ text).dropWhile space = text := by
  rw [List.dropWhile_append_of_pos spaces]
  cases text with
  | nil => rfl
  | cons symbol rest => exact List.dropWhile_cons_of_neg (by simp [head symbol rfl])

theorem rdropWhile_padded {text tail : List α} (spaces : ∀ symbol ∈ tail, space symbol = true)
    (last : ∀ symbol ∈ text.getLast?, space symbol = false) :
    (text ++ tail).rdropWhile space = text := by
  have reversed := @dropWhile_padded α space tail.reverse text.reverse
    (fun symbol member => spaces symbol (List.mem_reverse.mp member))
    (fun symbol member => last symbol (by rwa [List.head?_reverse] at member))
  rw [List.rdropWhile, List.reverse_append, reversed, List.reverse_reverse]

variable (text : List α)

theorem head_dropWhile : ∀ symbol ∈ (text.dropWhile space).head?, space symbol = false := by
  intro symbol head
  have kept := List.head?_dropWhile_not space text
  rw [Option.mem_def] at head
  rw [head] at kept
  simpa using kept

theorem last_rdropWhile : ∀ symbol ∈ (text.rdropWhile space).getLast?, space symbol = false := by
  intro symbol last
  rw [List.rdropWhile, List.getLast?_reverse] at last
  exact head_dropWhile text.reverse symbol last

theorem strip_padded {lead core tail : List α} (bare : Bare space core)
    (leading : ∀ symbol ∈ lead, space symbol = true)
    (trailing : ∀ symbol ∈ tail, space symbol = true) :
    strip space (lead ++ core ++ tail) = core := by
  cases core with
  | nil =>
    have blank : ∀ symbol ∈ lead ++ tail, space symbol = true := by
      intro symbol member
      rcases List.mem_append.mp member with front | back
      · exact leading symbol front
      · exact trailing symbol back
    rw [List.append_nil, strip, List.dropWhile_eq_nil_iff.mpr blank]
    rfl
  | cons first rest =>
    have front : (lead ++ (first :: rest ++ tail)).dropWhile space = first :: rest ++ tail :=
      dropWhile_padded leading bare.head
    rw [strip, List.append_assoc, front, rdropWhile_padded trailing bare.last]

theorem exists_padded (text : List α) :
    ∃ lead tail, (∀ symbol ∈ lead, space symbol = true) ∧ (∀ symbol ∈ tail, space symbol = true) ∧
      text = lead ++ strip space text ++ tail := by
  refine ⟨text.takeWhile space, (text.dropWhile space).rtakeWhile space,
    fun _ => List.mem_takeWhile_imp, fun _ => List.mem_rtakeWhile_imp, ?_⟩
  rw [strip, List.append_assoc, List.rdropWhile_append_rtakeWhile,
    List.takeWhile_append_dropWhile]

theorem bare_strip : Bare space (strip space text) where
  head := by
    intro symbol head
    obtain ⟨later, whole⟩ := List.rdropWhile_prefix space (l := text.dropWhile space)
    apply head_dropWhile text symbol
    have first : ((text.dropWhile space).rdropWhile space).head? = some symbol := head
    rw [← whole, List.head?_append, first]
    rfl
  last := last_rdropWhile _

theorem mem_of_mem_strip {text : List α} {symbol : α} (member : symbol ∈ strip space text) :
    symbol ∈ text := by
  obtain ⟨lead, tail, -, -, whole⟩ := @exists_padded α space text
  rw [whole, List.mem_append, List.mem_append]
  exact .inl (.inr member)

theorem strip_eq_nil_iff {text : List α} :
    strip space text = [] ↔ ∀ symbol ∈ text, space symbol = true := by
  constructor
  · intro empty
    obtain ⟨lead, tail, leading, trailing, whole⟩ := @exists_padded α space text
    rw [empty, List.append_nil] at whole
    intro symbol member
    rw [whole, List.mem_append] at member
    exact member.elim (leading symbol) (trailing symbol)
  · intro blank
    rw [strip, List.dropWhile_eq_nil_iff.mpr blank]
    rfl

theorem strip_dropWhile : strip space (text.dropWhile space) = strip space text := by
  rw [strip, strip, List.dropWhile_idempotent]

theorem strip_rdropWhile : strip space (text.rdropWhile space) = strip space text := by
  obtain ⟨lead, tail, leading, trailing, whole⟩ := @exists_padded α space (text.rdropWhile space)
  have parts : text = lead ++ strip space (text.rdropWhile space) ++
      (tail ++ text.rtakeWhile space) := by
    rw [← List.append_assoc, ← whole, List.rdropWhile_append_rtakeWhile]
  have spaces : ∀ symbol ∈ tail ++ text.rtakeWhile space, space symbol = true := by
    intro symbol member
    rcases List.mem_append.mp member with inner | outer
    · exact trailing symbol inner
    · exact List.mem_rtakeWhile_imp outer
  have stripped := strip_padded (bare_strip (text.rdropWhile space)) leading spaces
  rw [← parts] at stripped
  exact stripped.symm

theorem rdropWhile_cut {symbol : α} (bare : space symbol = false) (left right : List α) :
    (left ++ symbol :: right).rdropWhile space = left ++ symbol :: right.rdropWhile space := by
  have last : ∀ other ∈ (left ++ symbol :: right.rdropWhile space).getLast?,
      space other = false := by
    intro other member
    rw [List.getLast?_append_of_ne_nil _ (List.cons_ne_nil _ _)] at member
    cases kept : right.rdropWhile space with
    | nil =>
      rw [kept] at member
      obtain rfl : symbol = other := by simpa using member
      exact bare
    | cons first rest =>
      apply last_rdropWhile right other
      rw [kept, List.getLast?_cons_cons] at member
      rw [kept]
      exact member
  have parts : left ++ symbol :: right =
      left ++ symbol :: right.rdropWhile space ++ right.rtakeWhile space := by
    rw [List.append_assoc, List.cons_append, List.rdropWhile_append_rtakeWhile]
  rw [parts]
  exact rdropWhile_padded (fun _ => List.mem_rtakeWhile_imp) last

theorem strip_cut {symbol : α} (bare : space symbol = false) (left right : List α) :
    strip space (left ++ symbol :: right) =
      left.dropWhile space ++ symbol :: right.rdropWhile space := by
  have front : (left ++ symbol :: right).dropWhile space =
      left.dropWhile space ++ symbol :: right := by
    rw [List.dropWhile_append]
    split
    · next blank =>
        rw [List.isEmpty_iff.mp blank, List.nil_append]
        exact List.dropWhile_cons_of_neg (by simp [bare])
    · rfl
  rw [strip, front, rdropWhile_cut bare]

/-! ## Assignments -/

def Assigns (space : α → Bool) (separator : α) (line key value : List α) : Prop :=
  ∃ left right, line = left ++ separator :: right ∧ separator ∉ left ∧
    strip space left = key ∧ strip space right = value

theorem cut_unique {separator : α} {left right otherLeft otherRight : List α}
    (same : left ++ separator :: right = otherLeft ++ separator :: otherRight)
    (absent : separator ∉ left) (otherAbsent : separator ∉ otherLeft) :
    left = otherLeft ∧ right = otherRight := by
  induction left generalizing otherLeft with
  | nil =>
    cases otherLeft with
    | nil => exact ⟨rfl, List.tail_eq_of_cons_eq same⟩
    | cons first rest =>
      obtain rfl := List.head_eq_of_cons_eq same
      exact absurd List.mem_cons_self otherAbsent
  | cons first rest ih =>
    cases otherLeft with
    | nil =>
      obtain rfl := List.head_eq_of_cons_eq same
      exact absurd List.mem_cons_self absent
    | cons otherFirst otherRest =>
      rw [List.mem_cons, not_or] at absent otherAbsent
      obtain ⟨rfl, rfl⟩ := ih (List.tail_eq_of_cons_eq same) absent.2 otherAbsent.2
      obtain rfl := List.head_eq_of_cons_eq same
      exact ⟨rfl, rfl⟩

theorem Assigns.unique {separator : α} {line key value otherKey otherValue : List α}
    (assigns : Assigns space separator line key value)
    (other : Assigns space separator line otherKey otherValue) :
    key = otherKey ∧ value = otherValue := by
  obtain ⟨left, right, rfl, absent, rfl, rfl⟩ := assigns
  obtain ⟨otherLeft, otherRight, same, otherAbsent, rfl, rfl⟩ := other
  obtain ⟨rfl, rfl⟩ := cut_unique same absent otherAbsent
  exact ⟨rfl, rfl⟩

/-! ## First and last values -/

section Positions

variable {β : Type} {holds : α → β → Prop} {items : List α} {value : β}

def FirstValue (holds : α → β → Prop) (items : List α) (value : β) : Prop :=
  ∃ before item after, items = before ++ item :: after ∧ holds item value ∧
    ∀ other ∈ before, ∀ otherValue, ¬holds other otherValue

def LastValue (holds : α → β → Prop) (items : List α) (value : β) : Prop :=
  ∃ before item after, items = before ++ item :: after ∧ holds item value ∧
    ∀ other ∈ after, ∀ otherValue, ¬holds other otherValue

theorem FirstValue.head {item : α} {other : β} (first : FirstValue holds (item :: items) other)
    (has : holds item value) : holds item other := by
  obtain ⟨before, found, after, split, foundHolds, none⟩ := first
  cases before with
  | nil =>
    obtain rfl := List.head_eq_of_cons_eq split
    exact foundHolds
  | cons head rest =>
    obtain rfl := List.head_eq_of_cons_eq split
    exact absurd has (none item List.mem_cons_self value)

variable {item : α}

theorem firstValue_cons_of_not (without : ∀ other, ¬holds item other) :
    FirstValue holds (item :: items) value ↔ FirstValue holds items value := by
  constructor
  · rintro ⟨before, found, after, split, foundHolds, none⟩
    cases before with
    | nil =>
      obtain rfl := List.head_eq_of_cons_eq split
      exact absurd foundHolds (without value)
    | cons head rest =>
      exact ⟨rest, found, after, List.tail_eq_of_cons_eq split, foundHolds,
        fun other member => none other (List.mem_cons_of_mem _ member)⟩
  · rintro ⟨before, found, after, rfl, foundHolds, none⟩
    refine ⟨item :: before, found, after, rfl, foundHolds, fun other member => ?_⟩
    rcases List.mem_cons.mp member with rfl | later
    · exact without
    · exact none other later

theorem lastValue_cons :
    LastValue holds (item :: items) value ↔
      LastValue holds items value ∨
        (holds item value ∧ ∀ other ∈ items, ∀ otherValue, ¬holds other otherValue) := by
  constructor
  · rintro ⟨before, found, after, split, foundHolds, none⟩
    cases before with
    | nil =>
      obtain rfl := List.head_eq_of_cons_eq split
      obtain rfl := List.tail_eq_of_cons_eq split
      exact .inr ⟨foundHolds, none⟩
    | cons head rest =>
      exact .inl ⟨rest, found, after, List.tail_eq_of_cons_eq split, foundHolds, none⟩
  · rintro (⟨before, found, after, rfl, foundHolds, none⟩ | ⟨itemHolds, none⟩)
    · exact ⟨item :: before, found, after, rfl, foundHolds, none⟩
    · exact ⟨[], item, items, rfl, itemHolds, none⟩

theorem LastValue.exists_mem (last : LastValue holds items value) :
    ∃ item ∈ items, holds item value := by
  obtain ⟨before, item, after, rfl, itemHolds, -⟩ := last
  exact ⟨item, by simp, itemHolds⟩

theorem LastValue.common {other : β} (last : LastValue holds items value)
    (otherLast : LastValue holds items other) :
    ∃ item ∈ items, holds item value ∧ holds item other := by
  induction items with
  | nil =>
    obtain ⟨item, member, -⟩ := last.exists_mem
    cases member
  | cons first items ih =>
    rw [lastValue_cons] at last otherLast
    rcases last with last | ⟨has, none⟩
    · rcases otherLast with otherLast | ⟨-, none⟩
      · obtain ⟨item, member, both⟩ := ih last otherLast
        exact ⟨item, List.mem_cons_of_mem _ member, both⟩
      · obtain ⟨item, member, has⟩ := last.exists_mem
        exact absurd has (none item member _)
    · rcases otherLast with otherLast | ⟨otherHas, -⟩
      · obtain ⟨item, member, otherHas⟩ := otherLast.exists_mem
        exact absurd otherHas (none item member _)
      · exact ⟨first, List.mem_cons_self, has, otherHas⟩

theorem firstValue_congr {other : α → β → Prop}
    (agree : ∀ item ∈ items, ∀ value, holds item value ↔ other item value) :
    FirstValue holds items value ↔ FirstValue other items value := by
  refine exists_congr fun before => exists_congr fun item => exists_congr fun after =>
    and_congr_right fun split => ?_
  subst split
  refine and_congr (agree item (by simp) value) (forall₂_congr fun earlier member => ?_)
  exact forall_congr' fun found => not_congr (agree earlier (by simp [member]) found)

theorem lastValue_congr {other : α → β → Prop}
    (agree : ∀ item ∈ items, ∀ value, holds item value ↔ other item value) :
    LastValue holds items value ↔ LastValue other items value := by
  refine exists_congr fun before => exists_congr fun item => exists_congr fun after =>
    and_congr_right fun split => ?_
  subst split
  refine and_congr (agree item (by simp) value) (forall₂_congr fun later member => ?_)
  exact forall_congr' fun found => not_congr (agree later (by simp [member]) found)

def LatestValue (holds : α → β → Prop) (items : List α) (initial value : β) : Prop :=
  LastValue holds items value ∨
    (∀ item ∈ items, ∀ other, ¬holds item other) ∧ value = initial

theorem LatestValue.cons_of_holds {initial next : β} (itemHolds : holds item next)
    (latest : LatestValue holds items next value) :
    LatestValue holds (item :: items) initial value := by
  rcases latest with last | ⟨none, rfl⟩
  · exact .inl (lastValue_cons.mpr (.inl last))
  · exact .inl (lastValue_cons.mpr (.inr ⟨itemHolds, none⟩))

theorem LatestValue.cons_of_not {initial : β} (without : ∀ other, ¬holds item other)
    (latest : LatestValue holds items initial value) :
    LatestValue holds (item :: items) initial value := by
  rcases latest with last | ⟨none, rfl⟩
  · exact .inl (lastValue_cons.mpr (.inl last))
  · exact .inr ⟨List.forall_mem_cons.mpr ⟨without, none⟩, rfl⟩

theorem LatestValue.unique {initial other : β}
    (functional : ∀ item value otherValue, holds item value → holds item otherValue →
      value = otherValue)
    (latest : LatestValue holds items initial value)
    (otherLatest : LatestValue holds items initial other) : value = other := by
  rcases latest with last | ⟨none, rfl⟩
  · rcases otherLatest with otherLast | ⟨none, rfl⟩
    · obtain ⟨item, -, has, otherHas⟩ := last.common otherLast
      exact functional item value other has otherHas
    · obtain ⟨item, member, has⟩ := last.exists_mem
      exact absurd has (none item member value)
  · rcases otherLatest with otherLast | ⟨-, rfl⟩
    · obtain ⟨item, member, has⟩ := otherLast.exists_mem
      exact absurd has (none item member other)
    · rfl

end Positions

end Apos
