import Mathlib.Data.List.GetD
import Apos.LongestOverlaps

/-!
# The substring search of the smart image client

`kmp_search` of `sinetcc.c` looks for a pattern in one pass over a text.  Its variable `k` is one
less than the number of characters of the pattern that end the text read so far, and entry `k` of
the table that `compute_prefix_function` fills is the value to which `k` falls back.  The values
are integers that start at minus one, as in the source.
-/

namespace Apos.SmartImage

abbrev Text := List Char

/-- The loop `while (k > -1 && pattern[k+1] != char) k = pi[k]`, cut after a number of rounds. -/
def fallBack (pattern : Text) (pi : List Int) (char : Char) : Nat → Int → Int
  | 0, k => k
  | rounds + 1, k =>
    if -1 < k ∧ pattern[(k + 1).toNat]? ≠ some char then
      fallBack pattern pi char rounds (pi.getD k.toNat (-1))
    else
      k

/-- What both loops do with `k` at the next character.  Every round of the inner loop makes `k`
smaller, so it has at most `k + 1` of them. -/
def advance (pattern : Text) (pi : List Int) (char : Char) (k : Int) : Int :=
  let k := fallBack pattern pi char (k + 1).toNat k
  if pattern[(k + 1).toNat]? = some char then k + 1 else k

/-- The loop of `compute_prefix_function`, with the entries of `pi` that are filled. -/
def fillTable (pattern : Text) : Text → Int → List Int → List Int
  | [], _, pi => pi
  | char :: rest, k, pi =>
    let k := advance pattern pi char k
    fillTable pattern rest k (pi ++ [k])

/-- The argument `allocated` tells whether `malloc` gives memory. -/
def computePrefixFunction (allocated : Bool) (pattern : Text) : Option (List Int) :=
  if allocated then some (fillTable pattern pattern.tail (-1) [-1]) else none

/-- The loop of `kmp_search` over the characters of the target from index `i` on. -/
def scan (pattern : Text) (pi : List Int) : Nat → Int → Text → Int
  | _, _, [] => -1
  | i, k, char :: rest =>
    let k := advance pattern pi char k
    if k = pattern.length - 1 then i - k else scan pattern pi (i + 1) k rest

def kmpSearch (allocated : Bool) (target pattern : Text) : Int :=
  match computePrefixFunction allocated pattern with
  | none => -1
  | some pi => scan pattern pi 0 (-1) target

section Table

variable {pattern read : Text} {pi : List Int} {char : Char} {bound size : Nat}

/-- The entries of a table for the shorter beginnings of the pattern are one less than their
borders. -/
def Tabulates (pattern : Text) (pi : List Int) (bound : Nat) : Prop :=
  ∀ size, 0 < size → size < bound → pi.getD (size - 1) (-1) = (border pattern size : Int) - 1

theorem fallBack_ends (tabulates : Tabulates pattern pi bound) (rounds : Nat)
    (holds : HoldsCandidates pattern read bound char size) (enough : size ≤ rounds) :
    ∃ shorter : Nat,
      fallBack pattern pi char rounds ((size : Int) - 1) = (shorter : Int) - 1 ∧
        HoldsCandidates pattern read bound char shorter ∧
          (shorter = 0 ∨ pattern[shorter]? = some char) := by
  induction rounds generalizing size with
  | zero =>
    obtain rfl := Nat.le_zero.mp enough
    exact ⟨0, rfl, holds, .inl rfl⟩
  | succ rounds fewer =>
    have position : ((size : Int) - 1 + 1).toNat = size := by omega
    by_cases stops : size = 0 ∨ pattern[size]? = some char
    · refine ⟨size, ?_, holds, stops⟩
      rw [fallBack, if_neg]
      rw [position]
      rintro ⟨large, differs⟩
      obtain rfl | continues := stops
      · exact absurd large (by decide)
      · exact differs continues
    · obtain ⟨nonzero, differs⟩ := not_or.mp stops
      have positive : 0 < size := Nat.pos_of_ne_zero nonzero
      obtain ⟨stillHolds, shorter⟩ := holds.fallBack positive differs
      have entry : pi.getD ((size : Int) - 1).toNat (-1) = (border pattern size : Int) - 1 := by
        rw [show ((size : Int) - 1).toNat = size - 1 by omega]
        exact tabulates size positive holds.isOverlap.1
      rw [fallBack, if_pos ⟨by omega, by rwa [position]⟩, entry]
      exact fewer stillHolds (by omega)

/-- One character more: from the longest overlap with the text read to the next one. -/
theorem advance_isGreatest (tabulates : Tabulates pattern pi bound)
    (inside : bound ≤ pattern.length)
    (greatest : IsGreatest (overlaps pattern read bound) size) (char : Char) :
    ∃ next : Nat,
      advance pattern pi char ((size : Int) - 1) = (next : Int) - 1 ∧
        IsGreatest (overlaps pattern (read ++ [char]) (bound + 1)) next := by
  have rounds : ((size : Int) - 1 + 1).toNat = size := by omega
  obtain ⟨shorter, isShorter, holds, ends⟩ :=
    fallBack_ends tabulates size (holdsCandidates_of_isGreatest greatest char) (Nat.le_refl _)
  refine ⟨_, ?_, holds.isGreatest inside ends⟩
  have position : ((shorter : Int) - 1 + 1).toNat = shorter := by omega
  simp only [advance, rounds, isShorter, position]
  split <;> omega

theorem Tabulates.mono {fewer : Nat} (tabulates : Tabulates pattern pi bound)
    (atMost : fewer ≤ bound) : Tabulates pattern pi fewer := by
  intro size positive below
  exact tabulates size positive (Nat.lt_of_lt_of_le below atMost)

theorem Tabulates.snoc (tabulates : Tabulates pattern pi (pi.length + 1)) {k : Int}
    (isNext : k = (border pattern (pi.length + 1) : Int) - 1) :
    Tabulates pattern (pi ++ [k]) (pi.length + 2) := by
  intro size positive below
  by_cases isLast : size = pi.length + 1
  · subst isLast
    rw [Nat.add_sub_cancel, List.getD_append_right _ _ _ _ (Nat.le_refl _), Nat.sub_self, isNext]
    rfl
  · rw [List.getD_append _ _ _ _ (by omega)]
    exact tabulates size positive (by omega)

theorem eq_border_of_isGreatest {next : Nat} (positive : 0 < read.length)
    (begins : read <+: pattern)
    (greatest : IsGreatest (overlaps pattern read read.length) next) :
    next = border pattern read.length := by
  have isBorder := isGreatest_border pattern positive
  rw [← List.prefix_iff_eq_take.mp begins] at isBorder
  exact greatest.unique isBorder

theorem fillTable_tabulates (rest : Text) (whole : read ++ rest = pattern)
    (filled : pi.length = read.length) (tabulates : Tabulates pattern pi (pi.length + 1))
    (greatest : IsGreatest (overlaps pattern read read.length) size) :
    Tabulates pattern (fillTable pattern rest ((size : Int) - 1) pi) (pattern.length + 1) := by
  induction rest generalizing read pi size with
  | nil =>
    rw [List.append_nil] at whole
    rwa [fillTable, ← whole, ← filled, whole]
  | cons char rest further =>
    have inside : read.length ≤ pattern.length := by
      rw [← whole, List.length_append]
      exact Nat.le_add_right _ _
    obtain ⟨next, isNext, nextGreatest⟩ :=
      advance_isGreatest (tabulates.mono (by omega)) inside greatest char
    have longer : read.length + 1 = (read ++ [char]).length := by simp
    have wholeAgain : read ++ [char] ++ rest = pattern := by
      rw [List.append_assoc, List.singleton_append, whole]
    rw [longer] at nextGreatest
    have isBorder : next = border pattern (pi.length + 1) := by
      rw [filled, longer]
      exact eq_border_of_isGreatest (by simp) ⟨rest, wholeAgain⟩ nextGreatest
    rw [fillTable, isNext]
    apply further wholeAgain (by simp [filled]) _ nextGreatest
    rw [List.length_append, List.length_singleton]
    apply tabulates.snoc
    rw [isBorder]

theorem computePrefixFunction_tabulates (nonempty : pattern ≠ []) :
    ∃ pi, computePrefixFunction true pattern = some pi ∧
      Tabulates pattern pi (pattern.length + 1) := by
  refine ⟨_, rfl, ?_⟩
  obtain ⟨first, rest, rfl⟩ := List.exists_cons_of_ne_nil nonempty
  have none : IsGreatest (overlaps (first :: rest) [first] [first].length) 0 := by
    refine ⟨zero_mem_overlaps _ _ Nat.one_pos, ?_⟩
    rintro size ⟨below, -⟩
    exact Nat.le_of_lt_succ below
  have isZero : 0 = border (first :: rest) 1 :=
    eq_border_of_isGreatest (by simp) ⟨rest, rfl⟩ none
  apply fillTable_tabulates rest rfl rfl _ none
  intro size positive below
  obtain rfl : size = 1 := by
    rw [List.length_singleton] at below
    omega
  rw [List.singleton_append, ← isZero]
  rfl

end Table

section Search

variable {pattern read : Text} {pi : List Int} {size : Nat}

def IsFirst (pattern target : Text) (index : Nat) : Prop :=
  pattern <+: target.drop index ∧ ∀ earlier < index, ¬ pattern <+: target.drop earlier

theorem suffix_take_iff (pattern target : Text) {ending : Nat} (inside : ending ≤ target.length) :
    pattern <:+ target.take ending ↔
      ∃ index, index + pattern.length = ending ∧ pattern <+: target.drop index := by
  constructor
  · rintro ⟨front, same⟩
    have sizes : front.length + pattern.length = ending := by
      rw [← List.length_append, same, List.length_take, Nat.min_eq_left inside]
    refine ⟨front.length, sizes, target.drop ending, ?_⟩
    have whole : target = front ++ (pattern ++ target.drop ending) := by
      rw [← List.append_assoc, same, List.take_append_drop]
    exact (congrArg (List.drop front.length) whole).trans List.drop_left |>.symm
  · rintro ⟨index, rfl, rest, same⟩
    refine ⟨target.take index, ?_⟩
    rw [List.take_add, ← same, List.take_left]

theorem length_le_of_prefix_drop {target : Text} {index : Nat} (nonempty : pattern ≠ [])
    (occurs : pattern <+: target.drop index) : index + pattern.length ≤ target.length := by
  have fits := occurs.length_le
  have positive := List.length_pos_of_ne_nil nonempty
  rw [List.length_drop] at fits
  omega

/-- The loop of `kmp_search`, started in the middle of a text in which it has found nothing. -/
theorem scan_outcome (nonempty : pattern ≠ [])
    (tabulates : Tabulates pattern pi (pattern.length + 1)) (rest : Text)
    (greatest : IsGreatest (overlaps pattern read pattern.length) size)
    (fresh : ∀ index, index + pattern.length ≤ read.length →
      ¬ pattern <+: (read ++ rest).drop index) :
    (∃ index : Nat, IsFirst pattern (read ++ rest) index ∧
        scan pattern pi read.length ((size : Int) - 1) rest = index) ∨
      (∀ index, ¬ pattern <+: (read ++ rest).drop index) ∧
        scan pattern pi read.length ((size : Int) - 1) rest = -1 := by
  induction rest generalizing read size with
  | nil =>
    refine .inr ⟨?_, rfl⟩
    intro index occurs
    apply fresh index _ occurs
    simpa using length_le_of_prefix_drop nonempty occurs
  | cons char rest further =>
    obtain ⟨next, isNext, nextGreatest⟩ :=
      advance_isGreatest (tabulates.mono (Nat.le_succ _)) (Nat.le_refl _) greatest char
    have wholeAgain : read ++ char :: rest = read ++ [char] ++ rest := by simp
    have readSize : (read ++ [char]).length = read.length + 1 := by simp
    have taken : (read ++ [char] ++ rest).take (read.length + 1) = read ++ [char] := by
      rw [← readSize, List.take_left]
    have found : next = pattern.length ↔
        ∃ index, index + pattern.length = read.length + 1 ∧
          pattern <+: (read ++ [char] ++ rest).drop index := by
      rw [← suffix_take_iff _ _ (by simp), taken, ← length_mem_overlaps_iff]
      constructor
      · rintro rfl
        exact nextGreatest.1
      · intro isOverlap
        exact Nat.le_antisymm (Nat.le_of_lt_succ nextGreatest.1.1) (nextGreatest.2 isOverlap)
    rw [scan, isNext]
    rw [wholeAgain] at fresh ⊢
    by_cases isWhole : next = pattern.length
    · obtain ⟨index, ends, occurs⟩ := found.mp isWhole
      refine .inl ⟨index, ⟨occurs, ?_⟩, ?_⟩
      · intro earlier before
        exact fresh earlier (by omega)
      · rw [if_pos (by omega)]
        omega
    · rw [if_neg (by omega), ← readSize]
      apply further
      · refine ⟨⟨?_, nextGreatest.1.2⟩, ?_⟩
        · exact Nat.lt_of_le_of_ne (Nat.le_of_lt_succ nextGreatest.1.1) isWhole
        · rintro other ⟨below, ends⟩
          exact nextGreatest.2 ⟨Nat.lt_succ_of_lt below, ends⟩
      · intro index inside occurs
        by_cases isNew : index + pattern.length = read.length + 1
        · exact isWhole (found.mpr ⟨index, isNew, occurs⟩)
        · exact fresh index (by omega) occurs

theorem kmpSearch_outcome (nonempty : pattern ≠ []) (target : Text) :
    (∃ index : Nat, IsFirst pattern target index ∧ kmpSearch true target pattern = index) ∨
      (∀ index, ¬ pattern <+: target.drop index) ∧ kmpSearch true target pattern = -1 := by
  obtain ⟨pi, isTable, tabulates⟩ := computePrefixFunction_tabulates nonempty
  have positive := List.length_pos_of_ne_nil nonempty
  have nothing : IsGreatest (overlaps pattern [] pattern.length) 0 := by
    refine ⟨zero_mem_overlaps _ _ positive, ?_⟩
    rintro size ⟨below, ends⟩
    have short := ends.length_le
    rw [List.length_take, List.length_nil] at short
    omega
  rw [kmpSearch, isTable]
  apply scan_outcome nonempty tabulates target nothing
  intro index inside
  rw [List.length_nil] at inside
  omega

theorem IsFirst.unique {target : Text} {index other : Nat} (isFirst : IsFirst pattern target index)
    (otherFirst : IsFirst pattern target other) : index = other := by
  obtain before | same | after := Nat.lt_trichotomy index other
  · exact absurd isFirst.1 (otherFirst.2 index before)
  · exact same
  · exact absurd otherFirst.1 (isFirst.2 other after)

theorem infix_iff_exists_drop (pattern target : Text) :
    pattern <:+: target ↔ ∃ index, pattern <+: target.drop index := by
  constructor
  · rintro ⟨front, rest, rfl⟩
    refine ⟨front.length, rest, ?_⟩
    rw [List.append_assoc, List.drop_left]
  · rintro ⟨index, occurs⟩
    exact occurs.isInfix.trans (List.drop_suffix index target).isInfix

/-- `kmp_search` returns an index exactly when it is the first one at which the pattern occurs, and
minus one exactly when the pattern does not occur. -/
theorem kmpSearch_returns_first_occurrence (target pattern : Text) (nonempty : pattern ≠ []) :
    (∀ index : Nat, kmpSearch true target pattern = index ↔ IsFirst pattern target index) ∧
      (kmpSearch true target pattern = -1 ↔ ¬ pattern <:+: target) := by
  obtain ⟨first, isFirst, result⟩ | ⟨nowhere, result⟩ := kmpSearch_outcome nonempty target
  · rw [result]
    refine ⟨fun index => ⟨?_, ?_⟩, ⟨?_, ?_⟩⟩
    · intro same
      rwa [← Int.ofNat_inj.mp same]
    · intro otherFirst
      rw [isFirst.unique otherFirst]
    · intro negative
      omega
    · intro absent
      exact absurd ((infix_iff_exists_drop _ _).mpr ⟨first, isFirst.1⟩) absent
  · rw [result]
    refine ⟨fun index => ⟨?_, ?_⟩, ⟨?_, ?_⟩⟩
    · intro negative
      omega
    · intro isFirst
      exact absurd isFirst.1 (nowhere index)
    · intro _ occurs
      obtain ⟨index, occurs⟩ := (infix_iff_exists_drop _ _).mp occurs
      exact nowhere index occurs
    · intro _
      rfl

theorem kmpSearch_returns_first_occurrence_behind_borders :
    IsFirst "aab".toList "xaaab".toList 2 ∧ kmpSearch true "xaaab".toList "aab".toList = 2 := by
  have isFirst : IsFirst "aab".toList "xaaab".toList 2 := by
    refine ⟨by decide, ?_⟩
    decide
  have search := kmpSearch_returns_first_occurrence "xaaab".toList "aab".toList (by decide)
  exact ⟨isFirst, (search.1 2).mpr isFirst⟩

end Search

end Apos.SmartImage
