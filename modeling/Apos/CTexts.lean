import Mathlib.Algebra.Group.Nat.Defs
import Mathlib.Data.List.Infix
import Mathlib.Data.List.TakeWhile
import Apos.PaddedTexts

/-!
# Texts as the C library sees them

A buffer holds a text up to its first NUL.  This file has the functions of the C library that
cut such texts and read numbers from them, and it says where a marker, a name followed by one
separator, occurs in a text that has been cut or joined at separators.
-/

namespace Apos.CText

/-- The text in a buffer ends at the first NUL. -/
def cString (buffer : List Char) : List Char :=
  buffer.takeWhile fun symbol => decide (symbol ≠ '\x00')

theorem cString_eq_self {text : List Char} (noNul : '\x00' ∉ text) : cString text = text := by
  rw [cString, List.takeWhile_eq_self_iff]
  exact decide_ne_of_not_mem noNul

def isSpace (symbol : Char) : Bool :=
  symbol = ' ' || symbol = '\t' || symbol = '\n' || symbol = '\x0b' || symbol = '\x0c' ||
    symbol = '\r'

/-- The parts of a text before and behind the first occurrence of a symbol, which a loop over
the text finds if there is one. -/
def cutAt {α : Type} [DecidableEq α] (stop : α) : List α → Option (List α × List α)
  | [] => none
  | symbol :: rest =>
    if symbol = stop then some ([], rest)
    else (cutAt stop rest).map fun parts => (symbol :: parts.1, parts.2)

theorem cutAt_eq_some_iff {α : Type} [DecidableEq α] {stop : α} {text before behind : List α} :
    cutAt stop text = some (before, behind) ↔
      text = before ++ stop :: behind ∧ stop ∉ before := by
  induction text generalizing before with
  | nil => simp [cutAt]
  | cons symbol rest ih =>
    rw [cutAt]
    split
    · next same =>
        subst same
        cases before with
        | nil => simp [eq_comm]
        | cons first before =>
          refine iff_of_false (by simp) ?_
          rintro ⟨shape, absent⟩
          obtain ⟨rfl, -⟩ := List.cons.inj shape
          exact absent List.mem_cons_self
    · next different =>
        rw [Option.map_eq_some_iff]
        constructor
        · rintro ⟨parts, found, same⟩
          obtain ⟨rfl, rfl⟩ := Prod.mk.inj same
          obtain ⟨rfl, absent⟩ := ih.mp found
          refine ⟨rfl, ?_⟩
          rw [List.mem_cons, not_or]
          exact ⟨fun same => different same.symm, absent⟩
        · rintro ⟨shape, absent⟩
          cases before with
          | nil => exact absurd (List.cons.inj shape).1 different
          | cons first before =>
            obtain ⟨rfl, rfl⟩ := List.cons.inj shape
            rw [List.mem_cons, not_or] at absent
            exact ⟨(before, behind), ih.mpr ⟨rfl, absent.2⟩, rfl⟩

def cutAtLast {α : Type} [DecidableEq α] (stop : α) (text : List α) :
    Option (List α × List α) :=
  (cutAt stop text.reverse).map fun parts => (parts.2.reverse, parts.1.reverse)

theorem cutAtLast_eq_some_iff {α : Type} [DecidableEq α] {stop : α} {text before behind : List α} :
    cutAtLast stop text = some (before, behind) ↔
      text = before ++ stop :: behind ∧ stop ∉ behind := by
  rw [cutAtLast, Option.map_eq_some_iff]
  constructor
  · rintro ⟨parts, found, same⟩
    obtain ⟨rfl, rfl⟩ := Prod.mk.inj same
    obtain ⟨shape, absent⟩ := cutAt_eq_some_iff.mp found
    refine ⟨?_, by simpa using absent⟩
    rw [← List.reverse_reverse text, shape]
    simp
  · rintro ⟨rfl, absent⟩
    refine ⟨(behind.reverse, before.reverse), cutAt_eq_some_iff.mpr ⟨by simp, ?_⟩, by simp⟩
    simpa using absent

/-- The words that `%s` reads one after the other. -/
def scanWords (text : List Char) : List (List Char) :=
  (text.splitOnP isSpace).filter (· ≠ [])

theorem scanWords_append {separator : Char} (isSep : isSpace separator = true)
    (front rest : List Char) :
    scanWords (front ++ separator :: rest) = scanWords front ++ scanWords rest := by
  rw [scanWords, List.splitOnP_append_cons front rest isSep, List.filter_append, scanWords,
    scanWords]

theorem scanWords_word {word : List Char} (nonempty : word ≠ [])
    (solid : ∀ symbol ∈ word, isSpace symbol = false) : scanWords word = [word] := by
  rw [scanWords, List.splitOnP_eq_singleton solid]
  simp [nonempty]

section Cut

variable {word : List Char} (nonempty : word ≠ [])
  (solid : ∀ symbol ∈ word, isSpace symbol = false) {limit : Nat} (room : 0 < limit)

include nonempty solid room

theorem scanWords_take_word : scanWords (word.take limit) = [word.take limit] := by
  refine scanWords_word ?_ fun symbol member => solid symbol (List.mem_of_mem_take member)
  rw [ne_eq, List.take_eq_nil_iff, not_or]
  exact ⟨Nat.ne_of_gt room, nonempty⟩

/-- The first word of a text that is cut off. -/
theorem scanWords_take {separator : Char} (isSep : isSpace separator = true) (rest : List Char) :
    scanWords ((word ++ separator :: rest).take limit) =
      word.take limit :: scanWords (rest.take (limit - word.length - 1)) := by
  have first := scanWords_take_word nonempty solid room
  rw [List.take_append]
  cases limit - word.length with
  | zero =>
    rw [List.take_zero, List.append_nil, first, Nat.zero_sub, List.take_zero]
    rfl
  | succ left =>
    rw [List.take_succ_cons, scanWords_append isSep, first, Nat.add_sub_cancel]
    rfl

end Cut

/-! ## Numbers -/

def digitValue (symbol : Char) : Option Nat :=
  if '0' ≤ symbol ∧ symbol ≤ '9' then some (symbol.toNat - '0'.toNat)
  else if 'a' ≤ symbol ∧ symbol ≤ 'f' then some (symbol.toNat - 'a'.toNat + 10)
  else if 'A' ≤ symbol ∧ symbol ≤ 'F' then some (symbol.toNat - 'A'.toNat + 10)
  else none

def readDigits (base : Nat) : Nat → List Char → Nat
  | sum, [] => sum
  | sum, symbol :: rest =>
    match digitValue symbol with
    | none => sum
    | some digit => if digit < base then readDigits base (sum * base + digit) rest else sum

def readSign (text : List Char) : Bool × List Char :=
  match text.dropWhile isSpace with
  | '-' :: rest => (true, rest)
  | '+' :: rest => (false, rest)
  | rest => (false, rest)

/-- `strtol` with base 10, which stays within 64 bits. -/
def strtol (text : List Char) : Int :=
  let (negative, rest) := readSign text
  let size := readDigits 10 0 rest
  if negative then -(min size (2 ^ 63) : Nat) else (min size (2 ^ 63 - 1) : Nat)

/-- `atoi` keeps the low 32 bits of `strtol`. -/
def atoi (text : List Char) : Int :=
  (strtol text).bmod (2 ^ 32)

def strtoull16 (text : List Char) : Nat :=
  let (negative, rest) := readSign text
  let digits :=
    match rest with
    | '0' :: 'x' :: more => more
    | '0' :: 'X' :: more => more
    | other => other
  let size := readDigits 16 0 digits
  if 2 ^ 64 ≤ size then 2 ^ 64 - 1
  else if negative then (2 ^ 64 - size) % 2 ^ 64 else size

example : atoi "  -17x".toList = -17 ∧ atoi "4294967301".toList = 5 ∧
    strtoull16 "0xFf zz".toList = 255 := by
  decide +kernel

/-! ## Markers -/

variable {α : Type} {separator : α} {name before after value tail : List α}

theorem marker_infix_cut (inName : separator ∉ name) (inBefore : separator ∉ before) :
    name ++ [separator] <:+: before ++ separator :: after ↔
      name <:+ before ∨ name ++ [separator] <:+: after := by
  constructor
  · intro occurs
    rcases List.infix_append_iff.mp occurs with
      inside | behind | ⟨first, second, whole, ends, starts⟩
    · exact absurd (inside.subset (by simp)) inBefore
    · rcases List.infix_cons_iff.mp behind with starts | inside
      · cases name with
        | nil => exact .inl List.nil_suffix
        | cons symbol name =>
          obtain ⟨rfl, -⟩ := List.cons_prefix_cons.mp starts
          exact absurd List.mem_cons_self inName
      · exact .inr inside
    · have inFirst : separator ∉ first := fun member => inBefore (ends.subset member)
      rcases List.prefix_cons_iff.mp starts with rfl | ⟨rest, rfl, -⟩
      · rw [List.append_nil] at whole
        exact absurd (by simp [← whole]) inFirst
      · obtain ⟨rfl, -⟩ := (List.append_cons_inj_of_notMem inName List.not_mem_nil).mp whole
        exact .inl ends
  · rintro (⟨start, rfl⟩ | ⟨start, rest, rfl⟩)
    · exact ⟨start, after, by simp⟩
    · exact ⟨before ++ separator :: start, rest, by simp⟩

theorem marker_infix_append (inTail : separator ∉ tail) :
    name ++ [separator] <:+: value ++ tail ↔ name ++ [separator] <:+: value := by
  constructor
  · intro occurs
    rcases List.infix_append_iff.mp occurs with
      inside | behind | ⟨first, second, whole, ends, starts⟩
    · exact inside
    · exact absurd (behind.subset (by simp)) inTail
    · cases second using List.reverseRecOn with
      | nil =>
        rw [whole, List.append_nil]
        exact ends.isInfix
      | append_singleton second last =>
        rw [← List.append_assoc] at whole
        obtain ⟨-, rfl⟩ := List.append_singleton_inj.mp whole
        exact absurd (starts.subset (by simp)) inTail
  · intro occurs
    exact occurs.trans (List.prefix_append value tail).isInfix

theorem marker_infix_joined (inBefore : separator ∉ before)
    (occurs : name ++ [separator] <:+: before ++ value) :
    name ++ [separator] <:+: value ∨ ∃ start, start ≠ [] ∧ start <:+ before ∧ start <+: name := by
  rcases List.infix_append_iff.mp occurs with inside | behind | ⟨first, second, whole, ends, starts⟩
  · exact absurd (inside.subset (by simp)) inBefore
  · exact .inl behind
  · by_cases empty : first = []
    · rw [empty, List.nil_append] at whole
      exact .inl (whole ▸ starts.isInfix)
    · refine .inr ⟨first, empty, ends, ?_⟩
      rcases List.prefix_concat_iff.mp ⟨second, whole.symm⟩ with rfl | isStart
      · exact absurd (ends.subset (by simp)) inBefore
      · exact isStart

theorem infix_of_cut {pattern front rest : List α} (absent : separator ∉ pattern)
    (occurs : pattern <:+: front ++ separator :: rest) :
    pattern <:+: front ∨ pattern <:+: rest := by
  rcases List.infix_append_iff.mp occurs with inside | behind | ⟨first, second, rfl, ends, starts⟩
  · exact .inl inside
  · rcases List.infix_cons_iff.mp behind with starts | inside
    · rcases List.prefix_cons_iff.mp starts with rfl | ⟨more, rfl, -⟩
      · exact .inl List.nil_infix
      · exact absurd List.mem_cons_self absent
    · exact .inr inside
  · rcases List.prefix_cons_iff.mp starts with rfl | ⟨more, rfl, -⟩
    · rw [List.append_nil]
      exact .inl ends.isInfix
    · exact absurd (by simp) absent

end Apos.CText
