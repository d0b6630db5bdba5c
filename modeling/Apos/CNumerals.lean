import Mathlib.Algebra.Group.Int.Defs
import Mathlib.Tactic.IntervalCases
import Apos.CTexts

/-!
# Numerals in C texts

The conversion functions of the C library skip white space, read a sign and then as many digits as
there are, and they tell where they stopped.  With base 0 the digits announce their base.  This
file says when such a scan reaches the end of a text, and what the text then denotes.
-/

namespace Apos.CText

def isDigitOf (base : Nat) (symbol : Char) : Bool :=
  (digitValue symbol).any fun digit => decide (digit < base)

def addDigits (base sum : Nat) (digits : List Char) : Nat :=
  digits.foldl (fun sum symbol => sum * base + (digitValue symbol).getD 0) sum

def numberOf (base : Nat) (digits : List Char) : Nat :=
  addDigits base 0 digits

structure Scanned where
  negative : Bool
  size : Nat
  rest : List Char
  deriving DecidableEq, Repr

def signed (negative : Bool) (size : Nat) : Int :=
  if negative then -(size : Int) else size

/-- There is no conversion without a digit. -/
def scanDigits (base : Nat) (negative : Bool) (text : List Char) : Option Scanned :=
  if text.takeWhile (isDigitOf base) = [] then none
  else some ⟨negative, readDigits base 0 text, text.dropWhile (isDigitOf base)⟩

def announcedBase : List Char → Nat × List Char
  | '0' :: mark :: digit :: rest =>
    if (mark = 'x' ∨ mark = 'X') ∧ isDigitOf 16 digit = true then (16, digit :: rest)
    else (8, '0' :: mark :: digit :: rest)
  | '0' :: rest => (8, '0' :: rest)
  | text => (10, text)

def scanDecimal (text : List Char) : Option Scanned :=
  let (negative, digits) := readSign text
  scanDigits 10 negative digits

def scanAnyBase (text : List Char) : Option Scanned :=
  let (negative, announced) := readSign text
  let (base, digits) := announcedBase announced
  scanDigits base negative digits

/-- The value of a signed 64-bit type, and whether the number was out of range. -/
def Scanned.toSigned (scanned : Scanned) : Int × Bool :=
  let value := signed scanned.negative scanned.size
  if value < -2 ^ 63 then (-2 ^ 63, true)
  else if 2 ^ 63 ≤ value then (2 ^ 63 - 1, true)
  else (value, false)

/-- The value of an unsigned 64-bit type.  A negative number is in range and wraps around. -/
def Scanned.toUnsigned (scanned : Scanned) : Int × Bool :=
  if 2 ^ 64 ≤ scanned.size then (2 ^ 64 - 1, true)
  else (signed scanned.negative scanned.size % 2 ^ 64, false)

inductive Numeral : List Char → Nat → Prop where
  | decimal {first : Char} {digits : List Char} (nonzero : first ≠ '0')
      (isDigit : ∀ symbol ∈ first :: digits, isDigitOf 10 symbol = true) :
      Numeral (first :: digits) (numberOf 10 (first :: digits))
  | octal {digits : List Char} (isDigit : ∀ symbol ∈ digits, isDigitOf 8 symbol = true) :
      Numeral ('0' :: digits) (numberOf 8 digits)
  | hexadecimal {mark : Char} {digits : List Char} (isMark : mark = 'x' ∨ mark = 'X')
      (nonempty : digits ≠ []) (isDigit : ∀ symbol ∈ digits, isDigitOf 16 symbol = true) :
      Numeral ('0' :: mark :: digits) (numberOf 16 digits)

def signText : Option Bool → List Char
  | none => []
  | some false => ['+']
  | some true => ['-']

def IsSigned (sign : Option Bool) (unsigned text : List Char) : Prop :=
  ∃ blanks, (∀ symbol ∈ blanks, isSpace symbol = true) ∧
    text = blanks ++ (signText sign ++ unsigned)

def Denotes (text : List Char) (value : Int) : Prop :=
  ∃ sign numeral size, IsSigned sign numeral text ∧ Numeral numeral size ∧
    value = signed (sign = some true) size

/-! ## Digits -/

theorem readDigits_eq (base sum : Nat) (text : List Char) :
    readDigits base sum text = addDigits base sum (text.takeWhile (isDigitOf base)) := by
  induction text generalizing sum with
  | nil => rfl
  | cons symbol rest ih =>
    rw [readDigits, List.takeWhile_cons]
    cases found : digitValue symbol with
    | none => simp [isDigitOf, found, addDigits]
    | some digit =>
      by_cases small : digit < base
      · simp [isDigitOf, found, small, addDigits, ih]
      · simp [isDigitOf, found, small, addDigits]

variable {size : Nat} {negative : Bool} {text : List Char}

theorem scanDigits_eq_end_iff {base : Nat} {minus : Bool} :
    scanDigits base negative text = some ⟨minus, size, []⟩ ↔
      (text ≠ [] ∧ ∀ symbol ∈ text, isDigitOf base symbol = true) ∧
        minus = negative ∧ size = numberOf base text := by
  rw [scanDigits, readDigits_eq]
  constructor
  · intro scanned
    split at scanned
    · cases scanned
    · next some =>
        obtain ⟨rfl, rfl, atEnd⟩ := Scanned.mk.inj (Option.some.inj scanned)
        have isDigit := List.dropWhile_eq_nil_iff.mp atEnd
        have whole := List.takeWhile_eq_self_iff.mpr isDigit
        rw [whole] at some ⊢
        exact ⟨⟨some, isDigit⟩, rfl, rfl⟩
  · rintro ⟨⟨nonempty, isDigit⟩, rfl, rfl⟩
    rw [List.takeWhile_eq_self_iff.mpr isDigit, List.dropWhile_eq_nil_iff.mpr isDigit,
      if_neg nonempty]
    rfl

theorem isDigitOf_ten (symbol : Char) : isDigitOf 10 symbol = symbol.isDigit := by
  have isDecimal : symbol.isDigit = true ↔ '0' ≤ symbol ∧ symbol ≤ '9' := by
    simp [Char.isDigit, Char.le_def]
  rw [Bool.eq_iff_iff, isDecimal, isDigitOf, digitValue]
  split
  · next decimal =>
      have upper : symbol.toNat ≤ '9'.toNat := UInt32.le_iff_toNat_le.mp (Char.le_def.mp decimal.2)
      have small : symbol.toNat - '0'.toNat < 10 := by
        rw [show '9'.toNat = 57 from rfl] at upper
        rw [show '0'.toNat = 48 from rfl]
        omega
      simpa [decimal] using small
  · next notDecimal =>
      refine iff_of_false ?_ notDecimal
      split
      · simp
      · split <;> simp

theorem addDigits_ten {digits : List Char} (isDigit : ∀ symbol ∈ digits, symbol.isDigit = true)
    (sum : Nat) : addDigits 10 sum digits = Nat.ofDigitChars 10 digits sum := by
  induction digits generalizing sum with
  | nil => rfl
  | cons symbol digits ih =>
    rw [List.forall_mem_cons] at isDigit
    have bounds : '0' ≤ symbol ∧ symbol ≤ '9' := by
      simpa [Char.isDigit, Char.le_def] using isDigit.1
    rw [Nat.ofDigitChars_cons, ← ih isDigit.2, addDigits, List.foldl_cons, digitValue,
      if_pos bounds, Nat.mul_comm]
    rfl

/-! ## Signs -/

theorem isSigned_readSign (text : List Char) :
    ∃ sign, IsSigned sign (readSign text).2 text ∧
      (readSign text).1 = decide (sign = some true) := by
  have blank : ∀ symbol ∈ text.takeWhile isSpace, isSpace symbol = true :=
    fun symbol member => List.mem_takeWhile_imp member
  have whole := (List.takeWhile_append_dropWhile (p := isSpace) (l := text)).symm
  rw [readSign]
  split
  · next rest shape =>
      rw [shape] at whole
      exact ⟨some true, ⟨_, blank, whole⟩, rfl⟩
  · next rest shape =>
      rw [shape] at whole
      exact ⟨some false, ⟨_, blank, whole⟩, rfl⟩
  · exact ⟨none, ⟨_, blank, whole⟩, rfl⟩

def isPlain (symbol : Char) : Bool :=
  !isSpace symbol && decide (symbol ≠ '+') && decide (symbol ≠ '-')

theorem readSign_of_isSigned {sign : Option Bool} {first : Char} {unsigned : List Char}
    (isSigned : IsSigned sign (first :: unsigned) text) (plain : isPlain first = true) :
    readSign text = (decide (sign = some true), first :: unsigned) := by
  obtain ⟨blanks, blank, rfl⟩ := isSigned
  simp only [isPlain, Bool.and_eq_true, Bool.not_eq_true', decide_eq_true_eq] at plain
  obtain ⟨⟨notSpace, notPlus⟩, notMinus⟩ := plain
  rw [readSign, List.dropWhile_append_of_pos blank]
  match sign with
  | some true => rfl
  | some false => rfl
  | none =>
    rw [signText, List.nil_append, List.dropWhile_cons_of_neg (by simp [notSpace])]
    split
    · next shape => exact absurd (List.cons.inj shape).1 notMinus
    · next shape => exact absurd (List.cons.inj shape).1 notPlus
    · rfl

theorem isPlain_of_isDigitOf {base : Nat} {symbol : Char}
    (isDigit : isDigitOf base symbol = true) : isPlain symbol = true := by
  by_contra notPlain
  simp only [isPlain, isSpace, Bool.and_eq_true, Bool.not_eq_true', decide_eq_true_eq,
    Bool.or_eq_false_iff, decide_eq_false_iff_not, not_and_or, not_not] at notPlain
  rcases notPlain with ((((((rfl | rfl) | rfl) | rfl) | rfl) | rfl) | rfl) | rfl
  all_goals cases isDigit

theorem isSpace_of_isDigit {symbol : Char} (isDigit : symbol.isDigit = true) :
    isSpace symbol = false := by
  have plain := isPlain_of_isDigitOf ((isDigitOf_ten symbol).trans isDigit)
  simp only [isPlain, Bool.and_eq_true, Bool.not_eq_true'] at plain
  exact plain.1.1

def IsInteger (text : List Char) (value : Int) : Prop :=
  ∃ sign digits, text = signText sign ++ digits ∧ digits ≠ [] ∧
    (∀ symbol ∈ digits, symbol.isDigit = true) ∧
      value = signed (sign = some true) (Nat.ofDigitChars 10 digits 0)

theorem scanDecimal_eq_end_iff :
    scanDecimal text = some ⟨negative, size, []⟩ ↔
      ∃ sign digits, IsSigned sign digits text ∧ digits ≠ [] ∧
        (∀ symbol ∈ digits, symbol.isDigit = true) ∧ negative = decide (sign = some true) ∧
          size = Nat.ofDigitChars 10 digits 0 := by
  constructor
  · intro scanned
    obtain ⟨sign, isSigned, isNegative⟩ := isSigned_readSign text
    obtain ⟨⟨nonempty, isDigit⟩, same, isSize⟩ := scanDigits_eq_end_iff.mp scanned
    have isDecimal : ∀ symbol ∈ (readSign text).2, symbol.isDigit = true :=
      fun symbol member => (isDigitOf_ten symbol).symm.trans (isDigit symbol member)
    exact ⟨sign, _, isSigned, nonempty, isDecimal, same.trans isNegative,
      isSize.trans (addDigits_ten isDecimal 0)⟩
  · rintro ⟨sign, digits, isSigned, nonempty, isDigit, rfl, rfl⟩
    obtain ⟨first, rest, rfl⟩ := List.exists_cons_of_ne_nil nonempty
    have isDecimal : ∀ symbol ∈ first :: rest, isDigitOf 10 symbol = true :=
      fun symbol member => (isDigitOf_ten symbol).trans (isDigit symbol member)
    have plain := isPlain_of_isDigitOf (isDecimal first List.mem_cons_self)
    rw [scanDecimal, readSign_of_isSigned isSigned plain]
    refine scanDigits_eq_end_iff.mpr ⟨⟨nonempty, isDecimal⟩, rfl, ?_⟩
    exact (addDigits_ten isDigit 0).symm

variable {value : Int}

theorem IsInteger.scanDecimal (isInteger : IsInteger text value) :
    ∃ negative size, scanDecimal text = some ⟨negative, size, []⟩ ∧
      value = signed negative size := by
  obtain ⟨sign, digits, shape, nonempty, isDigit, rfl⟩ := isInteger
  refine ⟨_, _, scanDecimal_eq_end_iff.mpr
    ⟨sign, digits, ⟨[], List.forall_mem_nil _, shape⟩, nonempty, isDigit, rfl, rfl⟩, rfl⟩

theorem strtol_of_scanDecimal {rest : List Char}
    (scanned : scanDecimal text = some ⟨negative, size, rest⟩) :
    strtol text = max (-2 ^ 63) (min (signed negative size) (2 ^ 63 - 1)) := by
  have parts : (readSign text).1 = negative ∧ readDigits 10 0 (readSign text).2 = size := by
    simp only [scanDecimal, scanDigits] at scanned
    split at scanned
    · cases scanned
    · obtain ⟨isNegative, isSize, -⟩ := Scanned.mk.inj (Option.some.inj scanned)
      exact ⟨isNegative, isSize⟩
  simp only [strtol, parts.1, parts.2, signed]
  cases negative with
  | false =>
    simp only [Bool.false_eq_true, if_false]
    omega
  | true =>
    simp only [if_true]
    omega

theorem bmod_bounds (value : Int) :
    -2 ^ 31 ≤ value.bmod (2 ^ 32) ∧ value.bmod (2 ^ 32) < 2 ^ 31 := by
  have lower := Int.le_bmod (x := value) (m := 2 ^ 32) (by decide)
  have upper := Int.bmod_lt (x := value) (m := 2 ^ 32) (by decide)
  omega

theorem eq_bmod_iff (value : Int) :
    value = value.bmod (2 ^ 32) ↔ -2 ^ 31 ≤ value ∧ value < 2 ^ 31 := by
  constructor
  · intro same
    rw [same]
    exact bmod_bounds value
  · rintro ⟨lower, upper⟩
    rw [Int.bmod_eq_of_le_mul_two (by omega) (by omega)]

theorem IsInteger.atoi_eq_iff (isInteger : IsInteger text value) :
    atoi text = value ↔ -2 ^ 31 ≤ value ∧ value < 2 ^ 31 := by
  obtain ⟨negative, size, scanned, rfl⟩ := isInteger.scanDecimal
  rw [atoi]
  constructor
  · intro same
    rw [← same]
    exact bmod_bounds _
  · intro inRange
    have inLong : strtol text = signed negative size := by
      rw [strtol_of_scanDecimal scanned]
      omega
    rw [inLong]
    exact ((eq_bmod_iff _).mpr inRange).symm

theorem IsInteger.ofInt_atoi {size : Nat} (isInteger : IsInteger text size)
    (bound : size < 2 ^ 32) : UInt32.ofInt (atoi text) = UInt32.ofNat size := by
  obtain ⟨negative, magnitude, scanned, value⟩ := isInteger.scanDecimal
  have inLong : strtol text = size := by
    rw [strtol_of_scanDecimal scanned, ← value]
    omega
  have low : ((size : Int).bmod (2 ^ 32)) % 2 ^ 32 = size := Int.bmod_emod.trans (by omega)
  rw [atoi, inLong, UInt32.ofInt, low, Int.toNat_natCast]

/-- Hexadecimal digits, with or without a mark before them. -/
def IsHexadecimal (text : List Char) (size : Nat) : Prop :=
  ∃ digits, (text = digits ∨ ∃ mark, (mark = 'x' ∨ mark = 'X') ∧ text = '0' :: mark :: digits) ∧
    digits ≠ [] ∧ (∀ symbol ∈ digits, isDigitOf 16 symbol = true) ∧ size = numberOf 16 digits

theorem IsHexadecimal.strtoull16_eq (isHexadecimal : IsHexadecimal text size)
    (bound : size < 2 ^ 64) : strtoull16 text = size := by
  obtain ⟨digits, shape, nonempty, isDigit, rfl⟩ := isHexadecimal
  obtain ⟨first, rest, rfl⟩ := List.exists_cons_of_ne_nil nonempty
  have whole : readDigits 16 0 (first :: rest) = numberOf 16 (first :: rest) := by
    rw [readDigits_eq, List.takeWhile_eq_self_iff.mpr isDigit]
    rfl
  have unsigned {symbol : Char} {more : List Char} (plain : isPlain symbol = true) :
      readSign (symbol :: more) = (false, symbol :: more) := by
    have isSigned : IsSigned none (symbol :: more) (symbol :: more) :=
      ⟨[], List.forall_mem_nil _, rfl⟩
    exact readSign_of_isSigned isSigned plain
  rcases shape with rfl | ⟨mark, rfl | rfl, rfl⟩
  · have plain := isPlain_of_isDigitOf (isDigit first List.mem_cons_self)
    simp only [strtoull16, unsigned plain]
    split
    · exact absurd (isDigit 'x' (by simp_all)) (by decide)
    · exact absurd (isDigit 'X' (by simp_all)) (by decide)
    · rw [whole, if_neg (Nat.not_le_of_lt bound)]
      rfl
  all_goals
    simp only [strtoull16, unsigned (show isPlain '0' = true by decide), whole,
      if_neg (Nat.not_le_of_lt bound)]
    rfl

/-! ## Numerals -/

def AnnouncesHexadecimal (text : List Char) : Prop :=
  ∃ mark digit rest, text = '0' :: mark :: digit :: rest ∧ (mark = 'x' ∨ mark = 'X') ∧
    isDigitOf 16 digit = true

theorem announcedBase_octal {rest : List Char} (notHex : ¬ AnnouncesHexadecimal ('0' :: rest)) :
    announcedBase ('0' :: rest) = (8, '0' :: rest) := by
  match rest with
  | [] => rfl
  | [_] => rfl
  | mark :: digit :: rest =>
    rw [announcedBase, if_neg]
    rintro ⟨isMark, isDigit⟩
    exact notHex ⟨mark, digit, rest, rfl, isMark, isDigit⟩

theorem announcedBase_decimal {first : Char} (nonzero : first ≠ '0') (rest : List Char) :
    announcedBase (first :: rest) = (10, first :: rest) := by
  rw [announcedBase]
  · rintro mark digit more ⟨⟩
    exact nonzero rfl
  · rintro more ⟨⟩
    exact nonzero rfl

theorem not_isDigitOf_mark {mark : Char} (isMark : mark = 'x' ∨ mark = 'X') :
    ¬ isDigitOf 8 mark = true := by
  rcases isMark with rfl | rfl <;> decide

theorem numberOf_zero_cons (base : Nat) (digits : List Char) :
    numberOf base ('0' :: digits) = numberOf base digits := by
  simp [numberOf, addDigits, digitValue]

theorem scan_announcedBase_eq_end_iff {minus : Bool} :
    scanDigits (announcedBase text).1 negative (announcedBase text).2 = some ⟨minus, size, []⟩ ↔
      Numeral text size ∧ minus = negative := by
  rw [scanDigits_eq_end_iff]
  by_cases isHex : AnnouncesHexadecimal text
  · obtain ⟨mark, digit, rest, rfl, isMark, first⟩ := isHex
    rw [announcedBase, if_pos ⟨isMark, first⟩]
    constructor
    · rintro ⟨⟨nonempty, isDigit⟩, rfl, rfl⟩
      exact ⟨.hexadecimal isMark nonempty isDigit, rfl⟩
    · rintro ⟨numeral, rfl⟩
      cases numeral with
      | decimal nonzero _ => exact absurd rfl nonzero
      | octal isDigit => exact absurd (isDigit mark List.mem_cons_self) (not_isDigitOf_mark isMark)
      | hexadecimal _ nonempty isDigit => exact ⟨⟨nonempty, isDigit⟩, rfl, rfl⟩
  · match text with
    | [] =>
      refine iff_of_false (fun scanned => scanned.1.1 rfl) ?_
      rintro ⟨numeral, -⟩
      cases numeral
    | first :: rest =>
      by_cases zero : first = '0'
      · subst zero
        rw [announcedBase_octal isHex, numberOf_zero_cons]
        constructor
        · rintro ⟨⟨-, isDigit⟩, rfl, rfl⟩
          exact ⟨.octal fun symbol member => isDigit symbol (List.mem_cons_of_mem _ member), rfl⟩
        · rintro ⟨numeral, rfl⟩
          cases numeral with
          | decimal nonzero _ => exact absurd rfl nonzero
          | octal isDigit =>
            refine ⟨⟨List.cons_ne_nil _ _, ?_⟩, rfl, rfl⟩
            rw [List.forall_mem_cons]
            exact ⟨rfl, isDigit⟩
          | @hexadecimal mark digits isMark nonempty isDigit =>
            obtain ⟨digit, more, rfl⟩ := List.exists_cons_of_ne_nil nonempty
            exact absurd ⟨mark, digit, more, rfl, isMark, isDigit _ List.mem_cons_self⟩ isHex
      · rw [announcedBase_decimal zero]
        constructor
        · rintro ⟨⟨-, isDigit⟩, rfl, rfl⟩
          exact ⟨.decimal zero isDigit, rfl⟩
        · rintro ⟨numeral, rfl⟩
          cases numeral with
          | decimal _ isDigit => exact ⟨⟨List.cons_ne_nil _ _, isDigit⟩, rfl, rfl⟩
          | octal | hexadecimal => exact absurd rfl zero

theorem Numeral.starts_plain (numeral : Numeral text size) :
    ∃ first rest, text = first :: rest ∧ isPlain first = true := by
  cases numeral with
  | decimal _ isDigit =>
    exact ⟨_, _, rfl, isPlain_of_isDigitOf (isDigit _ List.mem_cons_self)⟩
  | octal | hexadecimal => exact ⟨_, _, rfl, by decide⟩

theorem denotes_iff :
    Denotes text value ↔
      ∃ negative size, scanAnyBase text = some ⟨negative, size, []⟩ ∧
        value = signed negative size := by
  constructor
  · rintro ⟨sign, numeral, size, isSigned, isNumeral, rfl⟩
    obtain ⟨first, rest, rfl, plain⟩ := isNumeral.starts_plain
    refine ⟨_, size, ?_, rfl⟩
    rw [scanAnyBase, readSign_of_isSigned isSigned plain]
    exact scan_announcedBase_eq_end_iff.mpr ⟨isNumeral, rfl⟩
  · rintro ⟨negative, size, scanned, rfl⟩
    obtain ⟨sign, isSigned, isNegative⟩ := isSigned_readSign text
    obtain ⟨isNumeral, isMinus⟩ := scan_announcedBase_eq_end_iff.mp scanned
    refine ⟨sign, _, size, isSigned, isNumeral, ?_⟩
    rw [isMinus]
    exact congrArg (fun minus => signed minus size) isNegative

theorem Denotes.unique {other : Int} (denotes : Denotes text value)
    (denotesOther : Denotes text other) : value = other := by
  obtain ⟨negative, size, scanned, rfl⟩ := denotes_iff.mp denotes
  obtain ⟨minus, another, scannedToo, rfl⟩ := denotes_iff.mp denotesOther
  obtain ⟨rfl, rfl, -⟩ := Scanned.mk.inj (Option.some.inj (scanned.symm.trans scannedToo))
  rfl

/-! ## Printed numbers -/

theorem head_toDigits_ne_zero {number : Nat} (positive : 0 < number) :
    ∀ rest, Nat.toDigits 10 number ≠ '0' :: rest := by
  induction number using Nat.strongRecOn with
  | ind number ih =>
    intro rest
    by_cases small : number < 10
    · rw [Nat.toDigits_of_lt_base small]
      intro same
      have isZero := (List.cons.inj same).1
      interval_cases number <;> simp [Nat.digitChar] at isZero
    · rw [Nat.toDigits_of_base_le (by decide) (Nat.le_of_not_lt small)]
      intro same
      obtain ⟨first, more, shape⟩ := List.exists_cons_of_ne_nil
        (Nat.toDigits_ne_nil : Nat.toDigits 10 (number / 10) ≠ [])
      rw [shape, List.cons_append] at same
      obtain ⟨rfl, -⟩ := List.cons.inj same
      exact ih (number / 10) (by omega) (by omega) more shape

theorem numberOf_toDigits (number : Nat) : numberOf 10 (Nat.toDigits 10 number) = number := by
  have isDigit : ∀ symbol ∈ Nat.toDigits 10 number, symbol.isDigit = true :=
    fun symbol member => Nat.isDigit_of_mem_toDigits (by decide) (by decide) member
  exact (addDigits_ten isDigit 0).trans Nat.ofDigitChars_ten_toDigits

theorem numeral_toDigits (number : Nat) : Numeral (Nat.toDigits 10 number) number := by
  by_cases zero : number = 0
  · subst zero
    exact .octal (List.forall_mem_nil _)
  · obtain ⟨first, rest, shape⟩ := List.exists_cons_of_ne_nil
      (Nat.toDigits_ne_nil : Nat.toDigits 10 number ≠ [])
    have isDigit : ∀ symbol ∈ Nat.toDigits 10 number, symbol.isDigit = true :=
      fun symbol member => Nat.isDigit_of_mem_toDigits (by decide) (by decide) member
    have value := numberOf_toDigits number
    rw [shape] at isDigit value ⊢
    have nonzero : first ≠ '0' := by
      rintro rfl
      exact head_toDigits_ne_zero (Nat.pos_of_ne_zero zero) rest shape
    rw [← value]
    exact .decimal nonzero fun symbol member => (isDigitOf_ten symbol).trans (isDigit symbol member)

end Apos.CText
