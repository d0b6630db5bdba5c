import Apos.CNumerals
import Apos.ImmArguments

/-!
# Attribute values of `immset`

`setImmAttrValue` converts the text of an argument to a value of the type of its attribute, with
the conversion function of the C library for the type, and `getAttrValue` prints the values that
are read before.  This file follows both for the integer types.
-/

namespace Apos.Imm

open CText

inductive IntegerType where
  | saInt32T
  | saUint32T
  | saInt64T
  | saUint64T
  | saTimeT
  deriving DecidableEq, Repr

def IntegerType.Holds : IntegerType → Int → Prop
  | .saInt32T, value => -2 ^ 31 ≤ value ∧ value < 2 ^ 31
  | .saUint32T, value => 0 ≤ value ∧ value < 2 ^ 32
  | .saInt64T, value => -2 ^ 63 ≤ value ∧ value < 2 ^ 63
  | .saUint64T, value => 0 ≤ value ∧ value < 2 ^ 64
  | .saTimeT, value => -2 ^ 63 ≤ value ∧ value < 2 ^ 63

/-- The check of `errno`, of a conversion without digits and of text behind the number. -/
def checkEnd (message : String) (scanned : Option Scanned) (convert : Scanned → Int × Bool) :
    Except String Int :=
  match scanned with
  | none => .error message
  | some scanned =>
    let (value, outOfRange) := convert scanned
    if outOfRange || !scanned.rest.isEmpty then .error message else .ok value

def setImmAttrValue (attrValueType : IntegerType) (str : Text) : Except String Int :=
  let scanned := scanAnyBase str
  match attrValueType with
  | .saInt32T => do
      let value ← checkEnd "int32 conversion failed\n" scanned Scanned.toSigned
      if value ≠ value.bmod (2 ^ 32) then
        .error "int32 conversion failed, value too large\n"
      else
        .ok value
  | .saUint32T => do
      let value ← checkEnd "uint32 conversion failed\n" scanned Scanned.toUnsigned
      if value ≠ value % 2 ^ 32 then
        .error "uint32 conversion failed, value too large\n"
      else
        .ok value
  | .saInt64T | .saTimeT => checkEnd "int64 conversion failed\n" scanned Scanned.toSigned
  | .saUint64T => checkEnd "uint64 conversion failed\n" scanned Scanned.toUnsigned

/-- A stream prints an integer with its sign in base 10. -/
def getAttrValue (value : Int) : Text :=
  if value < 0 then '-' :: Nat.toDigits 10 value.natAbs else Nat.toDigits 10 value.natAbs

/-! ## What is converted -/

def IntegerType.Converts : IntegerType → Int → Int → Prop
  | .saUint32T, number, value | .saUint64T, number, value =>
    number.natAbs < 2 ^ 64 ∧ value = number % 2 ^ 64
  | _, number, value => value = number

theorem natAbs_signed (negative : Bool) (size : Nat) : (signed negative size).natAbs = size := by
  cases negative <;> simp [signed]

variable {message : String} {text : Text} {value : Int}

theorem checkEnd_eq_ok_iff {convert : Scanned → Int × Bool} :
    checkEnd message (scanAnyBase text) convert = .ok value ↔
      ∃ negative size, scanAnyBase text = some ⟨negative, size, []⟩ ∧
        convert ⟨negative, size, []⟩ = (value, false) := by
  unfold checkEnd
  constructor
  · intro checked
    split at checked
    · cases checked
    · next scanned found =>
        obtain ⟨negative, size, rest⟩ := scanned
        cases converted : convert ⟨negative, size, rest⟩ with
        | mk number outOfRange =>
          simp only [converted] at checked
          split at checked
          · cases checked
          · next goodEnd =>
              simp only [Bool.or_eq_true, not_or, Bool.not_eq_true, Bool.not_eq_true',
                Bool.not_eq_false, List.isEmpty_iff] at goodEnd
              obtain ⟨rfl, rfl⟩ := goodEnd
              obtain rfl := Except.ok.inj checked
              exact ⟨negative, size, found, converted⟩
  · rintro ⟨negative, size, found, converted⟩
    rw [found]
    simp [converted]

theorem checkEnd_toSigned_iff :
    checkEnd message (scanAnyBase text) Scanned.toSigned = .ok value ↔
      Denotes text value ∧ -2 ^ 63 ≤ value ∧ value < 2 ^ 63 := by
  rw [checkEnd_eq_ok_iff, denotes_iff]
  constructor
  · rintro ⟨negative, size, scanned, converted⟩
    simp only [Scanned.toSigned] at converted
    split at converted
    · simp at converted
    · split at converted
      · simp at converted
      · obtain ⟨rfl, -⟩ := Prod.mk.inj converted
        exact ⟨⟨negative, size, scanned, rfl⟩, by omega, by omega⟩
  · rintro ⟨⟨negative, size, scanned, rfl⟩, lower, upper⟩
    refine ⟨negative, size, scanned, ?_⟩
    simp only [Scanned.toSigned]
    rw [if_neg (by omega), if_neg (by omega)]

theorem checkEnd_toUnsigned_iff :
    checkEnd message (scanAnyBase text) Scanned.toUnsigned = .ok value ↔
      ∃ number, Denotes text number ∧ number.natAbs < 2 ^ 64 ∧ value = number % 2 ^ 64 := by
  rw [checkEnd_eq_ok_iff]
  constructor
  · rintro ⟨negative, size, scanned, converted⟩
    simp only [Scanned.toUnsigned] at converted
    split at converted
    · simp at converted
    · next inRange =>
        obtain ⟨rfl, -⟩ := Prod.mk.inj converted
        refine ⟨_, denotes_iff.mpr ⟨negative, size, scanned, rfl⟩, ?_, rfl⟩
        rw [natAbs_signed]
        exact Nat.lt_of_not_le inRange
  · rintro ⟨number, denotes, inRange, rfl⟩
    obtain ⟨negative, size, scanned, rfl⟩ := denotes_iff.mp denotes
    rw [natAbs_signed] at inRange
    refine ⟨negative, size, scanned, ?_⟩
    rw [Scanned.toUnsigned, if_neg (Nat.not_le_of_lt inRange)]

theorem narrow_eq_ok_iff {checked : Except String Int} {narrow : Int → Int} :
    (do
      let value ← checked
      if value ≠ narrow value then .error message else .ok value) = .ok value ↔
      checked = .ok value ∧ value = narrow value := by
  cases checked with
  | error _ =>
    refine iff_of_false ?_ ?_
    · intro same
      cases same
    · rintro ⟨same, -⟩
      cases same
  | ok number =>
    change (if number ≠ narrow number then Except.error message else .ok number) = .ok value ↔ _
    by_cases fits : number = narrow number
    · rw [if_neg (not_not_intro fits), Except.ok.injEq]
      constructor
      · rintro rfl
        exact ⟨rfl, fits⟩
      · exact And.left
    · rw [if_pos fits]
      refine iff_of_false ?_ ?_
      · intro same
        cases same
      · rintro ⟨same, narrowed⟩
        obtain rfl := Except.ok.inj same
        exact fits narrowed

variable {attrValueType : IntegerType}

theorem setImmAttrValue_eq_ok_iff :
    setImmAttrValue attrValueType text = .ok value ↔
      ∃ number, Denotes text number ∧ attrValueType.Converts number value ∧
        attrValueType.Holds value := by
  cases attrValueType with
  | saInt32T =>
    change (do
      let value ← checkEnd _ (scanAnyBase text) Scanned.toSigned
      if value ≠ value.bmod (2 ^ 32) then .error _ else .ok value) = .ok value ↔ _
    rw [narrow_eq_ok_iff, checkEnd_toSigned_iff, eq_bmod_iff]
    constructor
    · rintro ⟨⟨denotes, -, -⟩, narrow⟩
      exact ⟨value, denotes, rfl, narrow⟩
    · rintro ⟨number, denotes, rfl, lower, upper⟩
      exact ⟨⟨denotes, by omega, by omega⟩, lower, upper⟩
  | saUint32T =>
    change (do
      let value ← checkEnd _ (scanAnyBase text) Scanned.toUnsigned
      if value ≠ value % 2 ^ 32 then .error _ else .ok value) = .ok value ↔ _
    rw [narrow_eq_ok_iff, checkEnd_toUnsigned_iff]
    constructor
    · rintro ⟨⟨number, denotes, inRange, rfl⟩, narrow⟩
      exact ⟨number, denotes, ⟨inRange, rfl⟩, by omega, by omega⟩
    · rintro ⟨number, denotes, ⟨inRange, rfl⟩, lower, upper⟩
      exact ⟨⟨number, denotes, inRange, rfl⟩, by omega⟩
  | saUint64T =>
    change checkEnd _ (scanAnyBase text) Scanned.toUnsigned = .ok value ↔ _
    rw [checkEnd_toUnsigned_iff]
    constructor
    · rintro ⟨number, denotes, inRange, rfl⟩
      exact ⟨number, denotes, ⟨inRange, rfl⟩, by omega, by omega⟩
    · rintro ⟨number, denotes, ⟨inRange, rfl⟩, -⟩
      exact ⟨number, denotes, inRange, rfl⟩
  | saInt64T | saTimeT =>
    change checkEnd _ (scanAnyBase text) Scanned.toSigned = .ok value ↔ _
    rw [checkEnd_toSigned_iff]
    constructor
    · rintro ⟨denotes, holds⟩
      exact ⟨value, denotes, rfl, holds⟩
    · rintro ⟨number, denotes, rfl, holds⟩
      exact ⟨denotes, holds⟩

/-! ## The promise of the conversion -/

/-- A negative number that the unsigned conversion functions turn into a value of the type. -/
def WrapsAround : IntegerType → Text → Prop
  | .saUint32T, text => ∃ size : Nat, Denotes text (-size) ∧ 2 ^ 64 - 2 ^ 32 < size ∧ size < 2 ^ 64
  | .saUint64T, text => ∃ size : Nat, Denotes text (-size) ∧ 0 < size ∧ size < 2 ^ 64
  | _, _ => False

theorem denotes_getAttrValue (value : Int) : Denotes (getAttrValue value) value := by
  have numeral := numeral_toDigits value.natAbs
  rw [getAttrValue]
  split
  · refine ⟨some true, _, _, ⟨[], List.forall_mem_nil _, rfl⟩, numeral, ?_⟩
    simp only [signed, decide_true, if_true]
    omega
  · refine ⟨none, _, _, ⟨[], List.forall_mem_nil _, rfl⟩, numeral, ?_⟩
    simp only [signed, reduceCtorEq, decide_false, Bool.false_eq_true, if_false]
    omega

theorem setImmAttrValue_getAttrValue (holds : attrValueType.Holds value) :
    setImmAttrValue attrValueType (getAttrValue value) = .ok value := by
  refine setImmAttrValue_eq_ok_iff.mpr ⟨value, denotes_getAttrValue value, ?_, holds⟩
  cases attrValueType with
  | saUint32T | saUint64T =>
    obtain ⟨lower, upper⟩ := holds
    exact ⟨by omega, by omega⟩
  | saInt32T | saInt64T | saTimeT => rfl

theorem converts_wrong_iff :
    (∃ number value, Denotes text number ∧ attrValueType.Converts number value ∧
      attrValueType.Holds value ∧ value ≠ number) ↔ WrapsAround attrValueType text := by
  cases attrValueType with
  | saUint32T | saUint64T =>
    constructor
    · rintro ⟨number, value, denotes, ⟨inRange, rfl⟩, ⟨lower, upper⟩, wrong⟩
      refine ⟨number.natAbs, ?_, by omega, inRange⟩
      rwa [show -(number.natAbs : Int) = number by omega]
    · rintro ⟨size, denotes, lower, upper⟩
      exact ⟨_, _, denotes, ⟨by omega, rfl⟩, ⟨by omega, by omega⟩, by omega⟩
  | saInt32T | saInt64T | saTimeT =>
    refine iff_of_false ?_ id
    rintro ⟨number, value, -, same, -, wrong⟩
    exact wrong same

/-- A converted value is what the text denotes, and printed values come back, exactly when the text
is not a negative number that wraps around to a value of an unsigned type. -/
theorem setImmAttrValue_gives_denoted_value_iff (attrValueType : IntegerType) (text : Text) :
    ((∀ value, setImmAttrValue attrValueType text = .ok value → Denotes text value) ∧
        ∀ value, attrValueType.Holds value →
          setImmAttrValue attrValueType (getAttrValue value) = .ok value) ↔
      ¬ WrapsAround attrValueType text := by
  rw [← converts_wrong_iff]
  constructor
  · rintro ⟨sound, -⟩ ⟨number, value, denotes, converts, holds, wrong⟩
    have converted := setImmAttrValue_eq_ok_iff.mpr ⟨number, denotes, converts, holds⟩
    exact wrong ((sound value converted).unique denotes)
  · intro right
    refine ⟨?_, fun value => setImmAttrValue_getAttrValue⟩
    intro value converted
    obtain ⟨number, denotes, converts, holds⟩ := setImmAttrValue_eq_ok_iff.mp converted
    by_contra different
    refine right ⟨number, value, denotes, converts, holds, ?_⟩
    rintro rfl
    exact different denotes

/-- Minus one is the greatest value of the unsigned type. -/
theorem setImmAttrValue_wraps_minus_one :
    ¬ ∀ value, setImmAttrValue .saUint64T "-1".toList = .ok value →
      Denotes "-1".toList value := by
  intro sound
  have denotes := sound (2 ^ 64 - 1) (by decide +kernel)
  have printed := denotes_getAttrValue (-1)
  rw [show getAttrValue (-1) = "-1".toList by decide +kernel] at printed
  exact absurd (denotes.unique printed) (by decide)

end Apos.Imm
