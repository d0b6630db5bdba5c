import Mathlib.Data.List.Basic
import Mathlib.Data.Nat.Notation

/-!
# Bytes of words and of C strings

A 32-bit word is kept in four bytes, the least significant one first.  A C string
is kept in a field of fixed size and ends at the first zero byte.
-/

namespace Apos

/-! ## Words -/

def wordBytes (word : UInt32) : List UInt8 :=
  [UInt8.ofNat word.toNat, UInt8.ofNat (word.toNat / 256),
    UInt8.ofNat (word.toNat / 65536), UInt8.ofNat (word.toNat / 16777216)]

def wordOfBytes : List UInt8 → UInt32
  | [first, second, third, fourth] =>
    UInt32.ofNat (first.toNat + 256 * second.toNat + 65536 * third.toNat +
      16777216 * fourth.toNat)
  | _ => 0

@[simp]
theorem length_wordBytes (word : UInt32) : (wordBytes word).length = 4 :=
  rfl

@[simp]
theorem wordOfBytes_wordBytes (word : UInt32) : wordOfBytes (wordBytes word) = word := by
  have bound : word.toNat < 4294967296 := word.toNat_lt
  apply UInt32.toNat_inj.mp
  simp only [wordBytes, wordOfBytes, UInt32.toNat_ofNat', UInt8.toNat_ofNat']
  omega

theorem wordOfBytes_set_last (word : UInt32) :
    wordOfBytes ((wordBytes word).set 3 0) = UInt32.ofNat (word.toNat % 16777216) := by
  have bound : word.toNat < 4294967296 := word.toNat_lt
  apply UInt32.toNat_inj.mp
  simp only [wordBytes, wordOfBytes, List.set_cons_succ, List.set_cons_zero,
    UInt32.toNat_ofNat', UInt8.toNat_ofNat', UInt8.toNat_zero]
  omega

theorem wordBytes_wordOfBytes {bytes : List UInt8} (isWord : bytes.length = 4) :
    wordBytes (wordOfBytes bytes) = bytes := by
  obtain ⟨first, second, third, fourth, rfl⟩ := List.length_eq_four.mp isWord
  have bounds := And.intro first.toNat_lt (And.intro second.toNat_lt
    (And.intro third.toNat_lt fourth.toNat_lt))
  simp only [wordOfBytes, wordBytes, UInt32.toNat_ofNat', List.cons.injEq, and_true,
    ← UInt8.toNat_inj, UInt8.toNat_ofNat']
  omega

/-! ## Strings -/

def TextChar (char : Char) : Prop :=
  0 < char.toNat ∧ char.toNat < 256

instance (char : Char) : Decidable (TextChar char) :=
  inferInstanceAs (Decidable (_ ∧ _))

def byteOfChar (char : Char) : UInt8 :=
  UInt8.ofNat char.toNat

def charOfByte (byte : UInt8) : Char :=
  Char.ofNat byte.toNat

theorem charOfByte_byteOfChar {char : Char} (isText : TextChar char) :
    charOfByte (byteOfChar char) = char := by
  have small : char.toNat % 256 = char.toNat := Nat.mod_eq_of_lt isText.2
  rw [charOfByte, byteOfChar, UInt8.toNat_ofNat', small, Char.ofNat_toNat]

theorem byteOfChar_ne_zero {char : Char} (isText : TextChar char) : byteOfChar char ≠ 0 := by
  intro isZero
  have value := congrArg UInt8.toNat isZero
  rw [byteOfChar, UInt8.toNat_ofNat', Nat.mod_eq_of_lt isText.2, UInt8.toNat_zero] at value
  have positive := isText.1
  omega

/-- The string a field holds: everything before the first zero byte. -/
def cString (field : List UInt8) : String :=
  String.ofList ((field.takeWhile (· ≠ 0)).map charOfByte)

theorem cString_text {text : List Char} (isText : ∀ char ∈ text, TextChar char)
    (padding : Nat) :
    cString (text.map byteOfChar ++ List.replicate padding 0) = String.ofList text := by
  have noZero : ∀ byte ∈ text.map byteOfChar, decide (byte ≠ 0) = true := by
    intro byte member
    obtain ⟨char, charMember, rfl⟩ := List.mem_map.mp member
    exact decide_eq_true (byteOfChar_ne_zero (isText char charMember))
  have stops : (List.replicate padding (0 : UInt8)).takeWhile (· ≠ 0) = [] := by
    cases padding <;> simp [List.replicate_succ]
  rw [cString, List.takeWhile_append_of_pos noZero, stops, List.append_nil, List.map_map]
  congr 1
  calc
    text.map (charOfByte ∘ byteOfChar) = text.map id :=
      List.map_congr_left fun char member => charOfByte_byteOfChar (isText char member)
    _ = text := List.map_id text

end Apos
