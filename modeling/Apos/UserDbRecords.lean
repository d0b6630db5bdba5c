import Apos.UserDbHandler

/-!
# Records and lines of the user database

A record whose text fields hold neither a separator nor white space at either end is
written as a line from which the parser reads the same record back.  A line that lacks its
new line is parsed as if it had one.
-/

namespace Apos.UserDb

/-! ## Trimming -/

theorem trim_eq_self {text : Text}
    (noLeading : ∀ symbol ∈ text.head?, isTrimCharacter symbol = false)
    (noTrailing : ∀ symbol ∈ text.getLast?, isTrimCharacter symbol = false) :
    trim text = text := by
  have left : trimLeft text = text := by
    cases text with
    | nil => rfl
    | cons symbol rest =>
      exact List.dropWhile_cons_of_neg (by simp [noLeading symbol rfl])
  rw [trim, left, trimRight, List.rdropWhile_eq_self_iff]
  intro nonempty
  simp [noTrailing _ (List.getLast?_eq_some_getLast nonempty)]

theorem trim_concat_newLine (text : Text) : trim (text ++ ['\n']) = trim text := by
  have blank : isTrimCharacter '\n' = true := by decide
  rw [trim, trim, trimLeft, trimLeft, List.dropWhile_append]
  split
  · next empty =>
      rw [List.isEmpty_iff.mp empty]
      simp [trimRight, blank]
  · rw [trimRight, List.rdropWhile_concat_pos _ _ _ blank]
    rfl

theorem parseLine_close {line : Text} (noNull : '\x00' ∉ line) :
    parseLine (close '\n' line) = parseLine line := by
  unfold close
  split
  · rfl
  · have stillNoNull : '\x00' ∉ line ++ ['\n'] := by simp [noNull]
    rw [parseLine, parseLine, CText.cString_eq_self stillNoNull, CText.cString_eq_self noNull,
      trim_concat_newLine]

/-! ## Numbers -/

theorem toDigits_isDigit {number : Nat} {symbol : Char} (member : symbol ∈ Nat.toDigits 10 number) :
    symbol.isDigit = true :=
  Nat.isDigit_of_mem_toDigits (by decide) (by decide) member

theorem not_mem_toDigits {number : Nat} {symbol : Char} (notDigit : symbol.isDigit = false) :
    symbol ∉ Nat.toDigits 10 number := by
  intro member
  simp [toDigits_isDigit member] at notDigit

theorem isTrimCharacter_of_isDigit {symbol : Char} (digit : symbol.isDigit = true) :
    isTrimCharacter symbol = false := by
  rw [Bool.eq_false_iff]
  intro blank
  have listed : symbol ∈ [' ', '\x0c', '\n', '\r', '\t', '\x0b'] :=
    List.contains_iff_mem.mp blank
  simp only [List.mem_cons, List.not_mem_nil, or_false] at listed
  rcases listed with rfl | rfl | rfl | rfl | rfl | rfl <;> exact absurd digit (by decide)

theorem trim_toDigits (number : Nat) : trim (Nat.toDigits 10 number) = Nat.toDigits 10 number := by
  apply trim_eq_self
  · intro symbol head
    exact isTrimCharacter_of_isDigit (toDigits_isDigit (List.mem_of_head? head))
  · intro symbol last
    exact isTrimCharacter_of_isDigit (toDigits_isDigit (List.mem_of_getLast? last))

theorem strtoul_digits {text : Text} (nonempty : text ≠ [])
    (digits : ∀ symbol ∈ text, symbol.isDigit = true)
    (bound : Nat.ofDigitChars 10 text 0 < 2 ^ 64) :
    strtoul text = Nat.ofDigitChars 10 text 0 := by
  have scanned : CText.scanDecimal text = some ⟨false, Nat.ofDigitChars 10 text 0, []⟩ :=
    CText.scanDecimal_eq_end_iff.mpr
      ⟨none, text, ⟨[], List.forall_mem_nil _, rfl⟩, nonempty, digits, rfl, rfl⟩
  rw [strtoul, scanned]
  simp only [CText.Scanned.toUnsigned, if_neg (Nat.not_le_of_lt bound), CText.signed,
    Bool.false_eq_true, if_false]
  omega

theorem ofNat_strtoul_toDigits (number : UInt32) :
    UInt32.ofNat (strtoul (Nat.toDigits 10 number.toNat)) = number := by
  have value : Nat.ofDigitChars 10 (Nat.toDigits 10 number.toNat) 0 = number.toNat :=
    Nat.ofDigitChars_ten_toDigits
  have bound : number.toNat < 2 ^ 64 := Nat.lt_trans number.toNat_lt (by decide)
  rw [strtoul_digits Nat.toDigits_ne_nil (fun _ member => toDigits_isDigit member)
    (by rwa [value]), value, UInt32.ofNat_toNat]

/-! ## Records -/

/-- A text field with no separator, no new line and no white space at either end. -/
structure CleanField (field : Text) : Prop where
  noColon : ':' ∉ field
  noNewLine : '\n' ∉ field
  noLeading : ∀ symbol ∈ field.head?, isTrimCharacter symbol = false
  noTrailing : ∀ symbol ∈ field.getLast?, isTrimCharacter symbol = false

instance : DecidablePred CleanField := fun field =>
  decidable_of_iff (':' ∉ field ∧ '\n' ∉ field ∧
      (field.head?.all fun symbol => !isTrimCharacter symbol) = true ∧
      (field.getLast?.all fun symbol => !isTrimCharacter symbol) = true) <| by
    constructor
    all_goals
      rintro ⟨noColon, noNewLine, noLeading, noTrailing⟩
      exact ⟨noColon, noNewLine, by simpa [Option.all_eq_true] using noLeading,
        by simpa [Option.all_eq_true] using noTrailing⟩

def TsPassword.textFields (pwd : TsPassword) : List Text :=
  [pwd.strName, pwd.strPasswd, pwd.strGecos, pwd.strDir, pwd.strShell]

structure FitsBuffer (line : Text) : Prop where
  short : (close '\n' line).length < maxFileBuffer
  noNull : '\x00' ∉ line

instance : DecidablePred FitsBuffer := fun line =>
  decidable_of_iff ((close '\n' line).length < maxFileBuffer ∧ '\x00' ∉ line)
    ⟨fun both => ⟨both.1, both.2⟩, fun fits => ⟨fits.short, fits.noNull⟩⟩

theorem FitsBuffer.close {line : Text} (fits : FitsBuffer line) :
    FitsBuffer (close '\n' line) where
  short := by
    rw [close_close]
    exact fits.short
  noNull := by
    unfold Apos.close
    split
    · exact fits.noNull
    · simp [fits.noNull]

theorem FitsBuffer.length_lt {line : Text} (fits : FitsBuffer line) :
    line.length < maxFileBuffer := by
  have short := fits.short
  unfold Apos.close at short
  split at short
  · exact short
  · exact Nat.lt_of_le_of_lt (by simp) short

theorem CleanField.trim {field : Text} (clean : CleanField field) : trim field = field :=
  trim_eq_self clean.noLeading clean.noTrailing

theorem cleanField_toDigits (number : Nat) : CleanField (Nat.toDigits 10 number) where
  noColon := not_mem_toDigits (by decide)
  noNewLine := not_mem_toDigits (by decide)
  noLeading := fun _ head =>
    isTrimCharacter_of_isDigit (toDigits_isDigit (List.mem_of_head? head))
  noTrailing := fun _ last =>
    isTrimCharacter_of_isDigit (toDigits_isDigit (List.mem_of_getLast? last))

/-- The fields of the line of a record, each with the separator after it. -/
def TsPassword.fields (pwd : TsPassword) : List (Text × Char) :=
  [(pwd.strName, ':'), (pwd.strPasswd, ':'), (Nat.toDigits 10 pwd.uId.toNat, ':'),
    (Nat.toDigits 10 pwd.uGid.toNat, ':'), (pwd.strGecos, ':'), (pwd.strDir, ':'),
    (pwd.strShell, '\n')]

def TsPassword.body (pwd : TsPassword) : Text :=
  joinFields (pwd.fields.take 5) ++ pwd.strDir ++ [':'] ++ pwd.strShell

theorem tuple_eq_body (pwd : TsPassword) : tuple pwd = pwd.body ++ ['\n'] := by
  simp [tuple, TsPassword.body, TsPassword.fields, joinFields]

theorem tuple_eq_joinFields (pwd : TsPassword) : tuple pwd = joinFields pwd.fields := by
  simp [tuple, TsPassword.fields, joinFields]

section Clean

variable {pwd : TsPassword} (clean : ∀ field ∈ pwd.textFields, CleanField field)

include clean

theorem cleanField_fields : ∀ field ∈ pwd.fields, CleanField field.1 := by
  intro field member
  simp only [TsPassword.fields, List.mem_cons, List.not_mem_nil, or_false] at member
  rcases member with rfl | rfl | rfl | rfl | rfl | rfl | rfl
  case inr.inr.inl | inr.inr.inr.inl => exact cleanField_toDigits _
  all_goals exact clean _ (by simp [TsPassword.textFields])

theorem newLine_not_mem_body : '\n' ∉ pwd.body := by
  have noNewLine := fun field member => (cleanField_fields clean field member).noNewLine
  simp [TsPassword.fields] at noNewLine
  simp [TsPassword.body, TsPassword.fields, joinFields, noNewLine]

theorem trim_body : trim pwd.body = pwd.body := by
  have name := clean pwd.strName (by simp [TsPassword.textFields])
  have shell := clean pwd.strShell (by simp [TsPassword.textFields])
  apply trim_eq_self
  · intro symbol head
    cases empty : pwd.strName with
    | nil =>
      simp [TsPassword.body, TsPassword.fields, joinFields, empty] at head
      subst head
      decide
    | cons first rest =>
      simp [TsPassword.body, TsPassword.fields, joinFields, empty] at head
      subst head
      exact name.noLeading first (by rw [empty]; rfl)
  · intro symbol last
    rw [TsPassword.body, List.getLast?_append, List.getLast?_append] at last
    cases empty : pwd.strShell.getLast? with
    | none =>
      simp [empty] at last
      subst last
      decide
    | some final =>
      simp [empty] at last
      subst last
      exact shell.noTrailing final empty

theorem parseLine_tuple (noNull : '\x00' ∉ tuple pwd) : parseLine (tuple pwd) = .success pwd := by
  have trimmed : trim (CText.cString (tuple pwd)) = pwd.body := by
    rw [CText.cString_eq_self noNull, tuple_eq_body, trim_concat_newLine, trim_body clean]
  have nonempty : pwd.body ≠ [] := by
    simp [TsPassword.body, TsPassword.fields, joinFields]
  have ownSeparator : ∀ field ∈ pwd.fields, field.2 ∉ field.1 := by
    intro field member
    have cleanField := cleanField_fields clean field member
    simp only [TsPassword.fields, List.mem_cons, List.not_mem_nil, or_false] at member
    rcases member with rfl | rfl | rfl | rfl | rfl | rfl | rfl
    all_goals first | exact cleanField.noColon | exact cleanField.noNewLine
  have split : splitFields fieldSeparators (pwd.body ++ ['\n']) =
      some (pwd.fields.map Prod.fst) := by
    rw [← tuple_eq_body, tuple_eq_joinFields]
    exact splitFields_joinFields ownSeparator
  rw [parseLine, trimmed, if_neg nonempty, split]
  simp only [TsPassword.fields, List.map_cons, List.map_nil]
  rw [if_neg (clean pwd.strShell (by simp [TsPassword.textFields])).noColon]
  simp only [trim_toDigits, ofNat_strtoul_toDigits]
  have trims := fun field member => (clean field member).trim
  simp [TsPassword.textFields] at trims
  simp [trims]

end Clean

end Apos.UserDb
