import Mathlib.Algebra.Ring.Nat
import Apos.CTexts
import Apos.PatternReplacement
import Apos.SmartImageSearch
import Apos.TextFiles

/-!
# Filling the template of the smart image client

`fill_xml_template` of `sinetcc.c` reads the template with `fgets` and a buffer of 4096 bytes.  In
every piece that it reads it puts the identifier of the managed element in the place of the first
`#MEID`, and it adds the piece to the buffer that `main` has allocated.  A buffer is the text up
to its first NUL, and writing behind its end is left undefined.
-/

namespace Apos.SmartImage

def placeCard : Text := "#MEID".toList

def maxDataSize : Nat := 4096

/-- The identifier as it stands in `meid.value`. -/
structure ManagedElementId where
  text : Text
  noNul : '\x00' ∉ text
  short : text.length < 128

/-- What is in `line` after the search and the replacement of one round.  The memory of the search
is allocated, and `snprintf` cuts what does not fit. -/
def reworkLine (value line : Text) : Text :=
  let j := kmpSearch true line placeCard
  if j ≠ -1 then
    let firstPart := line.take j.toNat
    let secondPart := line.drop (j.toNat + placeCard.length)
    (firstPart ++ value ++ secondPart).take (maxDataSize - 1)
  else
    line

/-- One round: `strcat` writes the line and a NUL behind the text in the buffer. -/
def appendLine (size : Nat) (value xmlbuff piece : Text) : Option Text :=
  let line := reworkLine value (CText.cString piece)
  if xmlbuff.length + line.length < size then some (xmlbuff ++ line) else none

/-- The result and the buffer.  The file is missing when it cannot be opened. -/
def fillXmlTemplate (size : Nat) (value : Text) (file : Option Text) (xmlbuff : Text) :
    Option (Int × Text) :=
  match file with
  | none => some (-1, xmlbuff)
  | some template =>
    ((bufferedLines '\n' (maxDataSize - 1) template).foldlM (appendLine size value) xmlbuff).map
      fun xmlbuff => (0, xmlbuff)

/-- The size of the buffer in `main`: twice the size of the file, as an `int`. -/
def buffSize (template : Text) : Nat :=
  ((2 * template.length : Int).bmod (2 ^ 32)).toNat

abbrev pieces (template : Text) : List Text :=
  bufferedLines '\n' (maxDataSize - 1) template

theorem beginsOnce_placeCard : BeginsOnce placeCard :=
  ⟨'#', "MEID".toList, by decide, by decide⟩

/-! ## One piece -/

def spread (value line : Text) : Text :=
  let j := kmpSearch true line placeCard
  if j ≠ -1 then line.take j.toNat ++ value ++ line.drop (j.toNat + placeCard.length) else line

theorem spread_replaced (value line : Text) :
    SomeReplaced placeCard value line (spread value line)
      (if placeCard <:+: line then 1 else 0) := by
  have nonempty : placeCard ≠ [] := by decide
  obtain ⟨index, ⟨occurs, -⟩, found⟩ | ⟨nowhere, found⟩ := kmpSearch_outcome nonempty line
  · have inside : placeCard <:+: line := (infix_iff_exists_drop _ _).mpr ⟨index, occurs⟩
    obtain ⟨behind, shape⟩ := occurs
    have rest : line.drop (index + placeCard.length) = behind := by
      rw [← List.drop_drop, ← shape, List.drop_left]
    have isPut : (index : Int) ≠ -1 := by omega
    rw [if_pos inside, spread, found]
    simp only [if_pos isPut, Int.toNat_natCast, rest]
    have put := (SomeReplaced.refl placeCard value (line.take index)).append
      (SomeReplaced.refl placeCard value behind).put
    rwa [shape, List.take_append_drop, ← List.append_assoc, Nat.zero_add] at put
  · have outside : ¬ placeCard <:+: line := by
      rw [infix_iff_exists_drop]
      exact not_exists.mpr nowhere
    rw [if_neg outside, spread, found]
    exact .refl _ _ _

theorem reworkLine_eq_take {line : Text} (value : Text) (fits : line.length ≤ maxDataSize - 1) :
    reworkLine value line = (spread value line).take (maxDataSize - 1) := by
  rw [reworkLine, spread]
  split
  · rfl
  · exact (List.take_of_length_le fits).symm

theorem not_mem_reworkLine {value line : Text} (inValue : '\x00' ∉ value)
    (inLine : '\x00' ∉ line) : '\x00' ∉ reworkLine value line := by
  rw [reworkLine]
  split
  · intro member
    have parts := List.mem_of_mem_take member
    rw [List.mem_append, List.mem_append] at parts
    obtain (front | middle) | back := parts
    · exact inLine (List.mem_of_mem_take front)
    · exact inValue middle
    · exact inLine (List.mem_of_mem_drop back)
  · exact inLine

/-! ## All pieces -/

theorem foldlM_appendLine_eq_some_iff (size : Nat) (value : Text) (read : List Text)
    (xmlbuff filled : Text) :
    read.foldlM (appendLine size value) xmlbuff = some filled ↔
      filled = xmlbuff ++ read.flatMap (fun piece => reworkLine value (CText.cString piece)) ∧
        (read = [] ∨ filled.length < size) := by
  induction read generalizing xmlbuff with
  | nil => simp [eq_comm]
  | cons piece read ih =>
    rw [List.foldlM_cons, List.flatMap_cons, appendLine]
    simp only [List.cons_ne_nil, false_or]
    split
    · next room =>
        change read.foldlM (appendLine size value) _ = some filled ↔ _
        rw [ih, List.append_assoc]
        constructor
        · rintro ⟨rfl, rfl | short⟩
          · exact ⟨rfl, by simpa using room⟩
          · exact ⟨rfl, short⟩
        · rintro ⟨isFilled, short⟩
          exact ⟨isFilled, .inr short⟩
    · next full =>
        refine iff_of_false (by simp) ?_
        rintro ⟨rfl, short⟩
        simp only [List.length_append] at short
        omega

theorem flatMap_spread_replaced (value : Text) (read : List Text) :
    SomeReplaced placeCard value read.flatten (read.flatMap (spread value))
      (read.countP fun piece => placeCard <:+: piece) := by
  induction read with
  | nil => exact .nil
  | cons piece read ih =>
    rw [List.countP_cons, List.flatten_cons, List.flatMap_cons, Nat.add_comm]
    simpa using (spread_replaced value piece).append ih

theorem length_flatMap_take_le (limit : Nat) (rework : Text → Text) (read : List Text) :
    (read.flatMap fun piece => (rework piece).take limit).length ≤
      (read.flatMap rework).length := by
  induction read with
  | nil => exact Nat.le_refl _
  | cons piece read ih =>
    simp only [List.flatMap_cons, List.length_append, List.length_take]
    omega

theorem length_flatMap_take_lt {limit : Nat} {rework : Text → Text} {read : List Text}
    {piece : Text} (member : piece ∈ read) (long : limit < (rework piece).length) :
    (read.flatMap fun piece => (rework piece).take limit).length <
      (read.flatMap rework).length := by
  obtain ⟨before, behind, rfl⟩ := List.append_of_mem member
  have front := length_flatMap_take_le limit rework before
  have back := length_flatMap_take_le limit rework behind
  simp only [List.flatMap_append, List.flatMap_cons, List.length_append, List.length_take]
  omega

theorem length_le_of_mem_pieces {template piece : Text} (member : piece ∈ pieces template) :
    piece.length ≤ maxDataSize - 1 := by
  obtain ⟨unread, rfl⟩ := exists_takeLine_of_mem_bufferedLines member
  exact length_takeLine_le _ _

theorem flatten_pieces (template : Text) : (pieces template).flatten = template :=
  flatten_bufferedLines (by decide) template

theorem flatMap_reworkLine {template : Text} (noNul : '\x00' ∉ template) (value : Text) :
    (pieces template).flatMap (fun piece => reworkLine value (CText.cString piece)) =
      (pieces template).flatMap fun piece => (spread value piece).take (maxDataSize - 1) := by
  apply List.flatMap_congr
  intro piece member
  have part : '\x00' ∉ piece := by
    intro inPiece
    apply noNul
    rw [← flatten_pieces template]
    exact List.mem_flatten.mpr ⟨piece, member, inPiece⟩
  rw [CText.cString_eq_self part]
  exact reworkLine_eq_take value (length_le_of_mem_pieces member)

theorem length_spread_le_iff {piece : Text} (value : Text)
    (short : piece.length ≤ maxDataSize - 1) :
    (spread value piece).length ≤ maxDataSize - 1 ↔
      (placeCard <:+: piece → piece.length + value.length < maxDataSize + placeCard.length) := by
  have size := (spread_replaced value piece).length_add
  have positive : 0 < maxDataSize := by decide
  split at size
  · next occurs =>
      simp only [occurs, forall_const]
      omega
  · next absent =>
      simp only [absent, false_implies, iff_true]
      omega

structure Fillable (id : ManagedElementId) (template : Text) : Prop where
  noNul : '\x00' ∉ template
  placed : id.text = placeCard ∨
    (pieces template).countP (fun piece => placeCard <:+: piece) = occurrences placeCard template
  fits : ∀ piece ∈ pieces template, placeCard <:+: piece →
    piece.length + id.text.length < maxDataSize + placeCard.length
  room : template = [] ∨
    template.length + occurrences placeCard template * id.text.length <
      buffSize template + occurrences placeCard template * placeCard.length

section Filling

variable {id : ManagedElementId} {template : Text}

theorem fits_of_flatMap_take_eq
    (same : (pieces template).flatMap (fun piece =>
      (spread id.text piece).take (maxDataSize - 1)) = replaceAll placeCard id.text template) :
    ∀ piece ∈ pieces template, (spread id.text piece).length ≤ maxDataSize - 1 := by
  intro piece member
  by_contra long
  have cutSize := length_flatMap_take_lt member (Nat.lt_of_not_le long)
  have replaced := flatMap_spread_replaced id.text (pieces template)
  rw [flatten_pieces] at replaced
  have pieceSize := (spread_replaced id.text piece).length_add
  have short := length_le_of_mem_pieces member
  have longer : placeCard.length ≤ id.text.length := by
    split at pieceSize <;> omega
  obtain ⟨left, isLeft⟩ :=
    Nat.exists_eq_add_of_le (replaced.le_occurrences beginsOnce_placeCard)
  have more : left * placeCard.length ≤ left * id.text.length := Nat.mul_le_mul_left left longer
  have size := replaced.length_add
  have wholeSize :=
    (someReplaced_replaceAll beginsOnce_placeCard id.text template).length_add
  rw [isLeft, Nat.add_mul, Nat.add_mul, ← same] at wholeSize
  omega

theorem flatMap_take_eq_iff :
    (pieces template).flatMap (fun piece => (spread id.text piece).take (maxDataSize - 1)) =
        replaceAll placeCard id.text template ↔
      (∀ piece ∈ pieces template, (spread id.text piece).length ≤ maxDataSize - 1) ∧
        (id.text = placeCard ∨
          (pieces template).countP (fun piece => placeCard <:+: piece) =
            occurrences placeCard template) := by
  have replaced := flatMap_spread_replaced id.text (pieces template)
  rw [flatten_pieces] at replaced
  have isAll := replaced.eq_replaceAll_iff beginsOnce_placeCard
  have uncut (fits : ∀ piece ∈ pieces template,
      (spread id.text piece).length ≤ maxDataSize - 1) :
      (pieces template).flatMap (fun piece => (spread id.text piece).take (maxDataSize - 1)) =
        (pieces template).flatMap (spread id.text) := by
    apply List.flatMap_congr
    intro piece member
    exact List.take_of_length_le (fits piece member)
  constructor
  · intro same
    have fits := fits_of_flatMap_take_eq same
    rw [uncut fits] at same
    exact ⟨fits, isAll.mp same⟩
  · rintro ⟨fits, placed⟩
    rw [uncut fits]
    exact isAll.mpr placed

theorem noNul_of_flatMap_eq
    (same : (pieces template).flatMap (fun piece => reworkLine id.text (CText.cString piece)) =
      replaceAll placeCard id.text template) : '\x00' ∉ template := by
  intro member
  have inAll := (someReplaced_replaceAll beginsOnce_placeCard id.text template).mem (by decide)
    member
  rw [← same, List.mem_flatMap] at inAll
  obtain ⟨piece, -, inLine⟩ := inAll
  apply not_mem_reworkLine id.noNul _ inLine
  intro inString
  have notNul := List.mem_takeWhile_imp inString
  simp at notNul

/-- A template is filled as promised exactly when it is free of NUL, every piece that `fgets` reads
holds at most one place card and no place card lies in two pieces, unless the identifier is the
place card itself, every reworked piece fits its buffer, and the filled template with its NUL fits
the buffer that `main` allocates. -/
theorem fillXmlTemplate_replaces_all_iff (id : ManagedElementId) (template : Text) :
    fillXmlTemplate (buffSize template) id.text (some template) [] =
        some (0, replaceAll placeCard id.text template) ↔
      Fillable id template := by
  have size := (someReplaced_replaceAll beginsOnce_placeCard id.text template).length_add
  have pieceFits : (∀ piece ∈ pieces template,
      (spread id.text piece).length ≤ maxDataSize - 1) ↔
      ∀ piece ∈ pieces template, placeCard <:+: piece →
        piece.length + id.text.length < maxDataSize + placeCard.length := by
    apply forall₂_congr
    intro piece member
    exact length_spread_le_iff id.text (length_le_of_mem_pieces member)
  have nothing : pieces template = [] ↔ template = [] := by
    constructor
    · intro none
      rw [← flatten_pieces template, none, List.flatten_nil]
    · rintro rfl
      rfl
  have hasRoom : (replaceAll placeCard id.text template).length < buffSize template ↔
      template.length + occurrences placeCard template * id.text.length <
        buffSize template + occurrences placeCard template * placeCard.length := by
    omega
  rw [fillXmlTemplate, Option.map_eq_some_iff]
  constructor
  · rintro ⟨filled, isFilled, isPair⟩
    obtain ⟨-, rfl⟩ := Prod.mk.inj isPair
    obtain ⟨same, room⟩ := (foldlM_appendLine_eq_some_iff _ _ _ _ _).mp isFilled
    rw [List.nil_append] at same
    have noNul := noNul_of_flatMap_eq same.symm
    rw [flatMap_reworkLine noNul] at same
    obtain ⟨fits, placed⟩ := flatMap_take_eq_iff.mp same.symm
    rw [nothing, hasRoom] at room
    exact ⟨noNul, placed, pieceFits.mp fits, room⟩
  · intro fillable
    refine ⟨_, ?_, rfl⟩
    rw [foldlM_appendLine_eq_some_iff, nothing, hasRoom, List.nil_append,
      flatMap_reworkLine fillable.noNul]
    refine ⟨Eq.symm ?_, fillable.room⟩
    exact flatMap_take_eq_iff.mpr ⟨pieceFits.mpr fillable.fits, fillable.placed⟩

def sampleId : ManagedElementId :=
  ⟨"AXE".toList, by decide +kernel, by decide +kernel⟩

/-- The second of two place cards in one line stays. -/
theorem fillXmlTemplate_misses_second_place_card :
    ¬ fillXmlTemplate (buffSize "<a>#MEID</a><b>#MEID</b>\n".toList) sampleId.text
        (some "<a>#MEID</a><b>#MEID</b>\n".toList) [] =
      some (0, replaceAll placeCard sampleId.text "<a>#MEID</a><b>#MEID</b>\n".toList) := by
  decide +kernel

end Filling

end Apos.SmartImage
