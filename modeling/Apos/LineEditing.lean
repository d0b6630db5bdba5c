import Mathlib.Data.List.Basic

/-!
# Editing the lines of a file

What the usual line editors do for the patterns that are plain texts: a full stop stands for
any character and every other character for itself, with `\b` for the edge of a word at both
ends where a script asks for it.  A file is its lines, together with the answer whether the
last one has its newline.

Scripts with any other character that a pattern, a replacement or a text gives a meaning to
are left to a parameter, so that what is proved about all editors holds for them too.
-/

namespace Apos.LineEdit

abbrev Text : Type := List Char

/-! ## Plain patterns -/

/-- The characters with a meaning of their own in a pattern between `#` and `#`. -/
def patternSymbols : Text :=
  ['\\', '*', '[', '^', '$', '#', '\n']

/-- The characters with a meaning of their own in a replacement between `#` and `#`. -/
def replacementSymbols : Text :=
  ['\\', '&', '#', '\n']

/-- The characters with a meaning of their own in a text to add. -/
def textSymbols : Text :=
  ['\\', '\n']

def avoids (symbols text : Text) : Bool :=
  text.all fun char => !symbols.contains char

def agrees : Text → Text → Bool
  | [], _ => true
  | _ :: _, [] => false
  | symbol :: pattern, char :: text => (symbol == '.' || symbol == char) && agrees pattern text

theorem agrees_self_append (pattern rest : Text) : agrees pattern (pattern ++ rest) = true := by
  induction pattern with
  | nil => rfl
  | cons symbol pattern ih => simp [agrees, ih]

theorem length_le_of_agrees {pattern text : Text} (agree : agrees pattern text = true) :
    pattern.length ≤ text.length := by
  induction pattern generalizing text with
  | nil => simp
  | cons symbol pattern ih =>
    cases text with
    | nil => simp [agrees] at agree
    | cons char text =>
      simp only [agrees, Bool.and_eq_true] at agree
      have shorter := ih agree.2
      simp only [List.length_cons]
      omega

theorem ne_nil_of_agrees {pattern text : Text} (nonempty : pattern ≠ [])
    (agree : agrees pattern text = true) : text ≠ [] := by
  rintro rfl
  exact nonempty (List.length_eq_zero_iff.mp (Nat.le_zero.mp (length_le_of_agrees agree)))

/-! ## Words -/

def isWordChar (char : Char) : Bool :=
  char.isAlphanum || char == '_'

/-- The edge of a word: a character of a word on one side only. -/
def isEdge (before after : Option Char) : Bool :=
  before.any isWordChar != after.any isWordChar

def boundedAt (pattern : Text) (before : Option Char) (text : Text) : Bool :=
  agrees pattern text && isEdge before text.head? &&
    isEdge ((text.take pattern.length).getLast?.or before) (text.drop pattern.length).head?

def foundBoundedFrom (pattern : Text) (before : Option Char) : Text → Bool
  | [] => boundedAt pattern before []
  | char :: text =>
    boundedAt pattern before (char :: text) || foundBoundedFrom pattern (some char) text

/-- Some part of the line agrees with the pattern from one edge of a word to another. -/
def foundBounded (pattern line : Text) : Bool :=
  foundBoundedFrom pattern none line

def startsWithWord (pattern line : Text) : Bool :=
  agrees pattern line && !(line.drop pattern.length).head?.any isWordChar

def startsWithExactly (text line : Text) : Bool :=
  text.isPrefixOf line && !(line.drop text.length).head?.any isWordChar

theorem foundBoundedFrom_eq_false_of_length {pattern : Text} {before : Option Char} {text : Text}
    (longer : text.length < pattern.length) : foundBoundedFrom pattern before text = false := by
  induction text generalizing before with
  | nil =>
    cases pattern with
    | nil => simp at longer
    | cons symbol pattern => simp [foundBoundedFrom, boundedAt, agrees]
  | cons char text ih =>
    have disagree : agrees pattern (char :: text) = false := by
      by_contra agree
      have shorter := length_le_of_agrees (by simpa using agree)
      omega
    have later : text.length < pattern.length := by
      simp only [List.length_cons] at longer
      omega
    simp [foundBoundedFrom, boundedAt, disagree, ih later]

theorem foundBounded_self {pattern : Text} (nonempty : pattern ≠ []) :
    foundBounded pattern pattern =
      (pattern.head?.any isWordChar && pattern.getLast?.any isWordChar) := by
  have agree : agrees pattern pattern = true := by
    simpa using agrees_self_append pattern []
  have atStart : boundedAt pattern none pattern =
      (pattern.head?.any isWordChar && pattern.getLast?.any isWordChar) := by
    cases last : pattern.getLast? with
    | none => exact absurd (List.getLast?_eq_none_iff.mp last) nonempty
    | some char => simp [boundedAt, agree, isEdge, last]
  cases pattern with
  | nil => exact absurd rfl nonempty
  | cons symbol rest =>
    have later : foundBoundedFrom (symbol :: rest) (some symbol) rest = false :=
      foundBoundedFrom_eq_false_of_length (by simp)
    rw [foundBounded, foundBoundedFrom, atStart, later, Bool.or_false]

/-! ## Replacing -/

/-- Replaces the parts of a fixed size at which the test holds, from left to right.  The first
argument after the replacement counts the characters of a part that are still to be passed. -/
def replaceWhere (here : Option Char → Text → Bool) (size : Nat) (replacement : Text) :
    Nat → Option Char → Text → Text
  | _, _, [] => []
  | skip + 1, _, char :: text => replaceWhere here size replacement skip (some char) text
  | 0, before, char :: text =>
    if here before (char :: text) then
      replacement ++ replaceWhere here size replacement (size - 1) (some char) text
    else char :: replaceWhere here size replacement 0 (some char) text

def replaceAll (pattern replacement text : Text) : Text :=
  replaceWhere (fun _ text => agrees pattern text) pattern.length replacement 0 none text

def replaceBounded (pattern replacement text : Text) : Text :=
  replaceWhere (boundedAt pattern) pattern.length replacement 0 none text

theorem replaceWhere_skip (here : Text → Bool) (size : Nat) (replacement : Text) (skip : Nat)
    (before : Option Char) (text : Text) :
    replaceWhere (fun _ => here) size replacement skip before text =
      replaceWhere (fun _ => here) size replacement 0 none (text.drop skip) := by
  induction text generalizing skip before with
  | nil => simp [replaceWhere]
  | cons char text ih =>
    cases skip with
    | zero => simp [replaceWhere]
    | succ skip =>
      rw [replaceWhere, ih, List.drop_succ_cons]

theorem replaceAll_cons_of_not_agrees {pattern replacement text : Text} {char : Char}
    (disagree : agrees pattern (char :: text) = false) :
    replaceAll pattern replacement (char :: text) =
      char :: replaceAll pattern replacement text := by
  unfold replaceAll
  rw [replaceWhere, if_neg (by simp [disagree]), replaceWhere_skip _ _ _ 0 (some char)]
  rfl

theorem replaceAll_of_agrees {pattern replacement text : Text} (nonempty : pattern ≠ [])
    (agree : agrees pattern text = true) :
    replaceAll pattern replacement text =
      replacement ++ replaceAll pattern replacement (text.drop pattern.length) := by
  cases text with
  | nil => exact absurd rfl (ne_nil_of_agrees nonempty agree)
  | cons char text =>
    have positive : 0 < pattern.length := List.length_pos_iff.mpr nonempty
    unfold replaceAll
    rw [replaceWhere, if_pos agree, replaceWhere_skip]
    obtain ⟨size, isSize⟩ := Nat.exists_eq_add_of_lt positive
    rw [isSize]
    simp

/-- From the left, every match of the pattern gives way to the replacement. -/
inductive Replaced (pattern replacement : Text) : Text → Text → Prop where
  | nil : Replaced pattern replacement [] []
  | found {text result : Text} (agree : agrees pattern text = true)
      (rest : Replaced pattern replacement (text.drop pattern.length) result) :
      Replaced pattern replacement text (replacement ++ result)
  | kept {char : Char} {text result : Text} (disagree : agrees pattern (char :: text) = false)
      (rest : Replaced pattern replacement text result) :
      Replaced pattern replacement (char :: text) (char :: result)

theorem replaced_replaceAll {pattern : Text} (nonempty : pattern ≠ []) (replacement text : Text) :
    Replaced pattern replacement text (replaceAll pattern replacement text) := by
  induction length : text.length using Nat.strongRecOn generalizing text with
  | ind size ih =>
    by_cases agree : agrees pattern text = true
    · have positive : 0 < pattern.length := List.length_pos_iff.mpr nonempty
      have fits : pattern.length ≤ text.length := length_le_of_agrees agree
      rw [replaceAll_of_agrees nonempty agree]
      refine .found agree (ih _ ?_ _ rfl)
      rw [List.length_drop]
      omega
    · cases text with
      | nil => exact .nil
      | cons char text =>
        rw [Bool.not_eq_true] at agree
        rw [replaceAll_cons_of_not_agrees agree]
        exact .kept agree (ih _ (length ▸ Nat.lt_succ_self _) _ rfl)

theorem replaced_iff {pattern replacement text result : Text} (nonempty : pattern ≠ []) :
    Replaced pattern replacement text result ↔ replaceAll pattern replacement text = result := by
  constructor
  · intro replaced
    induction replaced with
    | nil => rfl
    | found agree _ ih => rw [replaceAll_of_agrees nonempty agree, ih]
    | kept disagree _ ih => rw [replaceAll_cons_of_not_agrees disagree, ih]
  · rintro rfl
    exact replaced_replaceAll nonempty replacement text

/-- The line as the substitution of the new text for the old one reads it: a part that agrees
with the old text is the old text itself, and where a character is kept, the new text does not
begin in the edited line. -/
def undone (old new : Text) : Nat → Text → Bool
  | _, [] => true
  | skip + 1, _ :: text => undone old new skip text
  | 0, char :: text =>
    if agrees old (char :: text) then
      (char :: text).take old.length == old && undone old new (old.length - 1) text
    else !agrees new (replaceAll old new (char :: text)) && undone old new 0 text

theorem undone_skip (old new : Text) (skip : Nat) (text : Text) :
    undone old new skip text = undone old new 0 (text.drop skip) := by
  induction text generalizing skip with
  | nil => simp [undone]
  | cons char text ih =>
    cases skip with
    | zero => simp
    | succ skip => rw [undone, ih, List.drop_succ_cons]

theorem undone_of_agrees {old new text : Text} (nonempty : old ≠ [])
    (agree : agrees old text = true) :
    undone old new 0 text =
      (text.take old.length == old && undone old new 0 (text.drop old.length)) := by
  cases text with
  | nil => exact absurd rfl (ne_nil_of_agrees nonempty agree)
  | cons char text =>
    have positive : 0 < old.length := List.length_pos_iff.mpr nonempty
    rw [undone, if_pos agree, undone_skip]
    obtain ⟨size, isSize⟩ := Nat.exists_eq_add_of_lt positive
    rw [isSize]
    simp

theorem replaceAll_replaceAll_eq_iff {old new : Text} (oldNonempty : old ≠ [])
    (newNonempty : new ≠ []) (text : Text) :
    replaceAll new old (replaceAll old new text) = text ↔ undone old new 0 text = true := by
  induction length : text.length using Nat.strongRecOn generalizing text with
  | ind size ih =>
    by_cases agree : agrees old text = true
    · have cut : old.length ≤ text.length := length_le_of_agrees agree
      have positive : 0 < old.length := List.length_pos_iff.mpr oldNonempty
      have shorter : (text.drop old.length).length < size := by
        rw [List.length_drop, length]
        omega
      have later := ih _ shorter _ rfl
      rw [undone_of_agrees oldNonempty agree, Bool.and_eq_true, beq_iff_eq, ← later,
        replaceAll_of_agrees oldNonempty agree,
        replaceAll_of_agrees newNonempty (agrees_self_append new _), List.drop_left]
      constructor
      · intro whole
        have sizes : old.length = (text.take old.length).length := by
          rw [List.length_take, Nat.min_eq_left cut]
        obtain ⟨front, tail⟩ :=
          List.append_inj (whole.trans (List.take_append_drop old.length text).symm) sizes
        exact ⟨front.symm, tail⟩
      · rintro ⟨front, tail⟩
        rw [tail]
        nth_rewrite 1 [← front]
        exact List.take_append_drop _ _
    · have disagree : agrees old text = false := by simpa using agree
      cases text with
      | nil => simp [replaceAll, replaceWhere, undone]
      | cons char rest =>
        have later := ih rest.length (by rw [← length]; simp) rest rfl
        have kept : replaceAll old new (char :: rest) = char :: replaceAll old new rest :=
          replaceAll_cons_of_not_agrees disagree
        rw [undone, if_neg agree]
        by_cases begins : agrees new (replaceAll old new (char :: rest)) = true
        · have notBack :
              replaceAll new old (replaceAll old new (char :: rest)) ≠ char :: rest := by
            intro back
            rw [replaceAll_of_agrees newNonempty begins] at back
            rw [← back, agrees_self_append] at disagree
            exact Bool.noConfusion disagree
          simp [notBack, begins]
        · have notBegins : agrees new (char :: replaceAll old new rest) = false := by
            rw [← kept]
            simpa using begins
          rw [kept, replaceAll_cons_of_not_agrees notBegins, notBegins]
          simp [later]

/-! ## Files -/

structure LineFile where
  lines : List Text
  ended : Bool
  deriving DecidableEq

namespace LineFile

def deleteWhere (here : Text → Bool) (file : LineFile) : LineFile where
  lines := file.lines.filter fun line => !here line
  ended := file.ended || file.lines.getLast?.any here

def mapLines (change : Text → Text) (file : LineFile) : LineFile where
  lines := file.lines.map change
  ended := file.ended

/-- Adds a line after the line of this number.  What is added has a newline, and so has the
line it comes after. -/
def appendAfter (number : Nat) (text : Text) (file : LineFile) : LineFile where
  lines := file.lines.insertIdx number text
  ended := file.ended || number == file.lines.length

def appendAfterEach (text : Text) (file : LineFile) : LineFile where
  lines := file.lines.flatMap fun line => [line, text]
  ended := file.ended || !file.lines.isEmpty

def insertBefore (number : Nat) (text : Text) (file : LineFile) : LineFile where
  lines := file.lines.insertIdx (number - 1) text
  ended := file.ended

end LineFile

/-! ## Lines added to a file -/

inductive Added (text : Text) : List Text → List Text → Prop where
  | nil : Added text [] []
  | keep (line : Text) {lines edited : List Text} :
      Added text lines edited → Added text (line :: lines) (line :: edited)
  | add {lines edited : List Text} : Added text lines edited → Added text lines (text :: edited)

section Added

variable {text : Text} {lines edited : List Text} {here : Text → Bool}

theorem Added.refl (text : Text) (lines : List Text) : Added text lines lines := by
  induction lines with
  | nil => exact .nil
  | cons line lines ih => exact .keep line ih

theorem added_insertIdx (text : Text) (lines : List Text) (number : Nat) :
    Added text lines (lines.insertIdx number text) := by
  induction lines generalizing number with
  | nil =>
    cases number with
    | zero => exact .add .nil
    | succ number => exact .nil
  | cons line lines ih =>
    cases number with
    | zero => exact .add (.refl text _)
    | succ number => exact .keep line (ih number)

theorem added_flatMap (text : Text) (lines : List Text) :
    Added text lines (lines.flatMap fun line => [line, text]) := by
  induction lines with
  | nil => exact .nil
  | cons line lines ih => exact .keep line (.add ih)

theorem Added.filter_eq (added : Added text lines edited) (isHere : here text = true) :
    (edited.filter fun line => !here line) = lines.filter fun line => !here line := by
  induction added with
  | nil => rfl
  | keep line _ ih => simp only [List.filter_cons, ih]
  | add _ ih => simp [isHere, ih]

theorem Added.length_filter (added : Added text lines edited) (notHere : here text = false) :
    (edited.filter fun line => !here line).length + lines.length =
      (lines.filter fun line => !here line).length + edited.length := by
  induction added with
  | nil => rfl
  | keep line _ ih =>
    cases found : here line with
    | false =>
      simp only [List.filter_cons, found, Bool.not_false, if_true, List.length_cons]
      omega
    | true =>
      simp only [List.filter_cons, found, Bool.not_true, Bool.false_eq_true, if_false,
        List.length_cons]
      omega
  | add _ ih =>
    simp only [List.filter_cons, notHere, Bool.not_false, if_true, List.length_cons]
    omega

/-- Deleting lines takes the added ones away, and nothing else, if and only if these are
deleted and no line from before is. -/
theorem Added.filter_eq_iff (added : Added text lines edited)
    (more : lines.length < edited.length) :
    (edited.filter fun line => !here line) = lines ↔
      here text = true ∧ ∀ line ∈ lines, here line = false := by
  constructor
  · intro restored
    have untouched : ∀ line ∈ lines, here line = false := by
      intro line member
      rw [← restored] at member
      simpa using (List.mem_filter.mp member).2
    have all : (lines.filter fun line => !here line) = lines := by
      rw [List.filter_eq_self]
      intro line member
      simp [untouched line member]
    have isHere : here text = true := by
      by_contra notHere
      have absent : here text = false := by simpa using notHere
      have lengths := added.length_filter absent
      rw [restored, all] at lengths
      omega
    exact ⟨isHere, untouched⟩
  · rintro ⟨isHere, untouched⟩
    rw [added.filter_eq isHere, List.filter_eq_self]
    intro line member
    simp [untouched line member]

end Added

section Undoing

variable {text : Text} {file : LineFile} {here : Text → Bool} {number : Nat}

theorem getLast?_insertIdx {lines : List Text} (early : number < lines.length) :
    (lines.insertIdx number text).getLast? = lines.getLast? := by
  induction lines generalizing number with
  | nil => simp at early
  | cons line lines ih =>
    cases number with
    | zero => simp [List.getLast?_cons_cons]
    | succ number =>
      have earlier : number < lines.length := by
        simp only [List.length_cons] at early
        omega
      rw [List.insertIdx_succ_cons, List.getLast?_cons, List.getLast?_cons, ih earlier]

theorem any_getLast?_eq_false {lines : List Text} (untouched : ∀ line ∈ lines, here line = false) :
    lines.getLast?.any here = false := by
  cases last : lines.getLast? with
  | none => rfl
  | some line => exact untouched line (List.mem_of_getLast? last)

theorem deleteWhere_added_eq_iff {edited : List Text} {ended : Bool}
    (added : Added text file.lines edited) (more : file.lines.length < edited.length) :
    (LineFile.mk edited ended).deleteWhere here = file ↔
      (here text = true ∧ ∀ line ∈ file.lines, here line = false) ∧
        (ended || edited.getLast?.any here) = file.ended := by
  rw [← added.filter_eq_iff more]
  cases file with
  | mk lines ended => simp only [LineFile.deleteWhere, LineFile.mk.injEq]

theorem deleteWhere_insertBefore_eq_iff (early : number - 1 < file.lines.length) :
    (file.insertBefore number text).deleteWhere here = file ↔
      here text = true ∧ ∀ line ∈ file.lines, here line = false := by
  have more : file.lines.length < (file.lines.insertIdx (number - 1) text).length := by
    rw [List.length_insertIdx_of_le_length (Nat.le_of_lt early)]
    omega
  rw [LineFile.insertBefore,
    deleteWhere_added_eq_iff (added_insertIdx text file.lines (number - 1)) more,
    and_iff_left_iff_imp]
  rintro ⟨-, untouched⟩
  rw [getLast?_insertIdx early, any_getLast?_eq_false untouched, Bool.or_false]

theorem deleteWhere_appendAfter_eq_iff (inside : number ≤ file.lines.length) :
    (file.appendAfter number text).deleteWhere here = file ↔
      (here text = true ∧ ∀ line ∈ file.lines, here line = false) ∧
        (number = file.lines.length → file.ended = true) := by
  have more : file.lines.length < (file.lines.insertIdx number text).length := by
    rw [List.length_insertIdx_of_le_length inside]
    omega
  rw [LineFile.appendAfter,
    deleteWhere_added_eq_iff (added_insertIdx text file.lines number) more]
  refine and_congr_right fun deleted => ?_
  rcases Nat.lt_or_eq_of_le inside with early | last
  · have notLast : number ≠ file.lines.length := Nat.ne_of_lt early
    simp [getLast?_insertIdx early, any_getLast?_eq_false deleted.2, notLast]
  · cases isEnded : file.ended <;> simp [last]

theorem length_flatMap_pair (text : Text) (lines : List Text) :
    (lines.flatMap fun line => [line, text]).length = lines.length + lines.length := by
  induction lines with
  | nil => rfl
  | cons line lines ih =>
    simp only [List.flatMap_cons, List.length_append, List.length_cons, List.length_nil, ih]
    omega

theorem deleteWhere_appendAfterEach_eq_iff (nonempty : file.lines ≠ []) :
    (file.appendAfterEach text).deleteWhere here = file ↔
      (here text = true ∧ ∀ line ∈ file.lines, here line = false) ∧ file.ended = true := by
  have more : file.lines.length < (file.lines.flatMap fun line => [line, text]).length := by
    have positive := List.length_pos_iff.mpr nonempty
    rw [length_flatMap_pair]
    omega
  rw [LineFile.appendAfterEach, deleteWhere_added_eq_iff (added_flatMap text file.lines) more]
  cases isEnded : file.ended <;> simp [nonempty]

end Undoing

/-! ## Scripts -/

inductive Script where
  | delete (pattern : Text)
  | substitute (pattern replacement : Text)
  | append (number : Nat) (text : Text)
  | appendEach (text : Text)
  | insert (number : Nat) (text : Text)
  deriving DecidableEq

namespace Script

def text : Script → Text
  | delete pattern => "\\#\\b".toList ++ pattern ++ "\\b#d".toList
  | substitute pattern replacement => "s#".toList ++ pattern ++ '#' :: replacement ++ "#g".toList
  | append number text => (toString number).toList ++ " a\\".toList ++ text
  | appendEach text => " a\\".toList ++ text
  | insert number text => (toString number).toList ++ " i\\".toList ++ text

def isPlain : Script → Bool
  | delete pattern => avoids patternSymbols pattern
  | substitute pattern replacement =>
    avoids patternSymbols pattern && avoids replacementSymbols replacement
  | append _ text => avoids textSymbols text
  | appendEach text => avoids textSymbols text
  | insert _ text => avoids textSymbols text

def run : Script → LineFile → LineFile
  | delete pattern => .deleteWhere (foundBounded pattern)
  | substitute pattern replacement => .mapLines (replaceAll pattern replacement)
  | append number text => .appendAfter number text
  | appendEach text => .appendAfterEach text
  | insert number text => .insertBefore number text

end Script

/-- The editor: `none` if it refuses the script, with `other` for the scripts that are not
plain. -/
def edit (other : Text → LineFile → Option LineFile) (script : Script) (file : LineFile) :
    Option LineFile :=
  if script.isPlain then some (script.run file) else other script.text file

theorem edit_of_isPlain {other : Text → LineFile → Option LineFile} {script : Script}
    (plain : script.isPlain = true) (file : LineFile) :
    edit other script file = some (script.run file) := by
  rw [edit, if_pos plain]

end Apos.LineEdit
