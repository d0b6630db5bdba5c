import Apos.CluParseRules

/-!
# Unquoted expansions of plain texts

A script that expands a variable without quotes sees its words, wherever the line breaks and
blanks between them are.  This file says what the words of concatenated texts are, and what
`echo -e` prints of words that the shell leaves alone.
-/

namespace Apos.ClusterConf

open LineEdit

structure IsWord (word : Text) : Prop where
  nonempty : word ≠ []
  unbroken : ∀ char ∈ word, isSeparator char = false

@[simp]
theorem fields_nil : fields [] = [] := by
  decide

theorem fields_append {separator : Char} (isSep : isSeparator separator = true)
    (front rest : Text) : fields (front ++ separator :: rest) = fields front ++ fields rest := by
  rw [fields, List.splitOnP_append_cons front rest isSep, List.filter_append, fields, fields]

theorem IsWord.fields {word : Text} (isWord : IsWord word) : fields word = [word] := by
  rw [ClusterConf.fields, List.splitOnP_eq_singleton isWord.unbroken]
  simp [isWord.nonempty]

variable {text word : Text}

theorem eq_of_mem_fields (unbroken : ∀ char ∈ text, isSeparator char = false)
    (member : word ∈ fields text) : word = text ∧ word ≠ [] := by
  rw [fields, List.splitOnP_eq_singleton unbroken] at member
  obtain ⟨isText, nonempty⟩ := List.mem_filter.mp member
  exact ⟨List.mem_singleton.mp isText, by simpa using nonempty⟩

variable {words : List Text}

theorem fields_joined (areWords : ∀ word ∈ words, IsWord word) : fields (joined words) = words := by
  induction words with
  | nil => decide
  | cons first words ih =>
    have firstWord := areWords first List.mem_cons_self
    have later := ih fun word member => areWords word (List.mem_cons_of_mem _ member)
    cases words with
    | nil => simpa [joined] using firstWord.fields
    | cons second words =>
      rw [joined, List.intercalate_cons_cons, List.append_assoc, List.singleton_append,
        fields_append (by decide), firstWord.fields]
      exact congrArg (first :: ·) later

theorem joined_inj {others : List Text} (areWords : ∀ word ∈ words, IsWord word)
    (areOthers : ∀ word ∈ others, IsWord word) (same : joined words = joined others) :
    words = others := by
  rw [← fields_joined areWords, same, fields_joined areOthers]

theorem infix_joined (member : word ∈ words) : word <:+: joined words := by
  induction words with
  | nil => cases member
  | cons first words ih =>
    cases words with
    | nil =>
      rw [List.mem_singleton.mp member]
      exact ⟨[], [], by simp [joined]⟩
    | cons second words =>
      rw [joined, List.intercalate_cons_cons]
      rcases List.mem_cons.mp member with rfl | later
      · exact ⟨[], [' '] ++ List.intercalate [' '] (second :: words), by simp⟩
      · exact (ih later).trans (List.suffix_append _ _).isInfix

theorem fields_replicate (count : Nat) (text : Text) :
    fields (List.replicate count ' ' ++ text) = fields text := by
  induction count with
  | zero => rfl
  | succ count ih =>
    have split := fields_append (show isSeparator ' ' = true by decide) []
      (List.replicate count ' ' ++ text)
    rw [fields_nil, List.nil_append, List.nil_append, ih] at split
    exact split

/-- What a command substitution keeps of the lines that a command prints. -/
def substitution (lines : List Text) : Text :=
  (lines.flatMap (· ++ ['\n'])).rdropWhile (· = '\n')

theorem fields_rdropWhile (text : Text) : fields (text.rdropWhile (· = '\n')) = fields text := by
  induction text using List.reverseRecOn with
  | nil => rfl
  | append_singleton text char ih =>
    rw [List.rdropWhile_concat]
    split
    · next isNewline =>
        rw [decide_eq_true_eq] at isNewline
        rw [isNewline, fields_append (by decide), fields_nil, List.append_nil, ih]
    · rfl

theorem fields_substitution (lines : List Text) :
    fields (substitution lines) = lines.flatMap fields := by
  rw [substitution, fields_rdropWhile]
  induction lines with
  | nil => exact fields_nil
  | cons line lines ih =>
    rw [List.flatMap_cons, List.append_assoc, List.singleton_append,
      fields_append (by decide), ih, List.flatMap_cons]

theorem substitution_eq_nil_iff (lines : List Text) :
    substitution lines = [] ↔ ∀ line ∈ lines, ∀ char ∈ line, char = '\n' := by
  simp only [substitution, List.rdropWhile_eq_nil_iff, List.mem_flatMap, List.mem_append,
    List.mem_singleton, decide_eq_true_eq]
  constructor
  · intro newlines line member char inLine
    exact newlines char ⟨line, member, .inl inLine⟩
  · rintro newlines char ⟨line, member, inLine | rfl⟩
    · exact newlines line member char inLine
    · rfl

theorem substitution_map_eq_nil_iff {α : Type} {items : List α} {line : α → Text}
    (visible : ∀ item ∈ items, ∃ char ∈ line item, char ≠ '\n') :
    substitution (items.map line) = [] ↔ items = [] := by
  rw [substitution_eq_nil_iff]
  constructor
  · intro newlines
    rw [List.eq_nil_iff_forall_not_mem]
    intro item member
    obtain ⟨char, inLine, other⟩ := visible item member
    exact other (newlines (line item) (List.mem_map_of_mem member) char inLine)
  · rintro rfl
    simp

/-- The output of `echo -e` on the words of an unquoted expansion. -/
def echoLine (tools : Tools) (text : Text) : Text :=
  let words := "-e".toList :: unquoted tools text
  let newline := if 'n' ∈ (words.takeWhile isEchoOption).flatten then [] else ['\n']
  echo tools words ++ newline

/-- The shell leaves the text alone: it has no wildcard and no backslash. -/
def isLiteral (text : Text) : Bool :=
  text.all fun char => !(['*', '?', '[', '\\'].contains char)

theorem expandWord_literal (tools : Tools) (literal : isLiteral word = true) :
    expandWord tools word = [word] :=
  expandWord_of_plain tools fun _ => contains_eq_false literal (by decide)

theorem unquoted_eq_fields {tools : Tools}
    (alone : ∀ word ∈ fields text, expandWord tools word = [word]) :
    unquoted tools text = fields text := by
  rw [unquoted, List.flatMap_congr alone, List.flatMap_singleton']

theorem mem_intercalate {char : Char} {between : Text}
    (member : char ∈ List.intercalate between words) :
    char ∈ between ∨ ∃ word ∈ words, char ∈ word := by
  induction words with
  | nil => simp at member
  | cons first words ih =>
    cases words with
    | nil => exact .inr ⟨first, List.mem_cons_self, by simpa using member⟩
    | cons second words =>
      rw [List.intercalate_cons_cons, List.mem_append, List.mem_append] at member
      rcases member with (inFirst | inBetween) | later
      · exact .inr ⟨first, List.mem_cons_self, inFirst⟩
      · exact .inl inBetween
      · exact (ih later).imp_right fun ⟨word, among, inWord⟩ =>
          ⟨word, List.mem_cons_of_mem _ among, inWord⟩

theorem not_mem_joined {char : Char} (notBlank : char ≠ ' ')
    (absent : ∀ word ∈ words, char ∉ word) : char ∉ joined words := by
  intro member
  rcases mem_intercalate member with blank | ⟨word, among, inWord⟩
  · exact notBlank (List.mem_singleton.mp blank)
  · exact absent word among inWord

theorem echoLine_eq {tools : Tools} (alone : ∀ word ∈ fields text, expandWord tools word = [word])
    (notOption : ∀ word, (fields text).head? = some word → isEchoOption word = false) :
    echoLine tools text = tools.interpret (joined (fields text)) ++ ['\n'] := by
  have noOptions : (fields text).takeWhile isEchoOption = [] := by
    cases words : fields text with
    | nil => rfl
    | cons first words =>
      rw [List.takeWhile_cons_of_neg]
      simp [notOption first (by simp [words])]
  have kept : (fields text).dropWhile isEchoOption = fields text := by
    have whole := List.takeWhile_append_dropWhile (p := isEchoOption) (l := fields text)
    rwa [noOptions, List.nil_append] at whole
  have isOption : isEchoOption "-e".toList = true := by decide
  simp only [echoLine, unquoted_eq_fields alone, echo, List.takeWhile_cons, isOption,
    if_true, noOptions, List.dropWhile_cons, kept]
  rw [if_pos (by decide), if_neg (by decide)]

theorem echoLine_literal {tools : Tools}
    (leavesPlain : ∀ text, '\\' ∉ text → tools.interpret text = text)
    (literal : ∀ word ∈ fields text, isLiteral word = true)
    (notOption : ∀ word, (fields text).head? = some word → isEchoOption word = false) :
    echoLine tools text = joined (fields text) ++ ['\n'] := by
  have noBackslash : '\\' ∉ joined (fields text) := by
    refine not_mem_joined (by decide) fun word member backslash => ?_
    have allowed := List.all_eq_true.mp (literal word member) '\\' backslash
    revert allowed
    decide
  rw [echoLine_eq (fun word member => expandWord_literal tools (literal word member)) notOption,
    leavesPlain _ noBackslash]

end Apos.ClusterConf
