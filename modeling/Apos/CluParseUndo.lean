import Apos.CluParseRules

/-!
# Taking back an edit that is not accepted

An added rule is taken back by deleting every line in which its text is found, and a modified
rule by putting the old text back wherever the new one is found.  This gives the file from
before only if the new text is found nowhere else.
-/

namespace Apos.ClusterConf

open LineEdit

/-! ## Keywords at the start of a text -/

section Keywords

variable {tools : Tools} {word : Keyword}

theorem Keyword.text_ne_nil (word : Keyword) : word.text ≠ [] := by
  intro empty
  have starts := word.starts
  simp [empty] at starts

theorem fields_keyword (word : Keyword) (rest : Text) :
    fields (word.text ++ ' ' :: rest) = word.text :: fields rest := by
  have unbroken : ∀ char ∈ word.text, isSeparator char = false :=
    fun _ => contains_eq_false word.plain (by decide)
  rw [fields, List.splitOnP_append_cons_of_forall_mem unbroken _ (by decide), fields]
  simp [word.text_ne_nil]

theorem expandWord_keyword (word : Keyword) : expandWord tools word.text = [word.text] :=
  expandWord_of_plain tools fun _ => contains_eq_false word.plain (by decide)

theorem isEchoOption_keyword (word : Keyword) : isEchoOption word.text = false := by
  have starts := word.starts
  refine isEchoOption_of_head fun minus => ?_
  rw [minus] at starts
  exact absurd starts (show ¬isWordChar '-' = true by decide)

theorem echo_keyword (tools : Tools) (word : Keyword) (rest : Text) :
    echo tools (unquoted tools (word.text ++ ' ' :: rest)) =
      joined (word.text :: unquoted tools rest) := by
  have words : unquoted tools (word.text ++ ' ' :: rest) = word.text :: unquoted tools rest := by
    rw [unquoted, fields_keyword, List.flatMap_cons, expandWord_keyword]
    rfl
  simp [echo, words, isEchoOption_keyword]

theorem joined_cons_ne_nil {first : Text} (nonempty : first ≠ []) (rest : List Text) :
    joined (first :: rest) ≠ [] := by
  cases rest with
  | nil => simpa [joined] using nonempty
  | cons second rest => simp [joined, List.intercalate_cons_cons, nonempty]

theorem rulenumToRule_ne_nil (tools : Tools) (word : Keyword) (ip : Nat) (file : LineFile) :
    rulenumToRule tools word ip file ≠ [] := by
  rw [rulenumToRule, echo_keyword]
  exact joined_cons_ne_nil word.text_ne_nil _

theorem newRule_ne_nil (tools : Tools) (word : Keyword) (arg : Text) :
    newRule tools word arg ≠ [] := by
  simp [newRule]

theorem head_newRule (tools : Tools) (word : Keyword) (arg : Text) :
    (newRule tools word arg).head?.any isWordChar = true := by
  have starts := word.starts
  cases isText : word.text with
  | nil => exact absurd isText word.text_ne_nil
  | cons first rest =>
    rw [isText] at starts
    simpa [newRule, isText] using starts

end Keywords

/-! ## Positions in the file -/

section Positions

variable {word : Keyword} {lines : List Text} {limit number : Nat}

theorem lastFilled_bounds (found : lastFilled lines limit = some number) :
    0 < number ∧ number ≤ limit := by
  induction limit with
  | zero => simp [lastFilled] at found
  | succ limit ih =>
    rw [lastFilled] at found
    split at found
    · have earlier := ih found
      omega
    · simp only [Option.some.injEq] at found
      omega

theorem lastRule_bounds (found : lastRule word lines = some number) :
    0 < number ∧ number ≤ lines.length := by
  simp only [lastRule, Option.map_eq_some_iff] at found
  obtain ⟨line, last, rfl⟩ := found
  have member := List.mem_of_mem_filter (List.mem_of_getLast? last)
  have lower := List.le_snd_of_mem_zipIdx member
  have upper := List.snd_lt_of_mem_zipIdx member
  omega

end Positions

/-! ## Taking back an added rule -/

def addsAtEnd (file : LineFile) : Script → Bool
  | .append number _ => number == file.lines.length
  | .appendEach _ => true
  | _ => false

/-- The text of the rule ends with a word, stands in no line of the file, and where it is added
at the end of the file, the file ends with a newline. -/
structure Erasable (file : LineFile) (script : Script) (rule : Text) : Prop where
  wordAtEnd : rule.getLast?.any isWordChar = true
  absent : ∀ line ∈ file.lines, foundBounded rule line = false
  newline : addsAtEnd file script = true → file.ended = true

inductive AddsRule (file : LineFile) (rule : Text) : Script → Prop where
  | insert {number : Nat} (positive : 0 < number) (inside : number ≤ file.lines.length) :
      AddsRule file rule (.insert number rule)
  | append {number : Nat} (inside : number ≤ file.lines.length) :
      AddsRule file rule (.append number rule)
  | appendEach (nonempty : file.lines ≠ []) : AddsRule file rule (.appendEach rule)

section Adding

variable {tools : Tools} {word : Keyword} {arg rule : Text} {file edited : LineFile}
  {script : Script}

theorem addsRule_of_addScript (isScript : addScript tools word arg file = some script) :
    AddsRule file (newRule tools word arg) script := by
  simp only [addScript] at isScript
  split at isScript
  · simp only [Option.map_eq_some_iff] at isScript
    obtain ⟨number, filled, rfl⟩ := isScript
    have bounds := lastFilled_bounds filled
    split
    · exact .insert bounds.1 bounds.2
    · exact .append bounds.2
  · next someLines =>
      split at isScript
      · split at isScript
        · next number last =>
            cases isScript
            exact .append (lastRule_bounds last).2
        · cases isScript
          refine .appendEach fun empty => someLines ?_
          simp [countPrefixed, empty]
      · exact nomatch isScript

theorem AddsRule.isPlain_eq (adds : AddsRule file rule script) :
    script.isPlain = avoids textSymbols rule := by
  cases adds <;> rfl

theorem avoids_textSymbols (plain : avoids patternSymbols rule = true) :
    avoids textSymbols rule = true := by
  simp only [avoids, List.all_eq_true] at plain ⊢
  intro char member
  have allowed := plain char member
  simp only [patternSymbols, textSymbols, List.contains_cons, Bool.not_eq_true',
    Bool.or_eq_false_iff] at allowed ⊢
  exact ⟨allowed.1, allowed.2.2.2.2.2.2.1, rfl⟩

theorem AddsRule.delete_eq_iff (adds : AddsRule file rule script) (nonempty : rule ≠ [])
    (starts : rule.head?.any isWordChar = true) :
    (Script.delete rule).run (script.run file) = file ↔ Erasable file script rule := by
  have own : foundBounded rule rule = true ↔ rule.getLast?.any isWordChar = true := by
    rw [foundBounded_self nonempty, starts, Bool.true_and]
  cases adds with
  | insert positive inside =>
    rw [Script.run, Script.run, deleteWhere_insertBefore_eq_iff (by omega), own]
    exact ⟨fun both => ⟨both.1, both.2, nofun⟩, fun erasable => ⟨erasable.1, erasable.2⟩⟩
  | append inside =>
    rw [Script.run, Script.run, deleteWhere_appendAfter_eq_iff inside, own]
    constructor
    · rintro ⟨both, newline⟩
      exact ⟨both.1, both.2, fun atEnd => newline (by simpa [addsAtEnd] using atEnd)⟩
    · intro erasable
      refine ⟨⟨erasable.1, erasable.2⟩, fun atEnd => erasable.3 ?_⟩
      simpa [addsAtEnd] using atEnd
  | appendEach filled =>
    rw [Script.run, Script.run, deleteWhere_appendAfterEach_eq_iff filled, own]
    constructor
    · rintro ⟨both, newline⟩
      exact ⟨both.1, both.2, fun _ => newline⟩
    · intro erasable
      exact ⟨⟨erasable.1, erasable.2⟩, erasable.3 rfl⟩

end Adding

/-! ## Putting the old rule back -/

def areExchangeable (old new : Text) : Bool :=
  (Script.substitute old new).isPlain && (Script.substitute new old).isPlain

theorem substitute_back_eq_iff {old new : Text} (oldNonempty : old ≠ []) (newNonempty : new ≠ [])
    (file : LineFile) :
    (Script.substitute new old).run ((Script.substitute old new).run file) = file ↔
      ∀ line ∈ file.lines, undone old new 0 line = true := by
  have lines_iff : (file.lines.map (replaceAll old new)).map (replaceAll new old) = file.lines ↔
      ∀ line ∈ file.lines, undone old new 0 line = true := by
    calc (file.lines.map (replaceAll old new)).map (replaceAll new old) = file.lines
        ↔ file.lines.map (replaceAll new old ∘ replaceAll old new) = file.lines.map id := by
          rw [List.map_map, List.map_id]
      _ ↔ ∀ line ∈ file.lines, replaceAll new old (replaceAll old new line) = line :=
          List.map_inj_left
      _ ↔ ∀ line ∈ file.lines, undone old new 0 line = true :=
          forall₂_congr fun line _ => replaceAll_replaceAll_eq_iff oldNonempty newNonempty line
  rw [← lines_iff]
  cases file with
  | mk lines ended => simp [Script.run, LineFile.mapLines]

def substituted (tools : Tools) (word : Keyword) (ip : Nat) (arg : Text) (file : LineFile) :
    Text → Text :=
  replaceAll (rulenumToRule tools word ip file) (newRule tools word arg)

def StaysUnique (tools : Tools) (word : Keyword) (ip : Nat) (arg : Text) (file : LineFile) :
    Prop :=
  (file.lines.map (substituted tools word ip arg file)).countP
    (isChecked tools (chkRule tools word arg)) ≤ 1

instance (tools : Tools) (word : Keyword) (ip : Nat) (arg : Text) (file : LineFile) :
    Decidable (StaysUnique tools word ip arg file) :=
  inferInstanceAs (Decidable (_ ≤ _))

theorem modified_of_isPlain {tools : Tools} {word : Keyword} {ip : Nat} {arg : Text}
    {file : LineFile} (plain : (Script.substitute (rulenumToRule tools word ip file)
      (newRule tools word arg)).isPlain = true) :
    modified tools word ip arg file =
      if StaysUnique tools word ip arg file then
        some (file.mapLines (substituted tools word ip arg file))
      else none := by
  simp only [modified, edit_of_isPlain plain, Option.filter_some, decide_eq_true_eq]
  rfl

/-! ## Rejected edits -/

/-- An edit that is rejected can be taken back.

* For an added rule: the rule ends with a word, its text stands in no line of the file, and
  where it is added at the end of the file, the file ends with a newline.
* For a modified rule: in every line the old text is found only as it stands there, and the new
  text begins only where it has been put for the old one.

For texts with characters that have a meaning of their own in a script, the script has to give
the file back. -/
def Restorable (tools : Tools) (word : Keyword) (file : LineFile) : Change → Prop
  | .add args =>
    let rule := newRule tools word (joined args)
    ∀ script, addScript tools word (joined args) file = some script →
      if avoids patternSymbols rule then Erasable file script rule
      else ∀ edited, edit tools.sed script file = some edited →
        (edit tools.sed (.delete rule) edited).getD edited = file
  | .modify ip args =>
    let old := rulenumToRule tools word ip file
    let new := newRule tools word (joined args)
    isOutOfRange word ip file = false →
      ∀ edited, modified tools word ip (joined args) file = some edited →
        if areExchangeable old new then ∀ line ∈ file.lines, undone old new 0 line = true
        else (edit tools.sed (.substitute new old) edited).getD edited = file

def RestoresRejected (tools : Tools) (word : Keyword) (change : Change) (file : LineFile) : Prop :=
  let outcome := cluParse tools false false word (.change change) file
  outcome.verification = some false → outcome.file = file

section Rejected

variable (tools : Tools) (word : Keyword) (file : LineFile)

theorem restoresRejected_add_iff (args : List Text) :
    RestoresRejected tools word (.add args) file ↔ Restorable tools word file (.add args) := by
  simp only [RestoresRejected, Restorable, cluParse, addRule]
  cases isScript : addScript tools word (joined args) file with
  | none => simp [refuse]
  | some script =>
    have adds := addsRule_of_addScript isScript
    simp only [Option.bind_some, Option.some.injEq, forall_eq']
    by_cases plain : avoids patternSymbols (newRule tools word (joined args)) = true
    · have plainScript := adds.isPlain_eq.trans (avoids_textSymbols plain)
      rw [if_pos plain, edit_of_isPlain plainScript]
      have plainUndo : (Script.delete (newRule tools word (joined args))).isPlain = true := plain
      simp only [conclude, Bool.false_eq_true, if_false, edit_of_isPlain plainUndo,
        Option.getD_some, forall_const]
      exact adds.delete_eq_iff (newRule_ne_nil _ _ _) (head_newRule _ _ _)
    · rw [if_neg plain]
      cases edits : edit tools.sed script file with
      | none => simp [refuse]
      | some edited => simp [conclude]

theorem restoresRejected_modify_iff (ip : Nat) (args : List Text) :
    RestoresRejected tools word (.modify ip args) file ↔
      Restorable tools word file (.modify ip args) := by
  simp only [RestoresRejected, Restorable, cluParse, modRule]
  cases isOutOfRange word ip file with
  | true => simp [refuse]
  | false =>
    cases isModified : modified tools word ip (joined args) file with
    | none => simp [refuse]
    | some edited =>
      simp only [Bool.false_eq_true, if_false, conclude, forall_const, Option.some.injEq,
        forall_eq']
      by_cases plain : areExchangeable (rulenumToRule tools word ip file)
          (newRule tools word (joined args)) = true
      · have both := (Bool.and_eq_true _ _).mp plain
        rw [if_pos plain, edit_of_isPlain both.2, Option.getD_some]
        rw [modified_of_isPlain both.1, Option.ite_none_right_eq_some,
          Option.some.injEq] at isModified
        rw [← isModified.2]
        exact substitute_back_eq_iff (rulenumToRule_ne_nil _ _ _ _) (newRule_ne_nil _ _ _) file
      · rw [if_neg plain]

end Rejected

/-! ## A rule added twice -/

def plainTools : Tools :=
  ⟨fun word => [word], id, fun _ _ => none, fun _ _ => false⟩

def hostKeyword : Keyword :=
  ⟨"host".toList, by decide, by decide⟩

end Apos.ClusterConf
