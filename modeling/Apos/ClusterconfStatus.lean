import Mathlib.Data.List.Forall2
import Mathlib.Data.List.InsertIdx
import Apos.CluParseUndo

/-!
# The exit status of the clusterconf command

`clusterconf` checks a request with a function of the keyword, hands it to a script of the
keyword, which looks at the arguments and calls the editor, and exits with the status of the
check.  Neither the script nor the editor have a say in it: a request that one of them refuses
ends with the same status as one that is carried out.
-/

namespace Apos.ClusterConf

open LineEdit

/-! ## The scripts of the keywords -/

/-- A script `clu_<keyword>` gets the option, whether to modify, and the words after it.  It
hands the words of the rule and of the check to the editor, or stops before. -/
abbrev KeywordScript : Type :=
  LineFile → Bool → List Text → Option (List Text)

/-- `grep ^"pattern" | awk '{print $place}'`. -/
def awkColumn (pattern : Text) (place : Nat) (file : LineFile) : List Text :=
  (file.lines.filter (agrees pattern)).filterMap fun line => (fields line)[place - 1]?

/-- `grep ^"pattern" | cut -d ' ' -f place`. -/
def cutColumn (pattern : Text) (place : Nat) (file : LineFile) : List Text :=
  (file.lines.filter (agrees pattern)).map fun line =>
    if ' ' ∈ line then ((line.splitOn ' ')[place - 1]?).getD [] else line

def validateInteger (int : Text) : Bool :=
  !int.isEmpty && int.all Char.isDigit

def validateNode (file : LineFile) (targetNode : Text) : Bool :=
  targetNode == "control".toList || targetNode == "all".toList ||
    (awkColumn "node".toList 2 file).contains targetNode

/-- `validate_network` of the script for routes, where the network may be left out. -/
def validateNetwork (file : LineFile) (network : Text) : Bool :=
  network.isEmpty || (cutColumn "network".toList 2 file).contains network

def validateInterface (file : LineFile) (interface target : Text) : Bool :=
  !interface.isEmpty && (cutColumn ("interface ".toList ++ target) 3 file).contains interface

/-- The first field of the argument is a number and the second one the keyword, if a rule is
modified; `cut` gives the whole argument for both fields if there is no colon. -/
def validateHead (isModify : Bool) (arg : Text) : Bool :=
  let field (place : Nat) := if ':' ∈ arg then ((arg.splitOn ':')[place - 1]?).getD [] else arg
  field 2 == "route".toList && (!isModify || validateInteger (field 1))

def validateRoute (validateIp : Text → Bool) (file : LineFile) (target network arg4 arg5 : Text) :
    Bool :=
  validateNode file target && validateNetwork file network &&
    if arg4 = "interface".toList then validateInterface file arg5 target
    else if arg4 = "gateway".toList then validateIp arg5
    else false

/-- `clu_route` with `--add` or `--modify`. -/
def cluRoute (tools : Tools) (validateIp : Text → Bool) : KeywordScript :=
  fun file isModify args =>
    let arg (place : Nat) := (args[place]?).getD []
    let newRule := joined ["route".toList, arg 1, arg 2, arg 3, arg 4]
    if 5 < args.length then none
    else if validateHead isModify (arg 0) &&
        validateRoute validateIp file (arg 1) (arg 2) (arg 3) (arg 4) then
      some (unquoted tools newRule ++ unquoted tools newRule)
    else none

/-! ## The command -/

/-- What is asked for: a new rule, or another text for the rule with a number. -/
inductive Form where
  | add
  | modify (ruleNum : Nat)
  deriving DecidableEq

def Form.isModify : Form → Bool
  | .add => false
  | .modify _ => true

def Form.change : Form → List Text → Change
  | .add, words => .add words
  | .modify ruleNum, words => .modify ruleNum words

/-- `clusterconf word --add rule`, `--modify ruleNum:word rule`, and the forms with `m_` that
allow several updates before the configuration is reloaded. -/
structure Command where
  word : Keyword
  form : Form
  multipleUpdates : Bool
  rule : List Text
  deriving DecidableEq

def Command.args (command : Command) : List Text :=
  match command.form with
  | .add => command.word.text :: command.rule
  | .modify ruleNum => ((toString ruleNum).toList ++ ':' :: command.word.text) :: command.rule

def Command.requested (command : Command) : Text :=
  joined (command.word.text :: command.rule)

structure Report where
  exitStatus : Nat
  editor : Option Outcome
  deriving DecidableEq

/-- The main part of `clusterconf` for these options.  `scStatus` is the status of the check
`sc_<keyword>`, and `verified` the verdict of `cluster config -v`. -/
def clusterconf (tools : Tools) (script : KeywordScript) (scStatus : Nat) (verified : Bool)
    (command : Command) (file : LineFile) : Report :=
  let rCode := scStatus
  let editor :=
    if rCode = 0 then
      (script file command.form.isModify command.args).map fun words =>
        cluParse tools command.multipleUpdates verified command.word
          (.change (command.form.change words)) file
    else none
  ⟨rCode, editor⟩

/-! ## Reporting the truth -/

/-- The place of a rule among the lines, numbered as `clu_parse --display` does. -/
def ruleIndex (word : Keyword) (file : LineFile) : Nat → Option Nat
  | 0 => none
  | ruleNum + 1 => ((file.lines.zipIdx.filter fun line => isRule word line.1)[ruleNum]?).map (·.2)

/-- The file contains what was asked for: the added rule, or the new text in the place of the
rule with the number. -/
def Contains (command : Command) (before after : LineFile) : Prop :=
  match command.form with
  | .add => command.requested ∈ after.lines
  | .modify ruleNum =>
    ∃ index, ruleIndex command.word before ruleNum = some index ∧
      after.lines[index]? = some command.requested

/-- The editor was called, it did not refuse the request, and the verification did not reject
the edit. -/
def CarriedOut (command : Command) (file : LineFile) (outcome : Outcome) : Prop :=
  outcome.exitStatus = 0 ∧ outcome.verification ≠ some false ∧
    Contains command file outcome.file

def ReportsTruly (tools : Tools) (script : KeywordScript) (scStatus : Nat) (verified : Bool)
    (command : Command) (file : LineFile) : Prop :=
  let report := clusterconf tools script scStatus verified command file
  report.exitStatus = 0 → ∃ outcome, report.editor = some outcome ∧
    CarriedOut command file outcome

/-! ## Requests that are carried out -/

/-- A rule can be added: if no line starts with the keyword, some line is not empty; otherwise
no line starts with the text that is checked for, unless the rule is for a host. -/
def Admissible (tools : Tools) (word : Keyword) (arg : Text) (file : LineFile) : Prop :=
  if countPrefixed word file = 0 then ∃ line ∈ file.lines, line ≠ []
  else (∀ line ∈ file.lines, isChecked tools (chkRule tools word arg) line = false) ∨
    word.text = "host".toList

def AddsRequested (tools : Tools) (command : Command) (arg : Text) (file : LineFile) : Prop :=
  Admissible tools command.word arg file ∧
    if avoids textSymbols (newRule tools command.word arg) then
      newRule tools command.word arg = command.requested ∨ command.requested ∈ file.lines
    else ∃ edited, (addScript tools command.word arg file).bind (edit tools.sed · file) =
      some edited ∧ command.requested ∈ edited.lines

/-- The number is in range, and with every match of the old rule replaced by the new one, no two
lines start with the text that is checked for and the line with the number is the requested one. -/
def ModifiesRequested (tools : Tools) (command : Command) (ruleNum : Nat) (arg : Text)
    (file : LineFile) : Prop :=
  let old := rulenumToRule tools command.word ruleNum file
  let new := newRule tools command.word arg
  isOutOfRange command.word ruleNum file = false ∧
    ∃ index, ruleIndex command.word file ruleNum = some index ∧
      if (Script.substitute old new).isPlain then
        ∃ lines, List.Forall₂ (Replaced old new) file.lines lines ∧
          lines.countP (isChecked tools (chkRule tools command.word arg)) ≤ 1 ∧
          lines[index]? = some command.requested
      else ∃ edited, modified tools command.word ruleNum arg file = some edited ∧
        edited.lines[index]? = some command.requested

/-- The script of the keyword hands on words with which the editor does what was asked for, and
the verification accepts it if it is made. -/
def Feasible (tools : Tools) (script : KeywordScript) (verified : Bool) (command : Command)
    (file : LineFile) : Prop :=
  (command.multipleUpdates = true ∨ verified = true) ∧
    ∃ words, script file command.form.isModify command.args = some words ∧
      match command.form with
      | .add => AddsRequested tools command (joined words) file
      | .modify ruleNum => ModifiesRequested tools command ruleNum (joined words) file

section Requests

variable {tools : Tools} {word : Keyword} {arg : Text} {file edited : LineFile}
  {multipleUpdates verified : Bool} {undo : Script} {command : Command} {ruleNum : Nat}

theorem lastFilled_isSome_iff {lines : List Text} {limit : Nat} :
    (lastFilled lines limit).isSome = true ↔ ∃ place < limit, lines[place]? ≠ some [] := by
  induction limit with
  | zero => simp [lastFilled]
  | succ limit ih =>
    rw [lastFilled]
    split
    · next empty =>
        rw [ih]
        constructor
        · rintro ⟨place, below, filled⟩
          exact ⟨place, by omega, filled⟩
        · rintro ⟨place, below, filled⟩
          have notLast : place ≠ limit := by
            rintro rfl
            exact filled empty
          exact ⟨place, by omega, filled⟩
    · next filled =>
        simp only [Option.isSome_some, true_iff]
        exact ⟨limit, by omega, filled⟩

theorem lastFilled_length_isSome_iff {lines : List Text} :
    (lastFilled lines lines.length).isSome = true ↔ ∃ line ∈ lines, line ≠ [] := by
  rw [lastFilled_isSome_iff]
  constructor
  · rintro ⟨place, below, filled⟩
    rw [List.getElem?_eq_getElem below] at filled
    exact ⟨lines[place], List.getElem_mem below, fun empty => filled (congrArg some empty)⟩
  · rintro ⟨line, member, filled⟩
    obtain ⟨place, below, rfl⟩ := List.mem_iff_getElem.mp member
    refine ⟨place, below, fun empty => filled ?_⟩
    rw [List.getElem?_eq_getElem below] at empty
    exact Option.some.inj empty

theorem addScript_isSome_iff :
    (addScript tools word arg file).isSome = true ↔ Admissible tools word arg file := by
  simp only [addScript, Admissible]
  split
  · rw [Option.isSome_map, lastFilled_length_isSome_iff]
  · have unchecked_iff :
        file.lines.countP (isChecked tools (chkRule tools word arg)) = 0 ↔
          ∀ line ∈ file.lines, isChecked tools (chkRule tools word arg) line = false := by
      simp [List.countP_eq_zero]
    rw [← unchecked_iff]
    split
    · next free =>
        simp only [free, iff_true]
        split <;> rfl
    · next taken => exact iff_of_false Bool.false_ne_true taken

theorem carriedOut_refuse : ¬CarriedOut command file (refuse file) := by
  rintro ⟨status, -⟩
  exact nomatch status

theorem carriedOut_conclude_iff :
    CarriedOut command file (conclude tools multipleUpdates verified undo edited) ↔
      (multipleUpdates = true ∨ verified = true) ∧ Contains command file edited := by
  unfold CarriedOut conclude
  cases multipleUpdates <;> cases verified <;> simp

theorem AddsRule.mem_run_iff {rule line : Text} {script : Script}
    (adds : AddsRule file rule script) :
    line ∈ (script.run file).lines ↔ rule = line ∨ line ∈ file.lines := by
  cases adds with
  | @insert number positive inside =>
    have early : number - 1 ≤ file.lines.length := by omega
    simp [Script.run, LineFile.insertBefore, List.mem_insertIdx early, eq_comm]
  | append inside => simp [Script.run, LineFile.appendAfter, List.mem_insertIdx inside, eq_comm]
  | appendEach filled =>
    have someLine : ∃ other, other ∈ file.lines := List.exists_mem_of_ne_nil _ filled
    simp only [Script.run, LineFile.appendAfterEach, List.mem_flatMap, List.mem_cons,
      List.not_mem_nil, or_false]
    constructor
    · rintro ⟨other, member, rfl | rfl⟩
      · exact .inr member
      · exact .inl rfl
    · rintro (rfl | member)
      · obtain ⟨other, member⟩ := someLine
        exact ⟨other, member, .inr rfl⟩
      · exact ⟨line, member, .inl rfl⟩

theorem carriedOut_addRule_iff (isAdd : command.form = .add) :
    CarriedOut command file (addRule tools multipleUpdates verified command.word arg file) ↔
      (multipleUpdates = true ∨ verified = true) ∧ AddsRequested tools command arg file := by
  have contains_iff (after : LineFile) :
      Contains command file after ↔ command.requested ∈ after.lines := by
    rw [Contains, isAdd]
  rw [AddsRequested, ← addScript_isSome_iff, addRule]
  cases isScript : addScript tools command.word arg file with
  | none => simp [carriedOut_refuse]
  | some script =>
    have adds := addsRule_of_addScript isScript
    simp only [Option.isSome_some, true_and, Option.bind_some]
    by_cases plain : avoids textSymbols (newRule tools command.word arg) = true
    · rw [if_pos plain, edit_of_isPlain (adds.isPlain_eq.trans plain)]
      simp only [carriedOut_conclude_iff, contains_iff, adds.mem_run_iff]
    · rw [if_neg plain]
      cases edits : edit tools.sed script file with
      | none => simp [carriedOut_refuse]
      | some edited => simp [carriedOut_conclude_iff, contains_iff]

theorem forall₂_replaced_iff {old new : Text} (nonempty : old ≠ []) {lines others : List Text} :
    List.Forall₂ (Replaced old new) lines others ↔ lines.map (replaceAll old new) = others := by
  have same : Replaced old new = fun line other => replaceAll old new line = other := by
    funext line other
    exact propext (replaced_iff nonempty)
  rw [same, ← List.forall₂_map_left_iff, List.forall₂_eq_eq_eq]

theorem carriedOut_modRule_iff (isModify : command.form = .modify ruleNum) :
    CarriedOut command file
        (modRule tools multipleUpdates verified command.word ruleNum arg file) ↔
      (multipleUpdates = true ∨ verified = true) ∧
        ModifiesRequested tools command ruleNum arg file := by
  have contains_iff (after : LineFile) : Contains command file after ↔
      ∃ index, ruleIndex command.word file ruleNum = some index ∧
        after.lines[index]? = some command.requested := by
    rw [Contains, isModify]
  rw [ModifiesRequested, modRule]
  cases isOutOfRange command.word ruleNum file with
  | true => simp [carriedOut_refuse]
  | false =>
    simp only [Bool.false_eq_true, if_false, true_and]
    by_cases plain : (Script.substitute (rulenumToRule tools command.word ruleNum file)
        (newRule tools command.word arg)).isPlain = true
    · simp only [modified_of_isPlain plain, if_pos plain, exists_eq_left',
        forall₂_replaced_iff (rulenumToRule_ne_nil tools command.word ruleNum file)]
      by_cases unique : StaysUnique tools command.word ruleNum arg file
      · rw [if_pos unique]
        unfold StaysUnique substituted at unique
        simp only [carriedOut_conclude_iff, contains_iff, LineFile.mapLines, unique, true_and,
          substituted]
      · rw [if_neg unique]
        unfold StaysUnique substituted at unique
        simp only [carriedOut_refuse, unique, false_and, and_false, exists_false]
    · cases isModified : modified tools command.word ruleNum arg file with
      | none => simp [carriedOut_refuse, plain]
      | some edited => simp [carriedOut_conclude_iff, contains_iff, plain]

end Requests

def routeKeyword : Keyword :=
  ⟨"route".toList, by decide, by decide⟩

def routeFile : LineFile :=
  ⟨["node 1 control SC-2-1".toList, "network public 10.0.0.0/24".toList,
    "interface 1 eth1 ethernet".toList, "route 1 public interface eth1".toList], true⟩

/-- `clusterconf route --add 1 public interface eth1`. -/
def addRoute : Command :=
  ⟨routeKeyword, .add, false,
    ["1".toList, "public".toList, "interface".toList, "eth1".toList]⟩

end Apos.ClusterConf
