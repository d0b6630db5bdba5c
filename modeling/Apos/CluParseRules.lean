import Mathlib.Algebra.Group.Nat.Defs
import Mathlib.Data.List.DropRight
import Mathlib.Data.List.Infix
import Apos.LineEditing

/-!
# The editor of the cluster configuration

`clu_parse` adds, deletes and modifies rules of cluster.conf.  A rule is a line that starts
with a keyword.  The texts that the script works with come from unquoted expansions that are
echoed, from a substitution that puts a question mark for each occurrence of the keyword, and
from `cut`.  The file is edited with scripts for `sed` in which these texts stand as patterns:
nothing marks the line that was counted, so that every line in which the pattern is found is
edited.

After an edit the configuration is verified, unless several updates are made at once, and an
edit that is not accepted is undone by another script.
-/

namespace Apos.ClusterConf

open LineEdit

/-! ## The shell -/

/-- What the surroundings of the scripts decide: the files a word of the shell stands for if
it has a wildcard, how `echo -e` interprets backslashes, and what `sed` and `grep` make of
scripts and patterns that are not plain. -/
structure Tools where
  glob : Text → List Text
  interpret : Text → Text
  sed : Text → LineFile → Option LineFile
  grep : Text → Text → Bool

def isSeparator (char : Char) : Bool :=
  [' ', '\t', '\n'].contains char

def fields (text : Text) : List Text :=
  (text.splitOnP isSeparator).filter (· ≠ [])

def expandWord (tools : Tools) (word : Text) : List Text :=
  if word.any fun char => ['*', '?', '['].contains char then tools.glob word else [word]

def unquoted (tools : Tools) (text : Text) : List Text :=
  (fields text).flatMap (expandWord tools)

theorem contains_eq_false {allowed : Char → Bool} {text symbols : Text}
    (all : text.all allowed = true) (others : (symbols.all fun symbol => !allowed symbol) = true)
    {symbol : Char} (member : symbol ∈ text) : symbols.contains symbol = false := by
  by_contra found
  rw [Bool.not_eq_false, List.contains_iff_mem] at found
  have other := List.all_eq_true.mp others symbol found
  rw [List.all_eq_true.mp all symbol member] at other
  cases other

theorem expandWord_of_plain (tools : Tools) {word : Text}
    (plain : ∀ char ∈ word, ['*', '?', '['].contains char = false) :
    expandWord tools word = [word] := by
  have noWildcard : (word.any fun char => ['*', '?', '['].contains char) = false :=
    List.any_eq_false.mpr fun char member => by rw [plain char member]; decide
  rw [expandWord, noWildcard]
  rfl

def isEchoOption : Text → Bool
  | '-' :: letters => !letters.isEmpty && letters.all fun letter => ['n', 'e', 'E'].contains letter
  | _ => false

theorem isEchoOption_of_head {text : Text} (head : text.head? ≠ some '-') :
    isEchoOption text = false := by
  unfold isEchoOption
  split
  · exact absurd rfl head
  · rfl

def joined (words : List Text) : Text :=
  List.intercalate [' '] words

/-- The output of `echo`, without the newline, which a command substitution takes away. -/
def echo (tools : Tools) (words : List Text) : Text :=
  let options := (words.takeWhile isEchoOption).flatten
  let text := joined (words.dropWhile isEchoOption)
  if (options.filter fun letter => ['e', 'E'].contains letter).getLast? = some 'e' then
    tools.interpret text
  else text

/-- `sed -e 's/ *$//g'`. -/
def stripBlanks (text : Text) : Text :=
  text.rdropWhile (· = ' ')

/-- `cut -d? -f field`, which keeps a line without a delimiter.  It refuses the number 0, and a
negative one stands for the fields up to it. -/
def cut (field : Int) (line : Text) : Text :=
  if field = 0 then []
  else if '?' ∉ line then line
  else if field < 0 then List.intercalate ['?'] ((line.splitOn '?').take field.natAbs)
  else ((line.splitOn '?')[field.toNat - 1]?).getD []

/-! ## Keywords and rules -/

/-- The words that a script `clu_<keyword>` exists for consist of letters, digits, hyphens and
full stops.  A full stop is a pattern for any character. -/
structure Keyword where
  text : Text
  plain : (text.all fun char => char.isAlphanum || char == '-' || char == '.') = true
  starts : text.head?.any isWordChar = true
  deriving DecidableEq

/-- The text up to the next keyword, after the occurrence of the keyword with this number:
`echo $text | sed "s/\b$word\b/?/g" | cut -d? -f field`, echoed once more without blanks at the
end. -/
def afterKeyword (tools : Tools) (word : Keyword) (text : Text) (field : Int) : Text :=
  let drul := cut field (replaceBounded word.text ['?'] (echo tools (unquoted tools text)))
  stripBlanks (echo tools (unquoted tools drul))

/-- The lines that `clu_parse word --display` numbers: `grep -w ^"$word"`. -/
def isRule (word : Keyword) (line : Text) : Bool :=
  startsWithWord word.text line

/-- The rule with a number.  `$(( $ip + 1))` wraps around. -/
def rulenumToRule (tools : Tools) (word : Keyword) (ip : Nat) (file : LineFile) : Text :=
  let rule := List.intercalate ['\n'] (file.lines.filter (isRule word))
  let finalRule := word.text ++ ' ' :: afterKeyword tools word rule ((ip + 1 : Int).bmod (2 ^ 64))
  echo tools (unquoted tools finalRule)

def newRule (tools : Tools) (word : Keyword) (arg : Text) : Text :=
  word.text ++ ' ' :: afterKeyword tools word arg 2

/-- The text whose presence is checked for, before its full stops are escaped. -/
def chkRule (tools : Tools) (word : Keyword) (arg : Text) : Text :=
  let chkRul := word.text ++ ' ' :: afterKeyword tools word arg 3
  stripBlanks (echo tools (unquoted tools chkRul))

/-- `grep -w ^"$chk_rule"`: with its full stops escaped, a plain text stands for itself. -/
def isChecked (tools : Tools) (chk line : Text) : Bool :=
  if avoids patternSymbols chk then startsWithExactly chk line else tools.grep chk line

/-- `grep ^"$word" | wc -l`, which also counts the rules of longer keywords. -/
def countPrefixed (word : Keyword) (file : LineFile) : Nat :=
  file.lines.countP (agrees word.text)

/-! ## The clusterconf command and the outcome of an edit -/

/-- How `clu_parse` ends.  `verification` is the verdict of the first `cluster config -v` on
the edited file, if there was one. -/
structure Outcome where
  file : LineFile
  exitStatus : Nat
  verification : Option Bool
  deriving DecidableEq

def refuse (file : LineFile) : Outcome :=
  ⟨file, 1, none⟩

/-- The end of `add_rule` and `mod_rule`.  A rejected edit is taken back by a script whose
status is not looked at; then the script ends with `unlock`. -/
def conclude (tools : Tools) (multipleUpdates verified : Bool) (undo : Script)
    (edited : LineFile) : Outcome :=
  if multipleUpdates then ⟨edited, 0, none⟩
  else if verified then ⟨edited, 0, some true⟩
  else ⟨(edit tools.sed undo edited).getD edited, 0, some false⟩

/-! ## Adding a rule -/

/-- The loop that goes up from the end of the file over empty lines. -/
def lastFilled (lines : List Text) : Nat → Option Nat
  | 0 => none
  | totlRcds + 1 =>
    if lines[totlRcds]? = some [] then lastFilled lines totlRcds else some (totlRcds + 1)

def isEndOfFile (line : Text) : Bool :=
  "end of file".toList <:+: line.map Char.toLower

/-- `awk "/^$word /{print NR}" | tail -n -1`. -/
def lastRule (word : Keyword) (lines : List Text) : Option Nat :=
  ((lines.zipIdx 1).filter fun line => agrees (word.text ++ [' ']) line.1).getLast?.map (·.2)

/-- The script that adds a rule, unless a rule exists already.  Without a line number `sed`
adds the text after every line. -/
def addScript (tools : Tools) (word : Keyword) (arg : Text) (file : LineFile) : Option Script :=
  let rule := newRule tools word arg
  if countPrefixed word file = 0 then
    (lastFilled file.lines file.lines.length).map fun totlRcds =>
      if isEndOfFile ((file.lines[totlRcds - 1]?).getD []) then .insert totlRcds rule
      else .append totlRcds rule
  else if file.lines.countP (isChecked tools (chkRule tools word arg)) = 0 ∨
      word.text = "host".toList then
    match lastRule word file.lines with
    | some line => some (.append line rule)
    | none => some (.appendEach rule)
  else none

def addRule (tools : Tools) (multipleUpdates verified : Bool) (word : Keyword) (arg : Text)
    (file : LineFile) : Outcome :=
  match (addScript tools word arg file).bind (edit tools.sed · file) with
  | none => refuse file
  | some edited =>
    conclude tools multipleUpdates verified (.delete (newRule tools word arg)) edited

/-! ## Deleting and modifying a rule -/

/-- The tests of the number fail with an error, and do not refuse it, if it has more than 63
bits. -/
def isOutOfRange (word : Keyword) (ip : Nat) (file : LineFile) : Bool :=
  ip < 2 ^ 63 && (ip == 0 || countPrefixed word file < ip)

def delRule (tools : Tools) (multipleUpdates verified : Bool) (word : Keyword) (ip : Nat)
    (file : LineFile) : Outcome :=
  if isOutOfRange word ip file then refuse file
  else
    match edit tools.sed (.delete (rulenumToRule tools word ip file)) file with
    | none => refuse file
    | some edited => ⟨edited, 0, if multipleUpdates then none else some verified⟩

/-- The file with the rule modified, unless the editor refuses the script or two rules that
should differ would be the same. -/
def modified (tools : Tools) (word : Keyword) (ip : Nat) (arg : Text) (file : LineFile) :
    Option LineFile :=
  let script := Script.substitute (rulenumToRule tools word ip file) (newRule tools word arg)
  (edit tools.sed script file).filter fun edited =>
    edited.lines.countP (isChecked tools (chkRule tools word arg)) ≤ 1

def modRule (tools : Tools) (multipleUpdates verified : Bool) (word : Keyword) (ip : Nat)
    (arg : Text) (file : LineFile) : Outcome :=
  if isOutOfRange word ip file then refuse file
  else
    match modified tools word ip arg file with
    | none => refuse file
    | some edited =>
      conclude tools multipleUpdates verified
        (.substitute (newRule tools word arg) (rulenumToRule tools word ip file)) edited

/-! ## The command -/

/-- The options of `clu_parse` that put a rule into the file, with the words after them. -/
inductive Change where
  | add (args : List Text)
  | modify (ip : Nat) (args : List Text)
  deriving DecidableEq

inductive Request where
  | change (change : Change)
  | delete (ip : Nat)
  deriving DecidableEq

/-- `clu_parse` with its lock held. -/
def cluParse (tools : Tools) (multipleUpdates verified : Bool) (word : Keyword)
    (request : Request) (file : LineFile) : Outcome :=
  match request with
  | .change (.add args) => addRule tools multipleUpdates verified word (joined args) file
  | .change (.modify ip args) =>
    modRule tools multipleUpdates verified word ip (joined args) file
  | .delete ip => delRule tools multipleUpdates verified word ip file

end Apos.ClusterConf
