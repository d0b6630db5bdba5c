import Mathlib.Data.List.GetD
import Apos.CNumerals
import Apos.ImmArguments

/-!
# The command lines of `immset` and `immget`

The two commands go through their arguments with the same loop.  It reads the options for the
number of retries and for the time to wait, each with an integer behind it, and collects the other
arguments after they have passed the check of the command.  One round of the loop may read an
option, its integer and the argument behind them; when another option follows, the loop steps back.
-/

namespace Apos.Imm

open CText

inductive Setting where
  | maxRetry
  | timeoutVal
  deriving DecidableEq, Repr

def optionSetting (arg : Text) : Option Setting :=
  if arg = "-r".toList ∨ arg = "--retry".toList then some .maxRetry
  else if arg = "-t".toList ∨ arg = "--timeout".toList then some .timeoutVal
  else none

structure Command where
  isValidArgument : Text → Bool
  optionStatus : Int
  argumentStatus : Int
  noOption : ∀ arg, isValidArgument arg = true → optionSetting arg = none

variable {arg : Text}

theorem noOption_of_equals (member : '=' ∈ arg) : optionSetting arg = none := by
  have different (name : String) (absent : '=' ∉ name.toList) : arg ≠ name.toList := by
    rintro rfl
    exact absent member
  rw [optionSetting, if_neg, if_neg]
  · exact not_or.mpr ⟨different _ (by decide), different _ (by decide)⟩
  · exact not_or.mpr ⟨different _ (by decide), different _ (by decide)⟩

theorem mem_of_cutAt {stop : Char} {text : Text} {parts : Text × Text}
    (found : cutAt stop text = some parts) : stop ∈ text := by
  rw [(cutAt_eq_some_iff.mp found).1]
  simp

def immset : Command where
  isValidArgument := isValidSetArgument
  optionStatus := -1
  argumentStatus := -1
  noOption := by
    intro arg valid
    rw [isValidSetArgument] at valid
    split at valid
    · cases valid
    · split at valid
      · cases valid
      · next found => exact noOption_of_equals (mem_of_cutAt found)

def immget : Command where
  isValidArgument := isValidGetArgument
  optionStatus := 1
  argumentStatus := -1
  noOption := by
    intro arg valid
    rw [isValidGetArgument] at valid
    split at valid
    · cases valid
    · next found => exact noOption_of_equals (mem_of_cutAt found)

/-- `isInteger`: the first character is a digit or a sign, and `strtol` reaches the end. -/
def isInteger (s : Text) : Bool :=
  match s with
  | [] => false
  | first :: _ =>
    if !first.isDigit && first ≠ '-' && first ≠ '+' then false
    else (scanDecimal s).any fun scanned => scanned.rest.isEmpty

/-- The variables of `main` that the loop sets.  The counts are kept by `immset`. -/
structure Parsed where
  inputVect : List Text
  setting : Setting → Int
  optArgc : Nat
  manArgc : Nat

def Parsed.initial : Parsed where
  inputVect := []
  setting := fun
    | .maxRetry => 1
    | .timeoutVal => 60
  optArgc := 0
  manArgc := 0

def Parsed.set (parsed : Parsed) (setting : Setting) (value : Int) : Parsed :=
  { parsed with
    setting := Function.update parsed.setting setting value
    optArgc := parsed.optArgc + 1 }

def Parsed.push (parsed : Parsed) (arg : Text) : Parsed :=
  { parsed with inputVect := parsed.inputVect ++ [arg], manArgc := parsed.manArgc + 1 }

/-- The end of the loop: all arguments are read, `main` returns, or the check reads behind the
buffer. -/
inductive Outcome where
  | accepted (parsed : Parsed)
  | rejected (status : Int)
  | undefined

def maxBuff : Nat := 1024

/-- The first half of a round: an option and its integer. -/
def readOption (command : Command) (argv : List Text) (i : Nat) (parsed : Parsed) :
    Except Outcome (Nat × Parsed) :=
  match optionSetting (argv.getD i []) with
  | none => .ok (i, parsed)
  | some setting =>
    if i + 1 < argv.length ∧ isInteger (argv.getD (i + 1) []) = true then
      .ok (i + 2, parsed.set setting (atoi (argv.getD (i + 1) [])))
    else
      .error (.rejected command.optionStatus)

/-- The second half of a round: an argument, or one step back before another option.  `strncpy`
leaves a buffer without its end when the argument fills it. -/
def readArgument (command : Command) (argv : List Text) (i : Nat) (parsed : Parsed) :
    Except Outcome (Nat × Parsed) :=
  if i < argv.length then
    if (optionSetting (argv.getD i [])).isSome then .ok (i - 1, parsed)
    else if maxBuff ≤ (argv.getD i []).length then .error .undefined
    else if command.isValidArgument (argv.getD i []) then .ok (i, parsed.push (argv.getD i []))
    else .error (.rejected command.argumentStatus)
  else
    .ok (i, parsed)

/-- The loop from index `i` on, cut after a number of rounds. -/
def optionLoop (command : Command) (argv : List Text) : Nat → Nat → Parsed → Outcome
  | 0, _, parsed => .accepted parsed
  | rounds + 1, i, parsed =>
    if i < argv.length then
      let round := do
        let (i, parsed) ← readOption command argv i parsed
        readArgument command argv i parsed
      match round with
      | .error outcome => outcome
      | .ok (i, parsed) => optionLoop command argv rounds (i + 1) parsed
    else
      .accepted parsed

/-- The loop over the arguments behind the name of the command.  No argument is read twice, so
there are at most as many rounds as arguments. -/
def parseOptions (command : Command) (argv : List Text) : Outcome :=
  optionLoop command argv argv.length 1 .initial

/-! ## The arguments one by one -/

/-- The loop without indices: an option with its integer, or an argument. -/
def parseFrom (command : Command) : Parsed → List Text → Outcome
  | parsed, [] => .accepted parsed
  | parsed, arg :: rest =>
    match optionSetting arg with
    | some setting =>
      match rest with
      | [] => .rejected command.optionStatus
      | value :: rest =>
        if isInteger value then parseFrom command (parsed.set setting (atoi value)) rest
        else .rejected command.optionStatus
    | none =>
      if maxBuff ≤ arg.length then .undefined
      else if command.isValidArgument arg then parseFrom command (parsed.push arg) rest
      else .rejected command.argumentStatus

variable {command : Command}

theorem parseFrom_argument (noOption : optionSetting arg = none) (parsed : Parsed)
    (rest : List Text) :
    parseFrom command parsed (arg :: rest) =
      if maxBuff ≤ arg.length then .undefined
      else if command.isValidArgument arg then parseFrom command (parsed.push arg) rest
      else .rejected command.argumentStatus := by
  rw [parseFrom]
  simp only [noOption]

theorem parseFrom_option {setting : Setting} (isOption : optionSetting arg = some setting)
    (parsed : Parsed) (value : Text) (rest : List Text) :
    parseFrom command parsed (arg :: value :: rest) =
      if isInteger value then parseFrom command (parsed.set setting (atoi value)) rest
      else .rejected command.optionStatus := by
  rw [parseFrom]
  simp only [isOption]

theorem parseFrom_lonely_option {setting : Setting} (isOption : optionSetting arg = some setting)
    (parsed : Parsed) : parseFrom command parsed [arg] = .rejected command.optionStatus := by
  simp only [parseFrom, isOption]

section Rounds

variable {command : Command} {argv : List Text} {i rounds : Nat}

theorem drop_eq_getD_cons (inside : i < argv.length) :
    argv.drop i = argv.getD i [] :: argv.drop (i + 1) := by
  rw [List.drop_eq_getElem_cons inside, List.getD_eq_getElem _ _ inside]

theorem readArgument_then_loop (parsed : Parsed)
    (loop : ∀ i parsed, 0 < i → argv.length ≤ i + rounds →
      optionLoop command argv rounds i parsed = parseFrom command parsed (argv.drop i))
    (enough : argv.length ≤ i + 1 + rounds)
    (back : optionSetting (argv.getD i []) ≠ none → 0 < i ∧ argv.length ≤ i + rounds) :
    (match readArgument command argv i parsed with
      | .error outcome => outcome
      | .ok (i, parsed) => optionLoop command argv rounds (i + 1) parsed) =
      parseFrom command parsed (argv.drop i) := by
  rw [readArgument]
  by_cases inside : i < argv.length
  · rw [if_pos inside]
    cases found : optionSetting (argv.getD i []) with
    | some setting =>
      obtain ⟨positive, enough⟩ := back (by rw [found]; exact Option.some_ne_none setting)
      simp only [Option.isSome_some, if_true]
      rw [Nat.sub_add_cancel positive, loop _ _ positive enough]
    | none =>
      rw [drop_eq_getD_cons inside, parseFrom_argument found]
      simp only [Option.isSome_none, Bool.false_eq_true, if_false]
      by_cases long : maxBuff ≤ (argv.getD i []).length
      · rw [if_pos long, if_pos long]
      · rw [if_neg long, if_neg long]
        by_cases valid : command.isValidArgument (argv.getD i []) = true
        · rw [if_pos valid, if_pos valid]
          exact loop _ _ (Nat.succ_pos i) enough
        · rw [if_neg valid, if_neg valid]
  · rw [if_neg inside]
    have ends : argv.drop i = [] := List.drop_eq_nil_of_le (Nat.le_of_not_lt inside)
    have endsBehind : argv.drop (i + 1) = [] := List.drop_eq_nil_of_le (by omega)
    rw [ends, ← endsBehind]
    exact loop _ _ (Nat.succ_pos i) enough

theorem optionLoop_eq_parseFrom (positive : 0 < i) (enough : argv.length ≤ i + rounds)
    (parsed : Parsed) :
    optionLoop command argv rounds i parsed = parseFrom command parsed (argv.drop i) := by
  induction rounds generalizing i parsed with
  | zero =>
    rw [List.drop_eq_nil_of_le (by omega)]
    rfl
  | succ rounds ih =>
    have loop : ∀ j parsed, 0 < j → argv.length ≤ j + rounds →
        optionLoop command argv rounds j parsed = parseFrom command parsed (argv.drop j) :=
      fun j parsed positive enough => ih positive enough parsed
    rw [optionLoop]
    by_cases inside : i < argv.length
    · rw [if_pos inside]
      cases found : optionSetting (argv.getD i []) with
      | none =>
        have noOption : readOption command argv i parsed = .ok (i, parsed) := by
          rw [readOption, found]
        rw [noOption]
        apply readArgument_then_loop parsed loop (by omega)
        intro isOption
        exact absurd found isOption
      | some setting =>
        rw [drop_eq_getD_cons inside]
        by_cases goesOn : i + 1 < argv.length ∧ isInteger (argv.getD (i + 1) []) = true
        · have isRead : readOption command argv i parsed =
              .ok (i + 2, parsed.set setting (atoi (argv.getD (i + 1) []))) := by
            rw [readOption, found]
            exact if_pos goesOn
          rw [isRead, drop_eq_getD_cons goesOn.1, parseFrom_option found, if_pos goesOn.2]
          exact readArgument_then_loop _ loop (by omega) fun _ => ⟨by omega, by omega⟩
        · have notRead : readOption command argv i parsed =
              .error (.rejected command.optionStatus) := by
            rw [readOption, found]
            exact if_neg goesOn
          rw [notRead]
          by_cases more : i + 1 < argv.length
          · rw [drop_eq_getD_cons more, parseFrom_option found,
              if_neg fun integer => goesOn ⟨more, integer⟩]
            rfl
          · rw [List.drop_eq_nil_of_le (Nat.le_of_not_lt more), parseFrom_lonely_option found]
            rfl
    · rw [if_neg inside, List.drop_eq_nil_of_le (Nat.le_of_not_lt inside)]
      rfl

theorem parseOptions_cons (command : Command) (program : Text) (args : List Text) :
    parseOptions command (program :: args) = parseFrom command .initial args :=
  optionLoop_eq_parseFrom Nat.one_pos (by simp) .initial

end Rounds

/-! ## Command lines -/

/-- The first character that `isInteger` allows. -/
def StartsInteger (first : Char) : Prop :=
  first.isDigit = true ∨ first = '-' ∨ first = '+'

theorem isInteger_cons (first : Char) (rest : Text) :
    isInteger (first :: rest) = true ↔
      StartsInteger first ∧ ∃ negative size,
        scanDecimal (first :: rest) = some ⟨negative, size, []⟩ := by
  have starts : (!first.isDigit && first ≠ '-' && first ≠ '+') = true ↔ ¬ StartsInteger first := by
    simp [StartsInteger, and_assoc]
  rw [isInteger]
  split
  · next other => exact iff_of_false Bool.false_ne_true fun whole => starts.mp other whole.1
  · next isStart =>
      rw [starts, not_not] at isStart
      rw [Option.any_eq_true]
      constructor
      · rintro ⟨⟨negative, size, behind⟩, scanned, ends⟩
        obtain rfl := List.isEmpty_iff.mp ends
        exact ⟨isStart, negative, size, scanned⟩
      · rintro ⟨-, negative, size, scanned⟩
        exact ⟨_, scanned, rfl⟩

theorem StartsInteger.isSpace {first : Char} (starts : StartsInteger first) :
    isSpace first = false := by
  rcases starts with isDigit | rfl | rfl
  · exact isSpace_of_isDigit isDigit
  · rfl
  · rfl

theorem isInteger_iff {text : Text} : isInteger text = true ↔ ∃ value, IsInteger text value := by
  constructor
  · intro integer
    obtain ⟨first, rest, rfl⟩ : ∃ first rest, text = first :: rest := by
      apply List.exists_cons_of_ne_nil
      rintro rfl
      cases integer
    obtain ⟨starts, negative, size, scanned⟩ := (isInteger_cons first rest).mp integer
    obtain ⟨sign, digits, ⟨blanks, blank, shape⟩, nonempty, isDigit, -, -⟩ :=
      scanDecimal_eq_end_iff.mp scanned
    cases blanks with
    | nil => exact ⟨_, sign, digits, shape, nonempty, isDigit, rfl⟩
    | cons space blanks =>
      obtain ⟨rfl, -⟩ := List.cons.inj shape
      have isBlank := blank first List.mem_cons_self
      rw [starts.isSpace] at isBlank
      cases isBlank
  · rintro ⟨value, integer⟩
    obtain ⟨negative, size, scanned, -⟩ := integer.scanDecimal
    obtain ⟨sign, digits, rfl, nonempty, isDigit, -⟩ := integer
    obtain ⟨digit, digits, rfl⟩ := List.exists_cons_of_ne_nil nonempty
    match sign with
    | some true => exact (isInteger_cons _ _).mpr ⟨.inr (.inl rfl), negative, size, scanned⟩
    | some false => exact (isInteger_cons _ _).mpr ⟨.inr (.inr rfl), negative, size, scanned⟩
    | none =>
      refine (isInteger_cons _ _).mpr ⟨.inl ?_, negative, size, scanned⟩
      exact isDigit digit List.mem_cons_self

inductive Item where
  | option (name value : Text) (setting : Setting) (number : Int)
  | argument (arg : Text)

def Item.words : Item → List Text
  | .option name value _ _ => [name, value]
  | .argument arg => [arg]

def Item.WellFormed (command : Command) : Item → Prop
  | .option name value setting number =>
    optionSetting name = some setting ∧ IsInteger value number
  | .argument arg => command.isValidArgument arg = true

structure Begins (command : Command) (args : List Text) (items : List Item) (rest : List Text) :
    Prop where
  wellFormed : ∀ item ∈ items, item.WellFormed command
  words : args = items.flatMap Item.words ++ rest

def arguments (items : List Item) : List Text :=
  items.filterMap fun
    | .option _ _ _ _ => none
    | .argument arg => some arg

def given (setting : Setting) (items : List Item) : List (Text × Int) :=
  items.filterMap fun
    | .option _ value other number => if other = setting then some (value, number) else none
    | .argument _ => none

structure Promised (command : Command) (args : List Text) (outcome : Outcome) : Prop where
  accepts : ∀ items, Begins command args items [] →
    ∃ parsed, outcome = .accepted parsed ∧ parsed.inputVect = arguments items ∧
      ∀ setting, parsed.setting setting =
        ((given setting items).getLast?.map Prod.snd).getD (Parsed.initial.setting setting)
  rejects : (∀ items, ¬ Begins command args items []) → ∃ status, outcome = .rejected status

/-- No argument that the loop reaches fills the buffer, and the integers that are used fit. -/
structure Tame (command : Command) (args : List Text) : Prop where
  short : ∀ items arg rest, Begins command args items (arg :: rest) →
    optionSetting arg = none → arg.length < maxBuff
  inRange : ∀ items, Begins command args items [] → ∀ setting,
    ∀ last ∈ (given setting items).getLast?, -2 ^ 31 ≤ last.2 ∧ last.2 < 2 ^ 31

section Items

variable {command : Command}

def readItem (parsed : Parsed) : Item → Option Parsed
  | .option _ value setting _ => some (parsed.set setting (atoi value))
  | .argument arg => if maxBuff ≤ arg.length then none else some (parsed.push arg)

variable {items : List Item}

theorem parseFrom_items (wellFormed : ∀ item ∈ items, item.WellFormed command) (rest : List Text)
    (parsed : Parsed) :
    parseFrom command parsed (items.flatMap Item.words ++ rest) =
      match items.foldlM readItem parsed with
      | none => .undefined
      | some parsed => parseFrom command parsed rest := by
  induction items generalizing parsed with
  | nil => rfl
  | cons item items ih =>
    rw [List.forall_mem_cons] at wellFormed
    obtain ⟨isWellFormed, wellFormed⟩ := wellFormed
    cases item with
    | option name value setting number =>
      rw [List.flatMap_cons, List.append_assoc, List.foldlM_cons]
      have integer : isInteger value = true := isInteger_iff.mpr ⟨number, isWellFormed.2⟩
      refine (parseFrom_option isWellFormed.1 _ _ _).trans ?_
      rw [if_pos integer]
      exact ih wellFormed _
    | argument arg =>
      rw [List.flatMap_cons, List.append_assoc, List.foldlM_cons, readItem]
      refine (parseFrom_argument (command.noOption arg isWellFormed) _ _).trans ?_
      split
      · rfl
      · exact (if_pos isWellFormed).trans (ih wellFormed _)

theorem given_option (name value : Text) (setting other : Setting) (number : Int)
    (items : List Item) :
    given other (.option name value setting number :: items) =
      if setting = other then (value, number) :: given other items else given other items := by
  by_cases same : setting = other <;> simp [given, same]

theorem readItems_stores {parsed result : Parsed}
    (read : items.foldlM readItem parsed = some result) :
    result.inputVect = parsed.inputVect ++ arguments items ∧
      ∀ setting, result.setting setting =
        ((given setting items).getLast?.map fun last => atoi last.1).getD
          (parsed.setting setting) := by
  induction items generalizing parsed with
  | nil =>
    obtain rfl := Option.some.inj read
    exact ⟨(List.append_nil _).symm, fun _ => rfl⟩
  | cons item items ih =>
    rw [List.foldlM_cons] at read
    cases item with
    | option name value setting number =>
      obtain ⟨inputs, settings⟩ := @ih (parsed.set setting (atoi value)) read
      refine ⟨inputs, ?_⟩
      intro other
      rw [settings other, given_option]
      by_cases same : setting = other
      · subst same
        rw [if_pos rfl, List.getLast?_cons]
        cases (given setting items).getLast? with
        | none => exact Function.update_self _ _ _
        | some last => rfl
      · rw [if_neg same]
        congr 1
        exact Function.update_of_ne (Ne.symm same) _ _
    | argument arg =>
      rw [readItem] at read
      split at read
      · cases read
      · obtain ⟨inputs, settings⟩ := @ih (parsed.push arg) read
        refine ⟨?_, settings⟩
        rw [inputs]
        exact List.append_assoc _ _ _

theorem exists_readItems (short : ∀ arg ∈ arguments items, arg.length < maxBuff) (parsed : Parsed) :
    ∃ result, items.foldlM readItem parsed = some result := by
  induction items generalizing parsed with
  | nil => exact ⟨parsed, rfl⟩
  | cons item items ih =>
    rw [List.foldlM_cons]
    cases item with
    | option name value setting number => exact ih short _
    | argument arg =>
      have isShort : ∀ other ∈ arg :: arguments items, other.length < maxBuff := short
      rw [List.forall_mem_cons] at isShort
      rw [readItem, if_neg (Nat.not_le_of_lt isShort.1)]
      exact ih isShort.2 _

theorem Begins.cons {item : Item} (isWellFormed : item.WellFormed command) {args : List Text}
    {items : List Item} {rest : List Text} (begins : Begins command args items rest) :
    Begins command (item.words ++ args) (item :: items) rest where
  wellFormed := List.forall_mem_cons.mpr ⟨isWellFormed, begins.wellFormed⟩
  words := by rw [begins.words, List.flatMap_cons, List.append_assoc]

variable {args : List Text}

theorem items_or_rejected (parsed : Parsed)
    (short : ∀ items arg rest, Begins command args items (arg :: rest) →
      optionSetting arg = none → arg.length < maxBuff) :
    (∃ items, Begins command args items []) ∨
      ∃ status, parseFrom command parsed args = .rejected status := by
  have longer {item : Item} {rest : List Text} {outcome : Outcome}
      (isWellFormed : item.WellFormed command)
      (short : ∀ items arg more, Begins command (item.words ++ rest) items (arg :: more) →
        optionSetting arg = none → arg.length < maxBuff)
      (further : (∀ items arg more, Begins command rest items (arg :: more) →
          optionSetting arg = none → arg.length < maxBuff) →
        (∃ items, Begins command rest items []) ∨ ∃ status, outcome = .rejected status) :
      (∃ items, Begins command (item.words ++ rest) items []) ∨
        ∃ status, outcome = .rejected status := by
    refine (further ?_).imp_left ?_
    · intro items arg more begins
      exact short (item :: items) arg more (begins.cons isWellFormed)
    · rintro ⟨items, begins⟩
      exact ⟨item :: items, begins.cons isWellFormed⟩
  fun_induction parseFrom command parsed args with
  | case1 parsed => exact .inl ⟨[], List.forall_mem_nil _, rfl⟩
  | case2 | case4 | case7 => exact .inr ⟨_, rfl⟩
  | case3 parsed name setting isOption value rest integer further =>
    obtain ⟨number, isNumber⟩ := isInteger_iff.mp integer
    have isWellFormed : (Item.option name value setting number).WellFormed command :=
      ⟨isOption, isNumber⟩
    exact longer isWellFormed short further
  | case5 parsed arg rest noOption long =>
    have fits := short [] arg rest ⟨List.forall_mem_nil _, rfl⟩ noOption
    exact absurd long (Nat.not_le_of_lt fits)
  | case6 parsed arg rest noOption fits valid further =>
    have isWellFormed : (Item.argument arg).WellFormed command := valid
    exact longer isWellFormed short further

theorem isInteger_of_mem_given {setting : Setting}
    (wellFormed : ∀ item ∈ items, item.WellFormed command) {last : Text × Int}
    (member : last ∈ given setting items) : IsInteger last.1 last.2 := by
  rw [given, List.mem_filterMap] at member
  obtain ⟨item, inItems, isGiven⟩ := member
  have isWellFormed := wellFormed item inItems
  cases item with
  | option name value other number =>
    simp only at isGiven
    split at isGiven
    · obtain rfl := Option.some.inj isGiven
      exact isWellFormed.2
    · cases isGiven
  | argument arg => cases isGiven

theorem Tame.short_arguments (tame : Tame command args) {rest : List Text}
    (begins : Begins command args items rest) : ∀ arg ∈ arguments items, arg.length < maxBuff := by
  intro arg member
  rw [arguments, List.mem_filterMap] at member
  obtain ⟨item, inItems, isArgument⟩ := member
  cases item with
  | option _ _ _ _ => cases isArgument
  | argument other =>
    obtain rfl := Option.some.inj isArgument
    have valid := begins.wellFormed _ inItems
    obtain ⟨before, behind, rfl⟩ := List.append_of_mem inItems
    refine tame.short before other (behind.flatMap Item.words ++ rest) ⟨?_, ?_⟩
      (command.noOption other valid)
    · intro item inBefore
      exact begins.wellFormed item (List.mem_append_left _ inBefore)
    · rw [begins.words, List.flatMap_append, List.flatMap_cons, List.append_assoc,
        List.append_assoc]
      rfl

theorem parseFrom_begins {rest : List Text} (begins : Begins command args items rest)
    (parsed : Parsed) :
    parseFrom command parsed args =
      match items.foldlM readItem parsed with
      | none => .undefined
      | some parsed => parseFrom command parsed rest := by
  rw [begins.words]
  exact parseFrom_items begins.wellFormed rest parsed

theorem Promised.tame (promised : Promised command args (parseFrom command .initial args)) :
    Tame command args where
  short := by
    intro items arg rest begins noOption
    by_contra fills
    have isUndefined : parseFrom command .initial args = .undefined := by
      rw [parseFrom_begins begins]
      cases items.foldlM readItem .initial with
      | none => rfl
      | some parsed =>
        refine (parseFrom_argument noOption _ _).trans ?_
        exact if_pos (Nat.le_of_not_lt fills)
    rw [isUndefined] at promised
    by_cases isSequence : ∃ items, Begins command args items []
    · obtain ⟨items, isSequence⟩ := isSequence
      obtain ⟨parsed, accepted, -⟩ := promised.accepts items isSequence
      cases accepted
    · obtain ⟨status, rejected⟩ := promised.rejects (not_exists.mp isSequence)
      cases rejected
  inRange := by
    intro items begins setting last isLast
    obtain ⟨parsed, accepted, -, settings⟩ := promised.accepts items begins
    rw [parseFrom_begins begins] at accepted
    cases read : items.foldlM readItem .initial with
    | none =>
      rw [read] at accepted
      cases accepted
    | some result =>
      rw [read] at accepted
      obtain rfl := Outcome.accepted.inj accepted
      have isLast' : (given setting items).getLast? = some last := isLast
      have stored := (readItems_stores read).2 setting
      rw [settings setting, isLast'] at stored
      have integer := isInteger_of_mem_given begins.wellFormed (List.mem_of_getLast? isLast')
      exact integer.atoi_eq_iff.mp stored.symm

theorem Tame.promised (tame : Tame command args) :
    Promised command args (parseFrom command .initial args) where
  accepts := by
    intro items begins
    obtain ⟨result, read⟩ := exists_readItems (tame.short_arguments begins) .initial
    obtain ⟨inputs, settings⟩ := readItems_stores read
    refine ⟨result, ?_, inputs, ?_⟩
    · rw [parseFrom_begins begins, read]
      rfl
    · intro setting
      rw [settings setting]
      cases isLast : (given setting items).getLast? with
      | none => rfl
      | some last =>
        have integer := isInteger_of_mem_given begins.wellFormed (List.mem_of_getLast? isLast)
        exact integer.atoi_eq_iff.mpr (tame.inRange items begins setting last isLast)
  rejects := by
    intro noSequence
    obtain ⟨items, begins⟩ | rejected := items_or_rejected .initial tame.short
    · exact absurd begins (noSequence items)
    · exact rejected

/-- The loop accepts the sequences of options with integers and of valid arguments and no other
arguments, and it stores what they give, exactly when no argument that it reaches fills the buffer
and the integers that are in force at the end fit an `int`. -/
theorem parseOptions_keeps_promise_iff (command : Command) (program : Text) (args : List Text) :
    Promised command args (parseOptions command (program :: args)) ↔ Tame command args := by
  rw [parseOptions_cons]
  exact ⟨Promised.tame, Tame.promised⟩

end Items

/-- An integer that does not fit is accepted, and another number of retries is stored. -/
theorem parseOptions_truncates_retries :
    ¬ Promised immset ["-r".toList, "4294967297".toList, "key=a:id=1".toList]
      (parseOptions immset
        ["immset".toList, "-r".toList, "4294967297".toList, "key=a:id=1".toList]) := by
  intro promised
  rw [parseOptions_cons] at promised
  have begins : Begins immset ["-r".toList, "4294967297".toList, "key=a:id=1".toList]
      [.option "-r".toList "4294967297".toList .maxRetry 4294967297,
        .argument "key=a:id=1".toList] [] := by
    refine ⟨?_, rfl⟩
    rw [List.forall_mem_cons, List.forall_mem_singleton]
    have isDigit : "4294967297".toList.all Char.isDigit = true := by decide +kernel
    refine ⟨⟨by decide +kernel, none, "4294967297".toList, rfl, by decide,
      List.all_eq_true.mp isDigit, ?_⟩, ?_⟩
    · decide +kernel
    · change isValidSetArgument "key=a:id=1".toList = true
      decide +kernel
  have inRange := promised.tame.inRange _ begins .maxRetry ("4294967297".toList, 4294967297)
    (by decide +kernel)
  exact absurd inRange.2 (by decide)

end Apos.Imm
