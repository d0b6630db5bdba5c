import Apos.CTexts
import Apos.PaddedTexts
import Apos.SplitTexts
import Apos.UnquotedWords

/-!
# The movable addresses that the split-brain check probes

`info_mip` of `apos_ha_operations_drbd` searches the numbered rules of `clusterconf mip
--display` four times: for the text `primary_sc-a`, for the text `primary_sc-b`, for the words
`nbi` and `public`, and for the words `nbi_v6` and `public_v6`.  What a search finds is echoed
as one line.  `readMips` of the agent counts the lines of the output and cuts each at its first
blank.
-/

namespace Apos.DrbdAgent

open LineEdit ClusterConf

/-! ## Rules and their display -/

structure MipRule where
  target : Text
  name : Text
  interface : Text
  network : Text
  address : Text
  deriving DecidableEq, Repr

namespace MipRule

def words (rule : MipRule) : List Text :=
  ["mip".toList, rule.target, rule.name, rule.interface, rule.network, rule.address]

def text (rule : MipRule) : Text :=
  joined rule.words

def device (rule : MipRule) : Text :=
  rule.interface.takeWhile fun char => decide (char ≠ ':')

end MipRule

/-- A line of `nl`: the number in six columns, and a tab. -/
def numbered (number : Nat) (line : Text) : Text :=
  let digits := Nat.toDigits 10 number
  List.replicate (6 - digits.length) ' ' ++ (digits ++ '\t' :: line)

def numberFrom : Nat → List Text → List Text
  | _, [] => []
  | number, line :: lines => numbered number line :: numberFrom (number + 1) lines

/-- `clusterconf mip --display`. -/
def displayMips (rules : List MipRule) : List Text :=
  if rules = [] then ["No mip rules present.".toList]
  else "mip rules present are:".toList :: numberFrom 1 (rules.map MipRule.text)

/-! ## The producer -/

def awkField (line : Text) (number : Nat) : Text :=
  (fields line).getD (number - 1) []

def awkPiece (separator : Char) (line : Text) (number : Nat) : Text :=
  (line.splitOn separator).getD (number - 1) []

/-- `awk '{print $7":"$5}' | awk -F: '{print $1" "$2}'`. -/
def addrIntf (line : Text) : Text :=
  let joint := awkField line 7 ++ ':' :: awkField line 5
  awkPiece ':' joint 1 ++ ' ' :: awkPiece ':' joint 2

/-- `awk '{print $7"#"$5}' | awk -F# '{print $1}'`. -/
def tmpAddr (line : Text) : Text :=
  awkPiece '#' (awkField line 7 ++ '#' :: awkField line 5) 1

/-- `awk '{print $7"#"$5}' | awk -F# '{print $2}' | awk -F: '{print $1}'`. -/
def tmpIntf (line : Text) : Text :=
  awkPiece ':' (awkPiece '#' (awkField line 7 ++ '#' :: awkField line 5) 2) 1

def primaryScA : Text :=
  "primary_sc-a".toList

def primaryScB : Text :=
  "primary_sc-b".toList

def grepText (pattern line : Text) : Bool :=
  decide (pattern <:+: line)

/-- `grep -w 'nbi' | grep -w 'public'`. -/
def grepNbi (line : Text) : Bool :=
  foundBounded "nbi".toList line && foundBounded "public".toList line

/-- `grep -w 'nbi_v6' | grep -w 'public_v6'`. -/
def grepNbiV6 (line : Text) : Bool :=
  foundBounded "nbi_v6".toList line && foundBounded "public_v6".toList line

def search (grep : Text → Bool) (print : Text → Text) (rules : List MipRule) : Text :=
  substitution (((displayMips rules).filter grep).map print)

/-- `ADDR_INTF_V6`, which stays empty unless both parts have been found. -/
def addrIntfV6 (rules : List MipRule) : Text :=
  let address := search grepNbiV6 tmpAddr rules
  let interface := search grepNbiV6 tmpIntf rules
  if address = [] ∨ interface = [] then [] else address ++ ' ' :: interface

/-- `info_mip`: its output, or nothing where it exits with an error. -/
def infoMip (tools : Tools) (rules : List MipRule) : Option Text :=
  let first := search (grepText primaryScA) addrIntf rules
  let second := search (grepText primaryScB) addrIntf rules
  let v4 := search grepNbi addrIntf rules
  let v6 := addrIntfV6 rules
  if first = [] ∨ second = [] ∨ (v4 = [] ∧ v6 = []) then none
  else some (echoLine tools first ++ (echoLine tools second ++
    ((if v4 = [] then [] else echoLine tools v4) ++ (if v6 = [] then [] else echoLine tools v6))))

/-! ## The consumer -/

/-- `mipInfo`: the addresses with their interfaces, and `size`. -/
structure MipInfo where
  entries : List (Text × Text)
  size : Nat
  deriving DecidableEq, Repr

def MipInfo.fresh : MipInfo :=
  ⟨[], 0⟩

/-- The filling pass of `readMips`.  An address ends at a blank and an interface at the end of a
line; there is no result where one of them does not end in the text or does not fit its buffer
of 256 bytes. -/
def fillMips : Nat → Text → Option (List (Text × Text))
  | _, [] => some []
  | 0, _ :: _ => none
  | rounds + 1, char :: text => do
      let (addr, rest) ← CText.cutAt ' ' (char :: text)
      let (intf, rest) ← CText.cutAt '\n' rest
      if addr.length < 256 ∧ intf.length < 256 then
        (fillMips rounds rest).map ((addr, intf) :: ·)
      else none

/-- `readMips`: the object afterwards, where the command succeeds and its output can be read. -/
def readMips (output : Option Text) (mipInfo : MipInfo) : Option MipInfo := do
  let output ← output
  if output = [] then none
  else
    let mipText := CText.cString output
    let entries ← fillMips mipText.length mipText
    some ⟨entries, mipInfo.size + mipText.count '\n'⟩

/-! ## What is meant -/

namespace MipRule

def isNbi (rule : MipRule) : Bool :=
  rule.name = "nbi".toList && rule.network = "public".toList && !rule.address.contains ':'

def isNbiV6 (rule : MipRule) : Bool :=
  rule.name = "nbi_v6".toList && rule.network = "public_v6".toList

def entry (rule : MipRule) : Text × Text :=
  (rule.address, rule.device)

def isAddressChar (char : Char) : Bool :=
  char.isAlphanum || char == ':' || char == '.' || char == '%' || char == '/'

/-- Fields without blanks that fit the buffers, an interface before the alias, and an address. -/
structure WellFormed (rule : MipRule) : Prop where
  areWords : ∀ word ∈ rule.words, IsWord word
  short : ∀ word ∈ rule.words, word.length < 256
  noNul : ∀ word ∈ rule.words, '\x00' ∉ word
  device_ne_nil : rule.device ≠ []
  address : ∀ char ∈ rule.address, isAddressChar char = true

end MipRule

structure MipTable (rules : List MipRule) : Prop where
  distinct : (rules.map MipRule.name).Nodup
  wellFormed : ∀ rule ∈ rules, rule.WellFormed
  primaryA : ∃ rule ∈ rules, rule.name = primaryScA ∧ ':' ∉ rule.address
  primaryB : ∃ rule ∈ rules, rule.name = primaryScB ∧ ':' ∉ rule.address
  nbi : ∃ rule ∈ rules, rule.isNbi = true ∨ rule.isNbiV6 = true

def meantRules (rules : List MipRule) : List MipRule :=
  (rules.find? fun rule => decide (rule.name = primaryScA)).toList ++
    ((rules.find? fun rule => decide (rule.name = primaryScB)).toList ++
      ((rules.find? MipRule.isNbi).toList ++ (rules.find? MipRule.isNbiV6).toList))

def MipsArrive (tools : Tools) (rules : List MipRule) : Prop :=
  readMips (infoMip tools rules) .fresh =
    some ⟨(meantRules rules).map MipRule.entry, (meantRules rules).length⟩

/-! ## Reading -/

def renderMips (entries : List (Text × Text)) : Text :=
  entries.flatMap fun entry => entry.1 ++ ' ' :: (entry.2 ++ ['\n'])

structure CleanEntry (entry : Text × Text) : Prop where
  noBlank : ' ' ∉ entry.1
  noNewline : '\n' ∉ entry.1 ∧ '\n' ∉ entry.2
  fits : entry.1.length < 256 ∧ entry.2.length < 256

theorem renderMips_cons (entry : Text × Text) (entries : List (Text × Text)) :
    renderMips (entry :: entries) = entry.1 ++ ' ' :: (entry.2 ++ '\n' :: renderMips entries) := by
  simp [renderMips]

variable {entries : List (Text × Text)}

theorem renderMips_of_fillMips {rounds : Nat} {text : Text}
    (filled : fillMips rounds text = some entries) : text = renderMips entries := by
  induction rounds generalizing text entries with
  | zero =>
    cases text with
    | nil =>
      obtain rfl := Option.some.inj filled
      rfl
    | cons char text => cases filled
  | succ rounds ih =>
    cases text with
    | nil =>
      obtain rfl := Option.some.inj filled
      rfl
    | cons char text =>
      rw [fillMips] at filled
      obtain ⟨⟨addr, rest⟩, cutAddr, filled⟩ := Option.bind_eq_some_iff.mp filled
      obtain ⟨⟨intf, rest'⟩, cutIntf, filled⟩ := Option.bind_eq_some_iff.mp filled
      dsimp only at filled
      split at filled
      · obtain ⟨later, filledLater, rfl⟩ := Option.map_eq_some_iff.mp filled
        rw [(CText.cutAt_eq_some_iff.mp cutAddr).1, (CText.cutAt_eq_some_iff.mp cutIntf).1,
          ih filledLater, renderMips_cons]
      · cases filled

theorem fillMips_renderMips (clean : ∀ entry ∈ entries, CleanEntry entry) {rounds : Nat}
    (enough : (renderMips entries).length ≤ rounds) :
    fillMips rounds (renderMips entries) = some entries := by
  induction entries generalizing rounds with
  | nil => cases rounds <;> rfl
  | cons entry entries ih =>
    obtain ⟨addr, intf⟩ := entry
    have first := clean (addr, intf) List.mem_cons_self
    have shape := renderMips_cons (addr, intf) entries
    rw [shape] at enough
    simp only [List.length_append, List.length_cons] at enough
    obtain ⟨rounds, rfl⟩ := Nat.exists_eq_add_of_le' (show 1 ≤ rounds by omega)
    have later := ih (fun other member => clean other (List.mem_cons_of_mem _ member))
      (show (renderMips entries).length ≤ rounds by omega)
    have cutAddr := CText.cutAt_eq_some_iff.mpr ⟨shape, first.noBlank⟩
    have cutIntf : CText.cutAt '\n' (intf ++ '\n' :: renderMips entries) =
        some (intf, renderMips entries) :=
      CText.cutAt_eq_some_iff.mpr ⟨rfl, first.noNewline.2⟩
    cases whole : renderMips ((addr, intf) :: entries) with
    | nil => simp [shape] at whole
    | cons char text =>
      rw [whole] at cutAddr
      rw [fillMips, cutAddr]
      simp only [Option.bind_eq_bind, Option.bind_some, cutIntf]
      rw [if_pos first.fits, later]
      rfl

theorem count_renderMips (clean : ∀ entry ∈ entries, CleanEntry entry) :
    (renderMips entries).count '\n' = entries.length := by
  induction entries with
  | nil => rfl
  | cons entry entries ih =>
    have first := clean entry List.mem_cons_self
    have later := ih fun other member => clean other (List.mem_cons_of_mem _ member)
    rw [renderMips] at later
    simp [renderMips, later, List.count_eq_zero.mpr first.noNewline.1,
      List.count_eq_zero.mpr first.noNewline.2]

theorem readMips_eq_some_iff (nonempty : entries ≠ []) (clean : ∀ entry ∈ entries, CleanEntry entry)
    (output : Option Text) :
    readMips output .fresh = some ⟨entries, entries.length⟩ ↔
      output.map CText.cString = some (renderMips entries) := by
  cases output with
  | none => simp [readMips]
  | some output =>
    rw [Option.map_some, Option.some.injEq]
    constructor
    · intro isRead
      simp only [readMips, Option.bind_eq_bind, Option.bind_some] at isRead
      split at isRead
      · cases isRead
      · obtain ⟨filled, isFilled, same⟩ := Option.bind_eq_some_iff.mp isRead
        obtain ⟨rfl, -⟩ := MipInfo.mk.inj (Option.some.inj same)
        exact renderMips_of_fillMips isFilled
    · intro rendered
      have some : output ≠ [] := by
        rintro rfl
        cases entries with
        | nil => exact nonempty rfl
        | cons entry entries =>
          rw [renderMips_cons] at rendered
          simp [CText.cString] at rendered
      simp only [readMips, Option.bind_eq_bind, Option.bind_some, if_neg some, rendered,
        fillMips_renderMips clean (Nat.le_refl _), count_renderMips clean, MipInfo.fresh,
        Nat.zero_add]

/-! ## Lines of the display -/

theorem isWord_digits (number : Nat) : IsWord (Nat.toDigits 10 number) where
  nonempty := Nat.toDigits_ne_nil
  unbroken _ := contains_eq_false
    (List.all_eq_true.mpr fun _ => Nat.isDigit_of_mem_toDigits (by decide) (by decide)) (by decide)

variable {rule : MipRule}

theorem fields_numbered (wellFormed : rule.WellFormed) (number : Nat) :
    fields (numbered number rule.text) = Nat.toDigits 10 number :: rule.words := by
  rw [numbered, fields_replicate, fields_append (by decide), (isWord_digits number).fields,
    MipRule.text, fields_joined wellFormed.areWords]
  rfl

theorem awkField_address (wellFormed : rule.WellFormed) (number : Nat) :
    awkField (numbered number rule.text) 7 = rule.address := by
  rw [awkField, fields_numbered wellFormed]
  rfl

theorem awkField_interface (wellFormed : rule.WellFormed) (number : Nat) :
    awkField (numbered number rule.text) 5 = rule.interface := by
  rw [awkField, fields_numbered wellFormed]
  rfl

theorem mem_label (number : Nat) (line : Text) :
    ∃ label : Text, numbered number line = label ++ line ∧
      ∀ char ∈ label, isSeparator char = true ∨ char.isDigit = true := by
  refine ⟨List.replicate (6 - (Nat.toDigits 10 number).length) ' ' ++
    (Nat.toDigits 10 number ++ ['\t']), by simp [numbered], fun char member => ?_⟩
  simp only [List.mem_append, List.mem_replicate, List.mem_singleton] at member
  rcases member with ⟨-, rfl⟩ | digit | rfl
  · exact .inl (by decide)
  · exact .inr (Nat.isDigit_of_mem_toDigits (by decide) (by decide) digit)
  · exact .inl (by decide)

variable {first : Char}

theorem infix_append_iff {pattern label line : Text} (absent : first ∉ label) :
    first :: pattern <:+: label ++ line ↔ first :: pattern <:+: line := by
  constructor
  · rintro ⟨start, rest, same⟩
    rw [List.append_assoc] at same
    rcases List.append_eq_append_iff.mp same with ⟨more, rfl, left⟩ | ⟨more, rfl, right⟩
    · cases more with
      | nil => exact ⟨[], rest, by simpa using left⟩
      | cons symbol more =>
        obtain ⟨rfl, -⟩ := List.cons.inj left
        exact absurd (by simp) absent
    · exact ⟨more, rest, by rw [right, List.append_assoc]⟩
  · intro occurs
    exact occurs.trans (List.suffix_append label line).isInfix

theorem foundBoundedFrom_skip {first : Char} {pattern label line : Text} {last : Char}
    (literal : first ≠ '.') (absent : first ∉ label) (different : first ≠ last)
    (before : Option Char) :
    foundBoundedFrom (first :: pattern) before (label ++ last :: line) =
      foundBoundedFrom (first :: pattern) (some last) line := by
  induction label generalizing before with
  | nil => simp [foundBoundedFrom, boundedAt, agrees, literal, different]
  | cons symbol label ih =>
    rw [List.mem_cons, not_or] at absent
    rw [List.cons_append, foundBoundedFrom, ih absent.2]
    simp [boundedAt, agrees, literal, absent.1]

theorem text_eq_cons (rule : MipRule) : ∃ more, rule.text = 'm' :: more :=
  ⟨_, rfl⟩

/-- A first character that is neither in a label nor at the beginning of a rule. -/
structure IsStart (first : Char) : Prop where
  notSeparator : isSeparator first = false
  notDigit : first.isDigit = false
  notDot : first ≠ '.'
  notM : first ≠ 'm'

theorem IsStart.not_mem (start : IsStart first) {label : Text}
    (isLabel : ∀ char ∈ label, isSeparator char = true ∨ char.isDigit = true) : first ∉ label := by
  intro member
  rcases isLabel first member with separator | digit
  · simp [start.notSeparator] at separator
  · simp [start.notDigit] at digit

theorem grepText_numbered (start : IsStart first) (pattern : Text) (number : Nat) (line : Text) :
    grepText (first :: pattern) (numbered number line) = grepText (first :: pattern) line := by
  obtain ⟨label, shape, isLabel⟩ := mem_label number line
  rw [grepText, grepText, shape, decide_eq_decide]
  exact infix_append_iff (start.not_mem isLabel)

theorem foundBounded_numbered (start : IsStart first) (pattern : Text) (number : Nat)
    (rule : MipRule) :
    foundBounded (first :: pattern) (numbered number rule.text) =
      foundBounded (first :: pattern) rule.text := by
  obtain ⟨label, shape, isLabel⟩ := mem_label number rule.text
  obtain ⟨more, isText⟩ := text_eq_cons rule
  have alone : foundBoundedFrom (first :: pattern) none ([] ++ 'm' :: more) =
      foundBoundedFrom (first :: pattern) (some 'm') more :=
    foundBoundedFrom_skip start.notDot (by simp) start.notM none
  rw [foundBounded, foundBounded, shape, isText,
    foundBoundedFrom_skip start.notDot (start.not_mem isLabel) start.notM]
  exact alone.symm

variable {grep : Text → Bool} {rules : List MipRule}

theorem filter_numberFrom_map {α : Type} {line : α → Text} {grep : Text → Bool}
    {print : Text → Text} {select : α → Bool} {field : α → Text} {rules : List α}
    {start limit : Nat} (bounded : start + rules.length ≤ limit)
    (same : ∀ rule ∈ rules, ∀ number < limit, grep (numbered number (line rule)) = select rule ∧
      print (numbered number (line rule)) = field rule) :
    ((numberFrom start (rules.map line)).filter grep).map print =
      (rules.filter select).map field := by
  induction rules generalizing start with
  | nil => rfl
  | cons rule rules ih =>
    rw [List.length_cons] at bounded
    obtain ⟨sameGrep, samePrint⟩ := same rule List.mem_cons_self start (by omega)
    have later := @ih (start + 1) (by omega)
      fun other member => same other (List.mem_cons_of_mem _ member)
    rw [List.map_cons, numberFrom, List.filter_cons, List.filter_cons, sameGrep]
    split
    · rw [List.map_cons, List.map_cons, samePrint, later]
    · exact later

theorem search_eq {print : Text → Text} {printRule : MipRule → Text} (nonempty : rules ≠ [])
    (header : grep "mip rules present are:".toList = false)
    (same : ∀ rule ∈ rules, ∀ number, grep (numbered number rule.text) = grep rule.text ∧
      print (numbered number rule.text) = printRule rule) :
    search grep print rules =
      substitution ((rules.filter fun rule => grep rule.text).map printRule) := by
  rw [search, displayMips, if_neg nonempty, List.filter_cons_of_neg (by rw [header]; decide),
    filter_numberFrom_map (Nat.le_refl _) fun rule member number _ => same rule member number]

/-! ## Pieces -/

section Pieces

variable {separator : Char} {front rest : Text}

theorem awkPiece_one_cut (absent : separator ∉ front) :
    awkPiece separator (front ++ separator :: rest) 1 = front := by
  rw [awkPiece, splitOn_cut absent]
  rfl

theorem awkPiece_two_cut (absent : separator ∉ front) :
    awkPiece separator (front ++ separator :: rest) 2 = awkPiece separator rest 1 := by
  rw [awkPiece, splitOn_cut absent, awkPiece]
  rfl

theorem awkPiece_one (separator : Char) (text : Text) :
    awkPiece separator text 1 = text.takeWhile fun char => decide (char ≠ separator) := by
  by_cases member : separator ∈ text
  · obtain ⟨before, behind, rfl, absent⟩ := List.eq_append_cons_of_mem member
    rw [awkPiece_one_cut absent, List.takeWhile_append_of_pos (decide_ne_of_not_mem absent)]
    simp
  · have whole := List.takeWhile_eq_self_iff.mpr (decide_ne_of_not_mem member)
    rw [awkPiece, splitOn_of_not_mem member, whole]
    rfl

end Pieces

/-! ## What a rule contributes -/

namespace MipRule

def addrIntf (rule : MipRule) : Text :=
  let joint := rule.address ++ ':' :: rule.interface
  awkPiece ':' joint 1 ++ ' ' :: awkPiece ':' joint 2

def shown (rule : MipRule) : List Text :=
  fields rule.addrIntf

variable {rule : MipRule}

theorem WellFormed.isWord_address (wellFormed : rule.WellFormed) : IsWord rule.address :=
  wellFormed.areWords _ (by simp [words])

theorem WellFormed.isWord_device (wellFormed : rule.WellFormed) : IsWord rule.device where
  nonempty := wellFormed.device_ne_nil
  unbroken := by
    intro char member
    have isWord : IsWord rule.interface := wellFormed.areWords _ (by simp [words])
    exact isWord.unbroken char ((List.takeWhile_sublist _).mem member)

theorem shown_of_not_mem (wellFormed : rule.WellFormed) (absent : ':' ∉ rule.address) :
    rule.shown = [rule.address, rule.device] := by
  rw [shown, addrIntf, awkPiece_one_cut absent, awkPiece_two_cut absent, awkPiece_one,
    fields_append (by decide), wellFormed.isWord_address.fields]
  exact congrArg (rule.address :: ·) wellFormed.isWord_device.fields

theorem not_isSeparator_of_isAddressChar {char : Char} (isChar : isAddressChar char = true) :
    isSeparator char = false := by
  by_contra separator
  simp only [isSeparator, Bool.not_eq_false, List.contains_iff_mem, List.mem_cons,
    List.not_mem_nil, or_false] at separator
  rcases separator with rfl | rfl | rfl <;> exact absurd isChar (by decide)

theorem awkPiece_subset (front rest : Text) :
    awkPiece ':' (front ++ ':' :: rest) 1 ⊆ front := by
  by_cases member : ':' ∈ front
  · obtain ⟨before, behind, rfl, absent⟩ := List.eq_append_cons_of_mem member
    rw [List.append_assoc, List.cons_append, awkPiece_one_cut absent]
    exact List.subset_append_left _ _
  · rw [awkPiece_one_cut member]
    exact List.Subset.refl _

theorem shown_of_mem (wellFormed : rule.WellFormed) (colon : ':' ∈ rule.address) :
    ∀ word ∈ rule.shown, word ≠ [] ∧ ∀ char ∈ word, isAddressChar char = true := by
  have isAddress := wellFormed.address
  obtain ⟨before, behind, shape, absent⟩ := List.eq_append_cons_of_mem colon
  rw [shape] at isAddress
  have inBefore : ∀ char ∈ before, isAddressChar char = true :=
    fun char member => isAddress char (by simp [member])
  have inNext : ∀ char ∈ awkPiece ':' (behind ++ ':' :: rule.interface) 1,
      isAddressChar char = true :=
    fun char member => isAddress char (by simp [awkPiece_subset behind rule.interface member])
  have isShown : rule.shown =
      fields before ++ fields (awkPiece ':' (behind ++ ':' :: rule.interface) 1) := by
    rw [shown, addrIntf, shape, List.append_assoc, List.cons_append, awkPiece_one_cut absent,
      awkPiece_two_cut absent, fields_append (by decide)]
  rw [isShown]
  intro word member
  rcases List.mem_append.mp member with first | second
  · obtain ⟨rfl, nonempty⟩ := eq_of_mem_fields
      (fun char member => not_isSeparator_of_isAddressChar (inBefore char member)) first
    exact ⟨nonempty, inBefore⟩
  · obtain ⟨rfl, nonempty⟩ := eq_of_mem_fields
      (fun char member => not_isSeparator_of_isAddressChar (inNext char member)) second
    exact ⟨nonempty, inNext⟩

/-- The shell leaves the interfaces alone, and `awk -F#` does not cut them. -/
def isPlain (rule : MipRule) : Bool :=
  isLiteral rule.interface && !rule.interface.contains '#'

structure Echoed (word : Text) : Prop where
  isWord : IsWord word
  literal : isLiteral word = true
  noNul : '\x00' ∉ word

theorem isLiteral_of_isAddressChar {word : Text}
    (isAddress : ∀ char ∈ word, isAddressChar char = true) : isLiteral word = true := by
  rw [isLiteral, List.all_eq_true]
  intro char member
  have isChar := isAddress char member
  by_contra special
  simp only [Bool.not_eq_true, Bool.not_eq_false', List.contains_iff_mem, List.mem_cons,
    List.not_mem_nil, or_false] at special
  rcases special with rfl | rfl | rfl | rfl <;> exact absurd isChar (by decide)

theorem echoed_of_isAddressChar {word : Text} (nonempty : word ≠ [])
    (isAddress : ∀ char ∈ word, isAddressChar char = true) : Echoed word where
  isWord := ⟨nonempty, fun char member =>
    not_isSeparator_of_isAddressChar (isAddress char member)⟩
  literal := isLiteral_of_isAddressChar isAddress
  noNul := fun member => absurd (isAddress _ member) (by decide)

theorem echoed_address (wellFormed : rule.WellFormed) : Echoed rule.address :=
  echoed_of_isAddressChar wellFormed.isWord_address.nonempty wellFormed.address

theorem echoed_device (wellFormed : rule.WellFormed) (plain : rule.isPlain = true) :
    Echoed rule.device where
  isWord := wellFormed.isWord_device
  literal := by
    rw [isPlain, Bool.and_eq_true, isLiteral, List.all_eq_true] at plain
    rw [isLiteral, List.all_eq_true]
    exact fun char member => plain.1 char ((List.takeWhile_sublist _).mem member)
  noNul := fun member => wellFormed.noNul rule.interface (by simp [words])
    ((List.takeWhile_sublist _).mem member)

theorem echoed_shown (wellFormed : rule.WellFormed) (plain : rule.isPlain = true) :
    ∀ word ∈ rule.shown, Echoed word := by
  intro word member
  by_cases colon : ':' ∈ rule.address
  · obtain ⟨nonempty, isAddress⟩ := shown_of_mem wellFormed colon word member
    exact echoed_of_isAddressChar nonempty isAddress
  · rw [shown_of_not_mem wellFormed colon, List.mem_cons, List.mem_singleton] at member
    rcases member with rfl | rfl
    · exact echoed_address wellFormed
    · exact echoed_device wellFormed plain

theorem head_shown (wellFormed : rule.WellFormed) {word : Text}
    (first : rule.shown.head? = some word) : ∀ char ∈ word, isAddressChar char = true := by
  by_cases colon : ':' ∈ rule.address
  · exact (shown_of_mem wellFormed colon word (List.mem_of_head? first)).2
  · rw [shown_of_not_mem wellFormed colon, List.head?_cons, Option.some.injEq] at first
    exact first ▸ wellFormed.address

end MipRule

/-! ## What is printed -/

def found (grep : Text → Bool) (rules : List MipRule) : List MipRule :=
  rules.filter fun rule => grep rule.text

theorem mem_found : rule ∈ found grep rules ↔ rule ∈ rules ∧ grep rule.text = true :=
  List.mem_filter

structure Unlabelled (grep : Text → Bool) : Prop where
  header : grep "mip rules present are:".toList = false
  same : ∀ (rule : MipRule) (number : Nat),
    grep (numbered number rule.text) = grep rule.text

theorem isStart_p : IsStart 'p' := by
  constructor <;> decide

theorem isStart_n : IsStart 'n' := by
  constructor <;> decide

theorem unlabelled_primaryScA : Unlabelled (grepText primaryScA) where
  header := by decide +kernel
  same rule number := grepText_numbered isStart_p _ number rule.text

theorem unlabelled_primaryScB : Unlabelled (grepText primaryScB) where
  header := by decide +kernel
  same rule number := grepText_numbered isStart_p _ number rule.text

theorem unlabelled_nbi : Unlabelled grepNbi where
  header := by decide +kernel
  same rule number := congrArg₂ (· && ·) (foundBounded_numbered isStart_n _ number rule)
    (foundBounded_numbered isStart_p _ number rule)

theorem unlabelled_nbiV6 : Unlabelled grepNbiV6 where
  header := by decide +kernel
  same rule number := congrArg₂ (· && ·) (foundBounded_numbered isStart_n _ number rule)
    (foundBounded_numbered isStart_p _ number rule)

section Printed

variable {tools : Tools} {rules : List MipRule} {grep : Text → Bool}

theorem MipTable.rules_ne_nil (table : MipTable rules) : rules ≠ [] := by
  obtain ⟨rule, member, -⟩ := table.primaryA
  exact List.ne_nil_of_mem member

theorem search_addrIntf (table : MipTable rules) (unlabelled : Unlabelled grep) :
    search grep addrIntf rules = substitution ((found grep rules).map MipRule.addrIntf) := by
  refine search_eq table.rules_ne_nil unlabelled.header fun rule member number => ?_
  refine ⟨unlabelled.same rule number, ?_⟩
  simp only [addrIntf, MipRule.addrIntf, awkField_address (table.wellFormed rule member),
    awkField_interface (table.wellFormed rule member)]

variable {rule : MipRule}

theorem hash_not_mem_address (wellFormed : rule.WellFormed) : '#' ∉ rule.address :=
  fun member => absurd (wellFormed.address _ member) (by decide)

theorem search_tmpAddr (table : MipTable rules) (unlabelled : Unlabelled grep) :
    search grep tmpAddr rules = substitution ((found grep rules).map MipRule.address) := by
  refine search_eq table.rules_ne_nil unlabelled.header fun rule member number => ?_
  have wellFormed := table.wellFormed rule member
  refine ⟨unlabelled.same rule number, ?_⟩
  rw [tmpAddr, awkField_address wellFormed, awkPiece_one_cut (hash_not_mem_address wellFormed)]

theorem search_tmpIntf (table : MipTable rules) (plain : ∀ rule ∈ rules, rule.isPlain = true)
    (unlabelled : Unlabelled grep) :
    search grep tmpIntf rules = substitution ((found grep rules).map MipRule.device) := by
  refine search_eq table.rules_ne_nil unlabelled.header fun rule member number => ?_
  have wellFormed := table.wellFormed rule member
  have noHash : '#' ∉ rule.interface := by
    have isPlain := plain rule member
    rw [MipRule.isPlain, Bool.and_eq_true] at isPlain
    simpa using isPlain.2
  have whole : awkPiece '#' rule.interface 1 = rule.interface := by
    rw [awkPiece, splitOn_of_not_mem noHash]
    rfl
  refine ⟨unlabelled.same rule number, ?_⟩
  rw [tmpIntf, awkField_address wellFormed, awkField_interface wellFormed,
    awkPiece_two_cut (hash_not_mem_address wellFormed), whole, awkPiece_one]
  rfl

theorem substitution_addrIntf_eq_nil_iff (selected : List MipRule) :
    substitution (selected.map MipRule.addrIntf) = [] ↔ selected = [] := by
  apply substitution_map_eq_nil_iff
  exact fun rule _ => ⟨' ', by simp [MipRule.addrIntf], by decide⟩

variable {selected : List MipRule}

theorem substitution_words_eq_nil_iff {word : MipRule → Text}
    (areWords : ∀ rule ∈ selected, IsWord (word rule)) :
    substitution (selected.map word) = [] ↔ selected = [] := by
  apply substitution_map_eq_nil_iff
  intro rule member
  have isWord := areWords rule member
  obtain ⟨char, inWord⟩ := List.exists_mem_of_ne_nil _ isWord.nonempty
  refine ⟨char, inWord, ?_⟩
  rintro rfl
  exact absurd (isWord.unbroken _ inWord) (by decide)

theorem isEchoOption_of_isAddressChar {word : Text}
    (isAddress : ∀ char ∈ word, MipRule.isAddressChar char = true) : isEchoOption word = false :=
  isEchoOption_of_head fun minus => absurd (isAddress '-' (List.mem_of_head? minus)) (by decide)

theorem head_flatMap_shown (wellFormed : ∀ rule ∈ selected, rule.WellFormed) {word : Text}
    (first : (selected.flatMap MipRule.shown).head? = some word) :
    ∀ char ∈ word, MipRule.isAddressChar char = true := by
  induction selected with
  | nil => cases first
  | cons rule selected ih =>
    rw [List.flatMap_cons, List.head?_append] at first
    cases here : rule.shown.head? with
    | none =>
      rw [here] at first
      exact ih (fun other member => wellFormed other (List.mem_cons_of_mem _ member)) first
    | some found =>
      rw [here] at first
      obtain rfl := Option.some.inj first
      exact MipRule.head_shown (wellFormed rule List.mem_cons_self) here

theorem echoLine_search (leavesPlain : ∀ text, '\\' ∉ text → tools.interpret text = text)
    (table : MipTable rules) (plain : ∀ rule ∈ rules, rule.isPlain = true)
    (unlabelled : Unlabelled grep) :
    echoLine tools (search grep addrIntf rules) =
      joined ((found grep rules).flatMap MipRule.shown) ++ ['\n'] := by
  have words : fields (search grep addrIntf rules) =
      (found grep rules).flatMap MipRule.shown := by
    rw [search_addrIntf table unlabelled, fields_substitution, List.flatMap_map]
    rfl
  rw [← words]
  refine echoLine_literal leavesPlain (fun word member => ?_) fun word first => ?_
  · rw [words] at member
    obtain ⟨rule, isFound, inShown⟩ := List.mem_flatMap.mp member
    have inRules := (mem_found.mp isFound).1
    exact (MipRule.echoed_shown (table.wellFormed rule inRules) (plain rule inRules) word
      inShown).literal
  · rw [words] at first
    exact isEchoOption_of_isAddressChar (head_flatMap_shown
      (fun rule member => table.wellFormed rule (mem_found.mp member).1) first)

def wordsV6 (rules : List MipRule) : List Text :=
  (found grepNbiV6 rules).map MipRule.address ++ (found grepNbiV6 rules).map MipRule.device

theorem flatMap_fields {word : MipRule → Text} (areWords : ∀ rule ∈ selected, IsWord (word rule)) :
    (selected.map word).flatMap fields = selected.map word := by
  rw [List.flatMap_map, List.flatMap_congr fun rule member => (areWords rule member).fields]
  exact (List.map_eq_flatMap).symm

theorem addrIntfV6_eq_nil_iff (table : MipTable rules)
    (plain : ∀ rule ∈ rules, rule.isPlain = true) :
    addrIntfV6 rules = [] ↔ found grepNbiV6 rules = [] := by
  have addresses : substitution ((found grepNbiV6 rules).map MipRule.address) = [] ↔
      found grepNbiV6 rules = [] :=
    substitution_words_eq_nil_iff fun rule member =>
      (table.wellFormed rule (mem_found.mp member).1).isWord_address
  have devices : substitution ((found grepNbiV6 rules).map MipRule.device) = [] ↔
      found grepNbiV6 rules = [] :=
    substitution_words_eq_nil_iff fun rule member =>
      (table.wellFormed rule (mem_found.mp member).1).isWord_device
  rw [addrIntfV6, search_tmpAddr table unlabelled_nbiV6,
    search_tmpIntf table plain unlabelled_nbiV6]
  simp only [addresses, devices, or_self]
  split <;> simp [*]

theorem echoLine_addrIntfV6 (leavesPlain : ∀ text, '\\' ∉ text → tools.interpret text = text)
    (table : MipTable rules) (plain : ∀ rule ∈ rules, rule.isPlain = true)
    (some : found grepNbiV6 rules ≠ []) :
    echoLine tools (addrIntfV6 rules) = joined (wordsV6 rules) ++ ['\n'] := by
  have wellFormed : ∀ rule ∈ found grepNbiV6 rules, rule.WellFormed :=
    fun rule member => table.wellFormed rule (mem_found.mp member).1
  have notEmpty : addrIntfV6 rules ≠ [] := by
    rwa [ne_eq, addrIntfV6_eq_nil_iff table plain]
  have words : fields (addrIntfV6 rules) = wordsV6 rules := by
    simp only [addrIntfV6] at notEmpty ⊢
    split
    · next empty => exact absurd (if_pos empty) notEmpty
    · rw [search_tmpAddr table unlabelled_nbiV6, search_tmpIntf table plain unlabelled_nbiV6,
        fields_append (by decide), fields_substitution, fields_substitution,
        flatMap_fields fun rule member => (wellFormed rule member).isWord_address,
        flatMap_fields fun rule member => (wellFormed rule member).isWord_device]
      rfl
  rw [← words]
  refine echoLine_literal leavesPlain (fun word member => ?_) fun word first => ?_
  · rw [words, wordsV6, List.mem_append, List.mem_map, List.mem_map] at member
    rcases member with ⟨rule, isFound, rfl⟩ | ⟨rule, isFound, rfl⟩
    · exact (MipRule.echoed_address (wellFormed rule isFound)).literal
    · exact (MipRule.echoed_device (wellFormed rule isFound)
        (plain rule (mem_found.mp isFound).1)).literal
  · rw [words, wordsV6] at first
    cases selected : found grepNbiV6 rules with
    | nil => exact absurd selected some
    | cons rule rest =>
      rw [selected, List.map_cons, List.cons_append, List.head?_cons, Option.some.injEq] at first
      subst first
      exact isEchoOption_of_isAddressChar (wellFormed rule (by simp [selected])).address

def printedWords (rules : List MipRule) : List (List Text) :=
  (found (grepText primaryScA) rules).flatMap MipRule.shown ::
    (found (grepText primaryScB) rules).flatMap MipRule.shown ::
      ((if found grepNbi rules = [] then [] else [(found grepNbi rules).flatMap MipRule.shown]) ++
        if found grepNbiV6 rules = [] then [] else [wordsV6 rules])

def linesOf (words : List (List Text)) : Text :=
  words.flatMap fun line => joined line ++ ['\n']

variable {pattern : Text}

theorem grepText_of_name (isNamed : rule.name = pattern) : grepText pattern rule.text = true := by
  rw [grepText, decide_eq_true_eq, ← isNamed]
  exact infix_joined (by simp [MipRule.words])

structure IsPattern (pattern : Text) : Prop where
  starts : pattern.head?.any isWordChar = true
  ends : pattern.getLast?.any isWordChar = true

theorem boundedAt_inside (isPattern : IsPattern pattern) (rest : Text) :
    boundedAt pattern (some ' ') (pattern ++ ' ' :: rest) = true := by
  obtain ⟨starts, ends⟩ := isPattern
  cases last : pattern.getLast? with
  | none => simp [last] at ends
  | some final =>
    cases pattern with
    | nil => cases last
    | cons first pattern =>
      have isWord : isWordChar final = true := by simpa [last] using ends
      have isFirst : isWordChar first = true := by simpa using starts
      have blank : isWordChar ' ' = false := by decide
      rw [boundedAt, agrees_self_append, List.take_left, List.drop_left, last]
      simp [isEdge, isWord, isFirst, blank]

theorem foundBoundedFrom_inside (isPattern : IsPattern pattern) (before : Option Char)
    (front rest : Text) :
    foundBoundedFrom pattern before (front ++ ' ' :: (pattern ++ ' ' :: rest)) = true := by
  induction front generalizing before with
  | nil =>
    have here := boundedAt_inside isPattern rest
    rw [List.nil_append, foundBoundedFrom]
    cases whole : pattern ++ ' ' :: rest with
    | nil => simp at whole
    | cons first more =>
      rw [whole] at here
      rw [foundBoundedFrom, here, Bool.true_or, Bool.or_true]
  | cons char front ih => rw [List.cons_append, foundBoundedFrom, ih, Bool.or_true]

theorem foundBounded_name (isPattern : IsPattern pattern) (isNamed : rule.name = pattern) :
    foundBounded pattern rule.text = true := by
  have shape : rule.text = ("mip ".toList ++ rule.target) ++ ' ' :: (pattern ++ ' ' ::
      joined [rule.interface, rule.network, rule.address]) := by
    simp [MipRule.text, MipRule.words, joined, List.intercalate_cons_cons, isNamed]
  rw [shape]
  exact foundBoundedFrom_inside isPattern none _ _

theorem foundBounded_network (isPattern : IsPattern pattern) (isOn : rule.network = pattern) :
    foundBounded pattern rule.text = true := by
  have shape : rule.text = joined ["mip".toList, rule.target, rule.name, rule.interface] ++
      ' ' :: (pattern ++ ' ' :: rule.address) := by
    simp [MipRule.text, MipRule.words, joined, List.intercalate_cons_cons, isOn]
  rw [shape]
  exact foundBoundedFrom_inside isPattern none _ _

theorem grepNbi_of_isNbi (isNbi : rule.isNbi = true) : grepNbi rule.text = true := by
  simp only [MipRule.isNbi, Bool.and_eq_true, decide_eq_true_eq] at isNbi
  rw [grepNbi, foundBounded_name ⟨by decide, by decide⟩ isNbi.1.1,
    foundBounded_network ⟨by decide, by decide⟩ isNbi.1.2]
  rfl

theorem grepNbiV6_of_isNbiV6 (isNbiV6 : rule.isNbiV6 = true) : grepNbiV6 rule.text = true := by
  simp only [MipRule.isNbiV6, Bool.and_eq_true, decide_eq_true_eq] at isNbiV6
  rw [grepNbiV6, foundBounded_name ⟨by decide, by decide⟩ isNbiV6.1,
    foundBounded_network ⟨by decide, by decide⟩ isNbiV6.2]
  rfl

theorem infoMip_eq (leavesPlain : ∀ text, '\\' ∉ text → tools.interpret text = text)
    (table : MipTable rules) (plain : ∀ rule ∈ rules, rule.isPlain = true) :
    infoMip tools rules = some (linesOf (printedWords rules)) := by
  have foundA : found (grepText primaryScA) rules ≠ [] := by
    obtain ⟨rule, member, isNamed, -⟩ := table.primaryA
    exact List.ne_nil_of_mem (mem_found.mpr ⟨member, grepText_of_name isNamed⟩)
  have foundB : found (grepText primaryScB) rules ≠ [] := by
    obtain ⟨rule, member, isNamed, -⟩ := table.primaryB
    exact List.ne_nil_of_mem (mem_found.mpr ⟨member, grepText_of_name isNamed⟩)
  have foundNbi : ¬(found grepNbi rules = [] ∧ found grepNbiV6 rules = []) := by
    rintro ⟨noNbi, noNbiV6⟩
    obtain ⟨rule, member, isNbi | isNbiV6⟩ := table.nbi
    · exact List.ne_nil_of_mem (mem_found.mpr ⟨member, grepNbi_of_isNbi isNbi⟩) noNbi
    · exact List.ne_nil_of_mem (mem_found.mpr ⟨member, grepNbiV6_of_isNbiV6 isNbiV6⟩) noNbiV6
  have emptyIff : ∀ {grep}, Unlabelled grep →
      (search grep addrIntf rules = [] ↔ found grep rules = []) := fun unlabelled => by
    rw [search_addrIntf table unlabelled, substitution_addrIntf_eq_nil_iff]
  simp only [infoMip, emptyIff unlabelled_primaryScA, emptyIff unlabelled_primaryScB,
    emptyIff unlabelled_nbi, addrIntfV6_eq_nil_iff table plain]
  rw [if_neg (by simp only [foundA, foundB, foundNbi, or_self, not_false_eq_true]),
    echoLine_search leavesPlain table plain unlabelled_primaryScA,
    echoLine_search leavesPlain table plain unlabelled_primaryScB,
    echoLine_search leavesPlain table plain unlabelled_nbi]
  have lastLine : (if found grepNbiV6 rules = [] then [] else echoLine tools (addrIntfV6 rules)) =
      linesOf (if found grepNbiV6 rules = [] then [] else [wordsV6 rules]) := by
    split
    · rfl
    · next some =>
        rw [echoLine_addrIntfV6 leavesPlain table plain some]
        simp [linesOf]
  have nbiLine : (if found grepNbi rules = [] then []
      else joined ((found grepNbi rules).flatMap MipRule.shown) ++ ['\n']) =
      linesOf (if found grepNbi rules = [] then []
        else [(found grepNbi rules).flatMap MipRule.shown]) := by
    split
    · rfl
    · simp [linesOf]
  rw [lastLine, nbiLine]
  simp only [printedWords, linesOf, List.flatMap_cons, List.flatMap_append]

end Printed

end Apos.DrbdAgent
