import Apos.NetdefGateways
import Apos.SplitTexts

/-!
# Three checks of IPv4 addresses

`netdef` and `apos_common.sh` check an address by counting its characters, its parts and its dots,
and by comparing every part with the bounds of a byte.  A comparison with what is no number fails,
and a failed comparison is no objection.  `clu_sc` looks for the address with a regular expression
that may match a part of the text.
-/

namespace Apos.AddressValidation

open LineEdit ClusterConf Netdef DrbdAgent

/-! ## The functions -/

/-- `isValidIPv4` of `apos_common.sh`, whose tests are those of `is_valid_IP`. -/
def Common.isValidIPv4 (shell : Shell) (ipAddress : Text) : Bool :=
  isValidIP shell ipAddress

def isQuad (isPart : Text → Bool) (text : Text) : Bool :=
  (text.splitOn '.').length == 4 && (text.splitOn '.').all isPart

def isBetween (least most symbol : Char) : Bool :=
  decide (least ≤ symbol) && decide (symbol ≤ most)

/-- `25[0-5]|2[0-4][0-9]|[0-1]?[0-9][0-9]?`. -/
def isOctet : Text → Bool
  | [first] => isBetween '0' '9' first
  | [first, second] => isBetween '0' '9' first && isBetween '0' '9' second
  | [first, second, third] =>
    first == '2' && second == '5' && isBetween '0' '5' third ||
      first == '2' && isBetween '0' '4' second && isBetween '0' '9' third ||
      isBetween '0' '1' first && isBetween '0' '9' second && isBetween '0' '9' third
  | _ => false

/-- The expression `ip_format` matches this part of the line, from one edge of a word to
another. -/
def matchesAt (line : Text) (start size : Nat) : Bool :=
  let middle := (line.drop start).take size
  isQuad isOctet middle && isEdge (line.take start).getLast? middle.head? &&
    isEdge middle.getLast? (line.drop (start + size)).head?

/-- `isValidIPv4` of `clu_sc`; `echo` prints nothing of a text that is an option. -/
def CluSc.isValidIPv4 (inputAddr : Text) : Bool :=
  !isEchoOption inputAddr && (inputAddr.splitOn '\n').any fun line =>
    (List.range (line.length + 1)).any fun start =>
      (List.range (line.length + 1)).any fun size => matchesAt line start size

/-! ## Addresses as texts -/

def isGroup (part : Text) : Bool :=
  0 < part.length && part.length ≤ 3 && part.all Char.isDigit && CText.numberOf 10 part ≤ 255

def isAddressText (text : Text) : Bool :=
  isQuad isGroup text

/-- The characters of parts that `[` either reads as a number or fails on. -/
def isLooseSymbol (symbol : Char) : Bool :=
  symbol.isDigit || symbol == '|' || symbol == ']'

def isLoosePart (part : Text) : Bool :=
  0 < part.length && part.length ≤ 3 &&
    part.all isLooseSymbol &&
    (!part.all Char.isDigit || CText.numberOf 10 part ≤ 255)

/-- The text has an address in it that no letter, digit or underscore touches. -/
def HasAddressWord (text : Text) : Prop :=
  ∃ front middle back, text = front ++ (middle ++ back) ∧ isAddressText middle = true ∧
    front.getLast?.any isWordChar = false ∧ back.head?.any isWordChar = false

variable {symbol : Char}

theorem mem_digits (isDigit : symbol.isDigit = true) : symbol ∈ "0123456789".toList := by
  have each : ∀ code < 58, 48 ≤ code → Char.ofNat code ∈ "0123456789".toList := by decide
  have bounds : 48 ≤ symbol.toNat ∧ symbol.toNat ≤ 57 := by
    simpa [Char.isDigit, UInt32.le_iff_toNat_le] using isDigit
  rw [← Char.ofNat_toNat symbol]
  exact each _ (by omega) bounds.1

variable {part : Text}

theorem short_digits (nonempty : part ≠ []) (short : part.length ≤ 3)
    (isDigit : part.all Char.isDigit = true) :
    testInteger part = some (CText.numberOf 10 part : Int) ∧
      isOctet part = decide (CText.numberOf 10 part ≤ 255) := by
  let agree (part : Text) : Bool :=
    testInteger part == some (CText.numberOf 10 part : Int) &&
      isOctet part == decide (CText.numberOf 10 part ≤ 255)
  have one : "0123456789".toList.all (fun first => agree [first]) = true := by decide +kernel
  have two : "0123456789".toList.all (fun first => "0123456789".toList.all fun second =>
      agree [first, second]) = true := by decide +kernel
  have three : "0123456789".toList.all (fun first => "0123456789".toList.all fun second =>
      "0123456789".toList.all fun third => agree [first, second, third]) = true := by
    decide +kernel
  suffices agrees : agree part = true by
    simpa only [agree, Bool.and_eq_true, beq_iff_eq] using agrees
  rw [List.all_eq_true] at isDigit
  match part, nonempty, short, isDigit with
  | [first], _, _, isDigit =>
    exact List.all_eq_true.mp one first (mem_digits (isDigit first (by simp)))
  | [first, second], _, _, isDigit =>
    have inner := List.all_eq_true.mp two first (mem_digits (isDigit first (by simp)))
    exact List.all_eq_true.mp inner second (mem_digits (isDigit second (by simp)))
  | [first, second, third], _, _, isDigit =>
    have outer := List.all_eq_true.mp three first (mem_digits (isDigit first (by simp)))
    have inner := List.all_eq_true.mp outer second (mem_digits (isDigit second (by simp)))
    exact List.all_eq_true.mp inner third (mem_digits (isDigit third (by simp)))

theorem isBetween_digits (symbol : Char) : isBetween '0' '9' symbol = symbol.isDigit :=
  rfl

theorem isDigit_of_isBetween {least most : Char} (isIn : isBetween least most symbol = true)
    (atLeast : '0' ≤ least) (atMost : most ≤ '9') : symbol.isDigit = true := by
  rw [← isBetween_digits]
  simp only [isBetween, Bool.and_eq_true, decide_eq_true_eq] at isIn ⊢
  exact ⟨Char.le_trans atLeast isIn.1, Char.le_trans isIn.2 atMost⟩

theorem digits_of_isOctet (octet : isOctet part = true) :
    part ≠ [] ∧ part.length ≤ 3 ∧ part.all Char.isDigit = true := by
  match part, octet with
  | [first], octet =>
    rw [isOctet, isBetween_digits] at octet
    simp [octet]
  | [first, second], octet =>
    rw [isOctet, isBetween_digits, isBetween_digits, Bool.and_eq_true] at octet
    simp [octet]
  | [first, second, third], octet =>
    rw [isOctet, Bool.or_eq_true, Bool.or_eq_true] at octet
    simp only [isBetween_digits, Bool.and_eq_true, beq_iff_eq] at octet
    rcases octet with (⟨⟨rfl, rfl⟩, upTo⟩ | ⟨⟨rfl, upTo⟩, isDigit⟩) | ⟨⟨upTo, isDigit⟩, last⟩
    · simp [isDigit_of_isBetween upTo (by decide) (by decide)]
    · simp [isDigit, isDigit_of_isBetween upTo (by decide) (by decide)]
    · simp [isDigit, last, isDigit_of_isBetween upTo (by decide) (by decide)]

theorem isOctet_eq_isGroup (part : Text) : isOctet part = isGroup part := by
  rw [Bool.eq_iff_iff]
  constructor
  · intro octet
    obtain ⟨nonempty, short, isDigit⟩ := digits_of_isOctet octet
    rw [(short_digits nonempty short isDigit).2] at octet
    simp [isGroup, List.length_pos_iff.mpr nonempty, short, isDigit, of_decide_eq_true octet]
  · intro group
    simp only [isGroup, Bool.and_eq_true, decide_eq_true_eq] at group
    obtain ⟨⟨⟨nonempty, short⟩, isDigit⟩, atMost⟩ := group
    rw [(short_digits (List.length_pos_iff.mp nonempty) short isDigit).2]
    exact decide_eq_true atMost

theorem isQuad_isOctet (text : Text) : isQuad isOctet text = isAddressText text := by
  rw [isAddressText, isQuad, isQuad, funext isOctet_eq_isGroup]

/-! ## The search -/

theorem isGroup_ends (group : isGroup part = true) :
    part ≠ [] ∧ ∀ symbol ∈ part, isWordChar symbol = true := by
  simp only [isGroup, Bool.and_eq_true, decide_eq_true_eq] at group
  refine ⟨List.length_pos_iff.mp group.1.1.1, fun symbol member => ?_⟩
  simp [isWordChar, Char.isAlphanum, List.all_eq_true.mp group.1.2 symbol member]

variable {text : Text}

theorem isAddressText_ends (isAddress : isAddressText text = true) :
    text.head?.any isWordChar = true ∧ text.getLast?.any isWordChar = true := by
  simp only [isAddressText, isQuad, Bool.and_eq_true, beq_iff_eq, List.all_eq_true] at isAddress
  obtain ⟨four, areGroups⟩ := isAddress
  obtain ⟨first, second, third, fourth, pieces⟩ := List.length_eq_four.mp four
  have whole := @List.intercalate_splitOn _ text _ _ '.'
  rw [pieces] at areGroups whole
  obtain ⟨nonempty, starts⟩ := isGroup_ends (areGroups first (by simp))
  obtain ⟨otherNonempty, ends⟩ := isGroup_ends (areGroups fourth (by simp))
  obtain ⟨symbol, rest, rfl⟩ := List.exists_cons_of_ne_nil nonempty
  have shape : text = (symbol :: rest ++ '.' :: (second ++ '.' :: (third ++ ['.']))) ++ fourth := by
    rw [← whole]
    simp [List.intercalate]
  constructor
  · simp [shape, starts symbol]
  · rw [shape, List.getLast?_append_of_ne_nil _ otherNonempty,
      List.getLast?_eq_some_getLast otherNonempty]
    exact ends _ (List.getLast_mem otherNonempty)

theorem dot_mem_of_isQuad {isPart : Text → Bool} (quad : isQuad isPart text = true) :
    '.' ∈ text := by
  rw [isQuad, Bool.and_eq_true, beq_iff_eq, length_splitOn] at quad
  exact List.count_pos_iff.mp (by omega)

theorem dot_not_mem_of_isEchoOption (isOption : isEchoOption text = true) : '.' ∉ text := by
  unfold isEchoOption at isOption
  split at isOption
  · next letters =>
      rw [Bool.and_eq_true, List.all_eq_true] at isOption
      intro member
      rcases List.mem_cons.mp member with isMinus | inLetters
      · exact absurd isMinus (by decide)
      · exact absurd (isOption.2 '.' inLetters) (by decide)
  · cases isOption

theorem matchesAt_iff (line : Text) (start size : Nat) :
    matchesAt line start size = true ↔
      isAddressText ((line.drop start).take size) = true ∧
        (line.take start).getLast?.any isWordChar = false ∧
        (line.drop (start + size)).head?.any isWordChar = false := by
  simp only [matchesAt, isQuad_isOctet, Bool.and_eq_true, and_assoc]
  refine and_congr_right fun isAddress => ?_
  obtain ⟨starts, ends⟩ := isAddressText_ends isAddress
  simp only [isEdge, starts, ends, bne_iff_ne, ne_eq, Bool.not_eq_true, Bool.true_eq,
    Bool.not_eq_true]

/-- `isValidIPv4` of `clu_sc` accepts the texts that have an address in them as a word. -/
theorem cluSc_isValidIPv4_iff (single : '\n' ∉ text) :
    CluSc.isValidIPv4 text = true ↔ HasAddressWord text := by
  have search : ((List.range (text.length + 1)).any fun start =>
      (List.range (text.length + 1)).any fun size => matchesAt text start size) = true ↔
        HasAddressWord text := by
    simp only [List.any_eq_true, List.mem_range, matchesAt_iff]
    constructor
    · rintro ⟨start, -, size, -, isAddress, before, after⟩
      refine ⟨text.take start, (text.drop start).take size, text.drop (start + size), ?_,
        isAddress, before, after⟩
      rw [← List.drop_drop, List.take_append_drop, List.take_append_drop]
    · rintro ⟨front, middle, back, rfl, isAddress, before, after⟩
      have size : (front ++ (middle ++ back)).length =
          front.length + (middle.length + back.length) := by
        rw [List.length_append, List.length_append]
      refine ⟨front.length, by omega, middle.length, by omega, ?_⟩
      rw [← List.drop_drop, List.drop_left, List.drop_left, List.take_left, List.take_left]
      exact ⟨isAddress, before, after⟩
  rw [CluSc.isValidIPv4, splitOn_of_not_mem single, List.any_cons, List.any_nil, Bool.or_false,
    Bool.and_eq_true, search, Bool.not_eq_true', and_iff_right_iff_imp]
  rintro ⟨front, middle, back, rfl, isAddress, -⟩
  rw [← Bool.not_eq_true]
  intro isOption
  exact dot_not_mem_of_isEchoOption isOption
    (List.mem_append_right _ (List.mem_append_left _ (dot_mem_of_isQuad isAddress)))

/-! ## The count -/

/-- A text that an unquoted expansion leaves as it is. -/
def IsLiteral (text : Text) : Prop :=
  ∀ symbol ∈ text, isSeparator symbol = false ∧ ['*', '?', '['].contains symbol = false

theorem IsLiteral.expandWord (literal : IsLiteral text) (tools : Tools) :
    expandWord tools text = [text] :=
  expandWord_of_plain tools fun symbol member => (literal symbol member).2

theorem IsLiteral.piece {piece : Text} (literal : IsLiteral text)
    (isPiece : piece ∈ text.splitOn '.') : IsLiteral piece :=
  fun symbol member => literal symbol (mem_of_mem_splitOn isPiece member).1

theorem fields_dots (literal : IsLiteral text) :
    fields (text.map fun symbol => if symbol = '.' then ' ' else symbol) =
      (text.splitOn '.').filter (· ≠ []) := by
  have same : (text.map fun symbol => if symbol = '.' then ' ' else symbol).splitOnP isSeparator =
      text.splitOn '.' := by
    induction text with
    | nil => rfl
    | cons symbol text ih =>
      have later := ih fun symbol member => literal symbol (List.mem_cons_of_mem _ member)
      rw [List.map_cons, List.splitOnP_cons_eq_if_modifyHead, splitOn_cons, later]
      by_cases dot : symbol = '.'
      · rw [if_pos dot, if_pos dot, if_pos (by decide)]
      · rw [if_neg dot, if_neg dot, (literal symbol List.mem_cons_self).1, if_neg (by decide)]
  rw [fields, same]

theorem components_of_isLiteral (shell : Shell) (literal : IsLiteral text) :
    components shell text = (text.splitOn '.').filter (· ≠ []) := by
  have alone : ((text.splitOn '.').filter (· ≠ [])).flatMap (expandWord shell.tools) =
      ((text.splitOn '.').filter (· ≠ [])).flatMap ([·]) := by
    refine List.flatMap_congr fun piece member => ?_
    exact (literal.piece (List.mem_of_mem_filter member)).expandWord _
  rw [components, unquoted, fields_dots literal, alone, List.flatMap_singleton']

theorem testInteger_eq_none (plain : ∀ symbol ∈ part, CText.isPlain symbol = true)
    (notDigits : part.all Char.isDigit = false) : testInteger part = none := by
  rw [testInteger, Option.bind_eq_none_iff]
  intro scanned found
  have notEnd : scanned.rest ≠ [] := by
    intro atEnd
    obtain ⟨sign, digits, ⟨blanks, blank, rfl⟩, nonempty, isDigit, -⟩ :=
      CText.scanDecimal_eq_end_iff.mp (found.trans (by rw [← atEnd]))
    obtain _ | ⟨first, blanks⟩ := blanks
    · rcases sign with _ | _ | _
      · rw [List.nil_append, CText.signText, List.nil_append,
          List.all_eq_true.mpr isDigit] at notDigits
        cases notDigits
      · exact absurd (plain '+' (by simp [CText.signText])) (by decide)
      · exact absurd (plain '-' (by simp [CText.signText])) (by decide)
    · have notBlank := plain first (by simp)
      simp [CText.isPlain, blank first List.mem_cons_self] at notBlank
  simp [notEnd]

theorem isPlain_of_isLooseSymbol (loose : isLooseSymbol symbol = true) :
    CText.isPlain symbol = true := by
  simp only [isLooseSymbol, Bool.or_eq_true, beq_iff_eq] at loose
  rcases loose with (isDigit | rfl) | rfl
  · exact CText.isPlain_of_isDigitOf ((CText.isDigitOf_ten symbol).trans isDigit)
  · decide
  · decide

theorem isAcceptedComponent_eq (shell : Shell) (literal : IsLiteral part)
    (loose : part.all isLooseSymbol = true) :
    isAcceptedComponent shell part = isLoosePart part := by
  simp only [isAcceptedComponent, literal.expandWord, isLoosePart, loose, Bool.and_true]
  by_cases size : 0 < part.length ∧ part.length ≤ 3
  · congr 1
    cases isDigit : part.all Char.isDigit with
    | false =>
      rw [testInteger_eq_none (fun symbol member =>
        isPlain_of_isLooseSymbol (List.all_eq_true.mp loose symbol member)) isDigit]
      rfl
    | true =>
      rw [(short_digits (List.length_pos_iff.mp size.1) size.2 isDigit).1]
      have atMost (number : Nat) :
          (!(decide ((number : Int) < 0) || decide (255 < (number : Int)))) =
            decide (number ≤ 255) := by
        rw [Bool.eq_iff_iff]
        simp
      exact atMost _
  · rw [not_and_or] at size
    rcases size with empty | long
    · simp [empty]
    · simp [long]

theorem echo_of_isLiteral (tools : Tools) (literal : IsLiteral text) (dot : '.' ∈ text) :
    echo tools (unquoted tools text) = text := by
  have isWord : IsWord text :=
    ⟨List.ne_nil_of_mem dot, fun symbol member => (literal symbol member).1⟩
  have noOption : isEchoOption text = false := by
    rw [← Bool.not_eq_true]
    exact fun isOption => dot_not_mem_of_isEchoOption isOption dot
  rw [unquoted, isWord.fields, List.flatMap_singleton, literal.expandWord, echo]
  simp [noOption, joined]

theorem length_filter_brackets (text : Text) :
    text.count '.' ≤ (text.filter fun symbol => ['(', '.', ')'].contains symbol).length ∧
      ((text.filter fun symbol => ['(', '.', ')'].contains symbol).length = text.count '.' ↔
        ∀ symbol ∈ text, symbol ≠ '(' ∧ symbol ≠ ')') := by
  have inner : (text.filter fun symbol => ['(', '.', ')'].contains symbol).filter (· == '.') =
      text.filter (· == '.') := by
    rw [List.filter_filter]
    refine List.filter_congr fun symbol _ => ?_
    by_cases dot : symbol = '.'
    · simp [dot]
    · simp [dot]
  rw [List.count_eq_length_filter, ← inner]
  refine ⟨List.length_filter_le _ _, ?_⟩
  rw [eq_comm, List.length_filter_eq_length_iff]
  constructor
  · refine fun dots symbol member => ⟨?_, ?_⟩ <;>
      · rintro rfl
        exact absurd (dots _ (List.mem_filter.mpr ⟨member, by decide⟩)) (by decide)
  · intro noBracket symbol member
    obtain ⟨inText, isKept⟩ := List.mem_filter.mp member
    simpa [noBracket symbol inText] using isKept

theorem isLooseSymbol_iff (noWildcard : ['*', '?', '['].contains symbol = false) :
    isLooseSymbol symbol = true ↔
      isAddressSymbol symbol = true ∧ symbol ≠ '.' ∧ symbol ≠ '(' ∧ symbol ≠ ')' := by
  have noOpening : symbol ≠ '[' := by
    rintro rfl
    exact absurd noWildcard (by decide)
  simp only [isLooseSymbol, isAddressSymbol, List.contains_cons, List.contains_nil, Bool.or_eq_true,
    Bool.false_eq_true, beq_iff_eq, noOpening, false_or, or_false]
  constructor
  · rintro ((isDigit | rfl) | rfl)
    · refine ⟨.inl isDigit, ?_, ?_, ?_⟩ <;>
        · rintro rfl
          exact absurd isDigit (by decide)
    · decide
    · decide
  · rintro ⟨isDigit | rfl | rfl | rfl | rfl | rfl, noDot, noLeft, noRight⟩
    · exact .inl (.inl isDigit)
    all_goals first | contradiction | simp

section Quads

variable {text : Text} (literal : IsLiteral text)

include literal

theorem isLoosePart_of_accepted (shell : Shell) {piece : Text} (isPiece : piece ∈ text.splitOn '.')
    (symbols : ∀ symbol ∈ text, isAddressSymbol symbol = true)
    (noBracket : ∀ symbol ∈ text, symbol ≠ '(' ∧ symbol ≠ ')')
    (accepted : isAcceptedComponent shell piece = true) : isLoosePart piece = true := by
  rw [← isAcceptedComponent_eq shell (literal.piece isPiece), accepted]
  refine List.all_eq_true.mpr fun symbol member => ?_
  obtain ⟨inText, noDot⟩ := mem_of_mem_splitOn isPiece member
  exact (isLooseSymbol_iff (literal symbol inText).2).mpr
    ⟨symbols symbol inText, noDot, noBracket symbol inText⟩

theorem isAddressSymbol_of_isQuad (quad : isQuad isLoosePart text = true) {symbol : Char}
    (member : symbol ∈ text) :
    isAddressSymbol symbol = true ∧ symbol ≠ '(' ∧ symbol ≠ ')' := by
  by_cases dot : symbol = '.'
  · rw [dot]
    decide
  · obtain ⟨piece, isPiece, inside⟩ := exists_mem_splitOn_iff.mpr ⟨member, dot⟩
    rw [isQuad, Bool.and_eq_true, List.all_eq_true] at quad
    have part := quad.2 piece isPiece
    simp only [isLoosePart, Bool.and_eq_true] at part
    have loose := List.all_eq_true.mp part.1.2 symbol inside
    obtain ⟨isAddress, -, noBracket⟩ := (isLooseSymbol_iff (literal symbol member).2).mp loose
    exact ⟨isAddress, noBracket⟩

theorem isValidIP_eq (shell : Shell) : isValidIP shell text = isQuad isLoosePart text := by
  rw [Bool.eq_iff_iff]
  constructor
  · intro valid
    rw [isValidIP, components_of_isLiteral shell literal] at valid
    by_cases dot : '.' ∈ text
    · rw [echo_of_isLiteral shell.tools literal dot] at valid
      simp only [Bool.and_eq_true, beq_iff_eq, List.all_eq_true] at valid
      obtain ⟨⟨⟨size, four⟩, dots⟩, accepted⟩ := valid
      have few := (length_filter_brackets text).1
      have pieces := @length_splitOn _ _ '.' text
      have atLeast := List.length_filter_le (· ≠ []) (text.splitOn '.')
      rw [dots] at few
      rw [four] at atLeast
      have isFour : (text.splitOn '.').length = 4 := by omega
      have nonempty := List.length_filter_eq_length_iff.mp (four.trans isFour.symm)
      rw [isQuad, isFour, beq_self_eq_true, Bool.true_and, List.all_eq_true]
      intro piece isPiece
      exact isLoosePart_of_accepted literal shell isPiece
        (List.length_filter_eq_length_iff.mp size.symm)
        ((length_filter_brackets text).2.mp (by omega))
        (accepted piece (List.mem_filter.mpr ⟨isPiece, nonempty piece isPiece⟩))
    · rw [splitOn_of_not_mem dot] at valid
      simp only [Bool.and_eq_true, beq_iff_eq] at valid
      have one := List.length_filter_le (· ≠ []) [text]
      rw [valid.1.1.2] at one
      cases Nat.le_of_succ_le_succ one
  · intro quad
    have symbols {symbol : Char} (member : symbol ∈ text) :=
      isAddressSymbol_of_isQuad literal quad member
    have dot := dot_mem_of_isQuad quad
    rw [isQuad, Bool.and_eq_true, beq_iff_eq, List.all_eq_true] at quad
    obtain ⟨four, loose⟩ := quad
    have kept : (text.splitOn '.').filter (· ≠ []) = text.splitOn '.' := by
      refine List.filter_eq_self.mpr fun piece isPiece => ?_
      have part := loose piece isPiece
      simp only [isLoosePart, Bool.and_eq_true, decide_eq_true_eq] at part
      exact decide_eq_true (List.length_pos_iff.mp part.1.1.1)
    have dots := (length_filter_brackets text).2.mpr fun symbol member => (symbols member).2
    have size : (text.filter isAddressSymbol).length = text.length :=
      List.length_filter_eq_length_iff.mpr fun symbol member => (symbols member).1
    have pieces := @length_splitOn _ _ '.' text
    rw [isValidIP, components_of_isLiteral shell literal,
      echo_of_isLiteral shell.tools literal dot, kept, dots]
    simp only [Bool.and_eq_true, beq_iff_eq, List.all_eq_true]
    refine ⟨⟨⟨size.symm, four⟩, by omega⟩, fun piece isPiece => ?_⟩
    have part := loose piece isPiece
    rw [isAcceptedComponent_eq shell (literal.piece isPiece), part]
    simp only [isLoosePart, Bool.and_eq_true] at part
    exact part.1.2

end Quads

/-! ## The checks together -/

theorem isLoosePart_of_isGroup (group : isGroup part = true) : isLoosePart part = true := by
  simp only [isGroup, Bool.and_eq_true, decide_eq_true_eq] at group
  obtain ⟨⟨⟨nonempty, short⟩, isDigit⟩, atMost⟩ := group
  have loose : part.all isLooseSymbol = true := by
    rw [List.all_eq_true] at isDigit ⊢
    intro symbol member
    simp [isLooseSymbol, isDigit symbol member]
  simp [isLoosePart, nonempty, short, loose, atMost]

theorem isQuad_isLoosePart_of_isAddressText (isAddress : isAddressText text = true) :
    isQuad isLoosePart text = true := by
  rw [isAddressText, isQuad, Bool.and_eq_true, List.all_eq_true] at isAddress
  rw [isQuad, Bool.and_eq_true, List.all_eq_true]
  exact ⟨isAddress.1, fun part isPart => isLoosePart_of_isGroup (isAddress.2 part isPart)⟩

/-- The three checks accept exactly the addresses if and only if the text is an address, or neither
is four parts of which those that are numbers are groups, nor has an address as a word in it. -/
theorem isValidIPv4_exact_iff (shell : Shell) {text : Text} (literal : IsLiteral text) :
    ((isValidIP shell text = true ↔ isAddressText text = true) ∧
        (Common.isValidIPv4 shell text = true ↔ isAddressText text = true) ∧
        (CluSc.isValidIPv4 text = true ↔ isAddressText text = true)) ↔
      isAddressText text = true ∨
        isQuad isLoosePart text = false ∧ ¬HasAddressWord text := by
  have single : '\n' ∉ text := fun member => absurd (literal _ member).1 (by decide)
  rw [Common.isValidIPv4, isValidIP_eq literal shell, cluSc_isValidIPv4_iff single]
  by_cases isAddress : isAddressText text = true
  · have hasWord : HasAddressWord text := ⟨[], text, [], by simp, isAddress, rfl, rfl⟩
    simp [isAddress, isQuad_isLoosePart_of_isAddressText isAddress, hasWord]
  · simp [isAddress]

theorem isLiteral_of_all
    (each : (text.all fun symbol => !isSeparator symbol && !(['*', '?', '['].contains symbol)) =
      true) : IsLiteral text := by
  intro symbol member
  simpa using List.all_eq_true.mp each symbol member

theorem isValidIPv4_exact_host :
    (isValidIP plainShell "10.0.0.254".toList = true ↔
        isAddressText "10.0.0.254".toList = true) ∧
      (Common.isValidIPv4 plainShell "10.0.0.254".toList = true ↔
        isAddressText "10.0.0.254".toList = true) ∧
      (CluSc.isValidIPv4 "10.0.0.254".toList = true ↔
        isAddressText "10.0.0.254".toList = true) :=
  (isValidIPv4_exact_iff plainShell (isLiteral_of_all (by decide))).mpr (.inl (by decide +kernel))

/-- All of the checks accept a text that is no address. -/
theorem isValidIPv4_bar :
    IsLiteral "1|2.0.0.9".toList ∧ isValidIP plainShell "1|2.0.0.9".toList = true ∧
      Common.isValidIPv4 plainShell "1|2.0.0.9".toList = true ∧
      CluSc.isValidIPv4 "1|2.0.0.9".toList = true ∧ isAddressText "1|2.0.0.9".toList = false :=
  ⟨isLiteral_of_all (by decide), by decide +kernel, by decide +kernel, by decide +kernel,
    by decide +kernel⟩

end Apos.AddressValidation
