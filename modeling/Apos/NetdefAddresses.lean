import Mathlib.Algebra.Ring.Nat
import Apos.AddressBlocks
import Apos.CNumerals
import Apos.DrbdAgentMips

/-!
# IPv4 addresses and networks in netdef

`netdef` computes with addresses as texts.  A dotted text is split at its dots by an unquoted
expansion, its parts are numbers of the arithmetic of the shell, in which a leading zero announces
an octal number, and networks are compared by the binary digits that `bc` prints.
-/

namespace Apos.Netdef

open LineEdit ClusterConf DrbdAgent

/-! ## The shell -/

/-- What the surroundings decide: the expansion of words with wildcards, the value of an
arithmetic expression that is not made of numbers, and the binary digits of a number that is too
long for `printf`. -/
structure Shell where
  tools : Tools
  arith : Text → Option Int
  binary : Text → Text

/-- A number in an arithmetic expression: octal with a leading zero, and decimal otherwise. -/
def constant (text : Text) : Option Nat :=
  let base := if text.head? = some '0' then 8 else 10
  if text ≠ [] ∧ text.all (CText.isDigitOf base) ∧ CText.numberOf base text < 2 ^ 63 then
    some (CText.numberOf base text)
  else none

def value (shell : Shell) (text : Text) : Option Int :=
  match constant text with
  | some number => some number
  | none => shell.arith text

/-- The output of `echo $((...))`, which is empty after an error. -/
def printed : Option Int → Text
  | none => []
  | some (.ofNat number) => Nat.toDigits 10 number
  | some (.negSucc number) => '-' :: Nat.toDigits 10 (number + 1)

/-- `echo $((left symbol right))`. -/
def operate (shell : Shell) (symbol : Char) (operation : Nat → Nat → Nat) (left right : Text) :
    Text :=
  match constant left, constant right with
  | some number, some other => printed (some (operation number other))
  | _, _ => printed (shell.arith (left ++ ' ' :: symbol :: ' ' :: right))

/-- A number of `[`: a row of decimal digits with or without a sign. -/
def testInteger (text : Text) : Option Int :=
  (CText.scanDecimal text).bind fun scanned =>
    let (number, outOfRange) := scanned.toSigned
    if scanned.rest = [] ∧ ¬ outOfRange then some number else none

/-- The array `(${text//./ })`. -/
def components (shell : Shell) (text : Text) : List Text :=
  unquoted shell.tools (text.map fun symbol => if symbol = '.' then ' ' else symbol)

/-- `echo "$text" | awk -F'/' '{ print $number }'`. -/
def slashPiece (text : Text) (number : Nat) : Text :=
  substitution ((text.splitOn '\n').map fun line => awkPiece '/' line number)

/-! ## Masks -/

/-- The words of a text for the field separator `.`: an empty last field is none. -/
def dottedWords (shell : Shell) (text : Text) : List Text :=
  let pieces := text.splitOn '.'
  (if pieces.getLast? = some [] then pieces.dropLast else pieces).flatMap
    (expandWord shell.tools)

/-- The loop of `subnet_mask_to_CIDR`: the number of bits, and whether there was an error. -/
def countMaskBits : Nat → Bool → List Text → Nat × Bool
  | nbits, error, [] => (nbits, error)
  | nbits, error, dec :: more =>
    if dec = "255".toList then countMaskBits (nbits + 8) error more
    else if dec = "254".toList then (nbits + 7, error)
    else if dec = "252".toList then (nbits + 6, error)
    else if dec = "248".toList then (nbits + 5, error)
    else if dec = "240".toList then (nbits + 4, error)
    else if dec = "224".toList then (nbits + 3, error)
    else if dec = "192".toList then (nbits + 2, error)
    else if dec = "128".toList then (nbits + 1, error)
    else if dec = "0".toList then countMaskBits nbits error more
    else countMaskBits nbits true more

/-- `subnet_mask_to_CIDR`, which prints nothing when it fails. -/
def subnetMaskToCIDR (shell : Shell) (subnetMask : Text) : Text :=
  let (nbits, error) := countMaskBits 0 false (dottedWords shell subnetMask)
  if error then [] else Nat.toDigits 10 nbits

def cidrSubnetMasks : List Text :=
  ["0.0.0.0", "128.0.0.0", "192.0.0.0", "224.0.0.0", "240.0.0.0", "248.0.0.0", "252.0.0.0",
    "254.0.0.0", "255.0.0.0", "255.128.0.0", "255.192.0.0", "255.224.0.0", "255.240.0.0",
    "255.248.0.0", "255.252.0.0", "255.254.0.0", "255.255.0.0", "255.255.128.0", "255.255.192.0",
    "255.255.224.0", "255.255.240.0", "255.255.248.0", "255.255.252.0", "255.255.254.0",
    "255.255.255.0", "255.255.255.128", "255.255.255.192", "255.255.255.224", "255.255.255.240",
    "255.255.255.248", "255.255.255.252", "255.255.255.254", "255.255.255.255"].map String.toList

/-- `CIDR_to_subnet_mask`: the range is tested in decimal, the index is an arithmetic
expression. -/
def cidrToSubnetMask (shell : Shell) (cidr : Text) : Text :=
  match testInteger cidr with
  | some number =>
    if 0 ≤ number ∧ number ≤ 32 then
      match value shell cidr with
      | some index => (cidrSubnetMasks[index.toNat]?).getD []
      | none => []
    else []
  | none => []

/-- The masks of `is_valid_CIDR_subnet_mask`: all but that of 31 bits. -/
def isValidCIDRSubnetMask (subnetMask : Text) : Bool :=
  subnetMask ≠ "255.255.255.254".toList && cidrSubnetMasks.contains subnetMask

/-! ## Networks -/

def dotted (parts : Nat → Text) : Text :=
  parts 0 ++ '.' :: (parts 1 ++ '.' :: (parts 2 ++ '.' :: parts 3))

/-- `compute_network`, which prints nothing for a mask that is none. -/
def computeNetwork (shell : Shell) (ipAddress subnetMask : Text) : Text :=
  let cidr := subnetMaskToCIDR shell subnetMask
  if cidr ≠ [] then
    let ipComponent := components shell ipAddress
    let maskComponent := components shell subnetMask
    dotted (fun place => operate shell '&' (· &&& ·) (ipComponent.getD place [])
      (maskComponent.getD place [])) ++ '/' :: cidr
  else []

/-- `(( a = ~part + 256 ))`. -/
def complement (shell : Shell) (part : Text) : Text :=
  match constant part with
  | some number => printed (some (255 - (number : Int)))
  | none => printed (shell.arith ('~' :: part ++ " + 256".toList))

def computeBroadcastAddress (shell : Shell) (networkId : Text) : Text :=
  let networkSubnetMask := cidrToSubnetMask shell (slashPiece networkId 2)
  if networkSubnetMask ≠ [] then
    let ipComponent := components shell (slashPiece networkId 1)
    let maskComponent := components shell networkSubnetMask
    dotted fun place => operate shell '|' (· ||| ·) (ipComponent.getD place [])
      (complement shell (maskComponent.getD place []))
  else []

/-- `dec_to_bin` with eight digits or more. -/
def decToBin (shell : Shell) (dec : Text) : Text :=
  if dec ≠ [] ∧ dec.all Char.isDigit then
    let number := CText.numberOf 10 dec
    if number < 2 ^ 18 then
      let digits := Nat.toDigits 2 number
      List.replicate (8 - digits.length) '0' ++ digits
    else shell.binary dec
  else []

/-- `ip_to_bin`, which prints nothing if a part has no binary digits. -/
def ipToBin (shell : Shell) (ip : Text) : Text :=
  let parts := (components shell ip).map (decToBin shell)
  if [] ∈ parts then [] else parts.flatten

/-- `${text:0:length}`. -/
def firstCharacters (shell : Shell) (text length : Text) : Text :=
  match value shell length with
  | some (.ofNat number) => text.take number
  | some (.negSucc number) => text.take (text.length - (number + 1))
  | none => []

def isSubnetOf (shell : Shell) (subnetAId subnetBId : Text) : Bool :=
  match testInteger (slashPiece subnetAId 2), testInteger (slashPiece subnetBId 2) with
  | some aCidr, some bCidr =>
    decide (bCidr ≤ aCidr) &&
      (firstCharacters shell (ipToBin shell (slashPiece subnetAId 1)) (slashPiece subnetBId 2) ==
        firstCharacters shell (ipToBin shell (slashPiece subnetBId 1)) (slashPiece subnetBId 2))
  | _, _ => false

/-! ## Arguments -/

/-- The characters that `tr -dc "([0-9]|\.)"` keeps. -/
def isAddressSymbol (symbol : Char) : Bool :=
  symbol.isDigit || ['(', '[', ']', '|', '.', ')'].contains symbol

/-- The tests of a component: `[` fails on what is no number, so that such a component passes. -/
def isAcceptedComponent (shell : Shell) (ipComponent : Text) : Bool :=
  let number := match expandWord shell.tools ipComponent with
    | [word] => testInteger word
    | _ => none
  0 < ipComponent.length && ipComponent.length ≤ 3 &&
    !(number.any fun number => number < 0 || 255 < number)

/-- `is_valid_IP` for the fourth version of the protocol. -/
def isValidIP (shell : Shell) (ipAddress : Text) : Bool :=
  let echoed := echo shell.tools (unquoted shell.tools ipAddress)
  let ipComponents := components shell ipAddress
  ipAddress.length == (echoed.filter isAddressSymbol).length && ipComponents.length == 4 &&
    (echoed.filter fun symbol => ['(', '.', ')'].contains symbol).length == 3 &&
    ipComponents.all (isAcceptedComponent shell)

/-! ## Addresses -/

structure Address where
  first : BitVec 8
  second : BitVec 8
  third : BitVec 8
  fourth : BitVec 8
  deriving DecidableEq

def byteText (byte : BitVec 8) : Text :=
  Nat.toDigits 10 byte.toNat

def byteBits (byte : BitVec 8) : List Bool :=
  (List.range 8).map byte.getMsbD

namespace Address

def bytes (address : Address) : List (BitVec 8) :=
  [address.first, address.second, address.third, address.fourth]

def text (address : Address) : Text :=
  dotted fun place => (address.bytes.map byteText).getD place []

def bits (address : Address) : List Bool :=
  address.bytes.flatMap byteBits

/-- An address and one of each byte of another one. -/
def combine (operation : BitVec 8 → BitVec 8 → BitVec 8) (address other : Address) : Address :=
  ⟨operation address.first other.first, operation address.second other.second,
    operation address.third other.third, operation address.fourth other.fourth⟩

end Address

def maskAddress (fixed : Nat) : Address where
  first := ~~~ (255#8 >>> fixed)
  second := ~~~ (255#8 >>> (fixed - 8))
  third := ~~~ (255#8 >>> (fixed - 16))
  fourth := ~~~ (255#8 >>> (fixed - 24))

def networkOf (address : Address) (fixed : Nat) : Address :=
  address.combine (· &&& ·) (maskAddress fixed)

def broadcastOf (address : Address) (fixed : Nat) : Address :=
  address.combine (fun byte other => byte ||| ~~~ other) (maskAddress fixed)

/-- A network as cluster.conf names it. -/
def networkText (address : Address) (fixed : Nat) : Text :=
  address.text ++ '/' :: Nat.toDigits 10 fixed

/-! ## Dotted texts -/

theorem isDigit_of_mem_toDigits {number : Nat} {symbol : Char}
    (member : symbol ∈ Nat.toDigits 10 number) : symbol.isDigit = true :=
  Nat.isDigit_of_mem_toDigits (by decide) (by decide) member

theorem not_mem_toDigits (number : Nat) {symbol : Char} (noDigit : symbol.isDigit = false) :
    symbol ∉ Nat.toDigits 10 number := by
  intro member
  rw [isDigit_of_mem_toDigits member] at noDigit
  cases noDigit

theorem isWord_byteText (byte : BitVec 8) : IsWord (byteText byte) :=
  isWord_digits byte.toNat

theorem expandWord_byteText (tools : Tools) (byte : BitVec 8) :
    expandWord tools (byteText byte) = [byteText byte] :=
  expandWord_of_plain tools fun _ => contains_eq_false
    (List.all_eq_true.mpr fun _ => isDigit_of_mem_toDigits) (by decide)

theorem flatMap_expandWord_bytes (tools : Tools) (bytes : List (BitVec 8)) :
    (bytes.map byteText).flatMap (expandWord tools) = bytes.map byteText := by
  have alone : (bytes.map byteText).flatMap (expandWord tools) =
      (bytes.map byteText).flatMap ([·]) := by
    refine List.flatMap_congr fun word member => ?_
    obtain ⟨byte, -, rfl⟩ := List.mem_map.mp member
    exact expandWord_byteText tools byte
  rw [alone, List.flatMap_singleton']

theorem Address.text_eq (address : Address) :
    address.text = byteText address.first ++ '.' :: (byteText address.second ++ '.' ::
      (byteText address.third ++ '.' :: byteText address.fourth)) :=
  rfl

variable (shell : Shell)

theorem components_text (address : Address) :
    components shell address.text = address.bytes.map byteText := by
  have blanks (byte : BitVec 8) :
      (byteText byte).map (fun symbol => if symbol = '.' then ' ' else symbol) =
        byteText byte := by
    conv_rhs => rw [← List.map_id (byteText byte)]
    refine List.map_congr_left fun symbol member => if_neg ?_
    rintro rfl
    exact not_mem_toDigits byte.toNat (by decide) member
  have split : fields (address.text.map fun symbol => if symbol = '.' then ' ' else symbol) =
      address.bytes.map byteText := by
    rw [Address.text_eq]
    simp only [List.map_append, List.map_cons, blanks, if_true]
    rw [fields_append (by decide), fields_append (by decide), fields_append (by decide)]
    simp only [(isWord_byteText _).fields]
    rfl
  rw [components, unquoted, split, flatMap_expandWord_bytes]

theorem dottedWords_text (address : Address) :
    dottedWords shell address.text = address.bytes.map byteText := by
  have noDot (byte : BitVec 8) : '.' ∉ byteText byte := not_mem_toDigits byte.toNat (by decide)
  have split : address.text.splitOn '.' = address.bytes.map byteText := by
    rw [Address.text_eq, splitOn_cut (noDot _), splitOn_cut (noDot _), splitOn_cut (noDot _),
      splitOn_of_not_mem (noDot _)]
    rfl
  have last : (address.bytes.map byteText).getLast? ≠ some [] := by
    intro isEmpty
    obtain ⟨byte, -, empty⟩ := List.mem_map.mp (List.mem_of_getLast? isEmpty)
    exact (isWord_byteText byte).nonempty empty
  simp only [dottedWords, split]
  rw [if_neg last, flatMap_expandWord_bytes]

/-! ## Arithmetic -/

theorem constant_toDigits {number : Nat} (inRange : number < 2 ^ 63) :
    constant (Nat.toDigits 10 number) = some number := by
  by_cases zero : number = 0
  · subst zero
    rfl
  · have decimal : (Nat.toDigits 10 number).head? ≠ some '0' := by
      intro first
      obtain ⟨rest, shape⟩ := List.head?_eq_some_iff.mp first
      exact CText.head_toDigits_ne_zero (Nat.pos_of_ne_zero zero) rest shape
    have isDigit : (Nat.toDigits 10 number).all (CText.isDigitOf 10) = true :=
      List.all_eq_true.mpr fun symbol member =>
        (CText.isDigitOf_ten symbol).trans (isDigit_of_mem_toDigits member)
    simp only [constant, if_neg decimal, CText.numberOf_toDigits]
    rw [if_pos ⟨Nat.toDigits_ne_nil, isDigit, inRange⟩]

theorem constant_byteText (byte : BitVec 8) : constant (byteText byte) = some byte.toNat :=
  constant_toDigits (Nat.lt_trans byte.isLt (by decide))

theorem testInteger_toDigits {number : Nat} (inRange : number < 2 ^ 63) :
    testInteger (Nat.toDigits 10 number) = some (number : Int) := by
  have scanned : CText.scanDecimal (Nat.toDigits 10 number) = some ⟨false, number, []⟩ :=
    CText.scanDecimal_eq_end_iff.mpr ⟨none, _, ⟨[], List.forall_mem_nil _, rfl⟩,
      Nat.toDigits_ne_nil, fun _ => isDigit_of_mem_toDigits, rfl,
      Nat.ofDigitChars_ten_toDigits.symm⟩
  have fits : CText.Scanned.toSigned ⟨false, number, []⟩ = ((number : Int), false) := by
    simp only [CText.Scanned.toSigned, CText.signed, Bool.false_eq_true, if_false]
    rw [if_neg (by omega), if_neg (by omega)]
  rw [testInteger, scanned, Option.bind_some, fits]
  rfl

theorem operate_and_bytes (byte other : BitVec 8) :
    operate shell '&' (· &&& ·) (byteText byte) (byteText other) = byteText (byte &&& other) := by
  simp only [operate, constant_byteText]
  rw [byteText, BitVec.toNat_and]
  rfl

theorem operate_or_bytes (byte other : BitVec 8) :
    operate shell '|' (· ||| ·) (byteText byte) (byteText other) = byteText (byte ||| other) := by
  simp only [operate, constant_byteText]
  rw [byteText, BitVec.toNat_or]
  rfl

theorem complement_byteText (byte : BitVec 8) :
    complement shell (byteText byte) = byteText (~~~ byte) := by
  have atMost : byte.toNat ≤ 255 := Nat.le_of_lt_succ byte.isLt
  have isNat : (255 - (byte.toNat : Int)) = ((255 - byte.toNat : Nat) : Int) := by omega
  simp only [complement, constant_byteText, isNat]
  rw [byteText, BitVec.toNat_not]
  rfl

/-! ## Masks and networks -/

section Networks

variable (shell : Shell) (address other : Address) {fixed fewer : Nat}

theorem cidrSubnetMasks_eq (within : fixed ≤ 32) :
    (cidrSubnetMasks[fixed]?).getD [] = (maskAddress fixed).text := by
  have each : ∀ fixed < 33, (cidrSubnetMasks[fixed]?).getD [] = (maskAddress fixed).text := by
    decide +kernel
  exact each fixed (Nat.lt_succ_of_le within)

theorem mem_cidrSubnetMasks_iff {mask : Text} :
    mask ∈ cidrSubnetMasks ↔ ∃ fixed ≤ 32, mask = (maskAddress fixed).text := by
  constructor
  · intro member
    obtain ⟨fixed, inTable, rfl⟩ := List.getElem_of_mem member
    have within : fixed ≤ 32 := Nat.le_of_lt_succ inTable
    refine ⟨fixed, within, ?_⟩
    rw [← cidrSubnetMasks_eq within, List.getElem?_eq_getElem inTable]
    rfl
  · rintro ⟨fixed, within, rfl⟩
    have inTable : fixed < cidrSubnetMasks.length := Nat.lt_succ_of_le within
    rw [← cidrSubnetMasks_eq within, List.getElem?_eq_getElem inTable]
    exact List.getElem_mem inTable

theorem exists_maskAddress {mask : Text} (valid : isValidCIDRSubnetMask mask = true) :
    ∃ fixed ≤ 32, mask = (maskAddress fixed).text := by
  rw [isValidCIDRSubnetMask, Bool.and_eq_true, List.contains_iff_mem] at valid
  exact mem_cidrSubnetMasks_iff.mp valid.2

theorem subnetMaskToCIDR_maskAddress (within : fixed ≤ 32) :
    subnetMaskToCIDR shell (maskAddress fixed).text = Nat.toDigits 10 fixed := by
  have each : ∀ fixed < 33,
      countMaskBits 0 false ((maskAddress fixed).bytes.map byteText) = (fixed, false) := by
    decide +kernel
  rw [subnetMaskToCIDR, dottedWords_text, each fixed (Nat.lt_succ_of_le within)]
  rfl

theorem computeNetwork_text (within : fixed ≤ 32) :
    computeNetwork shell address.text (maskAddress fixed).text =
      networkText (networkOf address fixed) fixed := by
  simp only [computeNetwork, subnetMaskToCIDR_maskAddress shell within, components_text]
  rw [if_pos Nat.toDigits_ne_nil, networkText]
  congr 1
  simp only [dotted, Address.text, Address.bytes, List.map_cons, List.map_nil, List.getD_cons_zero,
    List.getD_cons_succ, operate_and_bytes, networkOf, Address.combine]

theorem cidrToSubnetMask_toDigits (within : fixed ≤ 32) :
    cidrToSubnetMask shell (Nat.toDigits 10 fixed) = (maskAddress fixed).text := by
  have small : fixed < 2 ^ 63 := Nat.lt_of_le_of_lt within (by decide)
  have inRange : (0 : Int) ≤ fixed ∧ (fixed : Int) ≤ 32 := by omega
  simp only [cidrToSubnetMask, testInteger_toDigits small, value, constant_toDigits small,
    if_pos inRange, Int.toNat_natCast, cidrSubnetMasks_eq within]

variable {symbol : Char}

theorem not_mem_text (noDigit : symbol.isDigit = false) (noDot : symbol ≠ '.') :
    symbol ∉ address.text := by
  have noByte (byte : BitVec 8) : symbol ∉ byteText byte := not_mem_toDigits byte.toNat noDigit
  simp [Address.text_eq, noByte, noDot]

theorem isLiteral_text : isLiteral address.text = true := by
  rw [isLiteral, List.all_eq_true]
  intro symbol member
  simp only [Bool.not_eq_true', List.contains_eq_mem, decide_eq_false_iff_not, List.mem_cons,
    List.not_mem_nil, or_false]
  rintro (rfl | rfl | rfl | rfl) <;>
    exact not_mem_text address (by decide) (by decide) member

theorem newLine_not_mem_networkText : '\n' ∉ networkText address fixed := by
  have inText : '\n' ∉ address.text := not_mem_text address (by decide) (by decide)
  have inDigits : '\n' ∉ Nat.toDigits 10 fixed := not_mem_toDigits fixed (by decide)
  simp [networkText, inText, inDigits]

theorem substitution_singleton {line : Text} (single : '\n' ∉ line) :
    substitution [line] = line := by
  have last : ∀ symbol ∈ line.getLast?, decide (symbol = '\n') = false := by
    intro symbol member
    rw [decide_eq_false_iff_not]
    rintro rfl
    exact single (List.mem_of_getLast? member)
  rw [substitution, List.flatMap_singleton]
  exact rdropWhile_padded (by simp) last

theorem slashPiece_cut {front : Text} (noSlash : '/' ∉ front) (single : '\n' ∉ front)
    (fixed : Nat) :
    slashPiece (front ++ '/' :: Nat.toDigits 10 fixed) 1 = front ∧
      slashPiece (front ++ '/' :: Nat.toDigits 10 fixed) 2 = Nat.toDigits 10 fixed := by
  have noBreak : '\n' ∉ Nat.toDigits 10 fixed := not_mem_toDigits fixed (by decide)
  have whole : '\n' ∉ front ++ '/' :: Nat.toDigits 10 fixed := by simp [single, noBreak]
  have pieces : (front ++ '/' :: Nat.toDigits 10 fixed).splitOn '/' =
      [front, Nat.toDigits 10 fixed] := by
    rw [splitOn_cut noSlash, splitOn_of_not_mem (not_mem_toDigits fixed (by decide))]
  simp only [slashPiece, splitOn_of_not_mem whole, List.map_singleton, awkPiece, pieces]
  exact ⟨substitution_singleton single, substitution_singleton noBreak⟩

theorem slashPiece_address : slashPiece (networkText address fixed) 1 = address.text :=
  (slashPiece_cut (not_mem_text address (by decide) (by decide))
    (not_mem_text address (by decide) (by decide)) fixed).1

theorem slashPiece_fixed : slashPiece (networkText address fixed) 2 = Nat.toDigits 10 fixed :=
  (slashPiece_cut (not_mem_text address (by decide) (by decide))
    (not_mem_text address (by decide) (by decide)) fixed).2

theorem computeBroadcastAddress_networkText (within : fixed ≤ 32) :
    computeBroadcastAddress shell (networkText address fixed) =
      (broadcastOf address fixed).text := by
  have someMask : (maskAddress fixed).text ≠ [] := by simp [Address.text_eq]
  simp only [computeBroadcastAddress, slashPiece_address, slashPiece_fixed,
    cidrToSubnetMask_toDigits shell within, components_text]
  rw [if_pos someMask]
  simp only [dotted, Address.text, Address.bytes, List.map_cons, List.map_nil, List.getD_cons_zero,
    List.getD_cons_succ, complement_byteText, operate_or_bytes, broadcastOf, Address.combine]

theorem cidrToSubnetMask_cases (cidr : Text) :
    cidrToSubnetMask shell cidr = [] ∨
      ∃ fixed ≤ 32, cidrToSubnetMask shell cidr = (maskAddress fixed).text := by
  unfold cidrToSubnetMask
  split
  · split
    · split
      · next index _ =>
          by_cases within : index.toNat ≤ 32
          · exact .inr ⟨index.toNat, within, cidrSubnetMasks_eq within⟩
          · left
            have outside : cidrSubnetMasks.length ≤ index.toNat := by
              have size : cidrSubnetMasks.length = 33 := rfl
              omega
            rw [List.getElem?_eq_none outside]
            rfl
      · exact .inl rfl
    · exact .inl rfl
  · exact .inl rfl

theorem not_mem_printed (noDigit : symbol.isDigit = false) (noSign : symbol ≠ '-')
    (result : Option Int) : symbol ∉ printed result := by
  rcases result with _ | number
  · exact List.not_mem_nil
  · cases number with
    | ofNat number => exact not_mem_toDigits number noDigit
    | negSucc number =>
      rw [printed, List.mem_cons, not_or]
      exact ⟨noSign, not_mem_toDigits _ noDigit⟩

theorem not_mem_operate (noDigit : symbol.isDigit = false) (noSign : symbol ≠ '-') (operator : Char)
    (operation : Nat → Nat → Nat) (left right : Text) :
    symbol ∉ operate shell operator operation left right := by
  unfold operate
  split <;> exact not_mem_printed noDigit noSign _

theorem eq_networkText_of_computeNetwork {id : Text}
    (same : computeNetwork shell address.text (cidrToSubnetMask shell (slashPiece id 2)) = id) :
    ∃ fixed ≤ 32, id = networkText (networkOf address fixed) fixed := by
  rcases cidrToSubnetMask_cases shell (slashPiece id 2) with none | ⟨fixed, within, isMask⟩
  · have someMask : (maskAddress 0).text ≠ [] := by simp [Address.text_eq]
    have zero : subnetMaskToCIDR shell [] = Nat.toDigits 10 0 := rfl
    rw [none] at same
    simp only [computeNetwork, zero, if_pos Nat.toDigits_ne_nil, dotted] at same
    have piece : slashPiece id 2 = Nat.toDigits 10 0 := by
      rw [← same]
      refine (slashPiece_cut ?_ ?_ 0).2 <;>
        simp [not_mem_operate shell (show Char.isDigit '/' = false by decide) (by decide),
          not_mem_operate shell (show Char.isDigit '\n' = false by decide) (by decide)]
    rw [piece, cidrToSubnetMask_toDigits shell (by decide)] at none
    exact absurd none someMask
  · rw [isMask, computeNetwork_text shell address within] at same
    exact ⟨fixed, within, same.symm⟩

end Networks

/-! ## Bits -/

section Bits

variable (address other : Address) {fixed fewer : Nat}

theorem length_bits : address.bits.length = 32 :=
  rfl

theorem bits_maskAddress (within : fixed ≤ 32) : (maskAddress fixed).bits = maskBits 32 fixed := by
  have each : ∀ fixed < 33, (maskAddress fixed).bits = maskBits 32 fixed := by
    decide +kernel
  exact each fixed (Nat.lt_succ_of_le within)

theorem bits_and : (address.combine (· &&& ·) other).bits =
    List.zipWith and address.bits other.bits := by
  simp [Address.bits, Address.bytes, Address.combine, byteBits, List.range_succ]

theorem bits_networkOf (within : fixed ≤ 32) :
    (networkOf address fixed).bits =
      address.bits.take fixed ++ List.replicate (32 - fixed) false := by
  rw [networkOf, bits_and, bits_maskAddress within]
  exact zipWith_and_maskBits (length_bits address) within

theorem bits_or_not : (address.combine (fun byte mask => byte ||| ~~~ mask) other).bits =
    List.zipWith or address.bits (other.bits.map not) := by
  simp [Address.bits, Address.bytes, Address.combine, byteBits, List.range_succ]

theorem bits_broadcastOf (within : fixed ≤ 32) :
    (broadcastOf address fixed).bits =
      address.bits.take fixed ++ List.replicate (32 - fixed) true := by
  rw [broadcastOf, bits_or_not, bits_maskAddress within]
  exact zipWith_or_maskBits (length_bits address) within

theorem networkOf_networkOf :
    networkOf (networkOf address fixed) fixed = networkOf address fixed := by
  simp [networkOf, Address.combine, BitVec.and_assoc]

theorem take_bits_networkOf (within : fixed ≤ 32) :
    (networkOf address fixed).bits.take fixed = address.bits.take fixed := by
  have size : (address.bits.take fixed).length = fixed := by
    rw [List.length_take, length_bits, Nat.min_eq_left within]
  rw [bits_networkOf address within, List.take_left' size]

theorem block_networkOf (within : fixed ≤ 32) :
    block 32 (networkOf address fixed).bits fixed = block 32 address.bits fixed := by
  rw [block, block, take_bits_networkOf address within]

end Bits

/-! ## Containment -/

def binaryDigit (bit : Bool) : Char :=
  if bit then '1' else '0'

theorem decToBin_byteText (byte : BitVec 8) :
    decToBin shell (byteText byte) = (byteBits byte).map binaryDigit := by
  have each : ∀ number < 256,
      List.replicate (8 - (Nat.toDigits 2 number).length) '0' ++ Nat.toDigits 2 number =
        (byteBits (BitVec.ofNat 8 number)).map binaryDigit := by
    decide +kernel
  have digits := each byte.toNat byte.isLt
  rw [BitVec.ofNat_toNat, BitVec.setWidth_eq] at digits
  have isDecimal : byteText byte ≠ [] ∧ (byteText byte).all Char.isDigit = true :=
    ⟨(isWord_byteText byte).nonempty, List.all_eq_true.mpr fun _ => isDigit_of_mem_toDigits⟩
  have short : byte.toNat < 2 ^ 18 := Nat.lt_trans byte.isLt (by decide)
  rw [decToBin, if_pos isDecimal]
  simp only [byteText, CText.numberOf_toDigits]
  rw [if_pos short, digits]

theorem ipToBin_text (address : Address) :
    ipToBin shell address.text = address.bits.map binaryDigit := by
  have parts : (address.bytes.map byteText).map (decToBin shell) =
      address.bytes.map fun byte => (byteBits byte).map binaryDigit := by
    rw [List.map_map]
    exact List.map_congr_left fun byte _ => decToBin_byteText shell byte
  have someDigits : [] ∉ address.bytes.map fun byte => (byteBits byte).map binaryDigit := by
    simp [byteBits]
  rw [ipToBin, components_text, parts, if_neg someDigits, Address.bits, List.map_flatMap]
  rfl

theorem binaryDigit_injective : Function.Injective binaryDigit := by
  intro bit other same
  revert bit other
  decide

theorem isSubnetOf_iff (address other : Address) {fixed fewer : Nat} (within : fixed ≤ 32)
    (otherWithin : fewer ≤ 32) :
    isSubnetOf shell (networkText address fixed) (networkText other fewer) = true ↔
      block 32 address.bits fixed ⊆ block 32 other.bits fewer := by
  have small : fixed < 2 ^ 63 := Nat.lt_of_le_of_lt within (by decide)
  have otherSmall : fewer < 2 ^ 63 := Nat.lt_of_le_of_lt otherWithin (by decide)
  have first (bits : Address) : firstCharacters shell (bits.bits.map binaryDigit)
      (Nat.toDigits 10 fewer) = (bits.bits.take fewer).map binaryDigit := by
    rw [firstCharacters, value, constant_toDigits otherSmall, List.map_take]
  rw [block_subset_iff (length_bits address) otherWithin]
  simp only [isSubnetOf, slashPiece_fixed, slashPiece_address, testInteger_toDigits small,
    testInteger_toDigits otherSmall, ipToBin_text, first, Bool.and_eq_true, decide_eq_true_eq,
    beq_iff_eq, Int.ofNat_le, (List.map_injective_iff.mpr binaryDigit_injective).eq_iff]

end Apos.Netdef
