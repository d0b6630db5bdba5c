import Apos.NetdefRoutes

/-!
# What the decisions of netdef about addresses mean

An address stands for thirty-two bits, and a network for the addresses that share its first bits.
This file says which of the decisions of `netdef` are decisions about these sets: containment of
networks always is.  A gateway is given as a text, and the functions that check it do not read a
text in the same way.  `is_valid_IP` reads the parts of a gateway as decimal numbers,
`compute_network` evaluates them by the arithmetic of the shell, and the comparison with the two
reserved addresses of the network is a comparison of texts.  The conversion of a mask stops at the
first part that has both kinds of bits.
-/

namespace Apos.Netdef

open LineEdit ClusterConf DrbdAgent

/-! ## Sets of addresses -/

def addresses (network : Address) (fixed : Nat) : Set Address :=
  {address | address.bits.take fixed = network.bits.take fixed}

theorem exists_byteBits {bits : List Bool} (wide : bits.length = 8) :
    ∃ byte : BitVec 8, byteBits byte = bits := by
  refine ⟨(BitVec.ofBoolListBE bits).cast wide, ?_⟩
  apply List.ext_getElem
  · simp [byteBits, wide]
  · intro index _ inside
    simp [byteBits, BitVec.getMsbD_ofBoolListBE, inside]

theorem exists_bits {word : List Bool} (wide : word.length = 32) :
    ∃ address : Address, address.bits = word := by
  have part (start : Nat) (early : start + 8 ≤ 32) : ((word.drop start).take 8).length = 8 := by
    simp only [List.length_take, List.length_drop, wide]
    omega
  obtain ⟨first, isFirst⟩ := exists_byteBits (part 0 (by decide))
  obtain ⟨second, isSecond⟩ := exists_byteBits (part 8 (by decide))
  obtain ⟨third, isThird⟩ := exists_byteBits (part 16 (by decide))
  obtain ⟨fourth, isFourth⟩ := exists_byteBits (part 24 (by decide))
  refine ⟨⟨first, second, third, fourth⟩, ?_⟩
  have whole : word.drop 24 = (word.drop 24).take 8 := by
    rw [List.take_of_length_le]
    simp [wide]
  simp only [Address.bits, Address.bytes, List.flatMap_cons, List.flatMap_nil, isFirst, isSecond,
    isThird, isFourth, ← whole, List.append_nil, List.drop_zero]
  have cut (start : Nat) : (word.drop start).take 8 ++ word.drop (start + 8) = word.drop start := by
    rw [← List.drop_drop, List.take_append_drop]
  rw [cut 16, cut 8, List.take_append_drop]

theorem addresses_subset_iff (network other : Address) (fixed fewer : Nat) :
    addresses network fixed ⊆ addresses other fewer ↔
      block 32 network.bits fixed ⊆ block 32 other.bits fewer := by
  constructor
  · rintro contained word ⟨wide, agrees⟩
    obtain ⟨address, rfl⟩ := exists_bits wide
    exact ⟨wide, contained agrees⟩
  · intro contained address agrees
    exact (contained ⟨length_bits address, agrees⟩).2

/-- `is_subnet_of` succeeds if and only if every address of the first network is one of the
second. -/
theorem isSubnetOf_iff_addresses_subset (shell : Shell) (network other : Address)
    {fixed fewer : Nat} (within : fixed ≤ 32) (otherWithin : fewer ≤ 32) :
    isSubnetOf shell (networkText network fixed) (networkText other fewer) = true ↔
      addresses network fixed ⊆ addresses other fewer := by
  rw [addresses_subset_iff]
  exact isSubnetOf_iff shell network other within otherWithin

theorem isSubnetOf_iff_addresses_subset_halves :
    isSubnetOf plainShell (networkText ⟨10, 0, 0, 0⟩ 9) (networkText ⟨10, 128, 0, 0⟩ 8) = true ↔
      addresses ⟨10, 0, 0, 0⟩ 9 ⊆ addresses ⟨10, 128, 0, 0⟩ 8 :=
  isSubnetOf_iff_addresses_subset plainShell ⟨10, 0, 0, 0⟩ ⟨10, 128, 0, 0⟩ (by decide) (by decide)

theorem byteBits_injective : Function.Injective byteBits := by
  intro byte other same
  apply BitVec.eq_of_getMsbD_eq
  intro index inside
  have bit := congrArg (fun bits => bits[index]?) same
  simpa [byteBits, inside] using bit

theorem bits_injective : Function.Injective Address.bits := by
  rintro ⟨first, second, third, fourth⟩ ⟨otherFirst, otherSecond, otherThird, otherFourth⟩ same
  have width (byte : BitVec 8) : (byteBits byte).length = 8 := by simp [byteBits]
  simp only [Address.bits, Address.bytes, List.flatMap_cons, List.flatMap_nil,
    List.append_nil] at same
  obtain ⟨sameFirst, same⟩ := List.append_inj same (by rw [width, width])
  obtain ⟨sameSecond, same⟩ := List.append_inj same (by rw [width, width])
  obtain ⟨sameThird, sameFourth⟩ := List.append_inj same (by rw [width, width])
  rw [byteBits_injective sameFirst, byteBits_injective sameSecond, byteBits_injective sameThird,
    byteBits_injective sameFourth]

section Networks

variable (source address : Address) {fixed : Nat}

theorem mem_addresses_iff (within : fixed ≤ 32) :
    address ∈ addresses source fixed ↔ networkOf address fixed = networkOf source fixed := by
  constructor
  · intro agrees
    apply bits_injective
    rw [bits_networkOf address within, bits_networkOf source within, show _ = _ from agrees]
  · intro same
    have start := congrArg (fun network : Address => network.bits.take fixed) same
    rwa [take_bits_networkOf address within, take_bits_networkOf source within] at start

theorem addresses_networkOf (within : fixed ≤ 32) :
    addresses (networkOf source fixed) fixed = addresses source fixed := by
  rw [addresses, addresses, take_bits_networkOf source within]

end Networks

/-! ## Texts of addresses -/

theorem byteText_injective : Function.Injective byteText := by
  intro byte other same
  have number := congrArg constant same
  rw [constant_byteText, constant_byteText, Option.some_inj] at number
  exact BitVec.eq_of_toNat_eq number

theorem text_injective : Function.Injective Address.text := by
  rintro ⟨first, second, third, fourth⟩ ⟨otherFirst, otherSecond, otherThird, otherFourth⟩ same
  have parts := congrArg (components plainShell) same
  rw [components_text, components_text] at parts
  have bytes := List.map_injective_iff.mpr byteText_injective parts
  simp only [Address.bytes, List.cons.injEq, and_true] at bytes
  obtain ⟨rfl, rfl, rfl, rfl⟩ := bytes
  rfl

theorem networkText_inj {network other : Address} {fixed : Nat} :
    networkText network fixed = networkText other fixed ↔ network = other := by
  constructor
  · intro same
    apply text_injective
    rw [← slashPiece_address network, same, slashPiece_address]
  · rintro rfl
    rfl

theorem splitOn_dotted {parts : Nat → Text} (whole : ∀ place, '.' ∉ parts place) :
    (dotted parts).splitOn '.' = [parts 0, parts 1, parts 2, parts 3] := by
  rw [dotted, splitOn_cut (whole 0), splitOn_cut (whole 1), splitOn_cut (whole 2),
    splitOn_of_not_mem (whole 3)]

theorem dotted_inj {parts others : Nat → Text} (whole : ∀ place, '.' ∉ parts place)
    (otherWhole : ∀ place, '.' ∉ others place) :
    dotted parts = dotted others ↔ ∀ place < 4, parts place = others place := by
  constructor
  · intro same
    have pieces := congrArg (List.splitOn '.') same
    rw [splitOn_dotted whole, splitOn_dotted otherWhole] at pieces
    simp only [List.cons.injEq, and_true] at pieces
    intro place small
    match place, small with
    | 0, _ => exact pieces.1
    | 1, _ => exact pieces.2.1
    | 2, _ => exact pieces.2.2.1
    | 3, _ => exact pieces.2.2.2
  · intro same
    simp only [dotted, same 0 (by decide), same 1 (by decide), same 2 (by decide),
      same 3 (by decide)]

def decimalByte (part : Text) : Option (BitVec 8) :=
  if part ≠ [] ∧ part.all Char.isDigit ∧ CText.numberOf 10 part < 256 then
    some (BitVec.ofNat 8 (CText.numberOf 10 part))
  else none

def decimalAddress (parts : List Text) : Option Address :=
  match parts.map decimalByte with
  | [some first, some second, some third, some fourth] => some ⟨first, second, third, fourth⟩
  | _ => none

theorem decimalByte_byteText (byte : BitVec 8) : decimalByte (byteText byte) = some byte := by
  have isNumber : CText.numberOf 10 (byteText byte) = byte.toNat := CText.numberOf_toDigits _
  have isDecimal : (byteText byte).all Char.isDigit = true :=
    List.all_eq_true.mpr fun _ => isDigit_of_mem_toDigits
  rw [decimalByte, if_pos ⟨(isWord_byteText byte).nonempty, isDecimal, isNumber ▸ byte.isLt⟩,
    isNumber, BitVec.ofNat_toNat, BitVec.setWidth_eq]

theorem decimalAddress_text (shell : Shell) (address : Address) :
    decimalAddress (components shell address.text) = some address := by
  rw [components_text]
  simp only [decimalAddress, Address.bytes, List.map_cons, List.map_nil, decimalByte_byteText]

/-! ## Gateways -/

/-- An address of the network that is none of its two reserved ones. -/
def IsHost (source : Address) (fixed : Nat) (address : Address) : Prop :=
  address ∈ addresses source fixed ∧ address ≠ networkOf source fixed ∧
    address ≠ broadcastOf source fixed

/-- The parts of the text, taken as decimal numbers, are a host of the network. -/
def IsDecimalHost (shell : Shell) (source : Address) (fixed : Nat) (gateway : Text) : Prop :=
  ∃ address, decimalAddress (components shell gateway) = some address ∧
    IsHost source fixed address

/-- Under the mask, each part is the number of the network: a row of digits as a number, octal with
a leading zero and decimal otherwise, and any other part by the value of the expression. -/
def IsEvaluatedInto (shell : Shell) (source : Address) (fixed : Nat) (gateway : Text) : Prop :=
  ∀ place < 4,
    let part := (components shell gateway).getD place []
    let mask := (maskAddress fixed).bytes.getD place 0
    let byte := (networkOf source fixed).bytes.getD place 0
    match constant part with
    | some number => number &&& mask.toNat = byte.toNat
    | none => shell.arith (part ++ ' ' :: '&' :: ' ' :: byteText mask) = some (byte.toNat : Int)

section Gateways

variable (shell : Shell) (source destination : Address) {fixed fewer : Nat}

theorem broadcastOf_networkOf (within : fixed ≤ 32) :
    broadcastOf (networkOf source fixed) fixed = broadcastOf source fixed := by
  apply bits_injective
  rw [bits_broadcastOf _ within, bits_broadcastOf _ within, take_bits_networkOf source within]

theorem isGatewayCompliant_computeNetwork (within : fixed ≤ 32) (otherWithin : fewer ≤ 32)
    (gateway : Text) :
    isGatewayCompliant shell (computeNetwork shell source.text (maskAddress fixed).text)
        (computeNetwork shell destination.text (maskAddress fewer).text) gateway = true ↔
      ¬addresses source fixed ⊆ addresses destination fewer ∧
        computeNetwork shell gateway (maskAddress fixed).text =
          networkText (networkOf source fixed) fixed ∧
        gateway ≠ (networkOf source fixed).text ∧ gateway ≠ (broadcastOf source fixed).text := by
  rw [computeNetwork_text shell source within, computeNetwork_text shell destination otherWithin,
    ← addresses_networkOf source within, ← addresses_networkOf destination otherWithin,
    addresses_subset_iff, ← isSubnetOf_iff shell _ _ within otherWithin]
  simp only [isGatewayCompliant, slashPiece_fixed, slashPiece_address,
    cidrToSubnetMask_toDigits shell within, computeBroadcastAddress_networkText shell _ within,
    broadcastOf_networkOf source within, Bool.and_eq_true, Bool.not_eq_true', decide_eq_true_eq,
    Bool.not_eq_true, and_assoc]

theorem printed_eq_toDigits_iff {result : Option Int} {number : Nat} :
    printed result = Nat.toDigits 10 number ↔ result = some (number : Int) := by
  constructor
  · intro same
    rcases result with _ | other | other
    · exact absurd same.symm Nat.toDigits_ne_nil
    · have value := congrArg (CText.numberOf 10) same
      rw [printed, CText.numberOf_toDigits, CText.numberOf_toDigits] at value
      rw [value]
      rfl
    · have sign : '-' ∈ Nat.toDigits 10 number := same ▸ List.mem_cons_self
      exact absurd sign (not_mem_toDigits number (by decide))
  · rintro rfl
    rfl

theorem operate_and_eq_iff (part : Text) (mask byte : BitVec 8) :
    operate shell '&' (· &&& ·) part (byteText mask) = byteText byte ↔
      match constant part with
      | some number => number &&& mask.toNat = byte.toNat
      | none =>
        shell.arith (part ++ ' ' :: '&' :: ' ' :: byteText mask) = some (byte.toNat : Int) := by
  simp only [operate, constant_byteText]
  cases constant part with
  | some number =>
    exact printed_eq_toDigits_iff.trans (Option.some_inj.trans Int.ofNat_inj)
  | none => exact printed_eq_toDigits_iff

theorem computeNetwork_eq_iff_isEvaluatedInto (within : fixed ≤ 32) (gateway : Text) :
    computeNetwork shell gateway (maskAddress fixed).text =
        networkText (networkOf source fixed) fixed ↔
      IsEvaluatedInto shell source fixed gateway := by
  have noDot : Char.isDigit '.' = false := by decide
  simp only [computeNetwork, subnetMaskToCIDR_maskAddress shell within, components_text]
  rw [if_pos Nat.toDigits_ne_nil, networkText, List.append_left_inj, Address.text, dotted_inj]
  · refine forall₂_congr fun place small => ?_
    obtain rfl | rfl | rfl | rfl : place = 0 ∨ place = 1 ∨ place = 2 ∨ place = 3 := by omega
    all_goals exact operate_and_eq_iff shell _ _ _
  · intro place
    exact not_mem_operate shell noDot (by decide) _ _ _ _
  · intro place member
    rw [List.getD_eq_getElem?_getD] at member
    cases found : ((networkOf source fixed).bytes.map byteText)[place]? with
    | none => simp [found] at member
    | some part =>
      obtain ⟨byte, -, rfl⟩ := List.mem_map.mp (List.mem_of_getElem? found)
      rw [found] at member
      exact not_mem_toDigits byte.toNat noDot member

theorem isGatewayCompliant_text (within : fixed ≤ 32) (otherWithin : fewer ≤ 32)
    (address : Address) :
    isGatewayCompliant shell (computeNetwork shell source.text (maskAddress fixed).text)
        (computeNetwork shell destination.text (maskAddress fewer).text) address.text = true ↔
      ¬addresses source fixed ⊆ addresses destination fewer ∧ IsHost source fixed address := by
  rw [isGatewayCompliant_computeNetwork shell source destination within otherWithin,
    computeNetwork_text shell address within, networkText_inj, IsHost,
    mem_addresses_iff source address within, Ne, Ne, text_injective.eq_iff, text_injective.eq_iff]

/-- `is_gateway_compliant` decides whether a gateway is a host of a source network that is not
contained in the destination if the gateway is written without leading zeros, if the source network
is contained in the destination, and otherwise when the decimal numbers of the gateway are a host
exactly if the numbers that the shell reads, octal after a zero, are those of the network. -/
theorem isGatewayCompliant_iff_isDecimalHost (within : fixed ≤ 32) (otherWithin : fewer ≤ 32)
    (gateway : Text) :
    (isGatewayCompliant shell (computeNetwork shell source.text (maskAddress fixed).text)
          (computeNetwork shell destination.text (maskAddress fewer).text) gateway = true ↔
        ¬addresses source fixed ⊆ addresses destination fewer ∧
          IsDecimalHost shell source fixed gateway) ↔
      (∃ address : Address, gateway = address.text) ∨
        addresses source fixed ⊆ addresses destination fewer ∨
        (IsDecimalHost shell source fixed gateway ↔
          IsEvaluatedInto shell source fixed gateway) := by
  by_cases canonical : ∃ address : Address, gateway = address.text
  · obtain ⟨address, rfl⟩ := canonical
    have isDecimal : IsDecimalHost shell source fixed address.text ↔
        IsHost source fixed address := by
      simp [IsDecimalHost, decimalAddress_text]
    rw [isGatewayCompliant_text shell source destination within otherWithin, isDecimal]
    exact iff_of_true Iff.rfl (.inl ⟨address, rfl⟩)
  · have otherText (address : Address) : gateway ≠ address.text :=
      fun same => canonical ⟨address, same⟩
    rw [isGatewayCompliant_computeNetwork shell source destination within otherWithin,
      computeNetwork_eq_iff_isEvaluatedInto shell source within]
    have distinct : gateway ≠ (networkOf source fixed).text ∧
        gateway ≠ (broadcastOf source fixed).text := ⟨otherText _, otherText _⟩
    by_cases contained : addresses source fixed ⊆ addresses destination fewer
    · simp [contained]
    · simp only [contained, canonical, distinct, not_false_eq_true, true_and, false_or, and_true,
        ne_eq]
      exact Iff.comm

end Gateways

theorem isGatewayCompliant_iff_isDecimalHost_plain :
    isGatewayCompliant plainShell
        (computeNetwork plainShell "8.0.0.1".toList (maskAddress 8).text)
        (computeNetwork plainShell "10.0.0.0".toList (maskAddress 8).text) "8.0.0.9".toList =
          true ↔
      ¬addresses ⟨8, 0, 0, 1⟩ 8 ⊆ addresses ⟨10, 0, 0, 0⟩ 8 ∧
        IsDecimalHost plainShell ⟨8, 0, 0, 1⟩ 8 "8.0.0.9".toList :=
  (isGatewayCompliant_iff_isDecimalHost plainShell ⟨8, 0, 0, 1⟩ ⟨10, 0, 0, 0⟩ (by decide)
    (by decide) "8.0.0.9".toList).mpr (.inl ⟨⟨8, 0, 0, 9⟩, by decide⟩)

/-- The gateway `010.0.0.9` is accepted as one of the network `8.0.0.0/8`, since the shell reads
its first part as an octal number. -/
theorem isGatewayCompliant_octal :
    isValidIP plainShell "010.0.0.9".toList = true ∧
      isGatewayCompliant plainShell
        (computeNetwork plainShell "8.0.0.1".toList (maskAddress 8).text)
        (computeNetwork plainShell "10.0.0.0".toList (maskAddress 8).text) "010.0.0.9".toList =
          true ∧
      ¬(¬addresses ⟨8, 0, 0, 1⟩ 8 ⊆ addresses ⟨10, 0, 0, 0⟩ 8 ∧
        IsDecimalHost plainShell ⟨8, 0, 0, 1⟩ 8 "010.0.0.9".toList) := by
  refine ⟨by decide +kernel, by decide +kernel, ?_⟩
  rintro ⟨-, address, isDecimal, inNetwork, -⟩
  have read : decimalAddress (components plainShell "010.0.0.9".toList) =
      some ⟨10, 0, 0, 9⟩ := by decide +kernel
  obtain rfl := Option.some_inj.mp (read.symm.trans isDecimal)
  exact absurd inNetwork (by rw [addresses, Set.mem_ofPred_eq]; decide)

/-! ## Masks -/

/-- The parts of a mask at which `subnet_mask_to_CIDR` stops. -/
def isPartialPart (dec : Text) : Bool :=
  (["254", "252", "248", "240", "224", "192", "128"].map String.toList).contains dec

def isForeignPart (dec : Text) : Bool :=
  dec ≠ "255".toList && dec ≠ "0".toList

theorem countMaskBits_error (nbits : Nat) (error : Bool) (parts : List Text) :
    (countMaskBits nbits error parts).2 =
      (error || (parts.takeWhile fun dec => !isPartialPart dec).any isForeignPart) := by
  induction parts generalizing nbits error with
  | nil => simp [countMaskBits]
  | cons dec parts ih =>
    by_cases partialPart : isPartialPart dec = true
    · rw [List.takeWhile_cons_of_neg (by simp [partialPart]), List.any_nil, Bool.or_false]
      simp only [isPartialPart, List.map_cons, List.map_nil, List.contains_iff_mem, List.mem_cons,
        List.not_mem_nil, or_false] at partialPart
      obtain rfl | rfl | rfl | rfl | rfl | rfl | rfl := partialPart <;> rfl
    · rw [List.takeWhile_cons_of_pos (by simp [partialPart]), List.any_cons]
      simp only [isPartialPart, List.map_cons, List.map_nil, List.contains_iff_mem, List.mem_cons,
        List.not_mem_nil, or_false, not_or] at partialPart
      obtain ⟨no254, no252, no248, no240, no224, no192, no128⟩ := partialPart
      rw [countMaskBits, if_neg no254, if_neg no252, if_neg no248, if_neg no240, if_neg no224,
        if_neg no192, if_neg no128]
      split
      · next isOnes => rw [ih, isOnes]; rfl
      · next notOnes =>
          split
          · next isZero => rw [ih, isZero]; rfl
          · next notZero =>
              have foreign : isForeignPart dec = true := by
                rw [isForeignPart, decide_eq_true notOnes, decide_eq_true notZero]
                rfl
              rw [ih, foreign, Bool.true_or, Bool.or_true]

theorem subnetMaskToCIDR_eq_nil_iff (shell : Shell) (subnetMask : Text) :
    subnetMaskToCIDR shell subnetMask = [] ↔
      ∃ dec ∈ (dottedWords shell subnetMask).takeWhile fun dec => !isPartialPart dec,
        isForeignPart dec = true := by
  have found := countMaskBits_error 0 false (dottedWords shell subnetMask)
  rw [Bool.false_or] at found
  rw [← List.any_eq_true, ← found, subnetMaskToCIDR]
  rcases countMaskBits 0 false (dottedWords shell subnetMask) with ⟨nbits, _ | _⟩ <;>
    simp [Nat.toDigits_ne_nil]

/-- `subnet_mask_to_CIDR` converts the masks and fails for all other texts if and only if the text
is a mask or has a part that is none of a mask in front of its first partial one. -/
theorem subnetMaskToCIDR_converts_iff (shell : Shell) (subnetMask : Text) :
    ((∀ fixed, subnetMaskToCIDR shell subnetMask = Nat.toDigits 10 fixed ↔
          fixed ≤ 32 ∧ cidrToSubnetMask shell (Nat.toDigits 10 fixed) = subnetMask) ∧
        ((∀ fixed ≤ 32, cidrToSubnetMask shell (Nat.toDigits 10 fixed) ≠ subnetMask) →
          subnetMaskToCIDR shell subnetMask = [])) ↔
      subnetMask ∈ cidrSubnetMasks ∨
        ∃ dec ∈ (dottedWords shell subnetMask).takeWhile fun dec => !isPartialPart dec,
          isForeignPart dec = true := by
  rw [← subnetMaskToCIDR_eq_nil_iff, mem_cidrSubnetMasks_iff]
  constructor
  · rintro ⟨-, fails⟩
    by_cases isMask : ∃ fixed ≤ 32, subnetMask = (maskAddress fixed).text
    · exact .inl isMask
    · right
      refine fails fun fixed within same => isMask ⟨fixed, within, ?_⟩
      rw [← same, cidrToSubnetMask_toDigits shell within]
  · rintro (⟨fixed, within, rfl⟩ | failed)
    · rw [subnetMaskToCIDR_maskAddress shell within]
      refine ⟨fun other => ⟨fun same => ?_, fun ⟨otherWithin, same⟩ => ?_⟩, fun noMask => ?_⟩
      · have number := congrArg (CText.numberOf 10) same
        rw [CText.numberOf_toDigits, CText.numberOf_toDigits] at number
        subst number
        exact ⟨within, cidrToSubnetMask_toDigits shell within⟩
      · rw [cidrToSubnetMask_toDigits shell otherWithin] at same
        rw [← subnetMaskToCIDR_maskAddress shell otherWithin, same,
          subnetMaskToCIDR_maskAddress shell within]
      · exact absurd (cidrToSubnetMask_toDigits shell within) (noMask fixed within)
    · refine ⟨fun fixed => ⟨fun same => ?_, fun ⟨within, same⟩ => ?_⟩, fun _ => failed⟩
      · exact absurd (failed.symm.trans same).symm Nat.toDigits_ne_nil
      · rw [← same, cidrToSubnetMask_toDigits shell within,
          subnetMaskToCIDR_maskAddress shell within] at failed
        exact absurd failed Nat.toDigits_ne_nil

/-- The text `255.254.255.0` is no mask, and is taken for one of fifteen bits. -/
theorem subnetMaskToCIDR_partial :
    subnetMaskToCIDR plainShell "255.254.255.0".toList = Nat.toDigits 10 15 ∧
      ∀ fixed ≤ 32,
        cidrToSubnetMask plainShell (Nat.toDigits 10 fixed) ≠ "255.254.255.0".toList := by
  decide +kernel

end Apos.Netdef
