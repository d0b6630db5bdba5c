import Mathlib.Data.Nat.Digits.Defs
import Apos.NetdefRules

/-!
# The checks before a gateway is added

`netdef_add_gw` looks up the addresses of the source network, compares the gateway and the
destination with them and hands the destination network to `update_gateways`.  The search for the
address of node B is that for node A.  This file says which of the conditions that the header of the
function promises hold when `update_gateways` is reached.
-/

namespace Apos.Netdef

open LineEdit ClusterConf DrbdAgent

/-- The end of a run by `console_abort`. -/
structure Refusal where
  message : Text
  status : Nat
  deriving DecidableEq, Repr

def vlanNotFound (vlanName : Text) : Refusal :=
  ⟨"VLAN <".toList ++ vlanName ++ "> not found".toList, 6⟩

def unreasonableValue (value : Text) : Refusal :=
  ⟨"Unreasonable value < ".toList ++ value ++ " >".toList, 22⟩

def networkNotDefined (vlanName : Text) : Refusal :=
  ⟨"Network for VLAN ".toList ++ vlanName ++ " not defined".toList, 39⟩

def gatewayNotUnique : Refusal :=
  ⟨"Network definition conflict: < Gateway IP conflicts with already defined IPs >".toList, 33⟩

def destinationNotUnique : Refusal :=
  ⟨("Network definition conflict: < Destination network conflicts with another already " ++
    "defined network >").toList, 34⟩

def gatewayConflict : Refusal :=
  ⟨"Invalid routing: < Gateway IP conflicts with the source network >".toList, 36⟩

def destinationConflict : Refusal :=
  ⟨"Invalid routing: < Destination network conflicts with the source network >".toList, 38⟩

/-- `OPT_GW_ARG`, `OPT_DEST_ARG` and `OPT_DMASK_ARG`. -/
structure GatewayArguments where
  gateway : Text
  destination : Text
  mask : Text

/-- What `parse_args` accepts. -/
structure GatewayArguments.Accepted (shell : Shell) (args : GatewayArguments) : Prop where
  gateway : isValidIP shell args.gateway = true
  destination : isValidIP shell args.destination = true
  mask : isValidCIDRSubnetMask args.mask = true

def sourceNetwork (vlanName : Text) (tag : Option Nat) : Except Refusal SourceNetwork :=
  if vlanName = "Public".toList then .ok .publicNetwork
  else
    match tag with
    | none => .error (vlanNotFound vlanName)
    | some tag => .ok (.vlan tag)

def destinationNetworkId (shell : Shell) (args : GatewayArguments) : Text :=
  computeNetwork shell args.destination args.mask

/-- The names `default|name|name_gw([0-9])([0-9])*`. -/
def isOwnName (name word : Text) : Bool :=
  word = "default".toList || word = name || isGatewayName name word

/-- The tests in their order, each with what it ends the run with. -/
def gatewayChecks (shell : Shell) (config : Config) (vlanName name : Text)
    (args : GatewayArguments) : List (Bool × Refusal) :=
  let nodeA := nodeIP config name
  let nodeB := nodeIP config name
  let mip := mipIP config name
  let sourceId := networkId config name
  let sourceMask := cidrToSubnetMask shell (slashPiece sourceId 2)
  let destinationId := destinationNetworkId shell args
  [(args.destination = "0.0.0.0".toList, unreasonableValue args.destination),
    (nodeA = [], networkNotDefined vlanName),
    (nodeA = args.gateway, gatewayNotUnique),
    (nodeB = args.gateway, gatewayNotUnique),
    (mip = args.gateway, gatewayNotUnique),
    (args.gateway = slashPiece sourceId 1, gatewayConflict),
    (args.gateway = computeBroadcastAddress shell sourceId, gatewayConflict),
    (computeNetwork shell args.gateway sourceMask ≠ sourceId, gatewayConflict),
    (isSubnetOf shell sourceId destinationId, destinationConflict),
    (!isIPUnique shell config args.gateway (isOwnName name), gatewayNotUnique),
    (!isNetworkUnique shell config (slashPiece destinationId 1) (· = name), destinationNotUnique)]

/-- `netdef_add_gw` up to the call of `update_gateways`, with the first two arguments of it. -/
def netdefAddGw (shell : Shell) (config : Config) (vlanName : Text) (tag : Option Nat)
    (args : GatewayArguments) : Except Refusal (Text × Text) :=
  match sourceNetwork vlanName tag with
  | .error refusal => .error refusal
  | .ok source =>
    match (gatewayChecks shell config vlanName source.name args).find? (·.1) with
    | some check => .error check.2
    | none => .ok (source.name, destinationNetworkId shell args)

def Reaches (shell : Shell) (config : Config) (vlanName : Text) (tag : Option Nat)
    (args : GatewayArguments) : Prop :=
  ∃ handed, netdefAddGw shell config vlanName tag args = .ok handed

/-! ## What is promised -/

def HasAddress (id address : Text) : Prop :=
  id = address ∨ ∃ rest, id = address ++ '/' :: rest

structure Defined (config : Config) (name : Text) (network : NetworkRule) (nodeA nodeB : IpRule)
    (cluster : MipRule) : Prop where
  network : config.networks.filter (fun rule => rule.name.text = name) = [network]
  nodeA : config.ips.filter (fun rule => rule.network.text = name ∧ rule.node.text = ['1']) =
    [nodeA]
  nodeB : config.ips.filter (fun rule => rule.network.text = name ∧ rule.node.text = ['2']) =
    [nodeB]
  cluster : config.mips.filter (fun rule => rule.network.text = name) = [cluster]

structure Promised (config : Config) (name : Text) (args : GatewayArguments) (network : NetworkRule)
    (nodeA nodeB : IpRule) (cluster : MipRule) (gateway destination source : Address)
    (fixed length : Nat) : Prop where
  isGateway : args.gateway = gateway.text
  isDestination : args.destination = destination.text
  isMask : length ≤ 32 ∧ args.mask = (maskAddress length).text
  isSource : fixed ≤ 32 ∧ network.id.text = networkText source fixed
  notNodeA : nodeA.address.text ≠ gateway.text
  notNodeB : nodeB.address.text ≠ gateway.text
  notCluster : cluster.address.text ≠ gateway.text
  inside : gateway.bits ∈ block 32 source.bits fixed
  notNetwork : gateway ≠ networkOf source fixed
  notBroadcast : gateway ≠ broadcastOf source fixed
  notContained : ¬ block 32 source.bits fixed ⊆ block 32 destination.bits length
  notTaken : ∀ rule ∈ config.networks, rule.name.text ≠ name →
    ¬ HasAddress rule.id.text (networkOf destination length).text

/-! ## What the checks ensure -/

theorem reaches_iff {shell : Shell} {config : Config} {vlanName : Text} {tag : Option Nat}
    {args : GatewayArguments} {source : SourceNetwork}
    (isSource : sourceNetwork vlanName tag = .ok source) :
    Reaches shell config vlanName tag args ↔
      ∀ check ∈ gatewayChecks shell config vlanName source.name args, check.1 = false := by
  simp only [Reaches, netdefAddGw, isSource]
  cases found : (gatewayChecks shell config vlanName source.name args).find? (·.1) with
  | none =>
    rw [List.find?_eq_none] at found
    exact iff_of_true ⟨_, rfl⟩ fun check member => by simpa using found check member
  | some check =>
    have isFound : check.1 = true := List.find?_some found
    refine iff_of_false ?_ fun none => ?_
    · rintro ⟨handed, isOk⟩
      cases isOk
    · rw [none check (List.mem_of_find?_eq_some found)] at isFound
      cases isFound

/-- A text that is one word of `grep -w` and begins like the names of the source networks. -/
structure IsName (text : Text) : Prop where
  start : ∃ rest, text = 'p' :: 'u' :: rest
  letters : text.all isWordChar = true

theorem IsName.isPattern {name : Text} (isName : IsName name) : IsPattern name := by
  have nonempty : name ≠ [] := by
    obtain ⟨rest, rfl⟩ := isName.start
    exact List.cons_ne_nil _ _
  have letters := List.all_eq_true.mp isName.letters
  constructor
  · rw [List.head?_eq_some_head nonempty]
    exact letters _ (List.head_mem nonempty)
  · rw [List.getLast?_eq_some_getLast nonempty]
    exact letters _ (List.getLast_mem nonempty)

theorem all_isWordChar_toDigits (number : Nat) :
    (Nat.toDigits 10 number).all isWordChar = true := by
  rw [List.all_eq_true]
  intro symbol member
  rw [isWordChar, Char.isAlphanum, isDigit_of_mem_toDigits member, Bool.or_true, Bool.true_or]

theorem SourceNetwork.isName (source : SourceNetwork) : IsName source.name := by
  cases source with
  | publicNetwork => exact ⟨⟨_, rfl⟩, by decide⟩
  | vlan tag =>
    refine ⟨⟨_, rfl⟩, ?_⟩
    have start : "public_vlan".toList.all isWordChar = true := by decide
    change ("public_vlan".toList ++ Nat.toDigits 10 tag).all isWordChar = true
    rw [List.all_append, start, all_isWordChar_toDigits tag, Bool.true_and]

section Checked

variable {shell : Shell} {config : Config} {source : SourceNetwork}

theorem networkId_eq {rule : NetworkRule} (member : rule ∈ config.networks)
    (isNamed : rule.name.text = source.name) (single : '\n' ∉ networkId config source.name) :
    networkId config source.name = rule.id.text := by
  have inRules : rule.fields ∈ config.networks.map NetworkRule.fields :=
    List.mem_map_of_mem member
  obtain ⟨number, inLines⟩ := exists_mem_display networkWord inRules
  have shape : numbered number (ruleLine networkWord rule.fields) =
      (List.replicate (6 - (Nat.toDigits 10 number).length) ' ' ++ (Nat.toDigits 10 number ++
        '\t' :: networkWord.text)) ++ ' ' :: (source.name ++ ' ' :: rule.id.text) := by
    simp [numbered, ruleLine, NetworkRule.fields, joined, List.intercalate_cons_cons, isNamed]
  have found : foundBounded source.name
      (numbered number (ruleLine networkWord rule.fields)) = true := by
    rw [shape]
    exact foundBoundedFrom_inside source.isName.isPattern none _ _
  have printed : awkField (numbered number (ruleLine networkWord rule.fields)) 4 =
      rule.id.text := by
    rw [awkField, fields_ruleLine]
    rfl
  apply substitution_eq_of_mem _ rule.id.nonempty _ single
  · rw [← printed]
    refine List.mem_map_of_mem (List.mem_filter.mpr ⟨?_, found⟩)
    rw [Config.displayNetworks, display_of_mem networkWord inRules]
    exact List.mem_cons_of_mem _ inLines
  · intro inId
    exact absurd (rule.id.isSpace inId) (by decide)

theorem withoutNames_displayNetworks {rule : NetworkRule} (member : rule ∈ config.networks)
    (otherName : rule.name.text ≠ source.name) :
    ∃ line ∈ withoutNames (· = source.name) config.displayNetworks,
      awkField line 4 = rule.id.text := by
  have inRules : rule.fields ∈ config.networks.map NetworkRule.fields :=
    List.mem_map_of_mem member
  obtain ⟨number, inLines⟩ := exists_mem_display networkWord inRules
  obtain ⟨rest, isName⟩ := source.isName.start
  have notEmpty : decide (([] : Text) = source.name) = false := by simp [isName]
  have other {word : Text} (start : word.take 2 ≠ ['p', 'u']) :
      decide (word = source.name) = false := by
    rw [decide_eq_false_iff_not]
    rintro rfl
    exact start (by rw [isName]; rfl)
  have keepsHeader : hasBetweenSpaces (· = source.name) (header networkWord) = false :=
    hasBetweenSpaces_header (other (by decide)) (other (by decide)) networkWord
  have noNumber : decide (Nat.toDigits 10 number = source.name) = false := by
    rw [decide_eq_false_iff_not, isName]
    intro same
    exact not_mem_toDigits number (show Char.isDigit 'p' = false by decide) (by simp [same])
  have keepsLine : hasBetweenSpaces (· = source.name)
      (numbered number (ruleLine networkWord rule.fields)) = false := by
    rw [hasBetweenSpaces_ruleLine notEmpty noNumber (other (by decide)), NetworkRule.fields]
    simp [otherName]
  refine ⟨numbered number (ruleLine networkWord rule.fields), ?_, ?_⟩
  · rw [Config.displayNetworks, display_of_mem networkWord inRules, withoutNames,
      List.filter_cons_of_pos (by simpa using keepsHeader), List.drop_one, List.tail_cons]
    exact List.mem_filter.mpr ⟨inLines, by simpa using keepsLine⟩
  · rw [awkField, fields_ruleLine]
    rfl

variable {vlanName : Text} {args : GatewayArguments} {network : NetworkRule}
  {nodeA nodeB : IpRule} {cluster : MipRule} {gateway destination : Address}

theorem notTaken_of_isNetworkUnique {length : Nat}
    (unique : isNetworkUnique shell config (networkOf destination length).text (· = source.name) =
      true) :
    ∀ rule ∈ config.networks, rule.name.text ≠ source.name →
      ¬ HasAddress rule.id.text (networkOf destination length).text := by
  intro rule member otherName hasAddress
  have noSlash := not_mem_text (networkOf destination length) (show Char.isDigit '/' = false by
    decide) (by decide)
  have printed : awkPiece '/' rule.id.text 1 = (networkOf destination length).text := by
    rcases hasAddress with same | ⟨rest, same⟩
    · rw [same, awkPiece, splitOn_of_not_mem noSlash]
      rfl
    · rw [same, awkPiece_one_cut noSlash]
  obtain ⟨line, inLines, isId⟩ := withoutNames_displayNetworks member otherName
  have listed : isListed shell (networkOf destination length).text
      ((withoutNames (· = source.name) config.displayNetworks).map fun line =>
        awkPiece '/' (awkField line 4) 1) = true := by
    apply isListed_of_mem
    · rw [← printed, ← isId]
      exact List.mem_map_of_mem inLines
    · exact not_mem_text _ (by decide) (by decide)
    · exact isLiteral_text _
  rw [isNetworkUnique, listed] at unique
  cases unique

/-- Where the addresses are plain and the gateway is none of those of the source network, the checks
ensure what is promised. -/
theorem promised_of_checks
    (none : ∀ check ∈ gatewayChecks shell config vlanName source.name args, check.1 = false)
    (accepted : args.Accepted shell)
    (defined : Defined config source.name network nodeA nodeB cluster)
    (isGateway : args.gateway = gateway.text) (isDestination : args.destination = destination.text)
    (notNodeA : nodeA.address.text ≠ args.gateway) (notNodeB : nodeB.address.text ≠ args.gateway)
    (notCluster : cluster.address.text ≠ args.gateway) :
    ∃ sourceAddress fixed length, Promised config source.name args network nodeA nodeB cluster
      gateway destination sourceAddress fixed length := by
  obtain ⟨length, isShort, isMask⟩ := exists_maskAddress accepted.mask
  have isId : destinationNetworkId shell args =
      networkText (networkOf destination length) length := by
    rw [destinationNetworkId, isDestination, isMask, computeNetwork_text shell destination isShort]
  simp only [gatewayChecks, List.forall_mem_cons, List.not_mem_nil, false_implies, implies_true,
    and_true, decide_eq_false_iff_not, ne_eq, Decidable.not_not, Bool.not_eq_false', isId,
    slashPiece_address, isGateway] at none
  obtain ⟨-, -, -, -, -, notNetwork, notBroadcast, inside, notContained, -, unique⟩ := none
  obtain ⟨fixed, within, isSource⟩ := eq_networkText_of_computeNetwork shell gateway inside
  have member : network ∈ config.networks.filter fun rule => rule.name.text = source.name := by
    rw [defined.network]
    exact List.mem_singleton_self network
  rw [List.mem_filter, decide_eq_true_eq] at member
  have single : '\n' ∉ networkId config source.name := by
    rw [isSource]
    exact newLine_not_mem_networkText _
  have isRule := networkId_eq member.1 member.2 single
  rw [isSource] at notNetwork notBroadcast notContained
  rw [slashPiece_address] at notNetwork
  rw [computeBroadcastAddress_networkText shell _ within] at notBroadcast
  refine ⟨networkOf gateway fixed, fixed, length, ⟨isGateway, isDestination, ⟨isShort, isMask⟩,
    ⟨within, isRule.symm.trans isSource⟩, isGateway ▸ notNodeA, isGateway ▸ notNodeB,
    isGateway ▸ notCluster, ⟨length_bits gateway, (take_bits_networkOf gateway within).symm⟩,
    ?_, ?_, ?_, notTaken_of_isNetworkUnique unique⟩⟩
  · rw [networkOf_networkOf]
    intro same
    exact notNetwork (congrArg Address.text same)
  · intro same
    exact notBroadcast (congrArg Address.text same)
  · rw [← block_networkOf destination isShort, ← isSubnetOf_iff shell _ _ within isShort,
      notContained]
    exact Bool.false_ne_true

end Checked

/-! ## Lookups in a clear configuration -/

/-- Only the rules on the network mention its name, and the numbers of the ip rules leave room for a
blank before them. -/
structure Clear (config : Config) (name : Text) : Prop where
  few : config.ips.length < 100000
  ips : ∀ rule ∈ config.ips, foundBounded name (ruleLine ipWord rule.fields) = true →
    rule.network.text = name
  mips : ∀ rule ∈ config.mips, foundBounded name (ruleLine mipWord rule.fields) = true →
    rule.network.text = name

theorem foundBounded_line {name : Text} (isName : IsName name) {first : Char} {rest line : Text}
    (isLine : line = first :: rest) (different : first ≠ 'p') (number : Nat) :
    foundBounded name (numbered number line) = foundBounded name line := by
  obtain ⟨more, rfl⟩ := isName.start
  obtain ⟨label, shape, isLabel⟩ := mem_label number line
  have absent : 'p' ∉ label := by
    intro member
    rcases isLabel 'p' member with separator | digit
    · exact absurd separator (by decide)
    · exact absurd digit (by decide)
  have alone := @foundBoundedFrom_skip 'p' ('u' :: more) [] rest first (by decide)
    List.not_mem_nil different.symm none
  have behind := @foundBoundedFrom_skip 'p' ('u' :: more) label rest first (by decide) absent
    different.symm none
  rw [foundBounded, foundBounded, shape, isLine, behind]
  exact alone.symm

theorem foundBounded_inside {name : Text} (isName : IsName name) {front rest line : Text}
    (isLine : line = front ++ ' ' :: (name ++ ' ' :: rest)) : foundBounded name line = true := by
  rw [isLine]
  exact foundBoundedFrom_inside isName.isPattern none _ _

theorem grepNodeOne_numbered {line : Text}
    (solid : ∀ symbol ∈ line.head?, CText.isSpace symbol = false) {number : Nat}
    (few : number < 100000) :
    grepNodeOne (numbered number line) =
      ("ip 1".toList.isPrefixOf line && (line.drop 4).head?.any CText.isSpace) := by
  have short : (Nat.toDigits 10 number).length ≤ 5 :=
    Nat.toDigits_length 10 number 5 (by decide) (by omega)
  have someDigit : Nat.toDigits 10 number ≠ [] := Nat.toDigits_ne_nil
  have digitHead : ∀ symbol ∈ (Nat.toDigits 10 number ++ '\t' :: line).head?,
      CText.isSpace symbol = false := by
    intro symbol head
    rw [List.head?_append_of_ne_nil _ someDigit] at head
    exact CText.isSpace_of_isDigit (isDigit_of_mem_toDigits (List.mem_of_head? head))
  have blanks : ∀ symbol ∈ List.replicate (6 - (Nat.toDigits 10 number).length) ' ',
      CText.isSpace symbol = true := by
    intro symbol member
    rw [List.eq_of_mem_replicate member]
    decide
  have unpadded : (numbered number line).dropWhile CText.isSpace =
      Nat.toDigits 10 number ++ '\t' :: line :=
    dropWhile_padded blanks digitHead
  have unnumbered : (Nat.toDigits 10 number ++ '\t' :: line).dropWhile Char.isDigit =
      '\t' :: line :=
    dropWhile_padded (fun _ => isDigit_of_mem_toDigits) (by simp)
  have unspaced : ('\t' :: line).dropWhile CText.isSpace = line :=
    dropWhile_padded (show ∀ symbol ∈ ['\t'], CText.isSpace symbol = true by simp; decide) solid
  have padded : (Nat.toDigits 10 number ++ '\t' :: line).length <
      List.length (numbered number line) := by
    simp only [numbered, List.length_append, List.length_replicate]
    omega
  have digits : ('\t' :: line).length < (Nat.toDigits 10 number ++ '\t' :: line).length := by
    rw [List.length_append]
    have positive := List.length_pos_of_ne_nil someDigit
    omega
  have space : line.length < ('\t' :: line).length := Nat.lt_succ_self _
  simp only [grepNodeOne, unpadded, unnumbered, unspaced, padded, digits, space, decide_true,
    Bool.true_and]

theorem grepNodeOne_ruleLine (rule : IpRule) {number : Nat} (few : number < 100000) :
    grepNodeOne (numbered number (ruleLine ipWord rule.fields)) =
      decide (rule.node.text = ['1']) := by
  obtain ⟨more, isLine⟩ : ∃ more, ruleLine ipWord rule.fields =
      'i' :: 'p' :: ' ' :: (rule.node.text ++ ' ' :: more) :=
    ⟨_, by simp [ruleLine, IpRule.fields, joined, List.intercalate_cons_cons]; rfl⟩
  rw [isLine, grepNodeOne_numbered (by simp; decide) few]
  have inNode {symbol : Char} (member : symbol ∈ rule.node.text) :
      CText.isSpace symbol = false := rule.node.isSpace member
  cases isNode : rule.node.text with
  | nil => exact absurd isNode rule.node.nonempty
  | cons first rest =>
    cases rest with
    | nil =>
      have blank : CText.isSpace ' ' = true := by decide
      have sides : ('1' == first) = decide (first = '1') := by
        rw [Bool.eq_iff_iff, beq_iff_eq, decide_eq_true_eq, eq_comm]
      simp [List.isPrefixOf, blank, sides]
    | cons second rest =>
      have noSpace : CText.isSpace second = false := inNode (by rw [isNode]; simp)
      simp [noSpace]

section Lookups

variable {config : Config} {source : SourceNetwork} {network : NetworkRule}
  {nodeA nodeB : IpRule} {cluster : MipRule}

theorem infix_of_foundBoundedFrom {first second : Char} {pattern : Text}
    (firstLiteral : first ≠ '.') (secondLiteral : second ≠ '.') {before : Option Char} {line : Text}
    (found : foundBoundedFrom (first :: second :: pattern) before line = true) :
    [first, second] <:+: line := by
  induction line generalizing before with
  | nil => simp [foundBoundedFrom, boundedAt, agrees] at found
  | cons symbol line ih =>
    rw [foundBoundedFrom, Bool.or_eq_true] at found
    rcases found with here | later
    · cases line with
      | nil => simp [boundedAt, agrees] at here
      | cons next line =>
        simp only [boundedAt, agrees, Bool.and_eq_true, Bool.or_eq_true, beq_iff_eq,
          firstLiteral, secondLiteral, false_or] at here
        obtain ⟨⟨⟨rfl, rfl, -⟩, -⟩, -⟩ := here
        exact ⟨[], line, rfl⟩
    · exact (ih later).trans (List.suffix_cons symbol line).isInfix

theorem foundBounded_header {name : Text} (isName : IsName name) {line : Text}
    (absent : ¬ ['p', 'u'] <:+: line) : foundBounded name line = false := by
  obtain ⟨rest, rfl⟩ := isName.start
  by_contra found
  exact absent (infix_of_foundBoundedFrom (by decide) (by decide)
    (Bool.eq_true_of_not_eq_false found))

theorem substitution_lookup {α : Type} {keyword : Word} {fieldsOf : α → List Word}
    {grep : Text → Bool} {place limit : Nat} {select : α → Bool} {field : α → Word} {rules : List α}
    {rule : α} (single : rules.filter select = [rule]) (bounded : 1 + rules.length ≤ limit)
    (noHeader : grep (header keyword) = false)
    (same : ∀ rule ∈ rules, ∀ number < limit,
      grep (numbered number (ruleLine keyword (fieldsOf rule))) = select rule ∧
        awkField (numbered number (ruleLine keyword (fieldsOf rule))) place = (field rule).text) :
    substitution (((display keyword (rules.map fieldsOf)).filter grep).map (awkField · place)) =
      (field rule).text := by
  have member : rule ∈ rules := by
    have inFilter : rule ∈ [rule] := List.mem_singleton_self rule
    rw [← single] at inFilter
    exact List.mem_of_mem_filter inFilter
  have selected := @filter_numberFrom_map α (fun rule => ruleLine keyword (fieldsOf rule)) grep
    (awkField · place) select (fun rule => (field rule).text) rules 1 limit bounded same
  rw [display_of_mem keyword (List.mem_map_of_mem member),
    List.filter_cons_of_neg (by rw [noHeader]; exact Bool.false_ne_true), List.map_map]
  refine (congrArg substitution selected).trans ?_
  rw [single]
  apply substitution_singleton
  intro inField
  exact absurd ((field rule).isSpace inField) (by decide)

theorem nodeIP_eq (clear : Clear config source.name)
    (defined : Defined config source.name network nodeA nodeB cluster) :
    nodeIP config source.name = nodeA.address.text := by
  have bounded : 1 + config.ips.length ≤ 100000 := by
    have few := clear.few
    omega
  refine substitution_lookup defined.nodeA bounded ?_ ?_
  · rw [foundBounded_header source.isName (by decide), Bool.false_and]
  · intro rule inRules number few
    obtain ⟨more, start⟩ : ∃ more, ruleLine ipWord rule.fields = 'i' :: more := ⟨_, rfl⟩
    have found : foundBounded source.name (ruleLine ipWord rule.fields) =
        decide (rule.network.text = source.name) := by
      rw [Bool.eq_iff_iff, decide_eq_true_eq]
      refine ⟨clear.ips rule inRules, fun isOn => ?_⟩
      have shape : ruleLine ipWord rule.fields =
          joined [ipWord.text, rule.node.text, rule.interface.text] ++
            ' ' :: (source.name ++ ' ' :: rule.address.text) := by
        simp [ruleLine, IpRule.fields, joined, List.intercalate_cons_cons, isOn]
      exact foundBounded_inside source.isName shape
    rw [foundBounded_line source.isName start (by decide), found, grepNodeOne_ruleLine rule few,
      awkField, fields_ruleLine, Bool.decide_and]
    exact ⟨rfl, rfl⟩

theorem mipIP_eq (clear : Clear config source.name)
    (defined : Defined config source.name network nodeA nodeB cluster) :
    mipIP config source.name = cluster.address.text := by
  refine substitution_lookup defined.cluster (Nat.le_refl _)
    (foundBounded_header source.isName (by decide)) ?_
  intro rule inRules number _
  obtain ⟨more, start⟩ : ∃ more, ruleLine mipWord rule.fields = 'm' :: more := ⟨_, rfl⟩
  have found : foundBounded source.name (ruleLine mipWord rule.fields) =
      decide (rule.network.text = source.name) := by
    rw [Bool.eq_iff_iff, decide_eq_true_eq]
    refine ⟨clear.mips rule inRules, fun isOn => ?_⟩
    have shape : ruleLine mipWord rule.fields =
        joined [mipWord.text, rule.target.text, rule.name.text, rule.interface.text] ++
          ' ' :: (source.name ++ ' ' :: rule.address.text) := by
      simp [ruleLine, MipRule.fields, joined, List.intercalate_cons_cons, isOn]
    exact foundBounded_inside source.isName shape
  rw [foundBounded_line source.isName start (by decide), found, awkField, fields_ruleLine]
  exact ⟨rfl, rfl⟩

end Lookups

def plainShell : Shell where
  tools := ⟨fun word => [word], id, fun _ _ => none, fun _ _ => false⟩
  arith _ := none
  binary _ := []

def samplePublic : NetworkRule :=
  ⟨⟨"public".toList, by decide, by decide⟩, ⟨"10.0.0.0/24".toList, by decide, by decide⟩⟩

def sampleNodeA : IpRule :=
  ⟨⟨['1'], by decide, by decide⟩, ⟨"eth1".toList, by decide, by decide⟩,
    ⟨"public".toList, by decide, by decide⟩, ⟨"10.0.0.1".toList, by decide, by decide⟩⟩

def sampleNodeB : IpRule :=
  ⟨⟨['2'], by decide, by decide⟩, ⟨"eth1".toList, by decide, by decide⟩,
    ⟨"public".toList, by decide, by decide⟩, ⟨"10.0.0.2".toList, by decide, by decide⟩⟩

def sampleCluster : MipRule :=
  ⟨⟨"control".toList, by decide, by decide⟩, ⟨"nbi".toList, by decide, by decide⟩,
    ⟨"eth1:1".toList, by decide, by decide⟩, ⟨"public".toList, by decide, by decide⟩,
    ⟨"10.0.0.3".toList, by decide, by decide⟩⟩

def sampleConfig : Config :=
  ⟨[samplePublic], [sampleNodeA, sampleNodeB], [sampleCluster], []⟩

def sampleArguments (gateway : Text) : GatewayArguments :=
  ⟨gateway, "10.1.0.0".toList, "255.255.0.0".toList⟩

theorem defined_sample :
    Defined sampleConfig "public".toList samplePublic sampleNodeA sampleNodeB sampleCluster :=
  ⟨by decide +kernel, by decide +kernel, by decide +kernel, by decide +kernel⟩

end Apos.Netdef
