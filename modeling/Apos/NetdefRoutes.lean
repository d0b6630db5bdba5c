import Apos.NetdefGateways

/-!
# The routes of a network

`update_gateways` keeps the routes of a network `name` as pairs of rules, `network name_gw<i>` with
the destination and `route control name_gw<i>` with the gateway.  It collects those that are still
compliant, deletes all of them by their numbers in the listings, adds the compliant ones again with
new numbers, does this a second time with another pattern, and then adds the new route or changes
the gateway of one that is there.  This file follows it for IPv4.
-/

namespace Apos.Netdef

open LineEdit ClusterConf DrbdAgent

/-! ## The commands of clusterconf -/

def asWord (text : Text) : Option Word :=
  if isWord : text ≠ [] ∧ (text.all fun symbol => !CText.isSpace symbol) = true then
    some ⟨text, isWord.1, isWord.2⟩
  else none

def rulePlace (number : Text) : Option Nat :=
  if number ≠ [] ∧ number.all Char.isDigit then
    match CText.numberOf 10 number with
    | 0 => none
    | place + 1 => some place
  else none

/-- `clusterconf keyword --m_delete number`. -/
def deleteRule {α : Type} (number : Text) (rules : List α) : List α :=
  match rulePlace number with
  | none => rules
  | some place => rules.eraseIdx place

theorem control_solid :
    ("control".toList.all fun symbol => !CText.isSpace symbol) = true := by
  decide

def controlWord : Word :=
  ⟨"control".toList, List.cons_ne_nil _ _, control_solid⟩

def gatewayWord : Word :=
  ⟨"gateway".toList, by decide, by decide⟩

namespace Config

variable (config : Config)

def hasNetwork (name : Word) : Bool :=
  config.networks.any fun rule => rule.name = name

/-- `clusterconf network --m_add name id`, which refuses a name that exists. -/
def addNetwork (name id : Text) : Config :=
  match asWord name, asWord id with
  | some name, some id =>
    if config.hasNetwork name then config
    else { config with networks := config.networks ++ [⟨name, id⟩] }
  | _, _ => config

/-- `clusterconf route --m_add control name gateway address`, which refuses the name of no network
and a rule that exists. -/
def addRoute (name address : Text) : Config :=
  match asWord name, asWord address with
  | some name, some address =>
    let rule : RouteRule := ⟨controlWord, name, gatewayWord, address⟩
    if config.hasNetwork name ∧ rule ∉ config.routes then
      { config with routes := config.routes ++ [rule] }
    else config
  | _, _ => config

/-- `clusterconf route --m_modify number:route control name gateway address`. -/
def modifyRoute (number name address : Text) : Config :=
  match rulePlace number, asWord name, asWord address with
  | some place, some name, some address =>
    if config.hasNetwork name then
      { config with routes := config.routes.set place ⟨controlWord, name, gatewayWord, address⟩ }
    else config
  | _, _, _ => config

end Config

/-! ## The loops -/

/-- `clusterconf keyword -D | grep "\s\s*...\s\s*" | tail -n -1 | awk '{ print $1 }'`. -/
def lastNumber (grep : Text → Bool) (lines : List Text) : Text :=
  substitution ((lines.filter grep).getLast?.toList.map (awkField · 1))

/-- The loop that deletes the last rule that is found until none is.  Each round deletes one, so
that as many rounds as there are rules are enough. -/
def deleteListed {α : Type} (keyword : Word) (fieldsOf : α → List Word) (accept : Text → Bool) :
    Nat → List α → List α
  | 0, rules => rules
  | rounds + 1, rules =>
    let number := lastNumber (hasBetweenSpaces accept) (display keyword (rules.map fieldsOf))
    if number = [] then rules
    else deleteListed keyword fieldsOf accept rounds (deleteRule number rules)

def Config.deleteNamed (accept : Text → Bool) (config : Config) : Config :=
  { config with
    networks := deleteListed networkWord NetworkRule.fields accept config.networks.length
      config.networks
    routes := deleteListed routeWord RouteRule.fields accept config.routes.length config.routes }

/-- `source_network_name"_gw$i"`. -/
def gatewayName (name : Text) (i : Nat) : Text :=
  name ++ ("_gw".toList ++ Nat.toDigits 10 i)

/-- A name of the form `name_gw*`. -/
def isStemName (name text : Text) : Bool :=
  let start := name ++ "_g".toList
  start.isPrefixOf text && (text.drop start.length).all (· = 'w')

/-- The array `(${text//symbol/ })`. -/
def pieces (shell : Shell) (symbol : Char) (text : Text) : List Text :=
  unquoted shell.tools (text.map fun other => if other = symbol then ' ' else other)

/-- The loop that adds the routes, each of the form `network_id-gateway`. -/
def addRoutes (shell : Shell) (name : Text) : Nat → List Text → Config → Config
  | _, [], config => config
  | i, route :: routes, config =>
    let components := pieces shell '-' route
    let networkName := gatewayName name i
    addRoutes shell name (i + 1) routes
      ((config.addNetwork networkName (components.getD 0 [])).addRoute networkName
        (components.getD 1 []))

/-! ## The function -/

/-- `is_gateway_compliant` for IPv4. -/
def isGatewayCompliant (shell : Shell) (sourceNetworkId networkId gateway : Text) : Bool :=
  let sourceNetworkSubnetMask := cidrToSubnetMask shell (slashPiece sourceNetworkId 2)
  !isSubnetOf shell sourceNetworkId networkId &&
    decide (computeNetwork shell gateway sourceNetworkSubnetMask = sourceNetworkId) &&
    decide (gateway ≠ slashPiece sourceNetworkId 1) &&
    decide (gateway ≠ computeBroadcastAddress shell sourceNetworkId)

/-- `OPT_MIP_ARG` with `OPT_SMASK_ARG`, `OPT_GW_ARG` and `OPT_OVERWRITE`. -/
structure RouteOptions where
  mip : Option (Text × Text)
  gateway : Option Text
  overwrite : Bool

def sourceNetworkId (shell : Shell) (options : RouteOptions) (config : Config) (name : Text) :
    Text :=
  match options.mip with
  | some (mip, mask) => computeNetwork shell mip mask
  | none => networkId config name

def listedRoutes (shell : Shell) (config : Config) (name : Text) : List (Text × Text) :=
  let lines := config.displayNetworks.filter (hasBetweenSpaces (isGatewayName name))
  let networkNamesIds := lines.flatMap fun line =>
    awkField line 3 ++ '-' :: awkField line 4 ++ ['*']
  ((pieces shell '*' networkNamesIds).filter (· ≠ [])).map fun networkNameId =>
    let components := pieces shell '-' networkNameId
    (components.getD 0 [], components.getD 1 [])

/-- `clusterconf route -D | grep -w name | awk '{ print $6 }'`. -/
def routeGateway (config : Config) (name : Text) : Text :=
  substitution ((config.displayRoutes.filter (foundBounded name)).map (awkField · 6))

def compliantRoutes (shell : Shell) (config : Config) (sourceId : Text)
    (listed : List (Text × Text)) : List Text :=
  (listed.filter fun route =>
      isGatewayCompliant shell sourceId route.2 (routeGateway config route.1)).map fun route =>
    route.2 ++ '-' :: routeGateway config route.1

/-- `grep "pattern"`: a part of the line agrees with the pattern. -/
def foundIn (pattern line : Text) : Bool :=
  line.tails.any (agrees pattern)

/-- `clusterconf network -D | grep $destination_id | awk '{ print $1 }'` prints something.  Without
a pattern `grep` fails. -/
def isListedNetwork (config : Config) (destinationId : Text) : Bool :=
  destinationId ≠ [] && substitution ((config.displayNetworks.filter
    (foundIn destinationId)).map (awkField · 1)) ≠ []

def maxAlwdGw : Nat := 5

def networkLimitReached : Refusal :=
  ⟨"Destination network limit reached".toList, 9⟩

/-- The default route, with the network `default` for the public network. -/
def setDefaultRoute (config : Config) (name destinationId gateway : Text) : Config :=
  let numberIn (lines : List Text) :=
    substitution ((lines.filter (foundBounded "default".toList)).map (awkField · 1))
  let named :=
    if name = "public".toList ∧ numberIn config.displayNetworks = [] then
      config.addNetwork "default".toList destinationId
    else config
  let number := numberIn named.displayRoutes
  if number ≠ [] then named.modifyRoute number "default".toList gateway
  else named.addRoute "default".toList gateway

/-- The new route, or the changed one.  The last argument is what `network_name` was left with. -/
def setRoute (config : Config) (name destinationId gateway : Text) (overwrite : Bool)
    (routesCount : Nat) (networkName : Text) : Except Refusal Config :=
  if overwrite = true ∧ isListedNetwork config destinationId = true then
    let number := lastNumber (foundIn networkName) config.displayRoutes
    .ok (if number ≠ [] then config.modifyRoute number networkName gateway else config)
  else if routesCount = maxAlwdGw then .error networkLimitReached
  else
    let networkName := gatewayName name (routesCount + 1)
    .ok ((config.addNetwork networkName destinationId).addRoute networkName gateway)

/-- `network_name` after the loops. -/
def leftNetworkName (name : Text) (routesCount : Nat) (listed : List (Text × Text)) : Text :=
  if routesCount = 0 then (listed.getLast?.map Prod.fst).getD [] else gatewayName name routesCount

def updateGateways (shell : Shell) (options : RouteOptions) (config : Config)
    (name destinationId : Text) (isDefault : Bool) : Except Refusal Config :=
  let listed := listedRoutes shell config name
  let routes := compliantRoutes shell config (sourceNetworkId shell options config name) listed
  let first := addRoutes shell name 1 routes (config.deleteNamed (isGatewayName name))
  let second := addRoutes shell name 1 routes (first.deleteNamed (isStemName name))
  match options.gateway with
  | none => .ok second
  | some gateway =>
    if isDefault then .ok (setDefaultRoute second name destinationId gateway)
    else setRoute second name destinationId gateway options.overwrite routes.length
      (leftNetworkName name routes.length listed)

/-! ## Deleting -/

theorem numberFrom_append (start : Nat) (lines more : List Text) :
    numberFrom start (lines ++ more) =
      numberFrom start lines ++ numberFrom (start + lines.length) more := by
  induction lines generalizing start with
  | nil => rfl
  | cons line lines ih =>
    rw [List.cons_append, numberFrom, numberFrom, ih, List.cons_append, List.length_cons]
    congr 3
    omega

theorem rulePlace_toDigits (place : Nat) :
    rulePlace (Nat.toDigits 10 (place + 1)) = some place := by
  have isNumber : Nat.toDigits 10 (place + 1) ≠ [] ∧
      (Nat.toDigits 10 (place + 1)).all Char.isDigit = true :=
    ⟨Nat.toDigits_ne_nil, List.all_eq_true.mpr fun _ => isDigit_of_mem_toDigits⟩
  rw [rulePlace, if_pos isNumber, CText.numberOf_toDigits]

section Listings

variable {α : Type} {keyword : Word} {fieldsOf : α → List Word} {grep : Text → Bool}

theorem filter_numberFrom_eq_nil {rules : List α}
    (none : ∀ rule ∈ rules, ∀ number,
      grep (numbered number (ruleLine keyword (fieldsOf rule))) = false) (start : Nat) :
    (numberFrom start ((rules.map fieldsOf).map (ruleLine keyword))).filter grep = [] := by
  induction rules generalizing start with
  | nil => rfl
  | cons rule rules ih =>
    rw [List.forall_mem_cons] at none
    rw [List.map_cons, List.map_cons, numberFrom, List.filter_cons_of_neg (by simp [none.1]),
      ih none.2]

theorem lastNumber_display {before after : List α} {rule : α}
    (found : ∀ number, grep (numbered number (ruleLine keyword (fieldsOf rule))) = true)
    (none : ∀ other ∈ after, ∀ number,
      grep (numbered number (ruleLine keyword (fieldsOf other))) = false) :
    lastNumber grep (display keyword ((before ++ rule :: after).map fieldsOf)) =
      Nat.toDigits 10 (before.length + 1) := by
  have member : fieldsOf rule ∈ (before ++ rule :: after).map fieldsOf :=
    List.mem_map_of_mem (by simp)
  have last : ((display keyword ((before ++ rule :: after).map fieldsOf)).filter grep).getLast? =
      some (numbered (before.length + 1) (ruleLine keyword (fieldsOf rule))) := by
    rw [display_of_mem keyword member, List.map_append, List.map_append, numberFrom_append,
      List.map_cons, List.map_cons, numberFrom, ← List.cons_append, List.filter_append,
      List.filter_cons_of_pos (found _), filter_numberFrom_eq_nil none, List.getLast?_append,
      List.getLast?_singleton, Option.some_or, List.length_map, List.length_map, Nat.add_comm 1]
  rw [lastNumber, last, Option.toList_some, List.map_singleton, awkField, fields_ruleLine]
  refine substitution_singleton ?_
  exact not_mem_toDigits _ (by decide)

theorem lastNumber_display_of_none {rules : List α}
    (none : ∀ rule ∈ rules, ∀ number,
      grep (numbered number (ruleLine keyword (fieldsOf rule))) = false)
    (noHeader : grep (header keyword) = false)
    (noRules : grep ("No ".toList ++ keyword.text ++ " rules present.".toList) = false) :
    lastNumber grep (display keyword (rules.map fieldsOf)) = [] := by
  have nothing : (display keyword (rules.map fieldsOf)).filter grep = [] := by
    rw [display]
    split
    · rw [List.filter_cons_of_neg (by rw [noRules]; exact Bool.false_ne_true), List.filter_nil]
    · rw [List.filter_cons_of_neg (by simp [noHeader]), filter_numberFrom_eq_nil none]
  rw [lastNumber, nothing]
  rfl

theorem map_filter_display {print : Text → Text} {select : α → Bool} {field : α → Text}
    (same : ∀ rule number, grep (numbered number (ruleLine keyword (fieldsOf rule))) = select rule ∧
      print (numbered number (ruleLine keyword (fieldsOf rule))) = field rule)
    (noHeader : grep (header keyword) = false)
    (noRules : grep ("No ".toList ++ keyword.text ++ " rules present.".toList) = false)
    (rules : List α) :
    ((display keyword (rules.map fieldsOf)).filter grep).map print =
      (rules.filter select).map field := by
  rw [display]
  split
  · next empty =>
      rw [List.map_eq_nil_iff.mp empty,
        List.filter_cons_of_neg (by rw [noRules]; exact Bool.false_ne_true)]
      rfl
  · rw [List.filter_cons_of_neg (by rw [noHeader]; exact Bool.false_ne_true), List.map_map]
    exact filter_numberFrom_map (Nat.le_refl _) fun rule _ number _ => same rule number

end Listings

theorem exists_last_of_filter_ne_nil {α : Type} {select : α → Bool} {rules : List α}
    (found : rules.filter select ≠ []) :
    ∃ before rule after, rules = before ++ rule :: after ∧ select rule = true ∧
      ∀ other ∈ after, select other = false := by
  induction rules using List.reverseRecOn with
  | nil => exact absurd rfl found
  | append_singleton rules last ih =>
    by_cases selected : select last = true
    · exact ⟨rules, last, [], rfl, selected, List.forall_mem_nil _⟩
    · rw [List.filter_append, List.filter_cons_of_neg selected, List.filter_nil,
        List.append_nil] at found
      obtain ⟨before, rule, after, rfl, isSelected, none⟩ := ih found
      refine ⟨before, rule, after ++ [last], by simp, isSelected, ?_⟩
      rw [List.forall_mem_append]
      exact ⟨none, by simpa using selected⟩

theorem deleteListed_eq_filter {α : Type} {keyword : Word} {fieldsOf : α → List Word}
    {accept : Text → Bool} {select : α → Bool}
    (seen : ∀ rule number, hasBetweenSpaces accept
      (numbered number (ruleLine keyword (fieldsOf rule))) = select rule)
    (noHeader : hasBetweenSpaces accept (header keyword) = false)
    (noRules : hasBetweenSpaces accept
      ("No ".toList ++ keyword.text ++ " rules present.".toList) = false)
    {rounds : Nat} {rules : List α} (enough : rules.length ≤ rounds) :
    deleteListed keyword fieldsOf accept rounds rules = rules.filter fun rule => !select rule := by
  induction rounds generalizing rules with
  | zero =>
    rw [List.length_eq_zero_iff.mp (Nat.le_zero.mp enough)]
    rfl
  | succ rounds ih =>
    by_cases found : rules.filter select = []
    · have none : ∀ rule ∈ rules, select rule = false := by simpa using found
      rw [deleteListed, lastNumber_display_of_none
        (fun rule member number => by rw [seen, none rule member]) noHeader noRules, if_pos rfl,
        List.filter_eq_self.mpr fun rule member => by rw [none rule member]; rfl]
    · obtain ⟨before, rule, after, rfl, isSelected, none⟩ := exists_last_of_filter_ne_nil found
      have number := @lastNumber_display α keyword fieldsOf (hasBetweenSpaces accept) before after
        rule (fun number => by rw [seen, isSelected])
        (fun other member number => by rw [seen, none other member])
      have erased : (before ++ rule :: after).eraseIdx before.length = before ++ after := by
        rw [List.eraseIdx_append_of_length_le (Nat.le_refl _), Nat.sub_self,
          List.eraseIdx_cons_zero]
      rw [List.length_append, List.length_cons] at enough
      rw [deleteListed, number, if_neg Nat.toDigits_ne_nil, deleteRule, rulePlace_toDigits]
      dsimp only
      rw [erased, ih (by rw [List.length_append]; omega), List.filter_append, List.filter_append,
        List.filter_cons_of_neg (by simp [isSelected])]

/-- Only names that begin like those of the source networks are accepted. -/
def AcceptsNames (accept : Text → Bool) : Prop :=
  ∀ word, accept word = true → word.take 2 = ['p', 'u']

theorem AcceptsNames.other {accept : Text → Bool} (names : AcceptsNames accept) {word : Text}
    (different : word.take 2 ≠ ['p', 'u']) : accept word = false := by
  by_contra accepted
  exact different (names word (Bool.eq_true_of_not_eq_false accepted))

theorem AcceptsNames.number {accept : Text → Bool} (names : AcceptsNames accept) (number : Nat) :
    accept (Nat.toDigits 10 number) = false := by
  apply names.other
  intro start
  have member : 'p' ∈ (Nat.toDigits 10 number).take 2 := by
    rw [start]
    exact List.mem_cons_self
  exact not_mem_toDigits number (by decide) (List.mem_of_mem_take member)

variable {text : Text}

theorem take_of_start {source : SourceNetwork} {rest : Text}
    (start : (source.name ++ rest).isPrefixOf text = true) : text.take 2 = ['p', 'u'] := by
  obtain ⟨more, isName⟩ := source.isName.start
  obtain ⟨last, rfl⟩ := List.isPrefixOf_iff_prefix.mp start
  rw [isName]
  rfl

theorem acceptsNames_isGatewayName (source : SourceNetwork) :
    AcceptsNames (isGatewayName source.name) := by
  intro word accepted
  simp only [isGatewayName, Bool.and_eq_true] at accepted
  exact take_of_start accepted.1.1

theorem acceptsNames_isStemName (source : SourceNetwork) :
    AcceptsNames (isStemName source.name) := by
  intro word accepted
  simp only [isStemName, Bool.and_eq_true] at accepted
  exact take_of_start accepted.1

def RouteRule.mentions (accept : Text → Bool) (rule : RouteRule) : Bool :=
  accept rule.target.text || (accept rule.network.text || accept rule.kind.text)

theorem deleteNamed_eq {accept : Text → Bool} (names : AcceptsNames accept) (config : Config) :
    config.deleteNamed accept =
      { config with
        networks := config.networks.filter fun rule => !accept rule.name.text
        routes := config.routes.filter fun rule => !rule.mentions accept } := by
  have notEmpty : accept [] = false := names.other (by decide)
  have noHeader (keyword : Word) : hasBetweenSpaces accept (header keyword) = false :=
    hasBetweenSpaces_header (names.other (by decide)) (names.other (by decide)) keyword
  have networks := @deleteListed_eq_filter NetworkRule networkWord NetworkRule.fields accept
    (fun rule => accept rule.name.text) (fun rule number => by
      rw [hasBetweenSpaces_ruleLine notEmpty (names.number number) (names.other (by decide))]
      simp [NetworkRule.fields]) (noHeader networkWord)
    (hasBetweenSpaces_noRules (names.other (by decide)) (names.other (by decide)))
    config.networks.length config.networks (Nat.le_refl _)
  have routes := @deleteListed_eq_filter RouteRule routeWord RouteRule.fields accept
    (fun rule => rule.mentions accept) (fun rule number => by
      rw [hasBetweenSpaces_ruleLine notEmpty (names.number number) (names.other (by decide))]
      simp [RouteRule.fields, RouteRule.mentions]) (noHeader routeWord)
    (hasBetweenSpaces_noRules (names.other (by decide)) (names.other (by decide)))
    config.routes.length config.routes (Nat.le_refl _)
  rw [Config.deleteNamed, networks, routes]

/-! ## Pieces -/

structure IsPiece (symbol : Char) (text : Text) : Prop where
  isWord : IsWord text
  absent : symbol ∉ text
  literal : isLiteral text = true

variable {symbol : Char}

theorem map_blank_of_not_mem (absent : symbol ∉ text) :
    text.map (fun other => if other = symbol then ' ' else other) = text := by
  rw [List.map_congr_left (g := id), List.map_id]
  intro other member
  rw [if_neg]
  · rfl
  · rintro rfl
    exact absent member

theorem pieces_of_isPiece (isPiece : IsPiece symbol text) (shell : Shell) :
    pieces shell symbol text = [text] := by
  rw [pieces, map_blank_of_not_mem isPiece.absent, unquoted, isPiece.isWord.fields,
    List.flatMap_singleton, expandWord_literal shell.tools isPiece.literal]

theorem pieces_append (isPiece : IsPiece symbol text) (shell : Shell) (rest : Text) :
    pieces shell symbol (text ++ symbol :: rest) = text :: pieces shell symbol rest := by
  rw [pieces, List.map_append, List.map_cons, if_pos rfl, map_blank_of_not_mem isPiece.absent,
    unquoted, fields_append (by decide), isPiece.isWord.fields, List.flatMap_append,
    List.flatMap_singleton, expandWord_literal shell.tools isPiece.literal]
  rfl

theorem pieces_flatMap {texts : List Text} (arePieces : ∀ text ∈ texts, IsPiece symbol text)
    (shell : Shell) : pieces shell symbol (texts.flatMap (· ++ [symbol])) = texts := by
  induction texts with
  | nil => rfl
  | cons text texts ih =>
    rw [List.forall_mem_cons] at arePieces
    rw [List.flatMap_cons, List.append_assoc, List.singleton_append,
      pieces_append arePieces.1, ih arePieces.2]

end Apos.Netdef
