import Mathlib.Data.List.ModifyLast
import Mathlib.Data.List.Nodup
import Apos.NetdefRoutes

/-!
# The routes after an update

The routes of a network are pairs of a destination and a gateway.  This file says what
`update_gateways` makes of them, and when that is the compliant pairs in their order with the new
pair at the end or with its gateway in the place of the old one.
-/

namespace Apos.Netdef

open LineEdit ClusterConf DrbdAgent

/-! ## Routes as rules -/

def isAddressLetter (symbol : Char) : Bool :=
  symbol.isDigit || "abcdefABCDEF.:/".toList.contains symbol

structure AddressWord extends Word where
  plain : text.all isAddressLetter = true
  deriving DecidableEq

structure Route where
  destination : AddressWord
  gateway : AddressWord
  deriving DecidableEq

def Route.text (route : Route) : Text :=
  route.destination.text ++ '-' :: route.gateway.text

theorem isPiece_of_all {allowed : Char → Bool} {text : Text} (nonempty : text ≠ [])
    (all : text.all allowed = true)
    (others : (([' ', '\t', '\n'] ++ ['*', '?', '[', '\\']).all fun symbol => !allowed symbol) =
      true)
    {symbol : Char} (other : allowed symbol = false) : IsPiece symbol text := by
  rw [List.all_append, Bool.and_eq_true] at others
  refine ⟨⟨nonempty, fun inner => contains_eq_false all others.1⟩, fun member => ?_,
    List.all_eq_true.mpr fun inner member => ?_⟩
  · rw [List.all_eq_true.mp all symbol member] at other
    cases other
  · rw [contains_eq_false all others.2 member]
    rfl

theorem AddressWord.isPiece (word : AddressWord) {symbol : Char}
    (other : isAddressLetter symbol = false) : IsPiece symbol word.text :=
  isPiece_of_all word.nonempty word.plain (by decide) other

theorem isName_gatewayName (source : SourceNetwork) (number : Nat) :
    IsName (gatewayName source.name number) := by
  obtain ⟨rest, start⟩ := source.isName.start
  refine ⟨⟨rest ++ ("_gw".toList ++ Nat.toDigits 10 number), by rw [gatewayName, start]; rfl⟩, ?_⟩
  have middle : "_gw".toList.all isWordChar = true := by decide
  rw [gatewayName, List.all_append, List.all_append, source.isName.letters, middle,
    all_isWordChar_toDigits number, Bool.true_and, Bool.true_and]

theorem gatewayName_ne_nil (name : Text) (number : Nat) : gatewayName name number ≠ [] := by
  simp [gatewayName]

theorem isPiece_gatewayName (source : SourceNetwork) (number : Nat) {symbol : Char}
    (other : isWordChar symbol = false) : IsPiece symbol (gatewayName source.name number) :=
  isPiece_of_all (gatewayName_ne_nil _ _) (isName_gatewayName source number).letters (by decide)
    other

/-- `source_network_name"_gw$i"` as a field of a rule. -/
def gatewayNameWord (source : SourceNetwork) (number : Nat) : Word where
  text := gatewayName source.name number
  nonempty := gatewayName_ne_nil _ _
  solid := by
    rw [List.all_eq_true]
    intro symbol member
    have isWord := List.all_eq_true.mp (isName_gatewayName source number).letters symbol member
    by_contra space
    simp only [CText.isSpace, Bool.not_eq_true', Bool.not_eq_false, Bool.or_eq_true,
      decide_eq_true_eq, or_assoc] at space
    rcases space with rfl | rfl | rfl | rfl | rfl | rfl <;> exact absurd isWord (by decide)

def networkRule (source : SourceNetwork) (entry : Route × Nat) : NetworkRule :=
  ⟨gatewayNameWord source entry.2, entry.1.destination.toWord⟩

def routeRule (source : SourceNetwork) (entry : Route × Nat) : RouteRule :=
  ⟨controlWord, gatewayNameWord source entry.2, gatewayWord, entry.1.gateway.toWord⟩

/-! ## Names of routes -/

theorem gatewayName_inj {name : Text} {number other : Nat}
    (same : gatewayName name number = gatewayName name other) : number = other := by
  have digits := List.append_cancel_left (List.append_cancel_left same)
  rw [← CText.numberOf_toDigits number, digits, CText.numberOf_toDigits]

theorem isGatewayName_gatewayName (name : Text) (number : Nat) :
    isGatewayName name (gatewayName name number) = true := by
  have digits : (Nat.toDigits 10 number).all Char.isDigit = true :=
    List.all_eq_true.mpr fun _ => isDigit_of_mem_toDigits
  have some : Nat.toDigits 10 number ≠ [] := Nat.toDigits_ne_nil
  rw [gatewayName, ← List.append_assoc]
  simp [isGatewayName, digits, some]

theorem isStemName_of_isGatewayName {name text : Text}
    (isGateway : isGatewayName name text = true) : isStemName name text = false := by
  simp only [isGatewayName, Bool.and_eq_true, Bool.not_eq_true', List.isEmpty_eq_false_iff]
    at isGateway
  obtain ⟨⟨start, some⟩, digits⟩ := isGateway
  obtain ⟨rest, rfl⟩ := List.isPrefixOf_iff_prefix.mp start
  rw [List.drop_left] at some digits
  obtain ⟨digit, more, rfl⟩ := List.exists_cons_of_ne_nil some
  by_contra stem
  rw [Bool.not_eq_false, isStemName, Bool.and_eq_true] at stem
  have shape : name ++ "_gw".toList ++ digit :: more =
      (name ++ "_g".toList) ++ ('w' :: digit :: more) := by
    simp
  rw [shape, List.drop_left] at stem
  have isLetter : digit = 'w' := by
    simpa using List.all_eq_true.mp stem.2 digit (by simp)
  have isDigit := List.all_eq_true.mp digits digit List.mem_cons_self
  rw [isLetter] at isDigit
  exact absurd isDigit (by decide)

/-! ## What is collected -/

/-- The routes of a network with their numbers, in the order of the network rules.  Each has one
route rule, and no other rule mentions it. -/
structure HasRoutes (config : Config) (source : SourceNetwork) (entries : List (Route × Nat)) :
    Prop where
  networks : config.networks.filter (fun rule => isGatewayName source.name rule.name.text) =
    entries.map (networkRule source)
  routes : (config.routes.filter fun rule => rule.mentions (isGatewayName source.name)).Perm
    (entries.map (routeRule source))
  distinct : (entries.map Prod.snd).Nodup
  alone : ∀ rule ∈ config.routes, ∀ entry ∈ entries,
    foundBounded (gatewayName source.name entry.2) (ruleLine routeWord rule.fields) = true →
      rule = routeRule source entry

section Collected

variable {config : Config} {source : SourceNetwork} {entries : List (Route × Nat)}

theorem mentions_routeRule {accept : Text → Bool} (names : AcceptsNames accept)
    (entry : Route × Nat) :
    (routeRule source entry).mentions accept = accept (gatewayName source.name entry.2) := by
  have noControl : accept controlWord.text = false := names.other (by decide)
  have noGateway : accept gatewayWord.text = false := names.other (by decide)
  simp [RouteRule.mentions, routeRule, gatewayNameWord, noControl, noGateway]

theorem mentions_gateway (entry : Route × Nat) :
    (routeRule source entry).mentions (isGatewayName source.name) = true := by
  rw [mentions_routeRule (acceptsNames_isGatewayName source), isGatewayName_gatewayName]

theorem mentions_stem (entry : Route × Nat) :
    (routeRule source entry).mentions (isStemName source.name) = false := by
  rw [mentions_routeRule (acceptsNames_isStemName source),
    isStemName_of_isGatewayName (isGatewayName_gatewayName _ _)]

theorem isPiece_listed (entry : Route × Nat) :
    IsPiece '*' (gatewayName source.name entry.2 ++ '-' :: entry.1.destination.text) := by
  apply @isPiece_of_all fun symbol => isWordChar symbol || isAddressLetter symbol || symbol = '-'
  · simp [gatewayName]
  · have start := (isName_gatewayName source entry.2).letters
    have plain := entry.1.destination.plain
    rw [List.all_eq_true] at start plain
    rw [List.all_eq_true]
    intro symbol member
    rw [List.mem_append, List.mem_cons] at member
    rcases member with inName | rfl | inAddress
    · rw [start symbol inName, Bool.true_or, Bool.true_or]
    · decide
    · rw [plain symbol inAddress, Bool.or_true, Bool.true_or]
  · decide
  · decide

theorem listedRoutes_eq (has : HasRoutes config source entries) (shell : Shell) :
    listedRoutes shell config source.name =
      entries.map fun entry => (gatewayName source.name entry.2, entry.1.destination.text) := by
  have names := acceptsNames_isGatewayName source
  have printed := @map_filter_display NetworkRule networkWord NetworkRule.fields
    (hasBetweenSpaces (isGatewayName source.name))
    (fun line => awkField line 3 ++ '-' :: awkField line 4)
    (fun rule => isGatewayName source.name rule.name.text)
    (fun rule => rule.name.text ++ '-' :: rule.id.text)
    (fun rule number => by
      rw [hasBetweenSpaces_ruleLine (names.other (by decide)) (names.number number)
        (names.other (by decide)), awkField, awkField, fields_ruleLine]
      exact ⟨by simp [NetworkRule.fields], rfl⟩)
    (hasBetweenSpaces_header (names.other (by decide)) (names.other (by decide)) networkWord)
    (hasBetweenSpaces_noRules (names.other (by decide)) (names.other (by decide)))
    config.networks
  rw [has.networks, List.map_map] at printed
  have arePieces : ∀ text ∈ entries.map ((fun rule : NetworkRule =>
      rule.name.text ++ '-' :: rule.id.text) ∘ networkRule source), IsPiece '*' text := by
    intro text member
    obtain ⟨entry, -, rfl⟩ := List.mem_map.mp member
    exact isPiece_listed entry
  have words := pieces_flatMap arePieces shell
  rw [← printed, List.flatMap_map, printed] at words
  rw [listedRoutes, Config.displayNetworks]
  dsimp only
  rw [words, List.filter_eq_self.mpr fun text member => by
    simpa using (arePieces text member).isWord.nonempty, List.map_map]
  apply List.map_congr_left
  intro entry _
  have cut := pieces_append (isPiece_gatewayName source entry.2 (show isWordChar '-' = false by
    decide)) shell entry.1.destination.text
  rw [pieces_of_isPiece (entry.1.destination.isPiece (by decide))] at cut
  simp only [Function.comp_apply, networkRule, gatewayNameWord, cut]
  rfl

theorem filter_routes_eq (has : HasRoutes config source entries) {entry : Route × Nat}
    (member : entry ∈ entries) :
    config.routes.filter (fun rule => rule = routeRule source entry) =
      [routeRule source entry] := by
  have once : (entries.map (routeRule source)).count (routeRule source entry) = 1 := by
    apply List.count_eq_one_of_mem _ (List.mem_map_of_mem member)
    refine List.Nodup.of_map (fun rule : RouteRule => rule.network.text) ?_
    rw [List.map_map]
    have shape : ((fun rule : RouteRule => rule.network.text) ∘ routeRule source) =
        gatewayName source.name ∘ Prod.snd := rfl
    rw [shape, ← List.map_map]
    exact has.distinct.map fun _ _ => gatewayName_inj
  have found : config.routes.count (routeRule source entry) = 1 := by
    rw [← once, ← has.routes.count_eq, List.count_filter (mentions_gateway entry)]
  have same : (fun rule => decide (rule = routeRule source entry)) =
      (· == routeRule source entry) := by
    funext rule
    rw [Bool.eq_iff_iff, decide_eq_true_eq, beq_iff_eq]
  rw [same, List.filter_beq, found]
  rfl

theorem routeGateway_eq (has : HasRoutes config source entries) {entry : Route × Nat}
    (member : entry ∈ entries) :
    routeGateway config (gatewayName source.name entry.2) = entry.1.gateway.text := by
  have isName := isName_gatewayName source entry.2
  refine @substitution_lookup RouteRule routeWord RouteRule.fields
    (foundBounded (gatewayName source.name entry.2)) 6 (1 + config.routes.length) _
    RouteRule.address config.routes _ (filter_routes_eq has member) (Nat.le_refl _)
    (foundBounded_header isName (by decide)) ?_
  intro rule inRules number _
  obtain ⟨more, start⟩ : ∃ more, ruleLine routeWord rule.fields = 'r' :: more := ⟨_, rfl⟩
  have found : foundBounded (gatewayName source.name entry.2) (ruleLine routeWord rule.fields) =
      decide (rule = routeRule source entry) := by
    rw [Bool.eq_iff_iff, decide_eq_true_eq]
    refine ⟨has.alone rule inRules entry member, ?_⟩
    rintro rfl
    have shape : ruleLine routeWord (routeRule source entry).fields =
        joined [routeWord.text, controlWord.text] ++ ' ' :: (gatewayName source.name entry.2 ++
          ' ' :: joined [gatewayWord.text, entry.1.gateway.text]) := by
      simp [ruleLine, RouteRule.fields, routeRule, gatewayNameWord, joined,
        List.intercalate_cons_cons]
    exact foundBounded_inside isName shape
  rw [foundBounded_line isName start (by decide), found, awkField, fields_ruleLine]
  exact ⟨rfl, rfl⟩

def compliant (shell : Shell) (sourceId : Text) (entries : List (Route × Nat)) : List Route :=
  (entries.map Prod.fst).filter fun route =>
    isGatewayCompliant shell sourceId route.destination.text route.gateway.text

theorem compliantRoutes_eq (has : HasRoutes config source entries) (shell : Shell)
    (sourceId : Text) :
    compliantRoutes shell config sourceId (listedRoutes shell config source.name) =
      (compliant shell sourceId entries).map Route.text := by
  rw [listedRoutes_eq has, compliantRoutes, compliant, List.filter_map, List.filter_map,
    List.map_map, List.map_map]
  have same : entries.filter ((fun route : Text × Text => isGatewayCompliant shell sourceId route.2
        (routeGateway config route.1)) ∘
        fun entry => (gatewayName source.name entry.2, entry.1.destination.text)) =
      entries.filter ((fun route : Route => isGatewayCompliant shell sourceId
        route.destination.text route.gateway.text) ∘ Prod.fst) := by
    apply List.filter_congr
    intro entry member
    simp only [Function.comp_apply, routeGateway_eq has member]
  rw [same]
  apply List.map_congr_left
  intro entry member
  simp only [Function.comp_apply, routeGateway_eq has (List.mem_of_mem_filter member), Route.text]

end Collected

/-! ## Adding -/

/-- The routes as the last rules of a configuration, with the numbers from one on. -/
def Config.withRoutes (config : Config) (source : SourceNetwork) (start : Nat)
    (routes : List Route) : Config :=
  { config with
    networks := config.networks ++ (routes.zipIdx start).map (networkRule source)
    routes := config.routes ++ (routes.zipIdx start).map (routeRule source) }

structure Fresh (config : Config) (source : SourceNetwork) (start : Nat) : Prop where
  networks : ∀ rule ∈ config.networks, ∀ number, start ≤ number →
    rule.name ≠ gatewayNameWord source number
  routes : ∀ rule ∈ config.routes, ∀ number, start ≤ number →
    rule.network ≠ gatewayNameWord source number

theorem withRoutes_nil (config : Config) (source : SourceNetwork) (start : Nat) :
    config.withRoutes source start [] = config := by
  simp [Config.withRoutes]

theorem asWord_text (word : Word) : asWord word.text = some word :=
  dif_pos ⟨word.nonempty, word.solid⟩

theorem asWord_gatewayName (source : SourceNetwork) (number : Nat) :
    asWord (gatewayName source.name number) = some (gatewayNameWord source number) :=
  asWord_text (gatewayNameWord source number)

variable {source : SourceNetwork}

theorem gatewayNameWord_inj {number other : Nat}
    (same : gatewayNameWord source number = gatewayNameWord source other) : number = other :=
  gatewayName_inj (congrArg Word.text same)

section Adding

variable {config : Config} {source : SourceNetwork}

theorem addGateway_eq (config : Config) (source : SourceNetwork) (number : Nat) (route : Route) :
    (config.addNetwork (gatewayName source.name number) route.destination.text).addRoute
        (gatewayName source.name number) route.gateway.text =
      let named := if config.hasNetwork (gatewayNameWord source number) then config
        else { config with networks := config.networks ++ [networkRule source (route, number)] }
      if named.hasNetwork (gatewayNameWord source number) ∧
          routeRule source (route, number) ∉ named.routes then
        { named with routes := named.routes ++ [routeRule source (route, number)] }
      else named := by
  rw [Config.addNetwork, Config.addRoute, asWord_gatewayName, asWord_text, asWord_text]
  rfl

theorem addGateway_fresh {start : Nat} (fresh : Fresh config source start) (route : Route) :
    (config.addNetwork (gatewayName source.name start) route.destination.text).addRoute
        (gatewayName source.name start) route.gateway.text =
      config.withRoutes source start [route] := by
  have unnamed : config.hasNetwork (gatewayNameWord source start) = false := by
    rw [Config.hasNetwork, List.any_eq_false]
    intro rule member
    simpa using fresh.networks rule member start (Nat.le_refl _)
  have named : Config.hasNetwork
      { config with networks := config.networks ++ [networkRule source (route, start)] }
      (gatewayNameWord source start) = true := by
    simp [Config.hasNetwork, networkRule]
  have absent : routeRule source (route, start) ∉ config.routes := by
    intro member
    exact fresh.routes _ member start (Nat.le_refl _) rfl
  rw [addGateway_eq]
  simp only [unnamed, Bool.false_eq_true, if_false]
  rw [if_pos ⟨named, absent⟩]
  rfl

theorem addGateway_present {number : Nat} {route : Route}
    (named : config.hasNetwork (gatewayNameWord source number) = true)
    (present : routeRule source (route, number) ∈ config.routes) :
    (config.addNetwork (gatewayName source.name number) route.destination.text).addRoute
      (gatewayName source.name number) route.gateway.text = config := by
  rw [addGateway_eq]
  simp only [named, if_true, present, not_true_eq_false, and_false, if_false]

theorem Fresh.next {start : Nat} (fresh : Fresh config source start) (route : Route) :
    Fresh (config.withRoutes source start [route]) source (start + 1) := by
  have differs (number : Nat) (later : start + 1 ≤ number) :
      gatewayNameWord source start ≠ gatewayNameWord source number := by
    intro same
    have equal := gatewayNameWord_inj same
    omega
  constructor <;> intro rule member number later
  · rcases List.mem_append.mp member with old | new
    · exact fresh.networks rule old number (by omega)
    · rw [List.mem_singleton.mp new]
      exact differs number later
  · rcases List.mem_append.mp member with old | new
    · exact fresh.routes rule old number (by omega)
    · rw [List.mem_singleton.mp new]
      exact differs number later

theorem withRoutes_append (config : Config) (source : SourceNetwork) (start : Nat)
    (front back : List Route) :
    config.withRoutes source start (front ++ back) =
      (config.withRoutes source start front).withRoutes source (start + front.length) back := by
  simp [Config.withRoutes, List.zipIdx_append]

theorem Fresh.withRoutes {start : Nat} (fresh : Fresh config source start) (routes : List Route) :
    Fresh (config.withRoutes source start routes) source (start + routes.length) := by
  induction routes generalizing config start with
  | nil =>
    rw [withRoutes_nil]
    exact fresh
  | cons route routes ih =>
    have later := ih (fresh.next route)
    rw [Nat.add_assoc, Nat.add_comm 1] at later
    rw [show config.withRoutes source start (route :: routes) = _ from
      withRoutes_append config source start [route] routes]
    exact later

variable (shell : Shell)

theorem pieces_text (route : Route) :
    pieces shell '-' route.text = [route.destination.text, route.gateway.text] := by
  rw [Route.text, pieces_append (route.destination.isPiece (by decide)),
    pieces_of_isPiece (route.gateway.isPiece (by decide))]

theorem addRoutes_fresh {start : Nat} (fresh : Fresh config source start) (routes : List Route) :
    addRoutes shell source.name start (routes.map Route.text) config =
      config.withRoutes source start routes := by
  induction routes generalizing config start with
  | nil => exact (withRoutes_nil config source start).symm
  | cons route routes ih =>
    rw [List.map_cons, addRoutes, pieces_text]
    simp only [List.getD_cons_zero, List.getD_cons_succ]
    rw [addGateway_fresh fresh, ih (fresh.next route)]
    exact (withRoutes_append config source start [route] routes).symm

theorem addRoutes_present {start : Nat} {routes : List Route}
    (present : ∀ entry ∈ routes.zipIdx start,
      config.hasNetwork (gatewayNameWord source entry.2) = true ∧
        routeRule source entry ∈ config.routes) :
    addRoutes shell source.name start (routes.map Route.text) config = config := by
  induction routes generalizing start with
  | nil => rfl
  | cons route routes ih =>
    rw [List.zipIdx_cons, List.forall_mem_cons] at present
    rw [List.map_cons, addRoutes, pieces_text]
    simp only [List.getD_cons_zero, List.getD_cons_succ]
    rw [addGateway_present present.1.1 present.1.2, ih present.2]

end Adding

/-! ## The rules of other networks -/

def others (source : SourceNetwork) (config : Config) : Config :=
  { config with
    networks := config.networks.filter fun rule => !isGatewayName source.name rule.name.text
    routes := config.routes.filter fun rule => !rule.mentions (isGatewayName source.name) }

/-- No rule has the name `name_g` with letters `w` behind it. -/
structure NoStem (source : SourceNetwork) (config : Config) : Prop where
  networks : ∀ rule ∈ config.networks, isStemName source.name rule.name.text = false
  routes : ∀ rule ∈ config.routes, rule.mentions (isStemName source.name) = false

section Others

variable {source : SourceNetwork} {config : Config}

structure Cleared (source : SourceNetwork) (config : Config) : Prop where
  networks : ∀ rule ∈ config.networks, isGatewayName source.name rule.name.text = false
  routes : ∀ rule ∈ config.routes, rule.mentions (isGatewayName source.name) = false

theorem cleared_others (source : SourceNetwork) (config : Config) :
    Cleared source (others source config) := by
  constructor <;> intro rule member
  · simpa using List.of_mem_filter member
  · simpa using List.of_mem_filter member

theorem Cleared.deleteNamed (cleared : Cleared source config) {accept : Text → Bool}
    (names : AcceptsNames accept) : Cleared source (config.deleteNamed accept) := by
  rw [deleteNamed_eq names]
  exact ⟨fun rule member => cleared.networks rule (List.mem_of_mem_filter member),
    fun rule member => cleared.routes rule (List.mem_of_mem_filter member)⟩

theorem Cleared.fresh (cleared : Cleared source config) (start : Nat) :
    Fresh config source start := by
  constructor <;> intro rule member number _ same
  · have isGateway := isGatewayName_gatewayName source.name number
    rw [← show rule.name.text = gatewayName source.name number from congrArg Word.text same,
      cleared.networks rule member] at isGateway
    cases isGateway
  · have isGateway := isGatewayName_gatewayName source.name number
    have mentioned := cleared.routes rule member
    rw [← show rule.network.text = gatewayName source.name number from congrArg Word.text same]
      at isGateway
    rw [RouteRule.mentions, isGateway, Bool.true_or, Bool.or_true] at mentioned
    cases mentioned

section Appended

variable {α β : Type} {holds : α → Bool} {front : List α} {make : β → α}

theorem filter_append_map (noFront : ∀ item ∈ front, holds item = false)
    (all : ∀ entry, holds (make entry) = true) (entries : List β) :
    (front ++ entries.map make).filter holds = entries.map make := by
  rw [List.filter_append, List.filter_eq_nil_iff.mpr fun item member => by
    simp [noFront item member], List.nil_append, List.filter_eq_self]
  simpa using fun entry _ => all entry

theorem filter_not_append_map (noFront : ∀ item ∈ front, holds item = false)
    (all : ∀ entry, holds (make entry) = true) (entries : List β) :
    (front ++ entries.map make).filter (fun item => !holds item) = front := by
  rw [List.filter_append, List.filter_eq_self.mpr fun item member => by
    simp [noFront item member], List.filter_eq_nil_iff.mpr (by simp [all]), List.append_nil]

end Appended

theorem others_withRoutes (cleared : Cleared source config) (start : Nat) (routes : List Route) :
    others source (config.withRoutes source start routes) = config := by
  rw [others, Config.withRoutes]
  dsimp only
  rw [filter_not_append_map cleared.networks fun _ => isGatewayName_gatewayName _ _,
    filter_not_append_map cleared.routes mentions_gateway]

theorem filter_networks_withRoutes (cleared : Cleared source config) (start : Nat)
    (routes : List Route) :
    (config.withRoutes source start routes).networks.filter
        (fun rule => isGatewayName source.name rule.name.text) =
      (routes.zipIdx start).map (networkRule source) :=
  filter_append_map cleared.networks (fun _ => isGatewayName_gatewayName _ _) _

theorem filter_routes_withRoutes (cleared : Cleared source config) (start : Nat)
    (routes : List Route) :
    (config.withRoutes source start routes).routes.filter
        (fun rule => rule.mentions (isGatewayName source.name)) =
      (routes.zipIdx start).map (routeRule source) :=
  filter_append_map cleared.routes mentions_gateway _

theorem deleteNamed_withRoutes (start : Nat) (routes : List Route) :
    (config.withRoutes source start routes).deleteNamed (isStemName source.name) =
      (config.deleteNamed (isStemName source.name)).withRoutes source start routes := by
  have networks := @filter_append_map _ _ (fun rule : NetworkRule =>
    !isStemName source.name rule.name.text) [] (networkRule source) (List.forall_mem_nil _)
    (fun entry => by
      simp [networkRule, gatewayNameWord,
        isStemName_of_isGatewayName (isGatewayName_gatewayName source.name entry.2)])
    (routes.zipIdx start)
  have rules := @filter_append_map _ _ (fun rule : RouteRule =>
    !rule.mentions (isStemName source.name)) [] (routeRule source) (List.forall_mem_nil _)
    (fun entry => by simp [mentions_stem]) (routes.zipIdx start)
  have names := acceptsNames_isStemName source
  rw [deleteNamed_eq names, deleteNamed_eq names, Config.withRoutes, Config.withRoutes]
  dsimp only
  rw [List.nil_append] at networks rules
  rw [List.filter_append, List.filter_append, networks, rules]

theorem deleteNamed_others_eq_iff {entries : List (Route × Nat)}
    (has : HasRoutes config source entries) :
    (others source config).deleteNamed (isStemName source.name) = others source config ↔
      NoStem source config := by
  rw [deleteNamed_eq (acceptsNames_isStemName source), Config.mk.injEq]
  simp only [true_and, List.filter_eq_self, Bool.not_eq_true', others, List.mem_filter, and_imp]
  constructor
  · rintro ⟨networks, rules⟩
    refine ⟨fun rule member => ?_, fun rule member => ?_⟩
    · cases isGateway : isGatewayName source.name rule.name.text with
      | false => exact networks rule member isGateway
      | true => exact isStemName_of_isGatewayName isGateway
    · cases mentioned : rule.mentions (isGatewayName source.name) with
      | false => exact rules rule member mentioned
      | true =>
        have inRoutes := has.routes.mem_iff.mp (List.mem_filter.mpr ⟨member, mentioned⟩)
        obtain ⟨entry, -, rfl⟩ := List.mem_map.mp inRoutes
        exact mentions_stem entry
  · intro noStem
    exact ⟨fun rule member _ => noStem.networks rule member,
      fun rule member _ => noStem.routes rule member⟩

end Others

/-! ## What is promised -/

structure IsUpdate (source : SourceNetwork) (before after : Config) (routes : List Route) :
    Prop where
  networks : after.networks.filter (fun rule => isGatewayName source.name rule.name.text) =
    (routes.zipIdx 1).map (networkRule source)
  routes : after.routes.filter (fun rule => rule.mentions (isGatewayName source.name)) =
    (routes.zipIdx 1).map (routeRule source)
  others : others source after = others source before

/-- The new route is at the end, or its gateway is in the place of the old one of a route with this
destination. -/
def IsExpected (kept : List Route) (route : Route) (overwrite : Bool) (routes : List Route) :
    Prop :=
  if overwrite = true ∧ route.destination ∈ kept.map Route.destination then
    ∃ front old back, kept = front ++ old :: back ∧ old.destination = route.destination ∧
      routes = front ++ route :: back
  else routes = kept ++ [route]

theorem AddressWord.ext_toWord {word other : AddressWord} (same : word.toWord = other.toWord) :
    word = other := by
  cases word
  cases other
  cases same
  rfl

theorem routes_inj {start : Nat} {routes more : List Route}
    (networks : (routes.zipIdx start).map (networkRule source) =
      (more.zipIdx start).map (networkRule source))
    (rules : (routes.zipIdx start).map (routeRule source) =
      (more.zipIdx start).map (routeRule source)) : routes = more := by
  induction routes generalizing start more with
  | nil =>
    cases more with
    | nil => rfl
    | cons other more => cases networks
  | cons route routes ih =>
    cases more with
    | nil => cases networks
    | cons other more =>
      rw [List.zipIdx_cons, List.zipIdx_cons, List.map_cons, List.map_cons,
        List.cons.injEq] at networks rules
      have destination : route.destination = other.destination :=
        AddressWord.ext_toWord (congrArg NetworkRule.id networks.1)
      have gateway : route.gateway = other.gateway :=
        AddressWord.ext_toWord (congrArg RouteRule.address rules.1)
      rw [ih networks.2 rules.2, show route = other from by
        cases route; cases other; cases destination; cases gateway; rfl]

theorem isUpdate_withRoutes_iff {before rest : Config} (cleared : Cleared source rest)
    {made routes : List Route} :
    IsUpdate source before (rest.withRoutes source 1 made) routes ↔
      made = routes ∧ rest = others source before := by
  constructor
  · intro update
    have networks := update.networks
    have rules := update.routes
    rw [filter_networks_withRoutes cleared] at networks
    rw [filter_routes_withRoutes cleared] at rules
    refine ⟨routes_inj networks rules, ?_⟩
    rw [← update.others, others_withRoutes cleared]
  · rintro ⟨rfl, same⟩
    exact ⟨filter_networks_withRoutes cleared 1 made, filter_routes_withRoutes cleared 1 made,
      (others_withRoutes cleared 1 made).trans same⟩

/-! ## The last step -/

theorem foundIn_of_infix {pattern line : Text} (inside : pattern <:+: line) :
    foundIn pattern line = true := by
  obtain ⟨front, back, rfl⟩ := inside
  rw [foundIn, List.any_eq_true]
  refine ⟨pattern ++ back, ?_, agrees_self_append pattern back⟩
  rw [List.mem_tails, List.append_assoc]
  exact List.suffix_append front _

theorem foundIn_ruleLine {keyword : Word} {rule : List Word} {field : Word} (member : field ∈ rule)
    (number : Nat) : foundIn field.text (numbered number (ruleLine keyword rule)) = true := by
  obtain ⟨label, shape, -⟩ := mem_label number (ruleLine keyword rule)
  apply foundIn_of_infix
  rw [shape]
  refine (infix_joined ?_).trans (List.suffix_append label _).isInfix
  exact List.mem_cons_of_mem _ (List.mem_map_of_mem member)

section Steps

variable {source : SourceNetwork} {config : Config}

theorem hasNetwork_withRoutes {start : Nat} {routes : List Route} {entry : Route × Nat}
    (member : entry ∈ routes.zipIdx start) :
    (config.withRoutes source start routes).hasNetwork (gatewayNameWord source entry.2) = true := by
  rw [Config.hasNetwork, List.any_eq_true]
  exact ⟨networkRule source entry,
    List.mem_append_right _ (List.mem_map_of_mem member), by simp [networkRule]⟩

theorem modifyRoute_last (config : Config) (number : Nat) (last : Route) (gateway : AddressWord) :
    lastNumber (foundIn (gatewayName source.name number))
        (config.withRoutes source number [last]).displayRoutes =
          Nat.toDigits 10 (config.routes.length + 1) ∧
      (config.withRoutes source number [last]).modifyRoute
          (Nat.toDigits 10 (config.routes.length + 1)) (gatewayName source.name number)
          gateway.text =
        config.withRoutes source number [⟨last.destination, gateway⟩] := by
  constructor
  · refine lastNumber_display (fun number => ?_) (List.forall_mem_nil _)
    exact foundIn_ruleLine (.tail _ (.head _)) number
  · have named := @hasNetwork_withRoutes source config number [last] (last, number)
      List.mem_cons_self
    have changed : (config.routes ++ [routeRule source (last, number)]).set config.routes.length
        (routeRule source (⟨last.destination, gateway⟩, number)) =
          config.routes ++ [routeRule source (⟨last.destination, gateway⟩, number)] := by
      rw [List.set_append_right _ _ (Nat.le_refl _), Nat.sub_self, List.set_cons_zero]
    rw [Config.modifyRoute, rulePlace_toDigits, asWord_gatewayName, asWord_text]
    dsimp only
    rw [if_pos named]
    exact congrArg (fun rules : List RouteRule => { config with
      networks := config.networks ++ [networkRule source (last, number)]
      routes := rules }) changed

theorem modifyRoute_unnamed {name : Text}
    (unnamed : ∀ rule ∈ config.networks, rule.name.text ≠ name) (number gateway : Text) :
    config.modifyRoute number name gateway = config := by
  have absent {word : Word} (isName : asWord name = some word) :
      config.hasNetwork word = false := by
    rw [asWord] at isName
    split at isName
    · obtain rfl := Option.some.inj isName
      rw [Config.hasNetwork, List.any_eq_false]
      intro rule member same
      exact unnamed rule member (congrArg Word.text (of_decide_eq_true same))
    · cases isName
  rw [Config.modifyRoute]
  split
  · next isName _ =>
      rw [if_neg (by rw [absent isName]; exact Bool.false_ne_true)]
  · rfl

end Steps

/-- The routes afterwards, where the destination has been searched for among all networks. -/
def routesAfter (kept : List Route) (route : Route) (overwrite listed : Bool) : List Route :=
  if overwrite = true ∧ listed = true then
    kept.modifyLast fun last => ⟨last.destination, route.gateway⟩
  else kept ++ [route]

section Updates

variable {source : SourceNetwork} {config rest : Config} {entries : List (Route × Nat)}
  {listed : List (Text × Text)}

theorem leftNetworkName_unnamed (cleared : Cleared source rest)
    (areNames : ∀ item ∈ listed, isGatewayName source.name item.1 = true) :
    ∀ rule ∈ rest.networks, rule.name.text ≠ leftNetworkName source.name 0 listed := by
  intro rule member same
  have notGateway := cleared.networks rule member
  rw [leftNetworkName, if_pos rfl] at same
  cases isLast : listed.getLast? with
  | none =>
    rw [isLast] at same
    exact rule.name.nonempty same
  | some item =>
    rw [isLast, Option.map_some, Option.getD_some] at same
    rw [same, areNames item (List.mem_of_getLast? isLast)] at notGateway
    cases notGateway

variable {kept : List Route}

theorem setRoute_eq (cleared : Cleared source rest) (few : kept.length < maxAlwdGw)
    (areNames : ∀ item ∈ listed, isGatewayName source.name item.1 = true) (route : Route)
    (overwrite : Bool) :
    setRoute (rest.withRoutes source 1 kept) source.name route.destination.text route.gateway.text
        overwrite kept.length (leftNetworkName source.name kept.length listed) =
      .ok (rest.withRoutes source 1 (routesAfter kept route overwrite
        (isListedNetwork (rest.withRoutes source 1 kept) route.destination.text))) := by
  by_cases replaced : overwrite = true ∧
      isListedNetwork (rest.withRoutes source 1 kept) route.destination.text = true
  · rw [setRoute, routesAfter, if_pos replaced, if_pos replaced]
    dsimp only
    rcases List.eq_nil_or_concat' kept with rfl | ⟨front, last, rfl⟩
    · rw [List.length_nil, withRoutes_nil,
        modifyRoute_unnamed (leftNetworkName_unnamed cleared areNames), ite_self]
      exact congrArg Except.ok (withRoutes_nil rest source 1).symm
    · have isLeft : leftNetworkName source.name (front ++ [last]).length listed =
          gatewayName source.name (1 + front.length) := by
        rw [leftNetworkName, if_neg (by simp), List.length_append, Nat.add_comm,
          List.length_singleton]
      obtain ⟨number, changed⟩ := @modifyRoute_last source (rest.withRoutes source 1 front)
        (1 + front.length) last route.gateway
      rw [isLeft, withRoutes_append, number, if_pos Nat.toDigits_ne_nil, changed,
        List.modifyLast_concat, withRoutes_append]
  · rw [setRoute, routesAfter, if_neg replaced, if_neg replaced, if_neg (Nat.ne_of_lt few)]
    have fresh := (cleared.fresh 1).withRoutes kept
    rw [Nat.add_comm] at fresh
    dsimp only
    rw [addGateway_fresh fresh, withRoutes_append, Nat.add_comm]

/-- What `update_gateways` does: it drops the routes that are not compliant and the rules with the
names of the second pattern, numbers the compliant routes and adds or changes one. -/
theorem updateGateways_eq (has : HasRoutes config source entries) (shell : Shell)
    {options : RouteOptions} {route : Route} (given : options.gateway = some route.gateway.text)
    (areKept : compliant shell (sourceNetworkId shell options config source.name) entries = kept)
    (few : kept.length < maxAlwdGw) :
    let rest := (others source config).deleteNamed (isStemName source.name)
    updateGateways shell options config source.name route.destination.text false =
      .ok (rest.withRoutes source 1 (routesAfter kept route options.overwrite
        (isListedNetwork (rest.withRoutes source 1 kept) route.destination.text))) := by
  intro rest
  have cleared := cleared_others source config
  have clearedRest : Cleared source rest := cleared.deleteNamed (acceptsNames_isStemName source)
  have areRoutes := compliantRoutes_eq has shell (sourceNetworkId shell options config source.name)
  rw [areKept] at areRoutes
  have deleted : config.deleteNamed (isGatewayName source.name) = others source config :=
    deleteNamed_eq (acceptsNames_isGatewayName source) config
  have again : addRoutes shell source.name 1 (kept.map Route.text)
      (rest.withRoutes source 1 kept) = rest.withRoutes source 1 kept := by
    apply addRoutes_present
    intro entry member
    exact ⟨hasNetwork_withRoutes member, List.mem_append_right _ (List.mem_map_of_mem member)⟩
  have areNames : ∀ item ∈ listedRoutes shell config source.name,
      isGatewayName source.name item.1 = true := by
    rw [listedRoutes_eq has]
    intro item member
    obtain ⟨entry, -, rfl⟩ := List.mem_map.mp member
    exact isGatewayName_gatewayName _ _
  rw [updateGateways, given]
  dsimp only
  rw [areRoutes, deleted, addRoutes_fresh shell (cleared.fresh 1), deleteNamed_withRoutes, again,
    List.length_map]
  exact setRoute_eq clearedRest few areNames route options.overwrite

theorem isListedNetwork_withRoutes {destination : AddressWord}
    (member : destination ∈ kept.map Route.destination) :
    isListedNetwork (rest.withRoutes source 1 kept) destination.text = true := by
  obtain ⟨route, inKept, rfl⟩ := List.mem_map.mp member
  obtain ⟨number, inZip⟩ : ∃ number, (route, number) ∈ kept.zipIdx 1 := by
    rw [← List.zipIdx_map_fst 1 kept] at inKept
    obtain ⟨⟨found, number⟩, inZip, rfl⟩ := List.mem_map.mp inKept
    exact ⟨number, inZip⟩
  have inRules : (networkRule source (route, number)).fields ∈
      (rest.withRoutes source 1 kept).networks.map NetworkRule.fields :=
    List.mem_map_of_mem (List.mem_append_right _ (List.mem_map_of_mem inZip))
  obtain ⟨place, inLines⟩ := exists_mem_display networkWord inRules
  have found : foundIn route.destination.text (numbered place
      (ruleLine networkWord (networkRule source (route, number)).fields)) = true :=
    foundIn_ruleLine (.tail _ (.head _)) place
  rw [isListedNetwork, Bool.and_eq_true, decide_eq_true_eq, decide_eq_true_eq]
  refine ⟨route.destination.nonempty, fun nothing => ?_⟩
  rw [substitution_eq_nil_iff] at nothing
  have printed : awkField (numbered place (ruleLine networkWord
      (networkRule source (route, number)).fields)) 1 = Nat.toDigits 10 place := by
    rw [awkField, fields_ruleLine]
    rfl
  have newlines := nothing (Nat.toDigits 10 place) (by
    rw [← printed, Config.displayNetworks, display_of_mem networkWord inRules]
    exact List.mem_map_of_mem (List.mem_filter.mpr ⟨List.mem_cons_of_mem _ inLines, found⟩))
  have isHead := List.head_mem (Nat.toDigits_ne_nil : Nat.toDigits 10 place ≠ [])
  have digit := isDigit_of_mem_toDigits isHead
  rw [newlines _ isHead] at digit
  exact absurd digit (by decide)

end Updates

/-- The last route is the one whose gateway is to be replaced, or nothing is to be replaced: it has
the new gateway, and there is a route to the destination with it. -/
def ReplacesOwn (kept : List Route) (route : Route) : Prop :=
  ∃ last ∈ kept.getLast?,
    last.destination = route.destination ∨ (last.gateway = route.gateway ∧ route ∈ kept)

theorem isExpected_modifyLast_iff {front : List Route} {last route : Route} :
    IsExpected (front ++ [last]) route true (front ++ [⟨last.destination, route.gateway⟩]) ↔
      last.destination = route.destination ∨
        (last.gateway = route.gateway ∧ route ∈ front ++ [last]) := by
  have withOwn : (⟨route.destination, route.gateway⟩ : Route) = route := rfl
  rw [IsExpected]
  split
  · next known =>
      constructor
      · rintro ⟨start, old, back, whole, isOld, same⟩
        rcases List.eq_nil_or_concat' back with rfl | ⟨middle, final, rfl⟩
        · obtain ⟨rfl, isLast⟩ := List.append_inj' whole rfl
          obtain rfl := (List.cons.inj isLast).1
          exact .inl isOld
        · rw [← List.cons_append, ← List.append_assoc] at whole same
          obtain ⟨rfl, isLast⟩ := List.append_inj' whole rfl
          obtain rfl := (List.cons.inj isLast).1
          obtain ⟨replaced, unchanged⟩ := List.append_inj' same rfl
          have isOldRoute := (List.cons.inj (List.append_cancel_left replaced)).1
          refine .inr ⟨?_, by simp [isOldRoute]⟩
          exact (congrArg Route.gateway (List.cons.inj unchanged).1).symm
      · rintro (isOwn | ⟨hasGateway, member⟩)
        · exact ⟨front, last, [], rfl, isOwn, by rw [isOwn, withOwn]⟩
        · have unchanged : (⟨last.destination, route.gateway⟩ : Route) = last := by
            rw [← hasGateway]
          obtain ⟨start, back, whole⟩ := List.append_of_mem member
          exact ⟨start, route, back, whole, rfl, by rw [unchanged, whole]⟩
  · next unknown =>
      refine iff_of_false (fun same => ?_) fun own => ?_
      · have lengths := congrArg List.length same
        simp at lengths
      · apply unknown
        refine ⟨rfl, ?_⟩
        rcases own with isOwn | ⟨-, member⟩
        · rw [← isOwn]
          exact List.mem_map_of_mem (by simp)
        · exact List.mem_map_of_mem member

theorem isExpected_routesAfter_iff {kept : List Route} {route : Route} {overwrite listed : Bool}
    (known : route.destination ∈ kept.map Route.destination → listed = true) :
    IsExpected kept route overwrite (routesAfter kept route overwrite listed) ↔
      (overwrite = true → listed = true → ReplacesOwn kept route) := by
  by_cases replaced : overwrite = true ∧ listed = true
  · obtain ⟨rfl, rfl⟩ := replaced
    rw [routesAfter, if_pos ⟨rfl, rfl⟩]
    simp only [forall_const, ReplacesOwn]
    rcases List.eq_nil_or_concat' kept with rfl | ⟨front, last, rfl⟩
    · refine iff_of_false (fun expected => ?_) ?_
      · rw [IsExpected, if_neg (by simp)] at expected
        cases expected
      · rintro ⟨last, isLast, -⟩
        cases isLast
    · rw [List.modifyLast_concat, List.getLast?_concat]
      simp only [Option.mem_some, exists_eq_left']
      exact isExpected_modifyLast_iff
  · rw [routesAfter, if_neg replaced]
    refine iff_of_true ?_ fun isOn isListed => absurd ⟨isOn, isListed⟩ replaced
    rw [IsExpected, if_neg]
    rintro ⟨isOn, member⟩
    exact replaced ⟨isOn, known member⟩

/-- After `update_gateways` the routes of the network are the compliant ones in their order with
the new one at the end or in its place, and the other rules are as before, if and only if no rule of
another network has the name `name_g` with letters `w` behind it and, where overwriting is asked for
and the destination is found anywhere among the networks, the last route is the one to replace. -/
theorem updateGateways_updates_routes_iff {shell : Shell} {options : RouteOptions}
    {config : Config} {source : SourceNetwork} {entries : List (Route × Nat)} {route : Route}
    (has : HasRoutes config source entries) (given : options.gateway = some route.gateway.text)
    (few : (compliant shell (sourceNetworkId shell options config source.name) entries).length <
      maxAlwdGw) :
    let kept := compliant shell (sourceNetworkId shell options config source.name) entries
    (∃ after routes,
      updateGateways shell options config source.name route.destination.text false = .ok after ∧
        IsUpdate source config after routes ∧ IsExpected kept route options.overwrite routes) ↔
      NoStem source config ∧
        (options.overwrite = true →
          isListedNetwork ((others source config).withRoutes source 1 kept)
            route.destination.text = true →
          ReplacesOwn kept route) := by
  intro kept
  have cleared := (cleared_others source config).deleteNamed (acceptsNames_isStemName source)
  rw [updateGateways_eq has shell given rfl few, ← deleteNamed_others_eq_iff has]
  constructor
  · rintro ⟨after, routes, isAfter, update, expected⟩
    obtain rfl := Except.ok.inj isAfter
    obtain ⟨rfl, same⟩ := (isUpdate_withRoutes_iff cleared).mp update
    refine ⟨same, ?_⟩
    rw [same] at expected
    exact (isExpected_routesAfter_iff isListedNetwork_withRoutes).mp expected
  · rintro ⟨same, own⟩
    rw [same]
    exact ⟨_, _, rfl, (isUpdate_withRoutes_iff (cleared_others source config)).mpr ⟨rfl, rfl⟩,
      (isExpected_routesAfter_iff isListedNetwork_withRoutes).mpr own⟩

def sampleFirst : Route :=
  ⟨⟨⟨"10.1.0.0/16".toList, by decide, by decide⟩, by decide⟩,
    ⟨⟨"10.0.0.254".toList, by decide, by decide⟩, by decide⟩⟩

def sampleSecond : Route :=
  ⟨⟨⟨"10.2.0.0/16".toList, by decide, by decide⟩, by decide⟩,
    ⟨⟨"10.0.0.253".toList, by decide, by decide⟩, by decide⟩⟩

def sampleEntries : List (Route × Nat) :=
  [(sampleFirst, 1), (sampleSecond, 2)]

def sampleVlanConfig : Config where
  networks := samplePublic :: sampleEntries.map (networkRule (.vlan 5))
  ips := []
  mips := []
  routes := sampleEntries.map (routeRule (.vlan 5))

def sampleGateway : AddressWord :=
  ⟨⟨"10.0.0.252".toList, by decide, by decide⟩, by decide⟩

/-- The definition of the VLAN with a new gateway to a destination that has one. -/
def sampleOptions : RouteOptions :=
  ⟨some ("10.0.0.3".toList, "255.255.255.0".toList), some sampleGateway.text, true⟩

theorem hasRoutes_sample : HasRoutes sampleVlanConfig (.vlan 5) sampleEntries where
  networks := by decide +kernel
  routes := .of_eq (by decide +kernel)
  distinct := by decide
  alone := by decide +kernel

theorem compliant_sample : compliant plainShell (sourceNetworkId plainShell sampleOptions
    sampleVlanConfig (SourceNetwork.vlan 5).name) sampleEntries = [sampleFirst, sampleSecond] := by
  decide +kernel

/-- The gateway of the last route is replaced. -/
theorem updateGateways_replaces_last :
    HasRoutes sampleVlanConfig (.vlan 5) sampleEntries ∧ ∃ after routes,
      updateGateways plainShell sampleOptions sampleVlanConfig (SourceNetwork.vlan 5).name
          sampleSecond.destination.text false = .ok after ∧
        IsUpdate (.vlan 5) sampleVlanConfig after routes ∧
        IsExpected (compliant plainShell (sourceNetworkId plainShell sampleOptions
          sampleVlanConfig (SourceNetwork.vlan 5).name) sampleEntries)
          ⟨sampleSecond.destination, sampleGateway⟩ true routes := by
  refine ⟨hasRoutes_sample, ?_⟩
  refine (@updateGateways_updates_routes_iff plainShell sampleOptions sampleVlanConfig (.vlan 5)
    sampleEntries ⟨sampleSecond.destination, sampleGateway⟩ hasRoutes_sample rfl
    (by rw [compliant_sample]; decide)).mpr ⟨⟨by decide +kernel, by decide +kernel⟩, ?_⟩
  intro _ _
  rw [compliant_sample]
  exact ⟨sampleSecond, rfl, .inl rfl⟩

/-- With a new gateway to the first destination the gateway to the second is replaced. -/
theorem updateGateways_replaces_other :
    HasRoutes sampleVlanConfig (.vlan 5) sampleEntries ∧
      (compliant plainShell (sourceNetworkId plainShell sampleOptions sampleVlanConfig
        (SourceNetwork.vlan 5).name) sampleEntries).length < maxAlwdGw ∧
      ¬ ∃ after routes,
        updateGateways plainShell sampleOptions sampleVlanConfig (SourceNetwork.vlan 5).name
            sampleFirst.destination.text false = .ok after ∧
          IsUpdate (.vlan 5) sampleVlanConfig after routes ∧
          IsExpected (compliant plainShell (sourceNetworkId plainShell sampleOptions
            sampleVlanConfig (SourceNetwork.vlan 5).name) sampleEntries)
            ⟨sampleFirst.destination, sampleGateway⟩ true routes := by
  rw [compliant_sample]
  refine ⟨hasRoutes_sample, by decide, ?_⟩
  rintro ⟨after, routes, isAfter, update, expected⟩
  have computed : updateGateways plainShell sampleOptions sampleVlanConfig
      (SourceNetwork.vlan 5).name sampleFirst.destination.text false =
        .ok ((others (.vlan 5) sampleVlanConfig).withRoutes (.vlan 5) 1
          ([sampleFirst] ++ [⟨sampleSecond.destination, sampleGateway⟩])) := by
    decide +kernel
  obtain rfl := Except.ok.inj (computed.symm.trans isAfter)
  obtain ⟨rfl, -⟩ := (isUpdate_withRoutes_iff (cleared_others _ _)).mp update
  have own := (@isExpected_modifyLast_iff [sampleFirst] sampleSecond
    ⟨sampleFirst.destination, sampleGateway⟩).mp expected
  rcases own with sameDestination | ⟨sameGateway, -⟩
  · exact absurd sameDestination (by decide)
  · exact absurd sameGateway (by decide)

end Apos.Netdef
