import Apos.SplitTexts
import Mathlib.Data.List.Infix
import Mathlib.Data.List.Sort

/-!
# Port groups of the OVF environment

The parser of the OVF environment pairs each filled port group of an external network with the
network name whose property has the same suffix.  Before it does so it only compares how many port
groups and names are filled.  A property with an empty name stays in the list that is searched, and
the names that have been found are appended to this list.
-/

namespace Apos.OvfEnv

abbrev Text := List Char

structure Property where
  key : Text
  value : Text

inductive Abort where
  | numberOfNames
  | duplicatePortgroups
  | duplicateInternalPortgroups
  | duplicateNames
  | numberOfNetworks
  | internalNotUnique
  | internalMissing
  deriving DecidableEq

/-- How the parser ends early: `abort`, or an exception that nothing catches. -/
inductive Failure where
  | abort (reason : Abort)
  | exception
  deriving DecidableEq

/-! ## The properties -/

inductive Kind where
  | cust
  | om
  | netName
  | internal
  | other
  deriving DecidableEq

def mandIntPortgroups : List Text :=
  ["PORTGROUP_APZ-A", "PORTGROUP_APZ-B", "PORTGROUP_LDE", "PORTGROUP_DRBD"].map String.toList

def kindOf (key : Text) : Kind :=
  if "PORTGROUP_CUST".toList <:+: key then .cust
  else if "PORTGROUP_OM".toList <:+: key then .om
  else if "NETWORK_NAME_CUST".toList <:+: key then .netName
  else if mandIntPortgroups.contains key then .internal
  else .other

namespace Property

variable (meId : Text) (property : Property)

def isFilled : Bool :=
  !property.value.isEmpty

def isExternal : Bool :=
  property.isFilled && (kindOf property.key = .cust || kindOf property.key = .om)

def isInternal : Bool :=
  property.isFilled && kindOf property.key = .internal

def portgroupKey : Text :=
  if kindOf property.key = .om then "PORTGROUP_OMAPG".toList else property.key

/-- What the property appends to `net_name_list`. -/
def netName : Option (Text × Text) :=
  match kindOf property.key with
  | .om =>
    if property.isFilled then some ("NETWORK_NAME_OM".toList, meId ++ "_OM".toList) else none
  | .netName => some (property.key, property.value)
  | _ => none

/-- What the property appends to `nw_name_list`. -/
def nwName : Option Text :=
  if property.isFilled then
    match kindOf property.key with
    | .om => some "OM".toList
    | .netName => some property.value
    | _ => none
  else none

end Property

/-- The entry of a port group in `portgroup_list`. -/
def Property.portgroup (property : Property) : Text × Text :=
  (property.portgroupKey, property.value)

def keyed (pair : Text × Text) : Text :=
  pair.1 ++ ':' :: pair.2

def portgroups (properties : List Property) : List (Text × Text) :=
  (properties.filter Property.isExternal).map Property.portgroup

def netNames (meId : Text) (properties : List Property) : List (Text × Text) :=
  properties.filterMap (Property.netName meId)

/-! ## Pairing -/

def lastPart (text : Text) : Text :=
  (text.splitOn '_').getLast?.getD []

/-- `text.rsplit('_', 1)[1]`, which raises if there is no underscore. -/
def endKey (text : Text) : Except Failure Text :=
  if '_' ∈ text then .ok (lastPart text) else .error .exception

/-- `text.split(separator)[index]`, which raises if there are fewer pieces. -/
def piece (separator : Char) (index : Nat) (text : Text) : Except Failure Text :=
  match (text.splitOn separator)[index]? with
  | some found => .ok found
  | none => .error .exception

/-- The inner loop of `populate_external_net_list`. -/
def findNetName (pgEndKey : Text) : List Text → Except Failure (Option Text)
  | [] => .ok none
  | networkName :: later => do
    let ntEndKey ← endKey (← piece ':' 0 networkName)
    if pgEndKey = ntEndKey then
      let netName ← piece ':' 1 networkName
      return some netName
    else findNetName pgEndKey later

/-- The suffix of a port group, where that of OM is adjusted. -/
def omKey (pgEndKey : Text) : Text :=
  if pgEndKey = "OMAPG".toList then "OM".toList else pgEndKey

/-- An entry `APZ_Network;Portgroup_name;Network_name`. -/
def netEntry (pgEndKey pgName netName : Text) : Text :=
  pgEndKey ++ ';' :: pgName ++ ';' :: netName

def populateExternalNetList : List Text → List Text → Except Failure (List Text)
  | [], _ => .ok []
  | portgroup :: later, netNameList => do
    let temp ← piece ':' 0 portgroup
    let pgName ← piece ':' 1 portgroup
    let pgEndKey ← endKey temp
    match ← findNetName (omKey pgEndKey) netNameList with
    | none => populateExternalNetList later netNameList
    | some netName =>
      let extNetList ← populateExternalNetList later (netNameList ++ [netName])
      return netEntry (omKey pgEndKey) pgName netName :: extNetList

/-! ## The checks -/

def check (holds : Bool) (reason : Abort) : Except Failure Unit :=
  if holds then .ok () else .error (.abort reason)

/-- The checks of `extract_properties` before the lists are paired. -/
def checkProperties (properties : List Property) : Except Failure Unit := do
  let pgNameList := (portgroups properties).map (·.2)
  let nwNameList := properties.filterMap Property.nwName
  let intPgNameList := (properties.filter Property.isInternal).map (·.value)
  check (pgNameList.length = nwNameList.length) .numberOfNames
  check pgNameList.Nodup .duplicatePortgroups
  check intPgNameList.Nodup .duplicateInternalPortgroups
  check nwNameList.Nodup .duplicateNames
  check (pgNameList.isEmpty || 3 ≤ pgNameList.length && pgNameList.length ≤ 5) .numberOfNetworks

def portgroupDict (properties : List Property) : List Text :=
  mandIntPortgroups.filterMap fun name =>
    ((properties.filter fun property =>
      property.isInternal && property.key = name).getLast?).map (·.value)

def checkInternal (properties : List Property) : Except Failure Unit :=
  if properties.any Property.isInternal then do
    check (portgroupDict properties).Nodup .internalNotUnique
    check (4 ≤ (portgroupDict properties).length) .internalMissing
  else .ok ()

/-- What `extract_properties` leaves behind. -/
structure Extracted where
  items : List Text
  networkInfoList : List Text
  intPortgroupList : List Text
  propertyFound : Bool
  deriving DecidableEq

def extractProperties (meId : Text) (properties : List Property) :
    Except Failure Extracted := do
  checkProperties properties
  -- The key by which `portgroup_list` is sorted is the same for all entries.
  let networkInfoList ← populateExternalNetList ((portgroups properties).map keyed)
    ((netNames meId properties).map keyed)
  checkInternal properties
  return {
    items := properties.map fun property =>
      "PROPERTIES:".toList ++ property.key ++ '=' :: property.value
    networkInfoList
    intPortgroupList := ((properties.filter Property.isInternal).insertionSort
      fun first second => second.value.length ≤ first.value.length).map fun property =>
        keyed (property.key, property.value)
    propertyFound := properties.any fun property =>
      kindOf property.key = .om && property.isFilled || kindOf property.key = .internal }

/-! ## What is paired -/

section Binds

variable {α β : Type} (next : α → Except Failure β)

@[simp] theorem ok_bind (value : α) : (Except.ok value >>= next) = next value :=
  rfl

@[simp] theorem error_bind (failure : Failure) :
    ((Except.error failure : Except Failure α) >>= next) = .error failure :=
  rfl

end Binds

def IsReadable (pair : Text × Text) : Prop :=
  '_' ∈ pair.1 ∧ ':' ∉ pair.1 ∧ ':' ∉ pair.2

variable {pair : Text × Text}

theorem piece_keyed (plain : ':' ∉ pair.1 ∧ ':' ∉ pair.2) :
    piece ':' 0 (keyed pair) = .ok pair.1 ∧ piece ':' 1 (keyed pair) = .ok pair.2 := by
  have pieces : (keyed pair).splitOn ':' = [pair.1, pair.2] := by
    rw [keyed, splitOn_cut plain.1, splitOn_of_not_mem plain.2]
  simp [piece, pieces]

theorem endKey_of_readable (readable : IsReadable pair) : endKey pair.1 = .ok (lastPart pair.1) :=
  if_pos readable.1

/-- The name of the first property with a suffix. -/
def nameOf (pgEndKey : Text) (names : List (Text × Text)) : Option Text :=
  (names.find? fun pair => pgEndKey = lastPart pair.1).map (·.2)

variable {pgEndKey : Text} {names : List (Text × Text)}

theorem findNetName_append (readable : ∀ pair ∈ names, IsReadable pair) (found : List Text) :
    findNetName pgEndKey (names.map keyed ++ found) =
      match nameOf pgEndKey names with
      | some name => .ok (some name)
      | none => findNetName pgEndKey found := by
  induction names with
  | nil => rfl
  | cons pair names ih =>
    obtain ⟨first, rest⟩ := List.forall_mem_cons.mp readable
    simp only [List.map_cons, List.cons_append, findNetName, piece_keyed first.2,
      endKey_of_readable first, ok_bind, nameOf, List.find?_cons]
    by_cases same : pgEndKey = lastPart pair.1
    · simp [same, pure, Except.pure]
    · simpa [same, nameOf] using ih rest

variable {meId : Text} {properties : List Property}

/-- The suffix that is looked for. -/
def Property.suffix (group : Property) : Text :=
  if kindOf group.key = .om then "OM".toList else lastPart group.key

/-- The name that belongs to a port group: the fixed one for OM, and for a customer network the
value that is filled under a key for names with the same suffix. -/
def IsNameOf (meId : Text) (properties : List Property) (group : Property) (name : Text) : Prop :=
  if kindOf group.key = .om then name = meId ++ "_OM".toList
  else ∃ property ∈ properties, kindOf property.key = .netName ∧
    lastPart property.key = lastPart group.key ∧ property.isFilled = true ∧ name = property.value

def IsEntry (meId : Text) (properties : List Property) (group : Property) (entry : Text) : Prop :=
  ∃ name, IsNameOf meId properties group name ∧ entry = netEntry group.suffix group.value name

/-- The first name with the suffix of the port group is the one that belongs to it. -/
def IsNamed (meId : Text) (properties : List Property) (group : Property) : Prop :=
  ∃ name ∈ nameOf group.suffix (netNames meId properties), IsNameOf meId properties group name

instance (meId : Text) (properties : List Property) (group : Property) :
    Decidable (IsNamed meId properties group) := by
  unfold IsNamed IsNameOf
  infer_instance

theorem mem_of_nameOf {name : Text} (named : nameOf pgEndKey names = some name) :
    ∃ pair ∈ names, lastPart pair.1 = pgEndKey ∧ pair.2 = name := by
  obtain ⟨pair, found, rfl⟩ := Option.map_eq_some_iff.mp named
  have same := List.find?_some found
  exact ⟨pair, List.mem_of_find?_eq_some found, (of_decide_eq_true same).symm, rfl⟩

theorem lastPart_ne_of_nameOf (unnamed : nameOf pgEndKey names = none) (member : pair ∈ names) :
    lastPart pair.1 ≠ pgEndKey := by
  intro same
  have absent := List.find?_eq_none.mp (Option.map_eq_none_iff.mp unnamed) pair member
  exact absent (decide_eq_true same.symm)

theorem isEntry_iff_isNamed {group : Property} {name : Text}
    (named : nameOf group.suffix (netNames meId properties) = some name) :
    IsEntry meId properties group (netEntry group.suffix group.value name) ↔
      IsNamed meId properties group := by
  constructor
  · rintro ⟨other, isName, entry⟩
    have same : name = other := by simpa [netEntry] using entry
    exact ⟨name, named, same ▸ isName⟩
  · rintro ⟨other, also, isName⟩
    obtain rfl : name = other := Option.some.inj (named.symm.trans also)
    exact ⟨name, isName, rfl⟩

theorem IsNameOf.offered {group : Property} {name : Text} (member : group ∈ properties)
    (external : group.isExternal = true) (isName : IsNameOf meId properties group name) :
    ∃ pair ∈ netNames meId properties, lastPart pair.1 = group.suffix := by
  unfold IsNameOf at isName
  unfold Property.suffix
  split at isName
  · next isOm =>
      have filled := (Bool.and_eq_true_iff.mp external).1
      refine ⟨("NETWORK_NAME_OM".toList, meId ++ "_OM".toList),
        List.mem_filterMap.mpr ⟨group, member, ?_⟩, ?_⟩
      · simp [Property.netName, isOm, filled]
      · rw [if_pos isOm]
        exact (by decide +kernel : lastPart "NETWORK_NAME_OM".toList = "OM".toList)
  · next notOm =>
      obtain ⟨property, among, isNetName, same, -⟩ := isName
      refine ⟨(property.key, property.value), List.mem_filterMap.mpr ⟨property, among, ?_⟩, ?_⟩
      · simp [Property.netName, isNetName]
      · rw [if_neg notOm]
        exact same

theorem populateExternalNetList_iff {groups : List Property}
    (namesReadable : ∀ pair ∈ netNames meId properties, IsReadable pair)
    (among : ∀ group ∈ groups, group ∈ properties ∧ group.isExternal = true)
    (groupsReadable : ∀ group ∈ groups, IsReadable group.portgroup ∧
      omKey (lastPart group.portgroupKey) = group.suffix)
    (found : List Text) (bare : ∀ name ∈ found, ':' ∉ name) :
    (∃ entries, populateExternalNetList ((groups.map Property.portgroup).map keyed)
        ((netNames meId properties).map keyed ++ found) = .ok entries ∧
        List.Forall₂ (IsEntry meId properties) groups entries) ↔
      ∀ group ∈ groups, IsNamed meId properties group := by
  induction groups generalizing found with
  | nil => simp [populateExternalNetList]
  | cons group groups ih =>
    obtain ⟨⟨first, isSuffix⟩, rest⟩ := List.forall_mem_cons.mp groupsReadable
    obtain ⟨⟨member, external⟩, others⟩ := List.forall_mem_cons.mp among
    have key : endKey group.portgroupKey = .ok (lastPart group.portgroupKey) :=
      endKey_of_readable first
    have pieces : piece ':' 0 (keyed group.portgroup) = .ok group.portgroupKey ∧
        piece ':' 1 (keyed group.portgroup) = .ok group.value := piece_keyed first.2
    simp only [List.map_cons, populateExternalNetList, pieces, key, ok_bind, isSuffix,
      findNetName_append namesReadable, List.forall_mem_cons]
    cases named : nameOf group.suffix (netNames meId properties) with
    | some name =>
      obtain ⟨pair, inNames, -, rfl⟩ := mem_of_nameOf named
      have bareName : ∀ name ∈ found ++ [pair.2], ':' ∉ name := by
        simpa [or_imp, forall_and] using And.intro bare (namesReadable pair inNames).2.2
      rw [← ih others rest _ bareName, ← isEntry_iff_isNamed named]
      simp only [ok_bind, List.append_assoc]
      cases populateExternalNetList ((groups.map Property.portgroup).map keyed)
          ((netNames meId properties).map keyed ++ (found ++ [pair.2])) with
      | error failure => simp
      | ok entries => simp [pure, Except.pure]
    | none =>
      constructor
      · rintro ⟨entries, -, paired⟩
        obtain ⟨entry, -, ⟨name, isName, -⟩, -⟩ := List.forall₂_cons_left_iff.mp paired
        obtain ⟨pair, inNames, same⟩ := isName.offered member external
        exact absurd same (lastPart_ne_of_nameOf named inNames)
      · rintro ⟨⟨name, found, -⟩, -⟩
        simp [named] at found

/-! ## Pairing by key -/

/-- A run aborts, or each filled port group of an external network has its entry. -/
def PairsByKey (meId : Text) (properties : List Property) : Prop :=
  (∃ reason, extractProperties meId properties = .error (.abort reason)) ∨
    ∃ extracted, extractProperties meId properties = .ok extracted ∧
      List.Forall₂ (IsEntry meId properties) (properties.filter Property.isExternal)
        extracted.networkInfoList

theorem mem_of_kindOf {key : Text} (kind : kindOf key ≠ .other) : '_' ∈ key := by
  by_contra absent
  have outside : ∀ text : Text, '_' ∈ text → ¬ text <:+: key :=
    fun text member inside => absent (inside.subset member)
  have cust := outside "PORTGROUP_CUST".toList (by decide +kernel)
  have om := outside "PORTGROUP_OM".toList (by decide +kernel)
  have netName := outside "NETWORK_NAME_CUST".toList (by decide +kernel)
  have parted : ∀ name ∈ mandIntPortgroups, '_' ∈ name := by decide +kernel
  have internal : ¬ mandIntPortgroups.contains key = true :=
    fun member => absent (parted key (List.contains_iff_mem.mp member))
  apply kind
  unfold kindOf
  rw [if_neg cust, if_neg om, if_neg netName, if_neg internal]

section Readable

variable (plainId : ':' ∉ meId)
  (plain : ∀ property ∈ properties, ':' ∉ property.key ∧ ':' ∉ property.value)

include plain in
theorem portgroup_readable {group : Property} (member : group ∈ properties)
    (external : group.isExternal = true) : IsReadable group.portgroup := by
  obtain ⟨plainKey, plainValue⟩ := plain group member
  have kind : kindOf group.key ≠ .other := by
    rintro other
    simp [Property.isExternal, other] at external
  unfold Property.portgroup Property.portgroupKey
  split
  · have key : '_' ∈ "PORTGROUP_OMAPG".toList ∧ ':' ∉ "PORTGROUP_OMAPG".toList := by
      decide +kernel
    exact ⟨key.1, key.2, plainValue⟩
  · exact ⟨mem_of_kindOf kind, plainKey, plainValue⟩

include plainId plain in
theorem netNames_readable {pair : Text × Text} (member : pair ∈ netNames meId properties) :
    IsReadable pair := by
  obtain ⟨property, member, named⟩ := List.mem_filterMap.mp member
  obtain ⟨plainKey, plainValue⟩ := plain property member
  unfold Property.netName at named
  split at named
  · split at named
    · cases named
      have key : '_' ∈ "NETWORK_NAME_OM".toList ∧ ':' ∉ "NETWORK_NAME_OM".toList := by
        decide +kernel
      exact ⟨key.1, key.2, by simp [plainId]⟩
    · cases named
  · next kind =>
      cases named
      exact ⟨mem_of_kindOf (by simp [kind]), plainKey, plainValue⟩
  · cases named

/-- No customer network has the suffix that is used for OM. -/
def OmKeyFree (properties : List Property) : Prop :=
  ∀ property ∈ properties, kindOf property.key = .cust → lastPart property.key ≠ "OMAPG".toList

theorem omKey_lastPart {group : Property} (external : group.isExternal = true)
    (free : kindOf group.key = .cust → lastPart group.key ≠ "OMAPG".toList) :
    omKey (lastPart group.portgroupKey) = group.suffix := by
  unfold Property.portgroupKey Property.suffix
  split
  · decide +kernel
  · next notOm =>
      refine if_neg (free ?_)
      simpa [Property.isExternal, notOm] using (Bool.and_eq_true_iff.mp external).2

include plainId plain in
theorem populate_iff (free : OmKeyFree properties) :
    (∃ entries, populateExternalNetList ((portgroups properties).map keyed)
        ((netNames meId properties).map keyed) = .ok entries ∧
        List.Forall₂ (IsEntry meId properties) (properties.filter Property.isExternal) entries) ↔
      ∀ group ∈ properties.filter Property.isExternal, IsNamed meId properties group := by
  have among : ∀ group ∈ properties.filter Property.isExternal,
      group ∈ properties ∧ group.isExternal = true := fun _ => List.mem_filter.mp
  have pairing := populateExternalNetList_iff (fun _ => netNames_readable plainId plain) among
    (fun group member =>
      have ⟨inside, external⟩ := among group member
      ⟨portgroup_readable plain inside external, omKey_lastPart external (free group inside)⟩)
    [] (by simp)
  rwa [List.append_nil] at pairing

end Readable

/-! ## The checks -/

theorem check_bind_eq_ok_iff {α : Type} {holds : Bool} {reason : Abort}
    {next : Except Failure α} {result : α} :
    (check holds reason >>= fun _ => next) = .ok result ↔ holds = true ∧ next = .ok result := by
  cases holds <;> simp [check]

theorem bind_ne_error {α β : Type} {first : Except Failure α} {second : α → Except Failure β}
    {failure : Failure} (fst : first ≠ .error failure)
    (snd : ∀ value, second value ≠ .error failure) : (first >>= second) ≠ .error failure := by
  cases first with
  | error other => simpa using fst
  | ok value => exact snd value

theorem checkProperties_ne_exception : checkProperties properties ≠ .error .exception := by
  have passes (holds : Bool) (reason : Abort) : check holds reason ≠ .error .exception := by
    cases holds <;> simp [check]
  unfold checkProperties
  repeat' refine bind_ne_error (passes _ _) fun _ => ?_
  exact passes _ _

theorem piece_ne_abort (separator : Char) (index : Nat) (text : Text) (reason : Abort) :
    piece separator index text ≠ .error (.abort reason) := by
  unfold piece
  split <;> simp

theorem endKey_ne_abort (text : Text) (reason : Abort) :
    endKey text ≠ .error (.abort reason) := by
  unfold endKey
  split <;> simp

theorem findNetName_ne_abort (pgEndKey : Text) (names : List Text) (reason : Abort) :
    findNetName pgEndKey names ≠ .error (.abort reason) := by
  induction names with
  | nil => simp [findNetName]
  | cons name names ih =>
    refine bind_ne_error (piece_ne_abort _ _ _ _) fun key => ?_
    refine bind_ne_error (endKey_ne_abort _ _) fun ntEndKey => ?_
    split
    · exact bind_ne_error (piece_ne_abort _ _ _ _) fun _ => by simp [pure, Except.pure]
    · exact ih

/-- The pairing never aborts. -/
theorem populate_ne_abort (groups names : List Text) (reason : Abort) :
    populateExternalNetList groups names ≠ .error (.abort reason) := by
  induction groups generalizing names with
  | nil => simp [populateExternalNetList]
  | cons group groups ih =>
    refine bind_ne_error (piece_ne_abort _ _ _ _) fun temp => ?_
    refine bind_ne_error (piece_ne_abort _ _ _ _) fun pgName => ?_
    refine bind_ne_error (endKey_ne_abort _ _) fun pgEndKey => ?_
    refine bind_ne_error (findNetName_ne_abort _ _ _) fun found => ?_
    split
    · exact ih names
    · exact bind_ne_error (ih _) fun _ => by simp [pure, Except.pure]

/-- As many names as port groups are filled, no value is given twice, and there are no external
networks or three to five of them. -/
@[mk_iff]
structure Accepted (properties : List Property) : Prop where
  names : (properties.filter Property.isExternal).length =
    (properties.filterMap Property.nwName).length
  groupsDiffer : ((properties.filter Property.isExternal).map Property.value).Nodup
  internalDiffer : ((properties.filter Property.isInternal).map Property.value).Nodup
  namesDiffer : (properties.filterMap Property.nwName).Nodup
  number : properties.filter Property.isExternal = [] ∨
    3 ≤ (properties.filter Property.isExternal).length ∧
      (properties.filter Property.isExternal).length ≤ 5

/-- The internal networks are not given, or all four of them with different values. -/
def InternalComplete (properties : List Property) : Prop :=
  properties.any Property.isInternal = true →
    (portgroupDict properties).Nodup ∧ 4 ≤ (portgroupDict properties).length

theorem checkProperties_eq_ok_iff : checkProperties properties = .ok () ↔ Accepted properties := by
  have values : (portgroups properties).map (·.2) =
      (properties.filter Property.isExternal).map Property.value := List.map_map
  have last {holds : Bool} {reason : Abort} : check holds reason = .ok () ↔ holds = true := by
    cases holds <;> simp [check]
  simp only [checkProperties, check_bind_eq_ok_iff, last, values, List.length_map,
    decide_eq_true_eq, Bool.or_eq_true, Bool.and_eq_true, List.isEmpty_iff, List.map_eq_nil_iff]
  rw [accepted_iff]

theorem InternalComplete.check (complete : InternalComplete properties) :
    checkInternal properties = .ok () := by
  unfold checkInternal
  split
  · next some =>
      obtain ⟨differ, all⟩ := complete some
      simp [OvfEnv.check, differ, all]
  · rfl

theorem extractProperties_of_accepted (accepted : Accepted properties)
    (complete : InternalComplete properties) :
    (extractProperties meId properties).map (·.networkInfoList) =
      populateExternalNetList ((portgroups properties).map keyed)
        ((netNames meId properties).map keyed) := by
  rw [extractProperties, checkProperties_eq_ok_iff.mpr accepted, complete.check, ok_bind]
  cases populateExternalNetList ((portgroups properties).map keyed)
    ((netNames meId properties).map keyed) <;> rfl

theorem aborts_of_not_accepted (refused : ¬Accepted properties) :
    ∃ reason, extractProperties meId properties = .error (.abort reason) := by
  cases checked : checkProperties properties with
  | ok passed => exact absurd (checkProperties_eq_ok_iff.mp checked) refused
  | error failure =>
    cases failure with
    | abort reason => exact ⟨reason, by rw [extractProperties, checked, error_bind]⟩
    | exception => exact absurd checked checkProperties_ne_exception

/-- Three filled port groups, whose names differ only in where they are filled. -/
def sampleProperties (cust2 cust3 : String) : List Property :=
  [("PORTGROUP_OM", "pg_om"), ("PORTGROUP_CUST1", "pg_li"), ("PORTGROUP_CUST2", "pg_cdr"),
    ("NETWORK_NAME_CUST1", "LI"), ("NETWORK_NAME_CUST2", cust2), ("NETWORK_NAME_CUST3", cust3)].map
    fun pair => ⟨pair.1.toList, pair.2.toList⟩

end Apos.OvfEnv
