import Mathlib.Data.List.DropRight
import Mathlib.Data.List.Infix

/-!
# Which components are active on a node

Two programs answer this question.  `apg-adm -g active` filters the activation table by the
environment of the node and takes away what the lock table locks.
`apg_sw_activation_check -c` looks up one component and tests it.  Both read the same files
of the node and share the tests of one entry, but they differ in how an entry is looked up,
in a special case for AP2 on virtual hardware, and in how a lock is recognised: the first
program compares names, the second one searches the printed list of locked names.
-/

namespace Apos.Activation

abbrev Text := List Char

def upper (text : Text) : Text :=
  text.map Char.toUpper

/-- `str.split()`: the words between blanks. -/
def split (text : Text) : List Text :=
  (text.splitOnP fun c => c ∈ [' ', '\t', '\n', '\r', '\x0b', '\x0c']).filter (· ≠ [])

def rstripNewlines (text : Text) : Text :=
  text.rdropWhile (· = '\n')

/-! ## The environment of the node -/

/-- What the commands that read the node's files print: `cat` for the four files below
`/storage/system/config/apos`, and `immlist` for the system type. -/
structure NodeFiles where
  aptype : Text
  installationHw : Text
  shelfArchitecture : Text
  systemType : Text
  immlist : Text
  deriving DecidableEq

structure Environment where
  apType : Text
  targetEnv : Text
  sysType : Option Text
  deriving DecidableEq

/-- The hardware type: the first word up to an underscore, every GEP7 board being a GEP7. -/
def hwType (out : Text) : Option Text := do
  let word ← (split out)[0]?
  let hwType ← (word.splitOn '_')[0]?
  return if "GEP7".toList <+: hwType then "GEP7".toList else hwType

def targetEnvironment (hwType shelfType : Text) : Text :=
  let targetEnv := if shelfType = "SMX".toList then hwType ++ shelfType else hwType
  if shelfType = "SCX".toList ∧ hwType = "GEP7".toList then targetEnv ++ shelfType else targetEnv

/-- The system type from the file, or from the model when the file has nothing.  A value
that is neither 0 nor 1 leaves it unset. -/
def systemType (files : NodeFiles) : Option (Option Text) :=
  if files.systemType ≠ [] then do
    let word ← (split files.systemType)[0]?
    return some word
  else do
    let value ← (files.immlist.splitOn '=')[1]?
    let systemType := rstripNewlines value
    return if systemType = "1".toList then some "MCP".toList
      else if systemType = "0".toList then some "SCP".toList
      else none

/-- `ApgEnvironment.fetchNodeDetails`.  A list index out of range raises. -/
def fetchNodeDetails (files : NodeFiles) : Option Environment := do
  let apType ← (split files.aptype)[0]?
  let hwType ← hwType files.installationHw
  let shelfType ← (split files.shelfArchitecture)[0]?
  let sysType ← systemType files
  return ⟨apType, targetEnvironment hwType shelfType, sysType⟩

/-- `UserInput.fetchMissingInputs` of the check.  Without other options all is missing, and
it has the statements of the other program. -/
def fetchMissingInputs (files : NodeFiles) : Option Environment :=
  fetchNodeDetails files

/-! ## The tables -/

/-- An entry of the activation table; `systype` is optional. -/
structure Component where
  name : Text
  apTypeArray : List Text
  targetEnvArray : List Text
  sysTypeArray : Option (List Text)
  deriving DecidableEq

structure LockEntry where
  name : Text
  locked : Bool
  deriving DecidableEq

def hasEntry (array : List Text) (name : Text) : Bool :=
  array.any fun entry => upper entry == upper name

def Component.hasApType (component : Component) (name : Text) : Bool :=
  hasEntry component.apTypeArray name

def Component.hasTargetenv (component : Component) (name : Text) : Bool :=
  hasEntry component.targetEnvArray name

/-- An unset system type has no `upper`, so that its first comparison raises. -/
def Component.hasSysType (component : Component) (name : Option Text) : Option Bool :=
  match component.sysTypeArray, name with
  | none, _ => some true
  | some array, some name => some (hasEntry array name)
  | some [], none => some false
  | some (_ :: _), none => none

def Component.isSysTypePresent (component : Component) : Bool :=
  component.sysTypeArray.isSome

def getLockedComponents (locks : List LockEntry) : List Text :=
  (locks.filter (·.locked)).map (·.name)

/-! ## `apg-adm -g` -/

def getActiveComponentsList (env : Environment) : List Component → Option (List Component)
  | [] => some []
  | component :: rest => do
      let isAPsupported := component.hasApType env.apType
      let isTargetSupported := component.hasTargetenv env.targetEnv
      let isSysTypeSupported ← component.hasSysType env.sysType
      let active ← getActiveComponentsList env rest
      return if isAPsupported && isTargetSupported && isSysTypeSupported then component :: active
        else active

/-- The loop over the locked components: each takes the first component of its name out. -/
def removeLocked (active : List Component) (locked : List Text) : List Component :=
  locked.foldl (fun active name => active.eraseP (·.name == name)) active

/-- The lines that `apg-adm -g active` prints; everything is computed before the first one. -/
def printActive (files : NodeFiles) (table : List Component) (locks : List LockEntry) :
    Option (List Text) := do
  let env ← fetchNodeDetails files
  let active ← getActiveComponentsList env table
  return (removeLocked active (getLockedComponents locks)).map (·.name)

/-- The output of `apg-adm -g locked`. -/
def printLocked (locks : List LockEntry) : Text :=
  ((getLockedComponents locks).map (· ++ ['\n'])).flatten

/-! ## `apg_sw_activation_check -c` -/

inductive ExitStatus where
  | okSwActive
  | errorSwNotActive
  | inputError
  deriving DecidableEq

/-- The exit status; an exception that nothing catches ends the program with status 1. -/
def ExitStatus.code : ExitStatus → Nat
  | .okSwActive => 0
  | .errorSwNotActive => 1
  | .inputError => 2

def getComponent (table : List Component) (name : Text) : Option Component :=
  table.find? fun component => upper component.name == upper name

def Environment.isVirtualAP2 (env : Environment) : Bool :=
  env.apType == "AP2".toList && env.targetEnv == "VM".toList

/-- The part of `main` after the component has been found. -/
def checkComponent (env : Environment) (component : Component) (locks : List LockEntry)
    (componentName : Text) : ExitStatus :=
  if component.hasApType env.apType then
    if component.hasTargetenv env.targetEnv then
      if env.isVirtualAP2 then .errorSwNotActive
      else if component.isSysTypePresent ∧ component.hasSysType env.sysType ≠ some true then
        .errorSwNotActive
      else if componentName <:+: printLocked locks then .errorSwNotActive
      else .okSwActive
    else .errorSwNotActive
  else .errorSwNotActive

/-- `main` with the one option `-c componentName`. -/
def activationCheck (files : NodeFiles) (table : List Component) (locks : List LockEntry)
    (componentName : Text) : ExitStatus :=
  if componentName = [] then .inputError
  else
    match fetchMissingInputs files with
    | none => .errorSwNotActive
    | some env =>
      match getComponent table componentName with
      | none => .errorSwNotActive
      | some component => checkComponent env component locks componentName

/-! ## What the two programs decide -/

section Verdicts

variable {files : NodeFiles} {env : Environment} {table active : List Component}
  {locks : List LockEntry} {name : Text}

def Component.supports (component : Component) (env : Environment) : Bool :=
  component.hasApType env.apType && component.hasTargetenv env.targetEnv &&
    component.hasSysType env.sysType == some true

/-- The filter of `apg-adm` goes through the whole table without an exception. -/
def Filterable (env : Environment) (table : List Component) : Prop :=
  ∀ component ∈ table, component.hasSysType env.sysType ≠ none

def supportedEntries (env : Environment) (table : List Component) (name : Text) : Nat :=
  table.countP fun component => component.supports env && component.name == name

def lockedEntries (locks : List LockEntry) (name : Text) : Nat :=
  (getLockedComponents locks).count name

theorem getActiveComponentsList_eq_some_iff :
    getActiveComponentsList env table = some active ↔
      Filterable env table ∧ active = table.filter (·.supports env) := by
  induction table generalizing active with
  | nil => simp [getActiveComponentsList, Filterable, eq_comm]
  | cons component rest ih =>
    have rest_eq : getActiveComponentsList env rest = some (rest.filter (·.supports env)) ↔
        Filterable env rest := by
      simp only [ih, and_true]
    cases verdict : component.hasSysType env.sysType with
    | none =>
      simp [getActiveComponentsList, Filterable, verdict]
    | some supported =>
      cases found : getActiveComponentsList env rest with
      | none =>
        have unfilterable : ¬ Filterable env rest := by
          rw [← rest_eq, found]
          exact nofun
        simp only [Filterable] at unfilterable
        simp [getActiveComponentsList, Filterable, verdict, found, unfilterable]
      | some others =>
        obtain ⟨filterable, rfl⟩ := ih.mp found
        have all : Filterable env (component :: rest) := by
          intro other member
          rcases List.mem_cons.mp member with rfl | member
          · rw [verdict]
            exact nofun
          · exact filterable other member
        simp only [all, true_and]
        rw [eq_comm]
        simp [getActiveComponentsList, verdict, found, List.filter_cons,
          Component.supports]

theorem map_name_eraseP (active : List Component) (name : Text) :
    (active.eraseP (·.name == name)).map (·.name) = (active.map (·.name)).erase name := by
  induction active with
  | nil => rfl
  | cons component rest ih =>
    by_cases same : component.name = name
    · simp [same]
    · simp [same, ih]

/-- As to the names, the loop over the locked components is a difference of multisets. -/
theorem count_removeLocked (active : List Component) (locked : List Text) (name : Text) :
    ((removeLocked active locked).map (·.name)).count name =
      (active.map (·.name)).count name - locked.count name := by
  induction locked generalizing active with
  | nil => simp [removeLocked]
  | cons first rest ih =>
    have step : removeLocked active (first :: rest) =
        removeLocked (active.eraseP (·.name == first)) rest := rfl
    rw [step, ih, map_name_eraseP, List.count_erase, List.count_cons]
    omega

theorem count_filter_supports :
    ((table.filter (·.supports env)).map (·.name)).count name =
      supportedEntries env table name := by
  rw [List.count, List.countP_map, List.countP_filter, supportedEntries]
  congr 1
  funext component
  simp [Bool.and_comm]

theorem mem_printActive_iff (fetched : fetchNodeDetails files = some env) :
    (∃ lines, printActive files table locks = some lines ∧ name ∈ lines) ↔
      Filterable env table ∧ lockedEntries locks name < supportedEntries env table name := by
  have count_left (active : List Component)
      (isActive : active = table.filter (·.supports env)) :
      name ∈ (removeLocked active (getLockedComponents locks)).map (·.name) ↔
        lockedEntries locks name < supportedEntries env table name := by
    rw [← List.count_pos_iff, count_removeLocked, isActive, count_filter_supports, lockedEntries]
    omega
  constructor
  · rintro ⟨lines, printed, member⟩
    simp only [printActive, fetched, Option.bind_eq_bind, Option.bind_some,
      Option.bind_eq_some_iff, Option.pure_def, Option.some.injEq] at printed
    obtain ⟨active, listed, rfl⟩ := printed
    obtain ⟨filterable, isActive⟩ := getActiveComponentsList_eq_some_iff.mp listed
    exact ⟨filterable, (count_left active isActive).mp member⟩
  · rintro ⟨filterable, more⟩
    have listed := getActiveComponentsList_eq_some_iff.mpr ⟨filterable, rfl⟩
    refine ⟨_, ?_, (count_left _ rfl).mpr more⟩
    simp [printActive, fetched, listed]

theorem Component.hasSysType_of_absent (component : Component) (sysType : Option Text)
    (absent : ¬ component.isSysTypePresent) : component.hasSysType sysType = some true := by
  have noArray : component.sysTypeArray = none := by
    simpa [isSysTypePresent] using absent
  simp [hasSysType, noArray]

theorem checkComponent_eq_ok_iff (component : Component) :
    checkComponent env component locks name = .okSwActive ↔
      component.supports env ∧ ¬ env.isVirtualAP2 ∧ ¬ name <:+: printLocked locks := by
  have stops_iff : (component.isSysTypePresent ∧ component.hasSysType env.sysType ≠ some true) ↔
      component.hasSysType env.sysType ≠ some true := by
    constructor
    · exact fun stops => stops.2
    · intro unsupported
      exact ⟨by_contra fun absent => unsupported (component.hasSysType_of_absent _ absent),
        unsupported⟩
  unfold checkComponent Component.supports
  rw [if_congr stops_iff rfl rfl]
  split_ifs <;> simp_all

def lookupSupports (env : Environment) (table : List Component) (name : Text) : Bool :=
  (getComponent table name).any (·.supports env)

/-- The component is named on the command line, the node is not a virtual AP2, and the name
stands nowhere in the printed list of locked names. -/
def Checkable (env : Environment) (locks : List LockEntry) (name : Text) : Prop :=
  name ≠ [] ∧ ¬ env.isVirtualAP2 ∧ ¬ name <:+: printLocked locks

theorem activationCheck_eq_ok_iff (fetched : fetchNodeDetails files = some env) :
    activationCheck files table locks name = .okSwActive ↔
      lookupSupports env table name ∧ Checkable env locks name := by
  unfold activationCheck fetchMissingInputs lookupSupports Checkable
  rw [fetched]
  by_cases named : name = []
  · simp [named]
  · cases looked : getComponent table name with
    | none => simp [named]
    | some component =>
      simp only [named, if_false, checkComponent_eq_ok_iff, Option.any_some, ne_eq,
        not_false_eq_true, true_and]

theorem infix_printLocked (isLocked : 0 < lockedEntries locks name) :
    name <:+: printLocked locks := by
  have member : name ++ ['\n'] ∈ (getLockedComponents locks).map (· ++ ['\n']) :=
    List.mem_map_of_mem (List.count_pos_iff.mp isLocked)
  exact (List.prefix_append name ['\n']).isInfix.trans (List.infix_of_mem_flatten member)

/-- The tables and the environment for which the two programs give the same answer.

* For a locked name, each locked entry has to take a supported entry of that name away.
* A name that is not locked and that the filter keeps has to pass the tests that only the
  check makes, and the entry that the check looks at, the first one of that name up to the
  case of letters, has to be supported as well.
* A name that passes these tests must have a supported entry of exactly that spelling, and
  the filter must not stop at an entry that asks for a system type when none is set. -/
structure Consistent (env : Environment) (table : List Component) (locks : List LockEntry)
    (name : Text) : Prop where
  locked : 0 < lockedEntries locks name → Filterable env table →
    supportedEntries env table name ≤ lockedEntries locks name
  kept : lockedEntries locks name = 0 → Filterable env table →
    0 < supportedEntries env table name → lookupSupports env table name ∧ Checkable env locks name
  passed : lookupSupports env table name → Checkable env locks name →
    Filterable env table ∧ 0 < supportedEntries env table name

theorem consistent_iff :
    Consistent env table locks name ↔
      (Filterable env table ∧ lockedEntries locks name < supportedEntries env table name ↔
        lookupSupports env table name ∧ Checkable env locks name) := by
  have unlocked (checkable : Checkable env locks name) : lockedEntries locks name = 0 := by
    by_contra isLocked
    exact checkable.2.2 (infix_printLocked (Nat.pos_of_ne_zero isLocked))
  constructor
  · intro consistent
    constructor
    · rintro ⟨filterable, more⟩
      have notLocked : lockedEntries locks name = 0 := by
        by_contra isLocked
        have fewer := consistent.locked (Nat.pos_of_ne_zero isLocked) filterable
        omega
      exact consistent.kept notLocked filterable (by omega)
    · rintro ⟨supports, checkable⟩
      obtain ⟨filterable, supported⟩ := consistent.passed supports checkable
      have notLocked := unlocked checkable
      exact ⟨filterable, by omega⟩
  · intro agree
    constructor
    · intro isLocked filterable
      by_contra more
      have checkable := (agree.mp ⟨filterable, by omega⟩).2
      have notLocked := unlocked checkable
      omega
    · intro notLocked filterable supported
      exact agree.mp ⟨filterable, by omega⟩
    · intro supports checkable
      obtain ⟨filterable, more⟩ := agree.mpr ⟨supports, checkable⟩
      exact ⟨filterable, by omega⟩

/-- `apg-adm -g active` prints a component if and only if `apg_sw_activation_check -c`
exits with status 0 for it. -/
def ProgramsAgree (files : NodeFiles) (table : List Component) (locks : List LockEntry)
    (name : Text) : Prop :=
  (∃ lines, printActive files table locks = some lines ∧ name ∈ lines) ↔
    (activationCheck files table locks name).code = 0

theorem ExitStatus.code_eq_zero_iff (status : ExitStatus) :
    status.code = 0 ↔ status = .okSwActive := by
  cases status <;> simp [ExitStatus.code]

/-- The two programs agree exactly on consistent tables, and on a node whose environment
cannot be read.  The name need not even stand in the activation table. -/
theorem programs_agree_iff_consistent (files : NodeFiles) (table : List Component)
    (locks : List LockEntry) (name : Text) :
    ProgramsAgree files table locks name ↔
      ∀ env, fetchNodeDetails files = some env → Consistent env table locks name := by
  unfold ProgramsAgree
  rw [ExitStatus.code_eq_zero_iff]
  cases fetched : fetchNodeDetails files with
  | none =>
    have notChecked : activationCheck files table locks name ≠ .okSwActive := by
      unfold activationCheck fetchMissingInputs
      rw [fetched]
      split <;> exact nofun
    simp [printActive, fetched, notChecked]
  | some env =>
    rw [mem_printActive_iff fetched, activationCheck_eq_ok_iff fetched, ← consistent_iff]
    simp

end Verdicts

section Tables

def virtualAP1 : NodeFiles :=
  ⟨"AP1\n".toList, "VM\n".toList, "VIRTUALIZED\n".toList, "SCP\n".toList, []⟩

/-- The two entries of the shipped activation table for CSBIN and ACSBIN, on virtual nodes. -/
def csTable : List Component :=
  [⟨"ACSBIN".toList, ["AP1".toList, "AP2".toList], ["VM".toList], none⟩,
    ⟨"CSBIN".toList, ["AP1".toList, "AP2".toList], ["VM".toList], none⟩]

/-- With ACSBIN locked, `apg-adm -g active` prints CSBIN, and the check finds the name CSBIN
within ACSBIN and takes it for locked. -/
theorem lock_of_longer_name_disagrees :
    ¬ ∀ files table locks name, (∃ component ∈ table, component.name = name) →
      ProgramsAgree files table locks name := by
  intro agree
  have agrees := agree virtualAP1 csTable
    [⟨"ACSBIN".toList, true⟩, ⟨"CSBIN".toList, false⟩] "CSBIN".toList
    ⟨_, List.mem_cons_of_mem _ (List.mem_singleton_self _), rfl⟩
  have printed : printActive virtualAP1 csTable
      [⟨"ACSBIN".toList, true⟩, ⟨"CSBIN".toList, false⟩] = some ["CSBIN".toList] := by
    decide
  have checked := agrees.mp ⟨_, printed, List.mem_singleton_self _⟩
  revert checked
  decide

end Tables

end Apos.Activation
