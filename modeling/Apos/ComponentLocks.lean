import Apos.ComponentActivation

/-!
# Locking components

`apg-adm -l` and `apg-adm -u` set the flag of a component in lock_table.yaml and then run the
command that restarts it.  The outcome of the command is taken from its standard error, which is
not captured, so that it always looks like a success.
-/

namespace Apos.Activation

/-- A component of the table.  A flag without a value is none; the commands are for the node SC-2-1
and for the other node. -/
structure TableEntry where
  name : Text
  locked : Option Bool
  cmd : Text × Text
  deriving DecidableEq

/-- A request and what it meets: whether the file of the table can be opened (writing it then does
not fail), the output of the command that reads the host name, and the exit status of the command
that is run. -/
structure LockRequest where
  locks : Bool
  componentName : Text
  isStored : Bool
  hostName : Text
  exitStatus : Nat
  deriving DecidableEq

/-- What a request returns, unless it leaves the program, and the command that it has run. -/
structure LockReply where
  returnCode : Option Nat
  ran : Option Text
  deriving DecidableEq

def success : Nat := 0

def inputError : Nat := 2

def setLocked (name : Text) (locked : Bool) : List TableEntry → List TableEntry
  | [] => []
  | entry :: table =>
    if entry.name = name then { entry with locked := some locked } :: table
    else entry :: setLocked name locked table

def getComponentDn (entry : TableEntry) (hostName : Text) : Text :=
  if split hostName = ["SC-2-1".toList] then entry.cmd.1 else entry.cmd.2

/-- The part of `process.communicate()` for the standard error, which is not a pipe. -/
def communicateErr (_exitStatus : Nat) : Option Text :=
  none

/-- `handleLock` and `handleUnLock`, which differ in the flag that they set. -/
def handleFlag (locked : Bool) (table : List TableEntry) (request : LockRequest) :
    List TableEntry × LockReply :=
  match table.find? (·.name = request.componentName) with
  | none => (table, ⟨some inputError, none⟩)
  | some entry =>
    if request.isStored then
      let returnCode := if communicateErr request.exitStatus = none then success else 1
      (setLocked request.componentName locked table,
        ⟨some returnCode, some (getComponentDn entry request.hostName)⟩)
    else (table, ⟨none, none⟩)

def handleLock : List TableEntry → LockRequest → List TableEntry × LockReply :=
  handleFlag true

def handleUnLock : List TableEntry → LockRequest → List TableEntry × LockReply :=
  handleFlag false

def handle (table : List TableEntry) (request : LockRequest) : List TableEntry × LockReply :=
  if request.locks then handleLock table request else handleUnLock table request

def handleAll (table : List TableEntry) :
    List LockRequest → List TableEntry × List (LockRequest × LockReply)
  | [] => (table, [])
  | request :: requests =>
    let later := handleAll (handle table request).1 requests
    (later.1, (request, (handle table request).2) :: later.2)

def succeededOn (name : Text) (step : LockRequest × LockReply) : Bool :=
  step.1.componentName = name && step.2.returnCode = some success

def lastFlag (log : List (LockRequest × LockReply)) (entry : TableEntry) : Option Bool :=
  match (log.filter (succeededOn entry.name)).getLast? with
  | none => entry.locked
  | some step => some step.1.locks

def withFlags (log : List (LockRequest × LockReply)) (table : List TableEntry) : List TableEntry :=
  table.map fun entry => { entry with locked := lastFlag log entry }

/-- A success means that a command has been run with status 0, the flags are those of the last
successes, and nothing else is changed. -/
structure TellsTruth (table : List TableEntry) (requests : List LockRequest) : Prop where
  ran : ∀ step ∈ (handleAll table requests).2, step.2.returnCode = some success →
    step.2.ran ≠ none ∧ step.1.exitStatus = 0
  flags : (handleAll table requests).1 = withFlags (handleAll table requests).2 table

theorem setLocked_eq_map {table : List TableEntry} (distinct : (table.map (·.name)).Nodup)
    (name : Text) (locked : Bool) :
    setLocked name locked table = table.map fun entry =>
      if entry.name = name then { entry with locked := some locked } else entry := by
  induction table with
  | nil => rfl
  | cons entry table ih =>
    rw [List.map_cons, List.nodup_cons] at distinct
    rw [setLocked, List.map_cons]
    split
    · next isNamed =>
        have others : table = table.map fun entry =>
            if entry.name = name then { entry with locked := some locked } else entry := by
          nth_rewrite 1 [← List.map_id table]
          apply List.map_congr_left
          intro other member
          rw [if_neg]
          · rfl
          · rintro rfl
            exact distinct.1 (isNamed ▸ List.mem_map_of_mem member)
        rw [← others]
    · rw [ih distinct.2]

section Requests

variable {table : List TableEntry} {request : LockRequest}

/-- The request is on a component of the table and the table can be stored. -/
def IsCarriedOut (table : List TableEntry) (request : LockRequest) : Prop :=
  request.componentName ∈ table.map (·.name) ∧ request.isStored = true

theorem handle_eq (table : List TableEntry) (request : LockRequest) :
    handle table request = handleFlag request.locks table request := by
  cases isLock : request.locks <;> simp [handle, isLock, handleLock, handleUnLock]

theorem handle_of_carriedOut (carriedOut : IsCarriedOut table request) :
    (handle table request).1 = setLocked request.componentName request.locks table ∧
      (handle table request).2.returnCode = some success ∧ (handle table request).2.ran ≠ none := by
  obtain ⟨entry, member, isNamed⟩ := List.mem_map.mp carriedOut.1
  rw [handle_eq, handleFlag]
  split
  · next absent =>
      have other := List.find?_eq_none.mp absent entry member
      simp [isNamed] at other
  · rw [if_pos carriedOut.2]
    exact ⟨rfl, rfl, by simp⟩

theorem handle_of_not_carriedOut (refused : ¬IsCarriedOut table request) :
    (handle table request).1 = table ∧ (handle table request).2.returnCode ≠ some success := by
  rw [handle_eq, handleFlag]
  split
  · exact ⟨rfl, by simp [inputError, success]⟩
  · next entry isFound =>
      have isNamed := List.find?_some isFound
      rw [decide_eq_true_eq] at isNamed
      have named : request.componentName ∈ table.map (·.name) :=
        isNamed ▸ List.mem_map_of_mem (List.mem_of_find?_eq_some isFound)
      rw [if_neg fun isStored => refused ⟨named, isStored⟩]
      exact ⟨rfl, by simp⟩

theorem handle_flags (distinct : (table.map (·.name)).Nodup) (request : LockRequest) :
    (handle table request).1 = withFlags [(request, (handle table request).2)] table := by
  by_cases carriedOut : IsCarriedOut table request
  · obtain ⟨stored, code, -⟩ := handle_of_carriedOut carriedOut
    rw [stored, setLocked_eq_map distinct]
    apply List.map_congr_left
    intro entry _
    by_cases isNamed : request.componentName = entry.name
    · simp [lastFlag, succeededOn, code, isNamed]
    · simp [lastFlag, succeededOn, isNamed, Ne.symm isNamed]
  · obtain ⟨same, code⟩ := handle_of_not_carriedOut carriedOut
    rw [same]
    simp [withFlags, lastFlag, succeededOn, code]

theorem map_name_handle (distinct : (table.map (·.name)).Nodup) (request : LockRequest) :
    (handle table request).1.map (·.name) = table.map (·.name) := by
  rw [handle_flags distinct, withFlags, List.map_map]
  rfl

theorem reply_truth_iff (table : List TableEntry) (request : LockRequest) :
    ((handle table request).2.returnCode = some success →
        (handle table request).2.ran ≠ none ∧ request.exitStatus = 0) ↔
      (IsCarriedOut table request → request.exitStatus = 0) := by
  by_cases carriedOut : IsCarriedOut table request
  · obtain ⟨-, code, ran⟩ := handle_of_carriedOut carriedOut
    simp [carriedOut, code, ran]
  · simp [carriedOut, (handle_of_not_carriedOut carriedOut).2]

end Requests

theorem withFlags_cons (step : LockRequest × LockReply) (log : List (LockRequest × LockReply))
    (table : List TableEntry) :
    withFlags (step :: log) table = withFlags log (withFlags [step] table) := by
  rw [withFlags, withFlags, withFlags, List.map_map]
  apply List.map_congr_left
  intro entry _
  by_cases succeeded : succeededOn entry.name step = true
  · simp only [lastFlag, Function.comp_apply, List.filter_cons_of_pos succeeded, List.getLast?_cons]
    cases (log.filter (succeededOn entry.name)).getLast? <;> rfl
  · simp only [lastFlag, Function.comp_apply, List.filter_cons_of_neg succeeded]
    rfl

theorem handleAll_flags {table : List TableEntry} (distinct : (table.map (·.name)).Nodup)
    (requests : List LockRequest) :
    (handleAll table requests).1 = withFlags (handleAll table requests).2 table := by
  induction requests generalizing table with
  | nil => exact (List.map_id table).symm
  | cons request requests ih =>
    rw [handleAll, withFlags_cons, ← handle_flags distinct]
    exact ih (map_name_handle distinct request ▸ distinct)

theorem replies_truth_iff {table : List TableEntry} (distinct : (table.map (·.name)).Nodup)
    (requests : List LockRequest) :
    (∀ step ∈ (handleAll table requests).2, step.2.returnCode = some success →
        step.2.ran ≠ none ∧ step.1.exitStatus = 0) ↔
      ∀ request ∈ requests, IsCarriedOut table request → request.exitStatus = 0 := by
  induction requests generalizing table with
  | nil => simp [handleAll]
  | cons request requests ih =>
    have names := map_name_handle distinct request
    rw [handleAll, List.forall_mem_cons, List.forall_mem_cons, ih (names ▸ distinct),
      reply_truth_iff]
    simp only [IsCarriedOut, names]

/-- The replies and the flags tell the truth if and only if the command of every request that is
carried out succeeds. -/
theorem tellsTruth_iff {table : List TableEntry} (distinct : (table.map (·.name)).Nodup)
    (requests : List LockRequest) :
    TellsTruth table requests ↔
      ∀ request ∈ requests, IsCarriedOut table request → request.exitStatus = 0 := by
  rw [← replies_truth_iff distinct]
  exact ⟨TellsTruth.ran, fun ran => ⟨ran, handleAll_flags distinct requests⟩⟩

/-- The table as `getLockedComponents` reads it, for which only the flag `True` locks. -/
def asLocks (table : List TableEntry) : List LockEntry :=
  table.map fun entry => ⟨entry.name, entry.locked = some true⟩

/-- After any requests, `apg-adm -g active` prints a component that one entry supports exactly if
the last successful request on it was no lock or, without one, it was not locked before. -/
theorem printed_iff_not_locked_last {files : NodeFiles} {env : Environment} {name : Text}
    {components : List Component} {table : List TableEntry}
    (fetched : fetchNodeDetails files = some env) (filterable : Filterable env components)
    (once : supportedEntries env components name = 1) (distinct : (table.map (·.name)).Nodup)
    (requests : List LockRequest) :
    (∃ lines, printActive files components (asLocks (handleAll table requests).1) = some lines ∧
        name ∈ lines) ↔
      ∀ entry ∈ table, entry.name = name →
        lastFlag (handleAll table requests).2 entry ≠ some true := by
  rw [mem_printActive_iff fetched, once, handleAll_flags distinct, lockedEntries, Nat.lt_one_iff,
    List.count_eq_zero]
  simp only [filterable, true_and, getLockedComponents, asLocks, withFlags, List.mem_map,
    List.mem_filter]
  constructor
  · rintro notLocked entry member rfl isLocked
    exact notLocked ⟨_, ⟨⟨_, ⟨entry, member, rfl⟩, rfl⟩, decide_eq_true isLocked⟩, rfl⟩
  · rintro unlocked ⟨_, ⟨⟨_, ⟨entry, member, rfl⟩, rfl⟩, isLocked⟩, isName⟩
    exact unlocked entry member isName (of_decide_eq_true isLocked)

def sampleTable : List TableEntry :=
  [⟨"ITHBIN".toList, some false, ("restart SC-1".toList, "restart SC-2".toList)⟩]

def sampleLock (exitStatus : Nat) : LockRequest :=
  ⟨true, "ITHBIN".toList, true, "SC-2-1\n".toList, exitStatus⟩

/-- CSBIN is printed after it has been locked and unlocked again. -/
theorem printed_after_unlock :
    ∃ lines, printActive virtualAP1 csTable (asLocks (handleAll
      [⟨"CSBIN".toList, none, ([], [])⟩] [⟨true, "CSBIN".toList, true, [], 0⟩,
        ⟨false, "CSBIN".toList, true, [], 0⟩]).1) = some lines ∧ "CSBIN".toList ∈ lines := by
  have fetched : fetchNodeDetails virtualAP1 =
      some ⟨"AP1".toList, "VM".toList, some "SCP".toList⟩ := by decide +kernel
  have filterable : Filterable ⟨"AP1".toList, "VM".toList, some "SCP".toList⟩ csTable := by
    unfold Filterable
    decide +kernel
  refine (printed_iff_not_locked_last fetched filterable (by decide +kernel) (by decide) _).mpr ?_
  decide +kernel

/-- Two components are locked, and one of them is unlocked again. -/
theorem tellsTruth_sample :
    TellsTruth (⟨"CSBIN".toList, none, ([], [])⟩ :: sampleTable)
      [sampleLock 0, ⟨true, "CSBIN".toList, true, [], 0⟩, { sampleLock 0 with locks := false }] :=
  (tellsTruth_iff (by decide) _).mpr (by simp [sampleLock])

/-- The command fails, and the request returns `SUCCESS`. -/
theorem failed_lock_reported_as_success :
    (sampleTable.map (·.name)).Nodup ∧
      (handleLock sampleTable (sampleLock 1)).2 = ⟨some success, some "restart SC-1".toList⟩ ∧
      ¬TellsTruth sampleTable [sampleLock 1] := by
  refine ⟨by decide, by decide, fun truth => ?_⟩
  have ran := truth.ran (sampleLock 1, ⟨some success, some "restart SC-1".toList⟩) (by decide) rfl
  exact absurd ran.2 (by decide)

end Apos.Activation
