import Apos.DrbdAgentAlphabets

/-!
# What an activation has checked

The history of a role-manager thread shows on what grounds it went on.  This
file names those grounds, for the health of the disk and for the split-brain
algorithm, and proves them about every path through `healthCheck` and
`splitBrainAlgo`.
-/

namespace Apos.DrbdAgent

abbrev History : Type := List (Exchange signature)

/-- The text `runCommand` leaves in its output argument. -/
def textOf : Option (List String) → String
  | none => ""
  | some lines => outputOf lines

/-! ## Grounds of the health check -/

def statusFetch (wanted : Query) : Exchange signature → Option String
  | ⟨.ask (.popen query), lines⟩ => if query = wanted then some (textOf lines) else none
  | _ => none

def diskFetch : Exchange signature → Option String :=
  statusFetch (.localDisk "drbd1")

def roleFetch : Exchange signature → Option String :=
  statusFetch (.localRole "drbd1")

def recordFetch : Exchange signature → Option String
  | ⟨.loadRecord, some info⟩ => some info.cstate
  | _ => none

/-- The health check saw a finished synchronisation, a usable role and, at its
last query, a disk that is up to date. -/
structure Healthy (history : History) : Prop where
  record : ∃ cstate, history.filterMap recordFetch = [cstate] ∧
    cstate ∉ ["StartingSyncT", "SyncTarget", "PausedSyncT"]
  role : ∃ role, history.filterMap roleFetch = [role] ∧ role ∈ ["Primary", "Secondary"]
  disk : (history.filterMap diskFetch).getLast? = some "UpToDate"

/-! ## Grounds of the split-brain algorithm -/

def PeerLocked (history : History) : Prop :=
  ⟨.ask .peerNodeLockd, true⟩ ∈ history

def Exempt (history : History) : Prop :=
  [⟨.getOldhaState, HaState.undefined⟩, ⟨.accessLock, false⟩] <:+: history

def isProbe (exchange : Exchange signature) : Bool :=
  kind exchange.1 = .probe

def silence (isVirtual : Bool) (mip : Mip) : Exchange signature :=
  if isVirtual then ⟨.ask (.ping mip), false⟩ else ⟨.ask (.arping mip), false⟩

/-- Every address that is not skipped was probed, in order, and none answered. -/
def AllSilent (history : History) : Prop :=
  ∃ (config : AgentConfig) (isVirtual : Bool),
    ⟨.ask .getConfig, config⟩ ∈ history ∧
    ⟨.ask .isVirtualNode, isVirtual⟩ ∈ history ∧
    history.filter isProbe =
      (config.mipInfo.filter fun mip => !skipsMip isVirtual mip).map (silence isVirtual)

def NoAnswer (history : History) : Prop :=
  ∀ mip, ⟨.ask (.ping mip), true⟩ ∉ history ∧ ⟨.ask (.arping mip), true⟩ ∉ history

def Guarded (history : History) : Prop :=
  PeerLocked history ∨ Exempt history ∨ AllSilent history

/-! ## Histories of known kinds -/

def Within (kinds : List OpKind) (history : History) : Prop :=
  ∀ exchange ∈ history, Only kinds exchange.1

@[simp]
theorem within_nil (kinds : List OpKind) : Within kinds [] :=
  fun _ member => (List.not_mem_nil member).elim

variable {kinds : List OpKind} {exchange : Exchange signature} {history : History}

@[simp]
theorem within_cons :
    Within kinds (exchange :: history) ↔
      kind exchange.1 ∈ kinds ∧ Within kinds history :=
  List.forall_mem_cons

@[simp]
theorem within_append {first second : History} :
    Within kinds (first ++ second) ↔ Within kinds first ∧ Within kinds second :=
  List.forall_mem_append

theorem Within.widen {wider : List OpKind} (within : Within kinds history)
    (subset : kinds ⊆ wider) : Within wider history :=
  fun exchange member => subset (within exchange member)

theorem Within.not_mem (within : Within kinds history) (other : kind exchange.1 ∉ kinds) :
    exchange ∉ history :=
  fun member => other (within exchange member)

theorem kind_of_statusFetch {wanted : Query} {state : String}
    (fetched : statusFetch wanted exchange = some state) : kind exchange.1 = .status := by
  unfold statusFetch at fetched
  split at fetched
  · rfl
  · cases fetched

theorem kind_of_recordFetch {state : String} (fetched : recordFetch exchange = some state) :
    kind exchange.1 = .record := by
  unfold recordFetch at fetched
  split at fetched
  · rfl
  · cases fetched

theorem Within.filterMap_eq_nil (within : Within kinds history)
    {fetch : Exchange signature → Option String} {fetchKind : OpKind} (foreign : fetchKind ∉ kinds)
    (kindOf : ∀ {exchange state}, fetch exchange = some state → kind exchange.1 = fetchKind) :
    history.filterMap fetch = [] := by
  refine List.filterMap_eq_nil_iff.mpr fun exchange member => ?_
  cases found : fetch exchange with
  | none => rfl
  | some state =>
    have only := within exchange member
    rw [Only, kindOf found] at only
    exact (foreign only).elim

theorem Within.filter_isProbe (within : Within kinds history) (foreign : OpKind.probe ∉ kinds) :
    history.filter isProbe = [] := by
  refine List.filter_eq_nil_iff.mpr fun exchange member => ?_
  intro probe
  have only := within exchange member
  rw [Only, show kind exchange.1 = .probe by simpa [isProbe] using probe] at only
  exact foreign only

/-! ## The health check -/

theorem failOrExit_halts {α : Type} (report : Agent Unit) :
    (failOrExit report : Agent α).Halts :=
  .of_bind fun _ => .of_bind fun _ => ⟨_, rfl⟩

theorem refuseInconsistent_halts (depth : Nat) (info : PersistantInfo) :
    (refuseInconsistent depth info).Halts :=
  .of_bind fun _ => .of_bind fun _ => .of_bind fun _ => failOrExit_halts _

theorem runCommand_ends (query : Query) :
    (runCommand query).Ends fun exchanges outcome =>
      ∃ lines, exchanges = [⟨.ask (.popen query), lines⟩] ∧
        outcome = .returned (lines.isSome, textOf lines) := by
  intro lines
  cases lines with
  | none => exact ⟨none, rfl, rfl⟩
  | some lines => exact ⟨some lines, rfl, rfl⟩

theorem getDiskState_drbd1 :
    getDiskState "drbd1" true = runCommand (.localDisk "drbd1") :=
  rfl

theorem getDrbdRole_drbd1 :
    getDrbdRole "drbd1" true = runCommand (.localRole "drbd1") :=
  rfl

/-- The retry loop returns the last state it fetched and only gives up when no
round is left. -/
theorem retryDiskState_ends (remaining : Nat) (state : String) :
    (retryDiskState "drbd1" remaining state).Ends fun exchanges outcome =>
      ∃ left final, outcome = .returned (left, final) ∧
        (exchanges.filterMap diskFetch).getLast?.getD state = final ∧
        exchanges.filterMap roleFetch = [] ∧ (left = 0 ∨ final = "UpToDate") := by
  induction remaining generalizing state with
  | zero => exact ⟨0, state, rfl, rfl, rfl, .inl rfl⟩
  | succ remaining ih =>
    unfold retryDiskState
    split
    · next upToDate => exact ⟨_, state, rfl, rfl, rfl, .inr upToDate⟩
    · intro slept
      rw [getDiskState_drbd1]
      refine (runCommand_ends _).bind ?_ ?_
      · rintro _ _ ⟨lines, rfl, same⟩
        obtain rfl := Outcome.returned.inj same
        refine (ih (textOf lines)).mono ?_
        rintro exchanges outcome ⟨left, final, rfl, last, noRole, gaveUp⟩
        refine ⟨left, final, rfl, ?_, ?_, gaveUp⟩
        · simpa [diskFetch, statusFetch, List.getLast?_cons] using last
        · simpa [roleFetch, statusFetch] using noRole
      · rintro _ cause ⟨lines, _, impossible⟩
        cases impossible

theorem drbdHealth_ends (onStart : Bool) :
    (drbdHealth onStart).Ends fun exchanges outcome =>
      ∃ rCode, outcome = .returned rCode ∧ (0 ≤ rCode →
        ∃ role, exchanges.filterMap roleFetch = [role] ∧
          roleHealthy onStart role = true ∧
          (exchanges.filterMap diskFetch).getLast? = some "UpToDate") := by
  unfold drbdHealth
  rw [getDiskState_drbd1, getDrbdRole_drbd1]
  refine (runCommand_ends _).bind ?_ fun _ _ ⟨_, _, impossible⟩ => by cases impossible
  rintro _ _ ⟨disk, rfl, same⟩
  obtain rfl := Outcome.returned.inj same
  refine (runCommand_ends _).bind ?_ fun _ _ ⟨_, _, impossible⟩ => by cases impossible
  rintro _ _ ⟨role, rfl, same⟩
  obtain rfl := Outcome.returned.inj same
  refine (retryDiskState_ends _ _).bind ?_
    fun _ _ ⟨_, _, impossible, _⟩ => by cases impossible
  rintro exchanges _ ⟨left, final, same, last, noRole, gaveUp⟩
  obtain rfl := Outcome.returned.inj same
  have roles : List.filterMap roleFetch
      (⟨.ask (.popen (.localDisk "drbd1")), disk⟩ ::
        ⟨.ask (.popen (.localRole "drbd1")), role⟩ :: exchanges) = [textOf role] := by
    simpa [roleFetch, statusFetch] using noRole
  have disks : (List.filterMap diskFetch
      (⟨.ask (.popen (.localDisk "drbd1")), disk⟩ ::
        ⟨.ask (.popen (.localRole "drbd1")), role⟩ :: exchanges)).getLast? =
      some final := by
    simpa [diskFetch, statusFetch, List.getLast?_cons] using last
  split
  · exact ⟨-1, rfl, by simp⟩
  · next healthy =>
      split
      · exact ⟨-1, rfl, by simp⟩
      · next upToDate =>
          have finalState : final = "UpToDate" := by
            rcases gaveUp with exhausted | fetched
            · by_contra other
              exact upToDate ⟨exhausted, other⟩
            · exact fetched
          split
          · exact ⟨-1, rfl, by simp⟩
          · exact ⟨0, rfl, fun _ => ⟨textOf role, by simpa using roles,
              by simpa using healthy, by simpa [finalState] using disks⟩⟩

theorem clearRebootCount_ends (info : PersistantInfo) :
    (clearRebootCount info).Ends fun exchanges outcome =>
      exchanges.filterMap recordFetch = [] ∧ outcome = .returned () := by
  unfold clearRebootCount
  split
  · exact fun _ => ⟨rfl, rfl⟩
  · exact ⟨rfl, rfl⟩

theorem inconsistentState_iff (cstate : String) :
    inconsistentState cstate = true ↔
      cstate ∈ ["StartingSyncT", "SyncTarget", "PausedSyncT"] := by
  simp [inconsistentState, or_assoc]

theorem roleHealthy_onStart_iff (role : String) :
    roleHealthy true role = true ↔ role ∈ ["Primary", "Secondary"] := by
  simp [roleHealthy, or_comm]

theorem checkLiveHealth_ends (info : PersistantInfo) :
    (checkLiveHealth info).Ends fun exchanges outcome =>
      ∀ rCode, outcome = .returned rCode → 0 ≤ rCode →
        exchanges.filterMap recordFetch = [] ∧
        (∃ role, exchanges.filterMap roleFetch = [role] ∧
          role ∈ ["Primary", "Secondary"]) ∧
        (exchanges.filterMap diskFetch).getLast? = some "UpToDate" := by
  have recordOnly : OpKind.record ∈ [OpKind.record] := by simp
  have ownOnly : OpKind.own ∈ [OpKind.own] := by simp
  have ownStatus : OpKind.own ∈ [OpKind.own, .status] := by simp
  refine ((clearRebootCount_uses recordOnly info).ends
    (clearRebootCount_ends info)).bind ?_ fun _ _ ⟨_, _, impossible⟩ => by cases impossible
  rintro cleared _ ⟨clearedWithin, noRecord, _⟩
  refine ((drbdHealth_uses ownStatus (by simp) true).ends
    (drbdHealth_ends true)).bind ?_ fun _ _ ⟨_, _, impossible, _⟩ => by cases impossible
  rintro live health ⟨liveWithin, _, same, healthy⟩
  obtain rfl := Outcome.returned.inj same
  refine ((removeRCF_uses ownOnly).ends (Program.ends_trivial _)).bind ?_
    fun _ _ _ _ impossible => by cases impossible
  rintro removed _ ⟨removedWithin, _⟩
  split
  · rintro rCode same notNegative
    obtain rfl := Outcome.returned.inj same
    simp at notNegative
  · next notNegative =>
      intro _ _ _
      obtain ⟨role, roles, usable, last⟩ := healthy (by omega)
      have quiet (fetch : Exchange signature → Option String)
          (kindOf : ∀ {exchange state}, fetch exchange = some state →
            kind exchange.1 = .status) :
          cleared.filterMap fetch = [] ∧ removed.filterMap fetch = [] :=
        ⟨Within.filterMap_eq_nil clearedWithin (by simp) kindOf,
          Within.filterMap_eq_nil removedWithin (by simp) kindOf⟩
      have noRecordLive : live.filterMap recordFetch = [] :=
        Within.filterMap_eq_nil liveWithin (by simp) kind_of_recordFetch
      have noRecordRemoved : removed.filterMap recordFetch = [] :=
        Within.filterMap_eq_nil removedWithin (by simp) kind_of_recordFetch
      obtain ⟨noRoleCleared, noRoleRemoved⟩ := quiet roleFetch kind_of_statusFetch
      obtain ⟨noDiskCleared, noDiskRemoved⟩ := quiet diskFetch kind_of_statusFetch
      refine ⟨?_, ⟨role, ?_, (roleHealthy_onStart_iff role).mp usable⟩, ?_⟩
      · simp [List.filterMap_append, noRecord, noRecordLive, noRecordRemoved]
      · simp [List.filterMap_append, noRoleCleared, noRoleRemoved, roles]
      · simp [List.filterMap_append, noDiskCleared, noDiskRemoved, last]

theorem healthCheck_ends (depth : Nat) :
    (healthCheck depth).Ends fun exchanges outcome =>
      ∀ rCode, outcome = .returned rCode → 0 ≤ rCode → Healthy exchanges := by
  rintro (_ | info)
  · exact fun _ impossible => by cases impossible
  · show Program.Ends (if inconsistentState info.cstate then _ else _) _
    split
    · exact (refuseInconsistent_halts depth info).ends
        fun _ _ _ impossible => by cases impossible
    · next consistent =>
        refine (checkLiveHealth_ends info).mono ?_
        intro exchanges outcome live rCode returned notNegative
        obtain ⟨noRecord, ⟨role, roles, usable⟩, last⟩ := live rCode returned notNegative
        refine ⟨⟨info.cstate, ?_, ?_⟩, ⟨role, ?_, usable⟩, ?_⟩
        · simpa [recordFetch] using noRecord
        · rwa [← inconsistentState_iff]
        · rwa [List.filterMap_cons_none rfl]
        · rwa [List.filterMap_cons_none rfl]

/-! ## The split-brain algorithm -/

theorem Exempt.mem (exempt : Exempt history) :
    ⟨.getOldhaState, HaState.undefined⟩ ∈ history ∧ ⟨.accessLock, false⟩ ∈ history :=
  ⟨exempt.subset (by simp), exempt.subset (by simp)⟩

theorem mustProbe_ends :
    mustProbe.Ends fun exchanges outcome =>
      (outcome = .returned true ∧ ⟨.accessLock, false⟩ ∉ exchanges) ∨
      (outcome = .returned false ∧ (PeerLocked exchanges ∨ Exempt exchanges)) := by
  rintro (_ | _)
  · rintro (_ | _)
    · exact .inl ⟨rfl, by simp⟩
    · intro old
      show Program.Ends (if old = .undefined then _ else _) _
      split
      · next undefined =>
          subst undefined
          rintro (_ | _)
          · exact .inr ⟨rfl, .inr ⟨[_, _], [], rfl⟩⟩
          · exact .inl ⟨rfl, by simp⟩
      · exact .inl ⟨rfl, by simp⟩
  · exact .inr ⟨rfl, .inl (by simp [PeerLocked])⟩

variable (isVirtual : Bool)

theorem probeMip_ends (mip : Mip) :
    (probeMip isVirtual mip).Ends fun exchanges outcome =>
      ∃ answered, outcome = .returned answered ∧
        (answered = false → exchanges = [silence isVirtual mip]) := by
  cases isVirtual with
  | false | true => exact fun answered => ⟨answered, rfl, by rintro rfl; rfl⟩

variable (mips : List Mip)

theorem probeMips_ends :
    (probeMips isVirtual mips).Ends fun exchanges outcome =>
      ∃ answered, outcome = .returned answered ∧ (answered = false →
        exchanges = (mips.filter fun mip => !skipsMip isVirtual mip).map
          (silence isVirtual)) := by
  induction mips with
  | nil => exact ⟨false, rfl, fun _ => rfl⟩
  | cons mip rest ih =>
    unfold probeMips
    split
    · next skipped => simpa [skipped] using ih
    · next unskipped =>
        refine (probeMip_ends isVirtual mip).bind ?_
          fun _ _ ⟨_, impossible, _⟩ => by cases impossible
        rintro probe _ ⟨answered, same, silent⟩
        obtain rfl := Outcome.returned.inj same
        split
        · exact ⟨true, rfl, by simp⟩
        · next noAnswer =>
            obtain rfl := silent (by simpa using noAnswer)
            refine ih.mono ?_
            rintro exchanges outcome ⟨later, rfl, laterSilent⟩
            refine ⟨later, rfl, fun isFalse => ?_⟩
            simp [laterSilent isFalse, unskipped]

theorem filter_isProbe_silence :
    (mips.map (silence isVirtual)).filter isProbe = mips.map (silence isVirtual) := by
  refine List.filter_eq_self.mpr fun exchange member => ?_
  obtain ⟨mip, _, rfl⟩ := List.mem_map.mp member
  cases isVirtual <;> rfl

theorem noAnswer_silence : NoAnswer (mips.map (silence isVirtual)) := by
  intro mip
  cases isVirtual <;> simp [silence]

theorem isSplitBrainDetected_ends :
    (isSplitBrainDetected isVirtual).Ends fun exchanges outcome =>
      (outcome = .returned true ∧ ⟨.accessLock, false⟩ ∉ exchanges) ∨
      (outcome = .returned false ∧ NoAnswer exchanges ∧
        (PeerLocked exchanges ∨ Exempt exchanges ∨
          ∃ config : AgentConfig, ⟨.ask .getConfig, config⟩ ∈ exchanges ∧
            exchanges.filter isProbe =
              (config.mipInfo.filter fun mip => !skipsMip isVirtual mip).map
                (silence isVirtual))) := by
  have own : OpKind.own ∈ [OpKind.own, .peer, .oldState, .lockCheck] := by simp
  refine ((mustProbe_uses own (by simp) (by simp) (by simp)).ends mustProbe_ends).bind
    ?_ fun _ _ ⟨_, impossible⟩ => by simp at impossible
  rintro first must ⟨firstWithin, grounds⟩
  have firstQuiet : NoAnswer first := fun mip =>
    ⟨Within.not_mem firstWithin (by simp [kind]), Within.not_mem firstWithin (by simp [kind])⟩
  rcases grounds with ⟨same, noFalse⟩ | ⟨same, grounds⟩
  · obtain rfl := Outcome.returned.inj same
    intro config
    have probe : OpKind.probe ∈ [OpKind.probe] := by simp
    refine ((probeMips_uses probe isVirtual config.mipInfo).ends
      (probeMips_ends isVirtual config.mipInfo)).mono ?_
    rintro probes outcome ⟨probesWithin, answered, rfl, silent⟩
    cases answered with
    | true =>
      refine .inl ⟨rfl, ?_⟩
      have later := Within.not_mem probesWithin
        (show kind (⟨.accessLock, false⟩ : Exchange signature).1 ∉ [OpKind.probe] by
          simp [kind])
      simp [noFalse, later]
    | false =>
      obtain rfl := silent rfl
      refine .inr ⟨rfl, ?_, .inr (.inr ⟨config, by simp, ?_⟩)⟩
      · intro mip
        have quietLater := noAnswer_silence isVirtual
          (config.mipInfo.filter fun mip => !skipsMip isVirtual mip) mip
        exact ⟨by simp [(firstQuiet mip).1, quietLater.1],
          by simp [(firstQuiet mip).2, quietLater.2]⟩
      · rw [List.filter_append, Within.filter_isProbe firstWithin (by simp),
          List.nil_append, List.filter_cons_of_neg (by simp [isProbe, kind]),
          filter_isProbe_silence]
  · obtain rfl := Outcome.returned.inj same
    refine .inr ⟨rfl, by simpa using firstQuiet, ?_⟩
    simp only [List.append_nil]
    exact grounds.imp_right .inl

end Apos.DrbdAgent
