import Apos.DrbdAgentActivation

/-!
# Laws of the agent's threads

For every thread of the agent this file states a law: which operations the
thread may issue after which history.  The laws hold of the program of each
thread alone, whatever the replies are, and so of the thread in every
interleaving.
-/

namespace Apos.DrbdAgent

open Program (Always Returning always_ite always_recording_bind recording always_folding_bind
  ends_trivial always_folding_call always_recording_call Obeys uses_ite returning_mono)

variable {history : History}

theorem reportStartError_always (law : History → Op → Prop)
    (own : ∀ reached op, kind op = .own → law reached op)
    (sets : ∀ reached, law reached (.write .compRestart true))
    (requests : law (history ++ [⟨.read .haMode, true⟩]) (.note .compRestart)) (depth : Nat) :
    Always (recording law)
      (Returning fun reached _ => ⟨.write .compRestart true, ()⟩ ∈ reached)
      history (reportStartError depth) := by
  refine always_recording_bind (own _ _ rfl) fun haMode => ?_
  cases haMode with
  | false => trivial
  | true =>
    refine always_recording_bind requests fun _ => ?_
    refine always_recording_bind (own _ _ rfl) fun rMgrObj => ?_
    have stops : Program.Uses (Only [.own])
        (if rMgrObj then shutDownAll depth else pure () : Agent Unit) :=
      uses_ite (shutDownAll_uses (by decide) depth) trivial
    have obeys := stops.obeys (fun reached op only =>
      own reached op (by simpa [Only] using only))
    refine (obeys _).bind_returning fun reached _ _ => ?_
    exact always_recording_call.mpr ⟨sets _, fun _ => List.mem_append_right _ (by simp)⟩

/-! ## The role manager -/

/-- A role manager starts its jobs only on healthy grounds and past the
split-brain guard, and declares them done only when they succeeded or a restart
has been requested. -/
def roleLaw (history : History) : Op → Prop
  | .note .startJobs => Healthy history ∧ Guarded history
  | .openLock => ¬Exempt history
  | .unlinkLock => NoAnswer history ∧ Guarded history
  | .getOldhaState =>
    Within [.own, .status, .record, .peer] history
  | .write .tasksDone true =>
    ⟨.write .compRestart true, ()⟩ ∈ history ∨
      (⟨.note (.startJobsReturned 0), ()⟩ ∈ history ∧
        ⟨.note .compRestart, ()⟩ ∉ history)
  | .write .compRestart false => False
  | .note .compRestart => ⟨.write .tasksDone true, ()⟩ ∉ history
  | .note .stbyStart | .setOldhaState _ | .object _ => False
  | _ => True

def quietKinds : List OpKind :=
  [.own, .status, .record, .probe, .peer, .lockCheck, .spawn, .thread]

variable {op : Op}

theorem roleLaw_of_quiet (member : kind op ∈ quietKinds) (history : History) :
    roleLaw history op := by
  unfold roleLaw
  split
  all_goals trivial

theorem obeys_of_quiet {α : Type} {program : Agent α}
    (uses : program.Uses (Only quietKinds)) (history : History) :
    program.Obeys roleLaw history :=
  uses.obeys (fun reached _ member => roleLaw_of_quiet member reached) history

/-- The history of a role manager that has passed the health check. -/
structure Ready (isVirtual : Bool) (history : History) : Prop where
  node : ⟨.ask .isVirtualNode, isVirtual⟩ ∈ history
  healthy : Healthy history
  within : Within [.own, .status, .record] history

/-- The history of a role manager that has passed the split-brain algorithm. -/
structure Cleared (history : History) : Prop where
  healthy : Healthy history
  guarded : Guarded history
  within : Within
    [.own, .status, .record, .probe, .peer, .oldState, .lockCheck, .lock] history

theorem Healthy.surround {first last : History} {kinds : List OpKind} (healthy : Healthy history)
    (firstWithin : Within kinds first) (lastWithin : Within kinds last)
    (noStatus : OpKind.status ∉ kinds) (noRecord : OpKind.record ∉ kinds) :
    Healthy (first ++ history ++ last) := by
  obtain ⟨⟨cstate, records, consistent⟩, ⟨role, roles, usable⟩, disk⟩ := healthy
  have unchanged (fetch : Exchange signature → Option String) (fetchKind : OpKind)
      (foreign : fetchKind ∉ kinds)
      (kindOf : ∀ {exchange state}, fetch exchange = some state →
        kind exchange.1 = fetchKind) :
      (first ++ history ++ last).filterMap fetch = history.filterMap fetch := by
    simp [firstWithin.filterMap_eq_nil foreign kindOf,
      lastWithin.filterMap_eq_nil foreign kindOf]
  refine ⟨⟨cstate, ?_, consistent⟩, ⟨role, ?_, usable⟩, ?_⟩
  · rw [unchanged recordFetch .record noRecord kind_of_recordFetch, records]
  · rw [unchanged roleFetch .status noStatus kind_of_statusFetch, roles]
  · rw [unchanged diskFetch .status noStatus kind_of_statusFetch, disk]

theorem initRoleMgr_ends :
    initRoleMgr.Ends fun exchanges outcome =>
      ∀ rCode isVirtual, outcome = .returned (rCode, isVirtual) → 0 ≤ rCode →
        ⟨.ask .isVirtualNode, isVirtual⟩ ∈ exchanges := by
  refine (ends_trivial pOpen).bind (fun _ _ _ => ?_) (by simp)
  simp [ask, write]

theorem mustProbe_obeys (within : Within [.own, .status, .record] history) :
    mustProbe.Obeys roleLaw history := by
  have wider : Within [.own, .status, .record, .peer] history :=
    within.widen (by simp)
  simp [Obeys, mustProbe, ask, read, getOldhaState, lFileExist, Program.perform,
    always_recording_call, always_ite, roleLaw, kind, wider]

theorem isSplitBrainDetected_obeys (isVirtual : Bool)
    (within : Within [.own, .status, .record] history) :
    (isSplitBrainDetected isVirtual).Obeys roleLaw history := by
  refine (mustProbe_obeys within).bind fun reached must => obeys_of_quiet ?_ reached
  refine uses_ite ((ask_uses (by decide)).bind fun config => ?_) trivial
  exact probeMips_uses (by decide) isVirtual config.mipInfo

/-- Kinds of operations the split-brain algorithm uses before it touches the
lock file. -/
def detectionKinds : List OpKind :=
  [.own, .peer, .oldState, .lockCheck, .probe]

theorem cleared_of_detection {isVirtual : Bool} {seen later : History}
    (ready : Ready isVirtual history) (seenWithin : Within detectionKinds seen)
    (grounds : PeerLocked seen ∨ Exempt seen ∨
      ∃ config : AgentConfig, ⟨.ask .getConfig, config⟩ ∈ seen ∧
        seen.filter isProbe =
          (config.mipInfo.filter fun mip => !skipsMip isVirtual mip).map
            (silence isVirtual)) (laterWithin : Within [.lockCheck, .lock] later) :
    Cleared (history ++ seen ++ later) where
  healthy := by
    have both : Within [.own, .peer, .oldState, .lockCheck, .probe, .lock]
        (seen ++ later) :=
      within_append.mpr ⟨seenWithin.widen (by decide), laterWithin.widen (by decide)⟩
    simpa using ready.healthy.surround (within_nil _) both (by decide) (by decide)
  guarded := by
    rcases grounds with locked | exempt | ⟨config, member, probes⟩
    · exact .inl (by simp [PeerLocked, show _ ∈ seen from locked])
    · exact .inr (.inl (exempt.trans ⟨history, later, rfl⟩))
    · refine .inr (.inr ⟨config, isVirtual, by simp [member], by simp [ready.node], ?_⟩)
      simp [List.filter_append, ready.within.filter_isProbe (by decide),
        laterWithin.filter_isProbe (by decide), probes]
  within := by
    refine within_append.mpr ⟨within_append.mpr ⟨?_, ?_⟩, ?_⟩
    · exact ready.within.widen (by decide)
    · exact seenWithin.widen (by decide)
    · exact laterWithin.widen (by decide)

variable (depth : Nat)

theorem splitBrainAlgo_always {isVirtual : Bool} (ready : Ready isVirtual history) :
    Always (recording roleLaw)
      (Returning fun reached _ => Cleared reached) history (splitBrainAlgo depth isVirtual) := by
  have own : OpKind.own ∈ detectionKinds := by decide
  refine ((isSplitBrainDetected_obeys isVirtual ready.within).always
    ((isSplitBrainDetected_uses own (by decide) (by decide) (by decide) (by decide)
      isVirtual).ends (isSplitBrainDetected_ends isVirtual))).bind_returning ?_
  rintro _ detected ⟨seen, rfl, seenWithin, grounds⟩
  rcases grounds with ⟨same, noFalse⟩ | ⟨same, noAnswer, grounds⟩
  · obtain rfl := Outcome.returned.inj same
    have notExempt : ¬Exempt (history ++ seen) := by
      intro exempt
      rcases List.mem_append.mp exempt.mem.2 with early | late
      · exact ready.within.not_mem (by decide) early
      · exact noFalse late
    refine Program.always_recording_call.mpr ⟨notExempt, fun fd => ?_⟩
    refine ((obeys_of_quiet ?_ _).always (Program.Halts.of_bind fun _ =>
      failOrExit_halts (nodefailOver depth))).mono ?_
    · exact Program.Uses.bind (uses_ite trivial trivial) fun _ =>
        failOrExit_uses (by decide) (nodefailOver_uses (by decide) depth)
    · rintro _ _ ⟨_, _, _, rfl⟩
      trivial
  · obtain rfl := Outcome.returned.inj same
    have cleared (later : History) (laterWithin : Within [.lockCheck, .lock] later) :
        Cleared (history ++ seen ++ later) :=
      cleared_of_detection ready seenWithin grounds laterWithin
    refine Program.always_recording_call.mpr ⟨trivial, fun found => ?_⟩
    cases found with
    | false => exact cleared [⟨.accessLock, false⟩] (by simp [kind])
    | true =>
      refine Program.always_recording_call.mpr ⟨⟨?_, ?_⟩, fun status => ?_⟩
      · intro mip
        have early (exchange : Exchange signature)
            (probe : kind exchange.1 = .probe) : exchange ∉ history :=
          ready.within.not_mem (by rw [probe]; decide)
        simp [noAnswer mip, early ⟨.ask (.ping mip), true⟩ rfl,
          early ⟨.ask (.arping mip), true⟩ rfl]
      · exact (cleared [⟨.accessLock, true⟩] (by simp [kind])).guarded
      · have unlinked : Always (recording roleLaw)
            (fun reached _ => reached = history ++ seen ++
              [⟨.accessLock, true⟩] ++ [⟨.unlinkLock, status⟩])
            (history ++ seen ++ [⟨.accessLock, true⟩] ++ [⟨.unlinkLock, status⟩])
            (if status < 0 then pure (-1) else pure 0 : Agent Int) := by
          split <;> rfl
        refine unlinked.bind_returning ?_
        rintro _ _ rfl
        simpa [Returning] using
          cleared [⟨.accessLock, true⟩, ⟨.unlinkLock, status⟩] (by simp [kind])

def startKinds : List OpKind :=
  [.own, .status, .record, .probe, .peer, .oldState, .lockCheck, .lock, .jobs, .spawn]

theorem startJobs_always (cleared : Cleared history) :
    Always (recording roleLaw)
      (fun reached outcome => Within startKinds reached ∧
        ∀ rCode, outcome = .returned rCode → 0 ≤ rCode →
          ⟨.note (.startJobsReturned 0), ()⟩ ∈ reached)
      history startJobs := by
  have within : Within startKinds history := cleared.within.widen (by decide)
  refine always_recording_bind ⟨cleared.healthy, cleared.guarded⟩ fun _ => ?_
  have own : OpKind.own ∈ [OpKind.own] := by simp
  refine Program.Always.bind ((obeys_of_quiet (drbdStartJobs_uses (by decide)) _).always
    ((drbdStartJobs_uses own).ends (ends_trivial _))) ?_ ?_
  · rintro _ rCode ⟨commands, rfl, commandsWithin, _⟩
    have commandsWider : Within startKinds commands :=
      Within.widen commandsWithin (by decide)
    split
    · refine always_recording_bind trivial fun _ => ⟨?_, ?_⟩
      · simpa [kind, startKinds] using And.intro within commandsWider
      · rintro _ same impossible
        obtain rfl := Outcome.returned.inj same
        simp at impossible
    · refine always_recording_bind trivial fun _ => ?_
      refine always_recording_bind trivial fun _ => ⟨?_, fun _ _ _ => ?_⟩
      · simpa [kind, startKinds] using And.intro within commandsWider
      · simp
  · rintro _ cause ⟨commands, rfl, commandsWithin, _⟩
    have commandsWider : Within startKinds commands :=
      Within.widen commandsWithin (by decide)
    refine ⟨?_, fun _ impossible => by cases impossible⟩
    simpa [kind, startKinds] using And.intro within commandsWider

theorem startRole_always :
    Always (recording roleLaw)
      (Returning fun reached monObj => Within startKinds reached ∧ (monObj = .opened →
        ⟨.note (.startJobsReturned 0), ()⟩ ∈ reached))
      [] (startRole depth) := by
  have own : OpKind.own ∈ [OpKind.own] := by simp
  have ownRecord : OpKind.own ∈ [OpKind.own, .status, .record] := by simp
  have ownSpawn : OpKind.own ∈ [OpKind.own, .spawn] := by simp
  have absent {reached : History} (within : Within startKinds reached) :
      Within startKinds reached ∧ (MonObj.absent = .opened →
        ⟨.note (.startJobsReturned 0), ()⟩ ∈ reached) :=
    ⟨within, nofun⟩
  refine ((obeys_of_quiet (initRoleMgr_uses (by decide)) _).always
    ((initRoleMgr_uses own).ends initRoleMgr_ends)).bind_returning ?_
  rintro made ⟨rCode, isVirtual⟩ ⟨_, rfl, madeWithin, node⟩
  refine Program.always_ite.mpr ⟨fun _ => ?_, fun notNegative => ?_⟩
  · exact absent (Within.widen madeWithin (by decide))
  refine ((obeys_of_quiet (healthCheck_uses (by decide) (by decide)
    (by decide) depth) _).always
    ((healthCheck_uses ownRecord (by simp) (by simp) depth).ends
      (healthCheck_ends depth))).bind_returning ?_
  rintro _ health ⟨checked, rfl, checkedWithin, healthy⟩
  have within : Within [.own, .status, .record] ([] ++ made ++ checked) :=
    within_append.mpr ⟨Within.widen madeWithin (by decide), checkedWithin⟩
  refine Program.always_ite.mpr ⟨fun _ => ?_, fun notNegativeHealth => ?_⟩
  · exact absent (within.widen (by decide))
  have ready : Ready isVirtual ([] ++ made ++ checked) := by
    refine ⟨?_, ?_, within⟩
    · simp [node rCode isVirtual rfl (Int.not_lt.mp notNegative)]
    · simpa using (healthy health rfl (Int.not_lt.mp notNegativeHealth)).surround
        madeWithin (within_nil _) (by decide) (by decide)
  refine (splitBrainAlgo_always depth ready).bind_returning ?_
  intro reached verdict (cleared : Cleared reached)
  refine Program.always_ite.mpr ⟨fun _ => ?_, fun _ => ?_⟩
  · exact absent (cleared.within.widen (by decide))
  refine (startJobs_always cleared).bind_returning ?_
  rintro started jobs ⟨startedWithin, succeeded⟩
  refine Program.always_ite.mpr ⟨fun _ => ?_, fun notNegativeJobs => ?_⟩
  · exact absent startedWithin
  refine ((obeys_of_quiet (openMon_uses (by decide) (by decide)) _).always
    ((openMon_uses ownSpawn (by simp)).ends (ends_trivial _))).mono ?_
  rintro _ outcome ⟨monitor, rfl, monitorWithin, _⟩
  cases outcome with
  | halted cause => trivial
  | returned monObj =>
    refine ⟨within_append.mpr ⟨startedWithin, Within.widen monitorWithin (by decide)⟩, ?_⟩
    intro _
    exact List.mem_append_left _ (succeeded jobs rfl (Int.not_lt.mp notNegativeJobs))

theorem roleMgrThread_obeys : (roleMgrThread depth).Obeys roleLaw [] := by
  refine Program.Obeys.bind ?_ fun reached monObj => obeys_of_quiet ?_ reached
  · refine Program.Always.bind (startRole_always depth) ?_ fun _ _ _ => trivial
    rintro reached monObj ⟨within, opened⟩
    have notDone : ⟨.write .tasksDone true, ()⟩ ∉ reached := within.not_mem (by decide)
    have notRestarted : ⟨.note .compRestart, ()⟩ ∉ reached := within.not_mem (by decide)
    have announced : Always (recording roleLaw)
        (Returning fun after _ => roleLaw after (.write .tasksDone true))
        reached (if monObj = .opened then pure () else reportStartError depth) := by
      refine Program.always_ite.mpr ⟨fun isOpened => ?_, fun _ => ?_⟩
      · exact .inr ⟨opened isOpened, notRestarted⟩
      · refine (reportStartError_always roleLaw (fun after op own =>
          roleLaw_of_quiet (by rw [own]; decide) after) (fun _ => trivial) ?_ depth).mono ?_
        · simpa [roleLaw] using notDone
        · exact returning_mono fun after _ requested => .inl requested
    refine announced.bind (fun after _ permitted => ?_) fun _ _ _ => trivial
    refine always_recording_bind permitted fun _ => obeys_of_quiet ?_ _
    refine (task_uses (by decide)).bind fun _ => ?_
    exact (shutDownAll_uses (by decide) depth).bind fun _ => trivial
  · refine (read_uses (by decide) _).bind fun ordered => uses_ite ?_ trivial
    refine (ask_uses (by decide)).bind fun _ => ?_
    refine (closeMon_uses (by decide) monObj).bind fun _ => ?_
    exact (ask_uses (by decide)).bind fun _ => trivial

/-! ## The other threads behind the callbacks -/

/-- A standby thread declares its tasks done only when its monitor was opened or
a restart has been requested. -/
def stbyLaw (history : History) : Op → Prop
  | .write .tasksDone true =>
    ⟨.write .compRestart true, ()⟩ ∈ history ∨ ⟨.note .compRestart, ()⟩ ∉ history
  | .write .compRestart true => True
  | .note .compRestart => ⟨.write .tasksDone true, ()⟩ ∉ history
  | op => kind op ∈ [OpKind.own, .record, .spawn, .thread]

theorem stbyLaw_of_quiet (member : kind op ∈ [OpKind.own, .record, .spawn, .thread])
    (history : History) : stbyLaw history op := by
  unfold stbyLaw
  split
  · simp [kind] at member
  · simp [kind] at member
  · simp [kind] at member
  · exact member

theorem stbyThread_obeys : (stbyThread depth).Obeys stbyLaw [] := by
  have quiet {α : Type} {program : Agent α}
      (uses : program.Uses (Only [.own, .record, .spawn, .thread])) (history : History) :
      program.Obeys stbyLaw history :=
    uses.obeys (fun reached _ member => stbyLaw_of_quiet member reached) history
  have own : OpKind.own ∈ [OpKind.own, .spawn] := by simp
  have ownRecord : OpKind.own ∈ [OpKind.own, .record] := by simp
  refine Program.Obeys.bind ?_ fun reached monObj => quiet ?_ reached
  · refine Program.Always.bind ((quiet (openMon_uses (by decide) (by decide)) _).always
      ((openMon_uses own (by simp)).ends (ends_trivial _))) ?_ fun _ _ _ => trivial
    rintro reached monObj ⟨_, rfl, within, _⟩
    have notDone : ⟨.write .tasksDone true, ()⟩ ∉ reached :=
      Within.not_mem within (by decide)
    have notRestarted : ⟨.note .compRestart, ()⟩ ∉ reached :=
      Within.not_mem within (by decide)
    have announced : Always (recording stbyLaw)
        (Returning fun after _ => stbyLaw after (.write .tasksDone true))
        reached (if monObj = .opened then stbyClearRebootCount else
          reportStartError depth) := by
      refine Program.always_ite.mpr ⟨fun _ => ?_, fun _ => ?_⟩
      · refine ((quiet (stbyClearRebootCount_uses (by decide) (by decide)) _).always
          ((stbyClearRebootCount_uses ownRecord (by simp)).ends
            (ends_trivial _))).mono ?_
        rintro _ outcome ⟨cleared, rfl, clearedWithin, _⟩
        cases outcome with
        | halted cause => trivial
        | returned value =>
          refine .inr fun member => ?_
          rcases List.mem_append.mp member with early | late
          · exact notRestarted early
          · exact Within.not_mem clearedWithin (by decide) late
      · refine (reportStartError_always stbyLaw (fun after op ownOp =>
          stbyLaw_of_quiet (by simp [ownOp]) after) (fun _ => trivial) ?_ depth).mono ?_
        · simpa [stbyLaw] using notDone
        · exact returning_mono fun after _ requested => .inl requested
    refine announced.bind (fun after _ permitted => ?_) fun _ _ _ => trivial
    refine always_recording_bind permitted fun _ => quiet ?_ _
    exact (task_uses (by decide)).bind fun _ => trivial
  · refine (closeMon_uses (by decide) monObj).bind fun _ => ?_
    exact (write_uses (by decide)).bind fun _ => trivial

/-- An active thread that requests a restart has not started its role manager
and will not start it. -/
def actvLaw (history : History) : Op → Prop
  | .task (.activate .roleMgr) => ⟨.note .compRestart, ()⟩ ∉ history
  | .write .compRestart true => True
  | .note .compRestart =>
    ∀ rCode : Int, 0 ≤ rCode → ⟨.task (.activate .roleMgr), rCode⟩ ∉ history
  | op => kind op ∈ [OpKind.own, .thread]

theorem actvLaw_of_quiet (member : kind op ∈ [OpKind.own, .thread]) (history : History) :
    actvLaw history op := by
  unfold actvLaw
  split
  · simp [kind] at member
  · simp [kind] at member
  · simp [kind] at member
  · exact member

theorem obeys_actvLaw_of_quiet {α : Type} {program : Agent α}
    (uses : program.Uses (Only [.own, .thread])) (history : History) :
    program.Obeys actvLaw history :=
  uses.obeys (fun reached _ member => actvLaw_of_quiet member reached) history

theorem roleMgrOpen_always (within : Within [.own] history) :
    Always (recording actvLaw)
      (Returning fun reached opened => opened < 0 →
        ∀ rCode : Int, 0 ≤ rCode → ⟨.task (.activate .roleMgr), rCode⟩ ∉ reached)
      history roleMgrOpen := by
  have unspawned (rCode : Int) :
      (⟨.task (.activate .roleMgr), rCode⟩ : Exchange signature) ∉ history :=
    within.not_mem (by simp [kind])
  have unrestarted : (⟨.note .compRestart, ()⟩ : Exchange signature) ∉ history :=
    within.not_mem (by decide)
  refine always_recording_bind (actvLaw_of_quiet (by decide) _) fun handler => ?_
  refine Program.always_ite.mpr ⟨fun _ _ rCode _ => ?_, fun _ => ?_⟩
  · simp [unspawned rCode]
  refine always_recording_bind ?_ fun spawned => ?_
  · simpa [actvLaw] using unrestarted
  refine Program.always_ite.mpr ⟨fun negative _ rCode notNegative => ?_, ?_⟩
  · have different : rCode ≠ spawned := by
      rintro rfl
      exact Int.not_lt.mpr notNegative negative
    simp [unspawned rCode, different]
  · intro _ impossible
    simp at impossible

theorem actvSvc_obeys : (actvSvc depth).Obeys actvLaw [] := by
  have own : OpKind.own ∈ [OpKind.own] := by simp
  have started : Always (recording actvLaw)
      (Returning fun reached rCode => rCode < 0 →
        ∀ other : Int, 0 ≤ other → ⟨.task (.activate .roleMgr), other⟩ ∉ reached)
      [] startRoleMgr := by
    refine ((obeys_actvLaw_of_quiet (roleMgr_uses (by decide)) _).always
      ((roleMgr_uses own).ends (ends_trivial _))).bind_returning ?_
    rintro made _ ⟨_, rfl, madeWithin, _⟩
    refine (roleMgrOpen_always madeWithin).bind_returning ?_
    intro reached opened unspawned
    refine Program.always_ite.mpr ⟨fun negative _ => unspawned negative, ?_⟩
    intro _ impossible
    simp at impossible
  refine Program.Always.bind started (fun reached rCode unspawned => ?_) fun _ _ _ => trivial
  refine Program.Obeys.bind (Program.always_ite.mpr ⟨fun negative => ?_, fun _ => trivial⟩)
    fun after _ => obeys_actvLaw_of_quiet ?_ after
  · refine (reportStartError_always actvLaw (fun after op ownOp =>
      actvLaw_of_quiet (by simp [ownOp]) after) (fun _ => trivial) ?_ depth).mono
      fun _ _ _ => trivial
    intro other notNegative
    simpa using unspawned negative other notNegative
  · refine (task_uses (by decide)).bind fun _ => ?_
    exact (actvShutDownAll_uses (by decide) (by decide)).bind fun _ => trivial

def monLaw (_ : History) (op : Op) : Prop :=
  kind op ∈ [OpKind.own, .status, .record, .restart, .thread]

theorem monThread_obeys (ticks : Nat) : (monThread depth ticks).Obeys monLaw [] :=
  (monThread_uses (by decide) (by decide) (by decide) (by decide) (by decide)
    depth ticks).obeys (fun _ _ member => member) []

/-- A message of the device monitor can only end in a failover. -/
def devmonLaw (_ : History) (op : Op) : Prop :=
  kind op ∈ [OpKind.own, .status]

theorem processRoleChange_obeys : (processRoleChange depth).Obeys devmonLaw [] :=
  (processRoleChange_uses (by decide) (by decide) depth).obeys (fun _ _ member => member) []

/-! ## Callbacks -/

inductive Wait where
  | idle
  | sawDone
  | confirmed
  deriving DecidableEq, Repr

/-- What a callback knows: whether the two role objects are held, the old HA
state it has set, whether it found objects that were held already, and the
flags it has read. -/
structure CallView where
  actv : Option Bool
  stby : Option Bool
  old : Option HaState
  foundActv : Bool
  foundStby : Bool
  started : Bool
  wait : Wait
  deriving DecidableEq, Repr

def CallView.start : CallView where
  actv := none
  stby := none
  old := none
  foundActv := false
  foundStby := false
  started := false
  wait := .idle

def CallView.see (view : CallView) : Exchange signature → CallView
  | ⟨.object .actvHeld, held⟩ =>
    { view with actv := some held, foundActv := view.foundActv || held }
  | ⟨.object .stbyHeld, held⟩ =>
    { view with stby := some held, foundStby := view.foundStby || held }
  | ⟨.object .newActv, some _⟩ => { view with actv := some true }
  | ⟨.object .newStby, some _⟩ => { view with stby := some true }
  | ⟨.object .deleteActv, _⟩ => { view with actv := some false, old := some .undefined }
  | ⟨.object .deleteStby, _⟩ => { view with stby := some false, old := some .standby }
  | ⟨.setOldhaState state, _⟩ => { view with old := some state }
  | ⟨.note .stbyStart, _⟩ => { view with started := true }
  | ⟨.read .tasksDone, value⟩ =>
    { view with wait := if value then .sawDone else .idle }
  | ⟨.read .compRestart, value⟩ =>
    { view with
      wait := if view.wait = .sawDone ∧ value = false then .confirmed else .idle }
  | _ => view

def callView (history : History) : CallView :=
  history.foldl CallView.see .start

def Callback.isToActive : Callback → Bool
  | .toActive _ => true
  | _ => false

def Callback.isToPassive : Callback → Bool
  | .toPassive _ => true
  | _ => false

/-- A callback makes a role object only where it knows that none is held, deletes
one only where it knows that it is held, and changes objects only before it
waits. -/
def callLaw (callback : Callback) (view : CallView) : Op → Prop
  | .object .newActv =>
    callback.isToActive = true ∧ view.wait = .idle ∧ view.actv = some false ∧
      view.stby = some false ∧ view.foundActv = false ∧
      (view.foundStby = true → view.old = some .standby)
  | .object .newStby =>
    callback.isToPassive = true ∧ view.wait = .idle ∧ view.stby = some false ∧
      view.foundStby = false
  | .object .deleteActv => view.wait = .idle ∧ view.actv = some true
  | .object .deleteStby => view.wait = .idle ∧ view.stby = some true
  | .object .actvHeld => view.wait = .idle
  | .object .stbyHeld => view.wait = .idle
  | .setOldhaState _ => view.wait = .idle
  | .unlinkLock => callback.isToPassive = true ∧ view.started = true
  | .write .haObj value => value = true
  | .write .haMode value => value = true
  | .note .stbyStart => callback.isToPassive = true
  | .accessLock => True
  | .ask _ => True
  | .read flag => flag = .tasksDone ∨ flag = .compRestart
  | .task _ => True
  | _ => False

/-- A callback answers success only with a role object held that it found or
whose flags it has confirmed. -/
def callPost (callback : Callback) (view : CallView) (rCode : ReturnType) : Prop :=
  rCode = .success →
    (callback.isToActive = true →
      view.actv = some true ∧ (view.foundActv = true ∨ view.wait = .confirmed)) ∧
    (callback.isToPassive = true →
      view.stby = some true ∧ (view.foundStby = true ∨ view.wait = .confirmed))

abbrev Handles {α : Type} (callback : Callback)
    (post : CallView → Outcome signature α → Prop) (view : CallView)
    (program : Agent α) : Prop :=
  Always (Program.folding CallView.see (callLaw callback)) post view program

section Handling

attribute [local simp] CallView.see callLaw

variable {callback : Callback} {view : CallView}

theorem actvStart_handles :
    Handles callback (fun after _ => after = view) view actvStart := by
  simp [actvStart, actvInitClasses, ask, task, write, Program.perform,
    always_folding_call, always_ite]

theorem stbyStart_handles (toPassive : callback.isToPassive = true) :
    Handles callback (fun after _ => after = { view with started := true }) view
      stbyStart := by
  simp [stbyStart, stbyInitClasses, rmlockfile, lFileExist, rmLFile, ask, task, write, note,
    Program.perform, always_folding_call, always_ite, toPassive]

theorem pollTasks_handles (polls : Nat) (wait : Wait) :
    Handles callback (fun after _ => ∃ reached, after = { view with wait := reached })
      { view with wait := wait } (pollTasks polls) := by
  induction polls generalizing wait with
  | zero => exact ⟨wait, rfl⟩
  | succ polls ih =>
    simp [pollTasks, msecSleep, ask, read, Program.perform, always_folding_call,
      always_ite, ih]

theorem answerAfterWait_handles :
    Handles callback (Returning fun after rCode => ∃ reached,
      after = { view with wait := reached } ∧ (rCode = .success → reached = .confirmed))
      view answerAfterWait := by
  have confirmed : Handles callback (Returning fun after rCode => ∃ reached,
      after = { view with wait := reached } ∧ (rCode = 0 → reached = .confirmed))
      view waitOntask := by
    refine always_folding_bind trivial fun config => ?_
    refine (pollTasks_handles _ view.wait).bind_returning ?_
    rintro _ _ ⟨wait, rfl⟩
    simp [read, Program.perform, always_folding_call, always_ite, Returning]
  refine confirmed.bind_returning ?_
  rintro _ rCode ⟨reached, rfl, zero⟩
  refine Program.always_ite.mpr ⟨fun _ => ?_, fun isZero => ?_⟩
  · exact ⟨reached, rfl, nofun⟩
  · exact ⟨reached, rfl, fun _ => zero (by simpa using isZero)⟩

theorem leaveStandby_handles (idle : view.wait = .idle) (fresh : view.foundStby = false) :
    Handles callback (Returning fun after _ => after.wait = .idle ∧ after.stby = some false ∧
      after.foundActv = view.foundActv ∧ (after.foundStby = true → after.old = some .standby))
      view leaveStandby := by
  simp [leaveStandby, stopStndby, stbyStop, setOldhaState, object, ask, task,
    Program.perform, always_folding_call, always_ite, Returning, idle, fresh]

theorem stopApp_handles (idle : view.wait = .idle) :
    Handles callback (Returning fun after _ => after.actv = some false ∧ after.stby = some false)
      view stopApp := by
  simp [stopApp, stopActv, stopStndby, stbyStop, object, ask, task, Program.perform,
    always_folding_call, always_ite, Returning, idle]

theorem answerStarted_handles {seen : CallView} {start : Agent Int} {delete : Agent Unit}
    (starts : Handles callback (fun after _ => after = seen) view start)
    (deletes : Handles callback (fun _ _ => True) seen delete)
    (confirmed : callPost callback { seen with wait := .confirmed } .success) :
    Handles callback (Returning (callPost callback)) view
      (do
        if (← start) < 0 then do
          delete
          pure .failure
        else answerAfterWait) := by
  refine Program.Always.bind_returning starts ?_
  rintro _ rCode rfl
  refine Program.always_ite.mpr ⟨fun _ => ?_, fun _ => ?_⟩
  · refine Program.Always.bind_returning deletes fun _ _ _ impossible => ?_
    cases impossible
  · refine answerAfterWait_handles.mono (returning_mono ?_)
    rintro _ rCode ⟨reached, rfl, isConfirmed⟩ success
    rw [isConfirmed success]
    exact confirmed rfl

theorem activateApp_handles (toActive : callback.isToActive = true)
    (idle : view.wait = .idle) (fresh : view.foundStby = false)
    (unfound : view.foundActv = false) :
    Handles callback (Returning (callPost callback)) view activateApp := by
  have notPassive : callback.isToPassive = false := by
    cases callback <;> simp_all [Callback.isToActive, Callback.isToPassive]
  refine (leaveStandby_handles idle fresh).bind_returning ?_
  rintro left _ ⟨leftIdle, leftStby, leftFound, leftOld⟩
  refine always_folding_bind leftIdle fun held => ?_
  cases held with
  | true =>
    intro _
    simp [notPassive]
  | false =>
    refine always_folding_bind ⟨toActive, leftIdle, rfl, leftStby, ?_, leftOld⟩
      fun made => ?_
    · simp [leftFound, unfound]
    cases made with
    | none => exact nofun
    | some number =>
      refine answerStarted_handles actvStart_handles ?_ ?_
      · exact always_folding_bind ⟨leftIdle, rfl⟩ fun _ => trivial
      · simp [callPost, notPassive]

theorem passifyApp_handles (toPassive : callback.isToPassive = true)
    (idle : view.wait = .idle) (unfound : view.foundStby = false) :
    Handles callback (Returning (callPost callback)) view passifyApp := by
  have notActive : callback.isToActive = false := by
    cases callback <;> simp_all [Callback.isToActive, Callback.isToPassive]
  refine always_folding_bind idle fun held => ?_
  cases held with
  | true =>
    intro _
    simp [notActive]
  | false =>
    refine always_folding_bind ⟨toPassive, idle, rfl, ?_⟩ fun made => ?_
    · simp [unfound]
    cases made with
    | none => exact nofun
    | some number =>
      refine answerStarted_handles (stbyStart_handles toPassive) ?_ ?_
      · exact always_folding_bind ⟨idle, rfl⟩ fun _ => trivial
      · simp [callPost, notActive]

theorem performJobs_handles (callback : Callback) :
    Handles callback (Returning (callPost callback)) .start (performJobs callback) := by
  have stopped (notActive : callback.isToActive = false)
      (notPassive : callback.isToPassive = false) :
      Handles callback (Returning (callPost callback)) .start stopApp :=
    (stopApp_handles rfl).mono fun _ outcome _ => by
      cases outcome <;> simp [Returning, callPost, notActive, notPassive]
  cases callback with
  | toActive previous =>
    refine always_folding_bind rfl fun _ => activateApp_handles rfl rfl rfl rfl
  | toPassive previous =>
    refine always_folding_bind rfl fun _ => passifyApp_handles rfl rfl rfl
  | queising | quiesced | terminate | remove | shutdown => exact stopped rfl rfl

end Handling

/-! ## The law of every thread -/

def agentLaw : Tid → History → Op → Prop
  | .call _ callback, history, op => callLaw callback (callView history) op
  | .actvAdm _, history, op => actvLaw history op
  | .roleMgr _, history, op => roleLaw history op
  | .stbyAdm _, history, op => stbyLaw history op
  | .roleMon _, history, op => monLaw history op
  | .stbyMon _, history, op => monLaw history op
  | .devmon _ _, history, op => devmonLaw history op

def callEnd (callback : Callback) (view : CallView) :
    Outcome signature ThreadResult → Prop
  | .returned (.answered rCode) => callPost callback view rCode
  | _ => True

theorem agentLaw_issuer {tid : Tid} (law : agentLaw tid history op)
    (acts : kind op = .role ∨ kind op = .lock) :
    (∃ number, tid = .roleMgr number) ∨ ∃ number callback, tid = .call number callback := by
  rcases acts.imp kind_eq_role kind_eq_lock with (⟨_, rfl⟩ | ⟨_, rfl⟩ | rfl | rfl) | rfl | rfl
  all_goals
    cases tid <;> simp_all [agentLaw, actvLaw, monLaw, stbyLaw, devmonLaw, kind]

theorem agentLaw_kind {tid : Tid} (background : ∀ number callback, tid ≠ .call number callback)
    (law : agentLaw tid history op) : kind op ≠ .role := by
  intro isRole
  obtain ⟨number, rfl⟩ | ⟨number, callback, rfl⟩ := agentLaw_issuer law (.inl isRole)
  · rcases kind_eq_role isRole with ⟨objectOp, rfl⟩ | ⟨state, rfl⟩ | rfl | rfl <;> exact law
  · exact background number callback rfl

def agentPost : Tid → History → Outcome signature ThreadResult → Prop
  | .call _ callback, history, outcome => callEnd callback (callView history) outcome
  | _, _, _ => True

theorem obeys_finished {law : History → Op → Prop} {program : Agent Int}
    (obeys : program.Obeys law []) :
    (do
      let rCode ← program
      pure (ThreadResult.finished rCode)).Obeys law [] :=
  Program.Obeys.bind obeys fun _ _ => trivial

theorem system_lawful (ticks : Nat) : (system depth ticks).Lawful agentLaw agentPost := by
  intro tid
  cases tid with
  | call number callback =>
    have handles : Handles callback (callEnd callback) .start
        (body depth ticks (.call number callback)) :=
      (performJobs_handles callback).bind
        (fun _ _ answered => answered) fun _ _ _ => trivial
    exact @Program.Always.of_folding _ _ _ CallView.see (callLaw callback)
      (callEnd callback) .start _ [] handles
  | actvAdm number => exact (obeys_finished (actvSvc_obeys depth)).mono fun _ _ _ => trivial
  | roleMgr number =>
    exact (obeys_finished (roleMgrThread_obeys depth)).mono fun _ _ _ => trivial
  | stbyAdm number =>
    exact (obeys_finished (stbyThread_obeys depth)).mono fun _ _ _ => trivial
  | roleMon | stbyMon =>
    exact (obeys_finished (monThread_obeys depth ticks)).mono fun _ _ _ => trivial
  | devmon number role =>
    exact (obeys_finished (processRoleChange_obeys depth)).mono fun _ _ _ => trivial

end Apos.DrbdAgent
