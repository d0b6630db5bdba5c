import Apos.DrbdAgentHealth

/-!
# The supervision of DRBD

The monitor fetches a status every few seconds and gives it to `superviseDRBD`,
which asks for the peer only if the local status could not be fetched.  This file
draws the consequences of that order, first for the failovers of one call and then
for the record that a sequence of calls leaves behind.
-/

namespace Apos.DrbdAgent

/-! ## Fetching a status -/

theorem runCommand_returns (query : Query) : (runCommand query).Returns :=
  (runCommand_ends query).mono fun _ _ ⟨_, _, returned⟩ => ⟨_, returned⟩

variable (resource : String)

theorem connectedState_returns : (connectedState resource).Returns := by
  refine (runCommand_returns _).bind_ends fun replication => ?_
  split
  · split
    · refine (runCommand_returns _).bind_ends fun connection => ?_
      split <;> exact ⟨_, rfl⟩
    · exact ⟨_, rfl⟩
  · exact ⟨_, rfl⟩

theorem getConnectedState_returns : (getConnectedState resource).Returns := by
  unfold getConnectedState
  split
  · exact (connectedState_returns resource).bind_ends fun state => ⟨_, rfl⟩
  · exact ⟨_, rfl⟩

variable (isLocal : Bool)

theorem getDrbdRole_returns : (getDrbdRole resource isLocal).Returns := by
  unfold getDrbdRole
  split
  · split
    · exact runCommand_returns _
    · refine (runCommand_returns _).bind_ends fun peerName => ?_
      split
      · exact runCommand_returns _
      · exact ⟨_, rfl⟩
  · exact ⟨_, rfl⟩

theorem getDiskState_returns : (getDiskState resource isLocal).Returns := by
  unfold getDiskState
  split
  · exact runCommand_returns _
  · exact ⟨_, rfl⟩

theorem queryInfo_ends :
    (queryInfo isLocal).Ends fun _ outcome =>
      ∃ cstate role dstate, outcome = .returned (infoOfQueries cstate role dstate) := by
  refine (getConnectedState_returns _).bind_ends fun cstate => ?_
  refine (getDrbdRole_returns _ _).bind_ends fun role => ?_
  exact (getDiskState_returns _ _).bind_ends fun dstate => ⟨cstate, role, dstate, rfl⟩

theorem act_status (world : World) {op : Op} (reply : op.Reply)
    (isStatus : kind op = .status) : (act world op reply).2 = world := by
  unfold kind at isStatus
  split at isStatus <;> first | rfl | cases isStatus

variable (env : Environment signature)

theorem queryInfo_run (world : World) (history : History) :
    ∃ (status : Int × DrbdInfo) (queries : History),
      (queryInfo isLocal).run machine env world history =
        ⟨.returned status, world, history ++ queries⟩ ∧
      (∀ exchange ∈ queries, kind exchange.1 = .status) ∧
      (status.1 = 0 ↔ status.2.isConfigured = true) := by
  have uses : (queryInfo isLocal).Uses (Only [.status]) :=
    queryInfo_uses List.mem_cons_self isLocal
  obtain ⟨queries, extended, within, cstate, role, dstate, returned⟩ :=
    (uses.ends (queryInfo_ends isLocal)).run machine env world history
  have keeps : ∀ state op reply, Only [.status] op → state = world →
      (act state op reply).2 = world := by
    rintro _ op reply isStatus rfl
    exact act_status _ reply (List.mem_singleton.mp isStatus)
  refine ⟨infoOfQueries cstate role dstate, queries, ?_, ?_, ?_⟩
  · exact Finished.ext returned (uses.run_state machine env keeps rfl history) extended
  · exact fun exchange member => List.mem_singleton.mp (within exchange member)
  · simp [infoOfQueries, and_assoc]

variable (depth : Nat)

theorem superviseDRBD_run (env : Environment signature) (world : World) :
    ∃ (status : Int × DrbdInfo) (queries : History),
      drbdinfo.run machine env world [] = ⟨.returned status, world, queries⟩ ∧
      (∀ exchange ∈ queries, kind exchange.1 = .status) ∧
      (status.1 = 0 ↔ status.2.isConfigured = true) ∧
      (status.1 = 0 → (superviseDRBD depth).run machine env world [] =
        (superviseStatus depth status.2 .zero).run machine env world queries) ∧
      (status.1 ≠ 0 → (superviseDRBD depth).run machine env world [] =
        (peerdrbdinfo >>= fun peer =>
          if peer.1 = 0 then superviseStatus depth status.2 peer.2 else pure (-1)).run
            machine env world queries) := by
  obtain ⟨status, queries, fetched, within, configured⟩ := queryInfo_run true env world []
  have supervised : (superviseDRBD depth).run machine env world [] =
      (if status.1 = 0 then superviseStatus depth status.2 .zero
        else peerdrbdinfo >>= fun peer =>
          if peer.1 = 0 then superviseStatus depth status.2 peer.2 else pure (-1)).run
            machine env world queries :=
    Program.run_bind_returned machine env fetched
  refine ⟨status, queries, fetched, within, configured, ?_, ?_⟩
  · exact fun known => by rw [supervised, if_pos known]
  · exact fun unknown => by rw [supervised, if_neg unknown]

/-! ## Failovers of one call -/

/-- No path of the program requests a failover or leaves the process. -/
def Calm {α : Type} (program : Agent α) : Prop :=
  program.Ends fun exchanges outcome =>
    ⟨.note .nodefailOver, ()⟩ ∉ exchanges ∧ outcome ≠ .halted .exitFailure

variable {α : Type}

theorem calm_pure (value : α) : Calm (pure value) :=
  ⟨List.not_mem_nil, nofun⟩

theorem Calm.bind {α β : Type} {program : Agent α} {next : α → Agent β}
    (first : Calm program) (second : ∀ value, Calm (next value)) :
    Calm (program >>= next) := by
  refine Program.Ends.bind first ?_ ?_
  · rintro exchanges value ⟨silent, _⟩
    refine (second value).mono ?_
    rintro later outcome ⟨alsoSilent, stays⟩
    exact ⟨by simp [silent, alsoSilent], stays⟩
  · rintro exchanges cause ⟨silent, stays⟩
    exact ⟨silent, fun left => stays (by cases left; rfl)⟩

theorem calm_perform {op : Op} (other : op ≠ .note .nodefailOver) :
    Calm (Program.perform (S := signature) op) := by
  refine fun reply => ⟨fun member => ?_, nofun⟩
  exact other (congrArg Sigma.fst (List.mem_singleton.mp member)).symm

theorem getHAState_calm : Calm getHAState := by
  refine (calm_perform (by simp)).bind fun created => ?_
  split
  · exact calm_perform (by simp)
  · exact calm_pure _

theorem execlp_calm (command : Command) : Calm (execlp command) := by
  refine (calm_perform (by simp)).bind fun status => ?_
  cases status with
  | none => exact calm_pure _
  | some status =>
    dsimp only
    split <;> exact calm_pure _

theorem reconnectAttempts_calm (remaining : Nat) : Calm (reconnectAttempts remaining) := by
  induction remaining with
  | zero => exact calm_pure _
  | succ remaining ih =>
    refine (execlp_calm .activate).bind fun status => ?_
    split
    · exact calm_pure _
    · exact (calm_perform (by simp)).bind fun _ => ih

theorem recordStatus_calm (info : DrbdInfo) : Calm (recordStatus info) := by
  refine Calm.bind ?_ fun persis => ?_
  · refine (calm_perform (by simp)).bind fun record => ?_
    cases record with
    | none => exact ⟨List.not_mem_nil, nofun⟩
    | some info => exact calm_pure _
  · split
    · exact calm_pure _
    · split
      · exact (calm_perform (by simp)).bind fun _ => calm_pure _
      · exact calm_pure _

theorem reconnectAttempts_le (remaining : Nat) :
    (reconnectAttempts remaining).Ends fun _ outcome =>
      ∀ counter, outcome = .returned counter → counter ≤ 3 := by
  induction remaining with
  | zero =>
    rintro counter ⟨⟩
    exact Nat.le_refl 3
  | succ remaining ih =>
    refine (Program.ends_trivial _).bind (fun _ status _ => ?_) nofun
    split
    · rintro counter ⟨⟩
      exact Nat.sub_le 3 _
    · exact fun slept => ih

/-- The loop of `reconnect` stops at the bound that its last branch wants to see
exceeded. -/
theorem reconnect_eq : reconnect depth = reconnectAttempts 2 >>= fun _ => pure 0 := by
  refine Program.Ends.bind_congr ((reconnectAttempts_le 2).mono ?_)
  intro _ outcome bounded counter returned
  exact if_neg (Nat.not_lt.mpr (bounded counter returned))

theorem lostPeer_zero (info : DrbdInfo) : lostPeer info .zero = false := by
  simp [lostPeer, DrbdInfo.zero]

theorem superviseStatus_eq {info : DrbdInfo} (configured : info.isConfigured = true) :
    superviseStatus depth info .zero = (do
      let _ ← getHAState
      if (← getHAState) = .standby ∧ info.cstate = "StandAlone" ∧ info.role = "Secondary" then
        reconnectAttempts 2 >>= fun _ => pure 0
      else recordStatus info) := by
  simp [superviseStatus, configured, lostPeer_zero, reconnect_eq]

theorem superviseStatus_calm {info : DrbdInfo} (configured : info.isConfigured = true) :
    Calm (superviseStatus depth info .zero) := by
  rw [superviseStatus_eq depth configured]
  refine getHAState_calm.bind fun _ => getHAState_calm.bind fun state => ?_
  split
  · exact (reconnectAttempts_calm 2).bind fun _ => calm_pure _
  · exact recordStatus_calm info

theorem not_failsOver {finished : Finished signature World α}
    (silent : ⟨.note .nodefailOver, ()⟩ ∉ finished.history)
    (stays : finished.outcome ≠ .halted .exitFailure) : failsOver finished = false := by
  unfold failsOver
  rw [decide_eq_false silent, Bool.false_or]
  split
  · next exits => exact (stays exits).elim
  · rfl

theorem silent_of_status {queries : History}
    (within : ∀ exchange ∈ queries, kind exchange.1 = .status) :
    ⟨.note .nodefailOver, ()⟩ ∉ queries :=
  fun member => by cases within _ member

/-- When the local queries succeed, a call of `superviseDRBD` neither requests a
failover nor leaves the process, whatever the HA state, the connection and the peer
are: the peer is not asked. -/
theorem no_failover_with_local_status (depth : Nat) (env : Environment signature)
    (world : World) (info : DrbdInfo)
    (known : (drbdinfo.run machine env world []).outcome = .returned (0, info)) :
    failsOver ((superviseDRBD depth).run machine env world []) = false := by
  obtain ⟨status, queries, fetched, within, configured, whenKnown, _⟩ :=
    superviseDRBD_run depth env world
  rw [fetched] at known
  obtain rfl := Outcome.returned.inj known
  rw [whenKnown rfl]
  obtain ⟨later, extended, silent, stays⟩ :=
    (superviseStatus_calm depth (configured.mp rfl)).run machine env world queries
  refine not_failsOver ?_ stays
  simp [extended, silent_of_status within, silent]

def vanishedPeer (connection : String) : (op : Op) → op.Reply
  | .ask .getHAState => .standby
  | .ask (.popen (.replication _)) => some ["Off\n"]
  | .ask (.popen (.connection _)) => some [connection]
  | .ask (.popen (.peerRole _ _)) => some ["Unknown\n"]
  | .ask (.popen (.peerDisk _)) => some ["DUnknown\n"]
  | op => favourable op

def standbyNode (cstate : String) : World :=
  { freshWorld false (some ⟨cstate, 0⟩) with
    flags := fun flag => flag == .haMode || flag == .haObj }

theorem vanishedPeer_status :
    (drbdinfo.run machine (fun _ => vanishedPeer "Connecting\n")
        (standbyNode "Connected") []).outcome =
      .returned (0, ⟨true, "Connecting", "Secondary", "UpToDate"⟩) :=
  rfl

theorem no_failover_with_vanished_peer :
    failsOver ((superviseDRBD 1).run machine (fun _ => vanishedPeer "Connecting\n")
      (standbyNode "Connected") []) = false :=
  no_failover_with_local_status 1 _ _ _ vanishedPeer_status

theorem vanished_peer_unnoticed :
    (drbdinfo.run machine (fun _ => vanishedPeer "Connecting\n")
        (standbyNode "Connected") []).outcome =
      .returned (0, ⟨true, "Connecting", "Secondary", "UpToDate"⟩) ∧
    (getHAState.run machine (fun _ => vanishedPeer "Connecting\n")
        (standbyNode "Connected") []).outcome = .returned .standby ∧
    (peerdrbdinfo.run machine (fun _ => vanishedPeer "Connecting\n")
        (standbyNode "Connected") []).outcome =
      .returned (0, ⟨true, "Connecting", "Unknown", "DUnknown"⟩) ∧
    failsOver ((superviseDRBD 1).run machine (fun _ => vanishedPeer "Connecting\n")
        (standbyNode "Connected") []) = false :=
  ⟨rfl, rfl, rfl, by decide +kernel⟩

/-- Without a local status the failover depends on the peer: it is requested exactly
when the queries for the peer succeed. -/
theorem failover_without_local_status_iff (depth : Nat) (env : Environment signature)
    (world : World) (rCode : Int) (info : DrbdInfo)
    (unknown : (drbdinfo.run machine env world []).outcome = .returned (rCode, info))
    (missing : info.isConfigured = false) :
    failsOver ((superviseDRBD (depth + 1)).run machine env world []) = true ↔
      ∃ peer, (peerdrbdinfo.run machine env world
        (drbdinfo.run machine env world []).history).outcome = .returned (0, peer) := by
  obtain ⟨status, queries, fetched, within, configured, _, whenUnknown⟩ :=
    superviseDRBD_run (depth + 1) env world
  rw [fetched] at unknown
  obtain rfl := Outcome.returned.inj unknown
  have failed : rCode ≠ 0 := fun known =>
    Bool.false_ne_true (missing.symm.trans (configured.mp known))
  obtain ⟨peer, peerQueries, peerFetched, peerWithin, _⟩ := queryInfo_run false env world queries
  rw [whenUnknown failed, fetched, peerdrbdinfo,
    Program.run_bind_returned machine env peerFetched, peerFetched]
  by_cases peerKnown : peer.1 = 0
  · rw [if_pos peerKnown]
    have recovers : Recovers (superviseStatus (depth + 1) info peer.2) := by
      rw [superviseStatus, if_pos missing]
      exact failOrExit_recovers depth
    exact iff_of_true (recovers.failsOver env _ _) ⟨peer.2, by rw [← peerKnown]⟩
  · rw [if_neg peerKnown]
    refine iff_of_false ?_ ?_
    · refine Bool.eq_false_iff.mp (not_failsOver ?_ nofun)
      simp [silent_of_status within, silent_of_status peerWithin]
    · rintro ⟨other, returned⟩
      exact peerKnown (congrArg Prod.fst (Outcome.returned.inj returned))

/-- Replies on a standby node on which one of the local queries cannot be run. -/
def missingQuery (query : Query) : (op : Op) → op.Reply :=
  Function.update (vanishedPeer "Connecting\n") (.ask (.popen query)) none

theorem failover_without_local_role :
    failsOver ((superviseDRBD 1).run machine (fun _ => missingQuery (.localRole "drbd1"))
      (standbyNode "Connected") []) = true := by
  have unknown : (drbdinfo.run machine (fun _ => missingQuery (.localRole "drbd1"))
      (standbyNode "Connected") []).outcome =
        .returned (-1, ⟨false, "Connecting", "", "UpToDate"⟩) := rfl
  exact (failover_without_local_status_iff 0 _ _ _ _ unknown rfl).mpr
    ⟨⟨true, "Connecting", "Unknown", "DUnknown"⟩, rfl⟩

/-- The query for the replication is shared with the status of the peer. -/
theorem no_failover_without_replication :
    (drbdinfo.run machine (fun _ => missingQuery (.replication "drbd1"))
        (standbyNode "Connected") []).outcome =
      .returned (-1, ⟨false, "", "Secondary", "UpToDate"⟩) ∧
    ((superviseDRBD 1).run machine (fun _ => missingQuery (.replication "drbd1"))
        (standbyNode "Connected") []).outcome = .returned (-1) ∧
    failsOver ((superviseDRBD 1).run machine (fun _ => missingQuery (.replication "drbd1"))
        (standbyNode "Connected") []) = false := by
  exact ⟨rfl, rfl, by decide +kernel⟩

/-! ## The record over a sequence of calls -/

/-- One call of `superviseDRBD`: the memory it starts with and the answers it gets. -/
structure Tick where
  world : World
  env : Environment signature

def Tick.status (tick : Tick) : Int × DrbdInfo :=
  match (drbdinfo.run machine tick.env tick.world []).outcome with
  | .returned status => status
  | .halted _ => (-1, .zero)

def secondHAState : Agent HaState := do
  let _ ← getHAState
  getHAState

def Tick.haState (tick : Tick) : HaState :=
  match (secondHAState.run machine tick.env tick.world
    (drbdinfo.run machine tick.env tick.world []).history).outcome with
  | .returned state => state
  | .halted _ => .undefined

def Tick.upToDate (tick : Tick) : Bool :=
  tick.status.1 = 0 && tick.status.2.dstate = "UpToDate"

def Tick.reconnects (tick : Tick) : Bool :=
  tick.haState = .standby ∧ tick.status.2.cstate = "StandAlone" ∧
    tick.status.2.role = "Secondary"

def Tick.stores (tick : Tick) : Bool :=
  tick.status.1 = 0 && !tick.reconnects && tick.status.2.cstate ≠ "WFConnection"

/-- The call replaces the record by a state in which nothing is synchronised. -/
def Tick.erases (tick : Tick) : Bool :=
  tick.stores && !inconsistentState tick.status.2.cstate

def Tick.after (depth : Nat) (tick : Tick) : World :=
  ((superviseDRBD depth).run machine tick.env tick.world []).state

def ticks (depth : Nat) : World → List (Environment signature) → List Tick
  | _, [] => []
  | world, env :: envs => ⟨world, env⟩ :: ticks depth (Tick.after depth ⟨world, env⟩) envs

/-- The record tells of a synchronisation that has not finished. -/
def resynchronising (world : World) : Bool :=
  world.record.any fun info => inconsistentState info.cstate

theorem getHAState_run (world : World) (history : History) :
    ∃ state reached, getHAState.run machine env world history =
      ⟨.returned state, world, reached⟩ := by
  unfold getHAState
  rw [read, Program.perform_bind, Program.run_call]
  split
  · exact ⟨_, _, rfl⟩
  · exact ⟨_, _, rfl⟩

theorem keeps_record {program : Agent α} (uses : program.Uses (Only [.own, .status]))
    (env : Environment signature) (world : World) (history : History) :
    (program.run machine env world history).state.record = world.record := by
  have keeps : ∀ state op reply, Only [.own, .status] op → state.record = world.record →
      (act state op reply).2.record = world.record := by
    intro state op reply allowed same
    rw [act_record state reply fun isRecord => by simp [Only, isRecord] at allowed, same]
  exact uses.run_state machine env keeps rfl history

theorem recordStatus_record (status : DrbdInfo) (env : Environment signature) {world : World}
    {info : PersistantInfo} (record : world.record = some info) (history : History) :
    ((recordStatus status).run machine env world history).state.record =
      some (if status.cstate ≠ "WFConnection" then { info with cstate := status.cstate }
        else info) := by
  unfold recordStatus getPersisInfo
  simp only [Program.perform_bind, Program.call_bind, Program.run_call, act, record,
    Program.monad_pure_bind, Bool.true_eq_false, if_false]
  by_cases waits : status.cstate = "WFConnection"
  · simp [waits, record]
  · simp [waits, record, writePersisInfo, Program.perform, Program.run_call, act]

variable (tick : Tick)

theorem Tick.record_after {info : PersistantInfo} (record : tick.world.record = some info) :
    (tick.after depth).record =
      some (if tick.stores then { info with cstate := tick.status.2.cstate } else info) := by
  obtain ⟨status, queries, fetched, _, configured, whenKnown, whenUnknown⟩ :=
    superviseDRBD_run depth tick.env tick.world
  have statusEq : tick.status = status := by rw [Tick.status, fetched]
  by_cases known : status.1 = 0
  · obtain ⟨first, afterFirst, firstRun⟩ := getHAState_run tick.env tick.world queries
    obtain ⟨second, afterSecond, secondRun⟩ := getHAState_run tick.env tick.world afterFirst
    have stateEq : tick.haState = second := by
      simp only [Tick.haState, fetched, secondHAState, Program.run_bind, firstRun, secondRun]
    rw [Tick.after, whenKnown known, superviseStatus_eq depth (configured.mp known)]
    simp only [Program.run_bind, firstRun, secondRun]
    by_cases standsAlone : second = .standby ∧ status.2.cstate = "StandAlone" ∧
        status.2.role = "Secondary"
    · have reconnects : tick.reconnects = true := by
        simp [Tick.reconnects, statusEq, stateEq, standsAlone]
      have keeps : tick.stores = false := by simp [Tick.stores, reconnects]
      rw [if_pos standsAlone, keeps]
      refine (keeps_record ?_ _ _ _).trans record
      exact (reconnectAttempts_uses (by simp) 2).bind fun _ => trivial
    · have reconnects : tick.reconnects = false := by
        rw [Tick.reconnects, statusEq, stateEq, decide_eq_false standsAlone]
      rw [if_neg standsAlone, recordStatus_record status.2 tick.env record]
      simp [Tick.stores, reconnects, statusEq, known]
  · have keeps : tick.stores = false := by simp [Tick.stores, statusEq, known]
    rw [Tick.after, whenUnknown known, keeps]
    refine (keeps_record ?_ _ _ _).trans record
    have missing : status.2.isConfigured = false :=
      Bool.eq_false_iff.mpr fun isConfigured => known (configured.mpr isConfigured)
    refine (queryInfo_uses (by simp) false).bind fun peer => Program.uses_ite ?_ trivial
    rw [superviseStatus, if_pos missing]
    exact failOrExit_uses (by simp) (nodefailOver_uses (by simp) depth)

theorem Tick.resynchronising_after (recorded : resynchronising tick.world = true) :
    resynchronising (tick.after depth) = !tick.erases := by
  obtain ⟨info, record, inconsistent⟩ : ∃ info, tick.world.record = some info ∧
      inconsistentState info.cstate = true := by
    simpa [resynchronising, Option.any_eq_true] using recorded
  rw [resynchronising, tick.record_after depth record, Tick.erases]
  cases tick.stores with
  | false => simp [inconsistent]
  | true => simp

/-- Once the record tells of an unfinished synchronisation it goes on to do so, until a
disk that is up to date is seen, exactly if no call before that point stores another
connection state.  The only name that is never stored is `WFConnection`. -/
theorem resynchronising_until_upToDate_iff (depth : Nat) (world : World)
    (envs : List (Environment signature)) (recorded : resynchronising world = true) :
    (∀ tick ∈ (ticks depth world envs).takeWhile (!·.upToDate),
        resynchronising (tick.after depth) = true) ↔
      ∀ tick ∈ (ticks depth world envs).takeWhile (!·.upToDate), tick.erases = false := by
  induction envs generalizing world with
  | nil => simp [ticks]
  | cons env envs ih =>
    rw [ticks]
    by_cases finished : (⟨world, env⟩ : Tick).upToDate = true
    · simp [finished]
    · have step := Tick.resynchronising_after depth ⟨world, env⟩ recorded
      rw [List.takeWhile_cons_of_pos (by simp [finished]), List.forall_mem_cons,
        List.forall_mem_cons]
      rw [step]
      cases erased : (⟨world, env⟩ : Tick).erases with
      | true => simp
      | false =>
        rw [erased] at step
        simpa using ih _ step

/-- Replies on a standby node whose disk is not yet synchronised. -/
def unfinished (connection : String) : (op : Op) → op.Reply :=
  Function.update (vanishedPeer connection) (.ask (.popen (.localDisk "drbd1")))
    (some ["Inconsistent\n"])

theorem resynchronising_while_waiting :
    resynchronising (standbyNode "SyncTarget") = true ∧
      ∀ tick ∈ (ticks 1 (standbyNode "SyncTarget")
          [fun _ => unfinished "PausedSyncT\n",
            fun _ => unfinished "WFConnection\n"]).takeWhile (!·.upToDate),
        resynchronising (tick.after 1) = true :=
  ⟨by decide, (resynchronising_until_upToDate_iff 1 _ _ (by decide)).mpr (by decide +kernel)⟩

theorem record_lost_with_connection :
    resynchronising (standbyNode "SyncTarget") = true ∧
      (Tick.after 1 ⟨standbyNode "SyncTarget", fun _ => unfinished "Connecting\n"⟩).record =
        some ⟨"Connecting", 0⟩ ∧
      ¬∀ tick ∈ (ticks 1 (standbyNode "SyncTarget")
          [fun _ => unfinished "Connecting\n"]).takeWhile (!·.upToDate),
        resynchronising (tick.after 1) = true := by
  decide +kernel

/-! ## Leaving `StandAlone` -/

def execlpResult : Option Int → Int
  | none => -1
  | some status => if status ≠ 0 then -1 else 0

def activations (history : History) : List Int :=
  history.filterMap fun
    | ⟨.ask (.execlp .activate), status⟩ => some (execlpResult status)
    | _ => none

/-- The environment answers the calls of `activate` with a sequence of results. -/
def Activates (results : Nat → Int) (env : Environment signature) : Prop :=
  ∀ history, execlpResult (env history (.ask (.execlp .activate))) =
    results (activations history).length

def attemptsUntilSuccess (results : Nat → Int) : Nat → Nat → List Int
  | 0, _ => []
  | attempts + 1, first =>
    results first ::
      if results first = 0 then [] else attemptsUntilSuccess results attempts (first + 1)

@[simp]
theorem activations_append (first second : History) :
    activations (first ++ second) = activations first ++ activations second :=
  List.filterMap_append

variable {results : Nat → Int}

theorem activate_run {env : Environment signature} (activates : Activates results env)
    (world : World) (history : History) :
    ∃ reached, activate.run machine env world history =
        ⟨.returned (results (activations history).length), world, reached⟩ ∧
      activations reached = activations history ++ [results (activations history).length] := by
  have answer := activates history
  unfold activate execlp ask
  rw [Program.perform_bind, Program.run_call]
  dsimp only [act]
  cases status : env history (.ask (.execlp .activate)) with
  | none =>
    rw [status] at answer
    refine ⟨_, by rw [← answer]; rfl, ?_⟩
    rw [activations_append, ← answer]
    rfl
  | some code =>
    rw [status] at answer
    refine ⟨history ++ [⟨.ask (.execlp .activate), some code⟩], ?_, ?_⟩
    · rw [← answer]
      by_cases fails : code ≠ 0
      · simp [execlpResult, fails]
      · simp [execlpResult, fails]
    · rw [activations_append, ← answer]
      rfl

theorem reconnectAttempts_run {env : Environment signature} (activates : Activates results env)
    (world : World) (remaining : Nat) (history : History) :
    ∃ counter reached, (reconnectAttempts remaining).run machine env world history =
        ⟨.returned counter, world, reached⟩ ∧
      activations reached = activations history ++
        attemptsUntilSuccess results remaining (activations history).length := by
  induction remaining generalizing history with
  | zero => exact ⟨_, _, rfl, (List.append_nil _).symm⟩
  | succ remaining ih =>
    obtain ⟨reached, activated, listed⟩ := activate_run activates world history
    rw [reconnectAttempts, Program.run_bind_returned machine env activated,
      attemptsUntilSuccess]
    by_cases succeeds : results (activations history).length = 0
    · rw [if_pos succeeds, if_pos succeeds]
      exact ⟨_, _, rfl, listed⟩
    · rw [if_neg succeeds, if_neg succeeds, msecSleep, ask, Program.perform_bind,
        Program.run_call]
      obtain ⟨counter, last, ran, listedAll⟩ := ih
        (reached ++ [⟨.ask (.msecSleep 1000), env reached (.ask (.msecSleep 1000))⟩])
      have slept : activations (reached ++ [⟨.ask (.msecSleep 1000),
          env reached (.ask (.msecSleep 1000))⟩]) = activations reached := by
        rw [activations_append]
        exact List.append_nil _
      refine ⟨counter, last, ran, ?_⟩
      rw [listedAll, slept, listed, List.length_append, List.append_assoc]
      rfl

theorem getHAState_activations :
    getHAState.Ends fun exchanges _ => activations exchanges = [] := by
  refine fun created => ?_
  cases created with
  | true => exact fun state => rfl
  | false => rfl

theorem activations_of_status {queries : History}
    (within : ∀ exchange ∈ queries, kind exchange.1 = .status) : activations queries = [] := by
  refine List.filterMap_eq_nil_iff.mpr fun exchange member => ?_
  split
  · cases within _ member
  · rfl

theorem Tick.activations_eq (known : tick.status.1 = 0) (reconnects : tick.reconnects = true)
    (activates : Activates results tick.env) :
    activations ((superviseDRBD depth).run machine tick.env tick.world []).history =
      attemptsUntilSuccess results 2 0 := by
  obtain ⟨status, queries, fetched, within, configured, whenKnown, _⟩ :=
    superviseDRBD_run depth tick.env tick.world
  have statusEq : tick.status = status := by rw [Tick.status, fetched]
  rw [statusEq] at known
  obtain ⟨first, afterFirst, firstRun⟩ := getHAState_run tick.env tick.world queries
  obtain ⟨second, afterSecond, secondRun⟩ := getHAState_run tick.env tick.world afterFirst
  have stateEq : tick.haState = second := by
    simp only [Tick.haState, fetched, secondHAState, Program.run_bind, firstRun, secondRun]
  have standsAlone : second = .standby ∧ status.2.cstate = "StandAlone" ∧
      status.2.role = "Secondary" := by
    simpa [Tick.reconnects, statusEq, stateEq] using reconnects
  have unactivated : activations afterSecond = [] := by
    obtain ⟨some, extended, none⟩ := getHAState_activations.run machine tick.env tick.world queries
    obtain ⟨more, extendedMore, noneMore⟩ :=
      getHAState_activations.run machine tick.env tick.world afterFirst
    simp only [firstRun] at extended
    simp only [secondRun] at extendedMore
    rw [extendedMore, extended, activations_append, activations_append,
      activations_of_status within, none, noneMore]
    rfl
  obtain ⟨counter, last, ran, listed⟩ :=
    reconnectAttempts_run activates tick.world 2 afterSecond
  rw [unactivated] at listed
  rw [whenKnown known, superviseStatus_eq depth (configured.mp known)]
  simp only [Program.run_bind, firstRun, secondRun, if_pos standsAlone, ran, Program.run_monad_pure]
  exact listed

/-- The attempts are made until the first success, three at most, and a failover is
requested if and only if three attempts failed. -/
def GivesUpAfterThree (results : Nat → Int) (history : History) : Prop :=
  activations history = attemptsUntilSuccess results 3 0 ∧
    (⟨.note .nodefailOver, ()⟩ ∈ history ↔ ∀ attempt < 3, results attempt ≠ 0)

/-- The loop counts from 1 to 3 and the test after it asks for more than 3.  So a standby
node recovers from `StandAlone` as it should if and only if one of the first two attempts
succeeds. -/
theorem gives_up_after_three_iff (depth : Nat) (tick : Tick) (results : Nat → Int)
    (known : tick.status.1 = 0) (reconnects : tick.reconnects = true)
    (activates : Activates results tick.env) :
    GivesUpAfterThree results ((superviseDRBD depth).run machine tick.env tick.world []).history ↔
      results 0 = 0 ∨ results 1 = 0 := by
  obtain ⟨status, queries, fetched, within, configured, whenKnown, _⟩ :=
    superviseDRBD_run depth tick.env tick.world
  have statusKnown : status.1 = 0 := by
    rw [← known, Tick.status, fetched]
  have silent : ⟨.note .nodefailOver, ()⟩ ∉
      ((superviseDRBD depth).run machine tick.env tick.world []).history := by
    obtain ⟨later, extended, stillSilent, _⟩ :=
      (superviseStatus_calm depth (configured.mp statusKnown)).run machine tick.env tick.world
        queries
    rw [whenKnown statusKnown, extended]
    simp [silent_of_status within, stillSilent]
  rw [GivesUpAfterThree, tick.activations_eq depth known reconnects activates]
  by_cases first : results 0 = 0
  · refine iff_of_true ⟨by simp [attemptsUntilSuccess, first], ?_⟩ (.inl first)
    exact iff_of_false silent fun allFail => allFail 0 (by omega) first
  · by_cases second : results 1 = 0
    · refine iff_of_true ⟨by simp [attemptsUntilSuccess, first, second], ?_⟩ (.inr second)
      exact iff_of_false silent fun allFail => allFail 1 (by omega) second
    · refine iff_of_false ?_ (by simp [first, second])
      rintro ⟨sameAttempts, _⟩
      simp [attemptsUntilSuccess, first, second] at sameAttempts

/-- Replies on a standby node that stands alone, where `activate` fails at first. -/
def standingAlone (failures : Nat) : Environment signature := fun history op =>
  match op with
  | .ask .getHAState => .standby
  | .ask (.popen (.replication _)) => some ["Off\n"]
  | .ask (.popen (.connection _)) => some ["StandAlone\n"]
  | .ask (.popen (.peerRole _ _)) => some ["Primary\n"]
  | .ask (.popen (.peerDisk _)) => some ["UpToDate\n"]
  | .ask (.execlp .activate) => some (if (activations history).length < failures then 1 else 0)
  | op => favourable op

def failingFirst (failures attempt : Nat) : Int :=
  if attempt < failures then -1 else 0

theorem standingAlone_activates (failures : Nat) :
    Activates (failingFirst failures) (standingAlone failures) := by
  intro history
  simp only [standingAlone, execlpResult, failingFirst]
  split <;> rfl

theorem recovers_at_second_attempt :
    GivesUpAfterThree (failingFirst 1)
      ((superviseDRBD 1).run machine (standingAlone 1) (standbyNode "Connected") []).history :=
  (gives_up_after_three_iff 1 ⟨standbyNode "Connected", standingAlone 1⟩ _ rfl
    (by decide +kernel) (standingAlone_activates 1)).mpr (.inr rfl)

/-- All three attempts would fail: the third one is not made, and there is no failover. -/
theorem third_attempt_missing :
    Activates (failingFirst 3) (standingAlone 3) ∧
      (Tick.status ⟨standbyNode "Connected", standingAlone 3⟩) =
        (0, ⟨true, "StandAlone", "Secondary", "UpToDate"⟩) ∧
      Tick.haState ⟨standbyNode "Connected", standingAlone 3⟩ = .standby ∧
      (peerdrbdinfo.run machine (standingAlone 3) (standbyNode "Connected") []).outcome =
        .returned (0, ⟨true, "StandAlone", "Primary", "UpToDate"⟩) ∧
      ¬GivesUpAfterThree (failingFirst 3)
        ((superviseDRBD 1).run machine (standingAlone 3) (standbyNode "Connected") []).history := by
  refine ⟨standingAlone_activates 3, by decide +kernel, by decide +kernel, rfl, ?_⟩
  rintro ⟨sameAttempts, _⟩
  have twoAttempts : activations ((superviseDRBD 1).run machine (standingAlone 3)
      (standbyNode "Connected") []).history = [-1, -1] := by decide +kernel
  rw [twoAttempts] at sameAttempts
  cases sameAttempts

end Apos.DrbdAgent
