import Apos.DrbdAgentRoleMgr

/-!
# The health check of the device monitor

The device monitor `apos_ha_devmond` fetches the state of the DRBD resource on every
tick and reports to the agent when the resource becomes unhealthy and when it
recovers.  The type of the message is chosen by three tests, of which the last one
that fails wins, and a flag remembers whether a fault has been reported.
-/

namespace Apos.Devmon

open DrbdAgent (field16)

/-! ## Messages -/

inductive MsgType where
  | diskHealthy
  | diskFaulty
  | roleChange
  | connError
  deriving DecidableEq, Repr

def MsgType.code : MsgType → UInt32
  | .diskHealthy => 1
  | .diskFaulty => 2
  | .roleChange => 3
  | .connError => 4

structure InfoT where
  isConfigured : Bool
  cstate : String
  role : String
  dstate : String
  diskinfo : String
  deriving DecidableEq, Repr

def InfoT.zero : InfoT :=
  ⟨false, "", "", "", ""⟩

structure Msg where
  type : MsgType
  size : UInt32
  data : InfoT
  deriving DecidableEq, Repr

/-! ## `HA_DEVMON_DRBDMgr` -/

/-- What the four queries of `parse_proc_drbd` return on one tick; `none` where a query
fails. -/
structure Snapshot where
  cstate : Option String
  role : Option String
  ldisk : Option String
  rdisk : Option String
  deriving DecidableEq, Repr

structure DRBDMgr where
  msgInfo : Msg
  cstate : String
  ldisk : String
  role : String
  rdisk : String
  diskinfo : String
  deriving DecidableEq, Repr

/-- The object after its constructor and `init`; the data are set before each use. -/
def DRBDMgr.new : DRBDMgr :=
  ⟨⟨.diskHealthy, 305, .zero⟩, "", "", "", "", ""⟩

def fetched (answer : Option String) (field : String) : String :=
  (answer.map field16).getD field

def DRBDMgr.parseProcDrbd (mgr : DRBDMgr) (seen : Snapshot) : Int × DRBDMgr :=
  (if seen.cstate.isSome && seen.role.isSome && seen.ldisk.isSome && seen.rdisk.isSome then 0
    else -1,
    { mgr with
      cstate := fetched seen.cstate mgr.cstate
      role := fetched seen.role mgr.role
      ldisk := fetched seen.ldisk mgr.ldisk
      rdisk := fetched seen.rdisk mgr.rdisk })

/-- The type `isactive` ends with, and whether one of its tests has failed. -/
def DRBDMgr.diagnose (mgr : DRBDMgr) : MsgType × Bool :=
  let disk : MsgType × Bool :=
    if (mgr.ldisk ≠ "Consistent" ∧ mgr.ldisk ≠ "UpToDate") ∨ mgr.rdisk ≠ "UpToDate" then
      (.diskFaulty, true)
    else (.diskHealthy, false)
  let role := if mgr.role ≠ "Primary" then (.roleChange, true) else disk
  if mgr.cstate ≠ "Connected" then (.connError, true) else role

/-- `isactive` returns 0 when it has found a fault and 1 otherwise, also when the state
could not be fetched. -/
def DRBDMgr.isactive (mgr : DRBDMgr) (seen : Snapshot) : Int × DRBDMgr :=
  let parsed := mgr.parseProcDrbd seen
  if parsed.1 ≠ 0 then
    (1, { parsed.2 with msgInfo := { parsed.2.msgInfo with data := .zero } })
  else
    let diagnosis := parsed.2.diagnose
    (if diagnosis.2 then 0 else 1,
      { parsed.2 with
        msgInfo := { parsed.2.msgInfo with
          type := diagnosis.1
          data := ⟨true, parsed.2.cstate, parsed.2.role, parsed.2.ldisk,
            parsed.2.diskinfo⟩ } })

def DRBDMgr.reset (mgr : DRBDMgr) : DRBDMgr :=
  { mgr with cstate := "", role := "", rdisk := "", ldisk := "", diskinfo := "" }

/-! ## `HA_DEVMON_DRBDMon` -/

structure DRBDMon where
  drbdObj : DRBDMgr
  sendMsg : Bool
  deriving DecidableEq, Repr

def DRBDMon.new : DRBDMon :=
  ⟨.new, false⟩

/-- One tick: what is fetched, and whether the pipe takes a report of a fault and a
report of a recovery. -/
structure Tick where
  seen : Snapshot
  faultWritten : Bool
  recoveryWritten : Bool
  deriving DecidableEq, Repr

/-- The variables of `healthCheck`, with the messages given to `write_buffer` so far. -/
structure Checking where
  rCode : Int
  mon : DRBDMon
  sent : List Msg
  deriving DecidableEq, Repr

/-- A branch of `healthCheck`: `sendMsg`, the test of its result and the new flag. -/
def Checking.report (checking : Checking) (written flag : Bool) : Checking where
  rCode := if written then checking.rCode else -1
  mon := ⟨checking.mon.drbdObj.reset, flag⟩
  sent := checking.sent ++ [checking.mon.drbdObj.msgInfo]

def healthCheck (mon : DRBDMon) (tick : Tick) : Checking :=
  let active := mon.drbdObj.isactive tick.seen
  let start : Checking := ⟨active.1, { mon with drbdObj := active.2 }, []⟩
  let faulty :=
    if start.rCode = 0 ∧ start.mon.sendMsg = false then start.report tick.faultWritten true
    else start
  if faulty.rCode ≠ 0 ∧ faulty.mon.sendMsg = true then
    faulty.report tick.recoveryWritten false
  else faulty

def checkAll (mon : DRBDMon) (ticks : List Tick) : DRBDMon :=
  ticks.foldl (fun current tick => (healthCheck current tick).mon) mon

def reports (mon : DRBDMon) : List Tick → List (List Msg)
  | [] => []
  | tick :: ticks => (healthCheck mon tick).sent :: reports (healthCheck mon tick).mon ticks

/-! ## Healthy snapshots -/

def Snapshot.isFetched (seen : Snapshot) : Bool :=
  seen.cstate.isSome && seen.role.isSome && seen.ldisk.isSome && seen.rdisk.isSome

def Snapshot.healthy (seen : Snapshot) : Bool :=
  (seen.ldisk = some "Consistent" || seen.ldisk = some "UpToDate") &&
    seen.rdisk = some "UpToDate" && seen.role = some "Primary" &&
    seen.cstate = some "Connected"

theorem field16_eq_iff {text expected : String} (short : expected.toList.length < 15) :
    field16 text = expected ↔ text = expected := by
  have byLists : field16 text = expected ↔ text.toList.take 15 = expected.toList := by
    rw [field16, ← String.toList_inj, String.toList_ofList]
  rw [byLists, ← String.toList_inj]
  constructor
  · intro same
    have lengths := congrArg List.length same
    rw [List.length_take] at lengths
    rwa [List.take_of_length_le (by omega)] at same
  · intro same
    rw [same, List.take_of_length_le (by omega)]

theorem fetched_eq_iff {answer : Option String} (isFetched : answer.isSome = true)
    (field : String) {expected : String} (short : expected.toList.length < 15) :
    fetched answer field = expected ↔ answer = some expected := by
  obtain ⟨text, rfl⟩ := Option.isSome_iff_exists.mp isFetched
  rw [fetched, Option.map_some, Option.getD_some, field16_eq_iff short, Option.some.injEq]

/-- The type of a report about a snapshot: a lost connection hides a lost role, and a lost
role hides a faulty disk. -/
def Snapshot.msgType (seen : Snapshot) : MsgType :=
  if seen.cstate ≠ some "Connected" then .connError
  else if seen.role ≠ some "Primary" then .roleChange
  else if (seen.ldisk ≠ some "Consistent" ∧ seen.ldisk ≠ some "UpToDate") ∨
      seen.rdisk ≠ some "UpToDate" then .diskFaulty
  else .diskHealthy

theorem Snapshot.msgType_eq_diskHealthy_iff (seen : Snapshot) :
    seen.msgType = .diskHealthy ↔ seen.healthy = true := by
  unfold Snapshot.msgType Snapshot.healthy
  split_ifs <;> grind

variable {seen : Snapshot}

theorem isactive_of_isFetched (mgr : DRBDMgr) (isFetched : seen.isFetched = true) :
    (mgr.isactive seen).1 = (if seen.healthy then 1 else 0) ∧
      (mgr.isactive seen).2.msgInfo.type = seen.msgType := by
  have queries := isFetched
  simp only [Snapshot.isFetched, Bool.and_eq_true] at queries
  obtain ⟨⟨⟨cstate, role⟩, ldisk⟩, rdisk⟩ := queries
  have parses : (mgr.parseProcDrbd seen).1 = 0 := if_pos isFetched
  have diagnosis : (mgr.parseProcDrbd seen).2.diagnose = (seen.msgType, !seen.healthy) := by
    simp only [DRBDMgr.diagnose, DRBDMgr.parseProcDrbd, ne_eq, Snapshot.msgType,
      Snapshot.healthy, fetched_eq_iff cstate _ (by decide : "Connected".toList.length < 15),
      fetched_eq_iff role _ (by decide : "Primary".toList.length < 15),
      fetched_eq_iff ldisk _ (by decide : "Consistent".toList.length < 15),
      fetched_eq_iff ldisk _ (by decide : "UpToDate".toList.length < 15),
      fetched_eq_iff rdisk _ (by decide : "UpToDate".toList.length < 15)]
    split_ifs <;> simp_all
  simp only [DRBDMgr.isactive, parses, ne_eq, not_true_eq_false, if_false, diagnosis]
  cases seen.healthy <;> simp

theorem isactive_of_not_isFetched (mgr : DRBDMgr) (notFetched : seen.isFetched = false) :
    (mgr.isactive seen).1 = 1 := by
  have fails : (mgr.parseProcDrbd seen).1 = -1 :=
    if_neg (by rw [← Snapshot.isFetched, notFetched]; decide)
  simp [DRBDMgr.isactive, fails]

/-! ## One tick -/

variable (mon : DRBDMon)

theorem healthCheck_of_not_isFetched {tick : Tick} (notFetched : tick.seen.isFetched = false) :
    (healthCheck mon tick).sent.length = mon.sendMsg.toNat ∧
      (healthCheck mon tick).mon.sendMsg = false := by
  have inactive := isactive_of_not_isFetched mon.drbdObj notFetched
  cases flag : mon.sendMsg <;>
    simp [healthCheck, inactive, flag, Checking.report]

theorem healthCheck_of_healthy {tick : Tick} (isFetched : tick.seen.isFetched = true)
    (healthy : tick.seen.healthy = true) :
    (healthCheck mon tick).sent.map Msg.type =
        (if mon.sendMsg then [.diskHealthy] else []) ∧
      (healthCheck mon tick).mon.sendMsg = false := by
  obtain ⟨active, type⟩ := isactive_of_isFetched mon.drbdObj isFetched
  rw [healthy, if_pos rfl] at active
  rw [tick.seen.msgType_eq_diskHealthy_iff.mpr healthy] at type
  cases flag : mon.sendMsg <;>
    simp [healthCheck, active, type, flag, Checking.report]

theorem healthCheck_of_reported {mon : DRBDMon} {tick : Tick}
    (isFetched : tick.seen.isFetched = true) (unhealthy : tick.seen.healthy = false)
    (flag : mon.sendMsg = true) :
    (healthCheck mon tick).sent = [] ∧ (healthCheck mon tick).mon.sendMsg = true := by
  obtain ⟨active, -⟩ := isactive_of_isFetched mon.drbdObj isFetched
  rw [unhealthy, if_neg Bool.false_ne_true] at active
  simp [healthCheck, active, flag]

/-- A new fault is reported once if the pipe takes the report; otherwise it is sent a second
time at once and then forgotten. -/
theorem healthCheck_of_fault {mon : DRBDMon} {tick : Tick}
    (isFetched : tick.seen.isFetched = true) (unhealthy : tick.seen.healthy = false)
    (flag : mon.sendMsg = false) :
    (healthCheck mon tick).sent.map Msg.type =
        (if tick.faultWritten then [tick.seen.msgType]
          else [tick.seen.msgType, tick.seen.msgType]) ∧
      (healthCheck mon tick).mon.sendMsg = tick.faultWritten := by
  obtain ⟨active, type⟩ := isactive_of_isFetched mon.drbdObj isFetched
  rw [unhealthy, if_neg Bool.false_ne_true] at active
  cases written : tick.faultWritten <;>
    simp [healthCheck, active, type, flag, written, Checking.report, DRBDMgr.reset]

/-! ## Edge-triggered reports -/

/-- One message at every change of health, of the type that belongs to it, and no message
otherwise.  `was` is the health before the first tick. -/
def EdgeTriggered : Bool → List Tick → List (List Msg) → Prop
  | _, [], [] => True
  | was, tick :: ticks, sent :: later =>
    (if tick.seen.healthy = was then sent = []
      else ∃ msg, sent = [msg] ∧ (msg.type = .diskHealthy ↔ tick.seen.healthy = true)) ∧
    EdgeTriggered tick.seen.healthy ticks later
  | _, _, _ => False

/-- Every snapshot can be fetched, and the pipe takes the report of every new fault. -/
def Dependable : Bool → List Tick → Prop
  | _, [] => True
  | was, tick :: ticks =>
    tick.seen.isFetched = true ∧
    (was = true → tick.seen.healthy = false → tick.faultWritten = true) ∧
    Dependable tick.seen.healthy ticks

theorem Snapshot.not_healthy (notFetched : seen.isFetched = false) : seen.healthy = false := by
  unfold Snapshot.isFetched Snapshot.healthy at *
  grind

theorem eq_singleton_of_map_type {sent : List Msg} {type : MsgType}
    (types : sent.map Msg.type = [type]) : ∃ msg, sent = [msg] ∧ msg.type = type := by
  obtain ⟨msg, rest, rfl, isType, isEnd⟩ := List.map_eq_cons_iff.mp types
  exact ⟨msg, by rw [List.map_eq_nil_iff.mp isEnd], isType⟩

theorem edge_of_tick (tick : Tick) :
    (if tick.seen.healthy = !mon.sendMsg then (healthCheck mon tick).sent = []
        else ∃ msg, (healthCheck mon tick).sent = [msg] ∧
          (msg.type = .diskHealthy ↔ tick.seen.healthy = true)) ↔
      tick.seen.isFetched = true ∧
        ((!mon.sendMsg) = true → tick.seen.healthy = false → tick.faultWritten = true) := by
  cases isFetched : tick.seen.isFetched with
  | false =>
    obtain ⟨count, -⟩ := healthCheck_of_not_isFetched mon isFetched
    have unhealthy := Snapshot.not_healthy isFetched
    refine iff_of_false ?_ (by simp)
    cases flag : mon.sendMsg with
    | false =>
      rintro edge
      simp only [unhealthy, Bool.not_false, Bool.false_eq_true, if_false] at edge
      obtain ⟨msg, sent, -⟩ := edge
      simp [sent, flag] at count
    | true =>
      rintro edge
      simp only [unhealthy, Bool.not_true, if_true] at edge
      simp [edge, flag] at count
  | true =>
    cases health : tick.seen.healthy with
    | true =>
      obtain ⟨types, -⟩ := healthCheck_of_healthy mon isFetched health
      refine iff_of_true ?_ ⟨rfl, fun _ impossible => by cases impossible⟩
      cases flag : mon.sendMsg with
      | false => simpa [flag] using types
      | true =>
        rw [flag, if_pos rfl] at types
        obtain ⟨msg, sent, type⟩ := eq_singleton_of_map_type types
        simp only [Bool.not_true, Bool.true_eq_false, if_false]
        exact ⟨msg, sent, by simp [type]⟩
    | false =>
      have notHealthy : tick.seen.msgType ≠ .diskHealthy := by
        rw [ne_eq, tick.seen.msgType_eq_diskHealthy_iff, health]
        decide
      cases flag : mon.sendMsg with
      | true =>
        obtain ⟨sent, -⟩ := healthCheck_of_reported isFetched health flag
        simp [sent]
      | false =>
        obtain ⟨types, -⟩ := healthCheck_of_fault isFetched health flag
        simp only [Bool.not_false, Bool.false_eq_true, if_false, true_and, true_implies]
        cases written : tick.faultWritten with
        | true =>
          rw [written, if_pos rfl] at types
          obtain ⟨msg, sent, type⟩ := eq_singleton_of_map_type types
          exact iff_of_true ⟨msg, sent, by simp [type, notHealthy]⟩ rfl
        | false =>
          rw [written, if_neg Bool.false_ne_true] at types
          refine iff_of_false ?_ Bool.false_ne_true
          rintro ⟨msg, sent, -⟩
          simp [sent] at types

theorem flag_of_tick {tick : Tick} (isFetched : tick.seen.isFetched = true)
    (taken : (!mon.sendMsg) = true → tick.seen.healthy = false → tick.faultWritten = true) :
    (!(healthCheck mon tick).mon.sendMsg) = tick.seen.healthy := by
  cases health : tick.seen.healthy with
  | true => simp [(healthCheck_of_healthy mon isFetched health).2]
  | false =>
    cases flag : mon.sendMsg with
    | true => simp [(healthCheck_of_reported isFetched health flag).2]
    | false =>
      simp [(healthCheck_of_fault isFetched health flag).2, taken (by simp [flag]) health]

theorem edgeTriggered_iff_of_flag (ticks : List Tick) :
    EdgeTriggered (!mon.sendMsg) ticks (reports mon ticks) ↔
      Dependable (!mon.sendMsg) ticks := by
  induction ticks generalizing mon with
  | nil => exact Iff.rfl
  | cons tick ticks ih =>
    rw [reports, EdgeTriggered, Dependable, edge_of_tick, and_assoc]
    refine and_congr_right fun isFetched => and_congr_right fun taken => ?_
    rw [← flag_of_tick mon isFetched taken, ih]

/-- The monitor reports every change of health exactly once, and nothing else, exactly if
every snapshot can be fetched and the pipe takes the report of every new fault. -/
theorem edgeTriggered_iff (ticks : List Tick) :
    EdgeTriggered true ticks (reports .new ticks) ↔ Dependable true ticks :=
  edgeTriggered_iff_of_flag .new ticks

/-- A resource that cannot be fetched is not reported at all, and a fault whose report
the pipe refuses is sent twice in one tick. -/
theorem edge_missed_or_doubled :
    (let unconfigured : Tick := ⟨⟨none, none, none, none⟩, true, true⟩
    reports .new [unconfigured] = [[]] ∧
      ¬EdgeTriggered true [unconfigured] (reports .new [unconfigured])) ∧
    (let refused : Tick :=
      ⟨⟨some "WFConnection", some "Primary", some "UpToDate", some "DUnknown"⟩, false, true⟩
    (reports .new [refused]).map (·.map Msg.type) = [[.connError, .connError]] ∧
      ¬EdgeTriggered true [refused] (reports .new [refused])) := by
  refine ⟨⟨by decide +kernel, ?_⟩, ⟨by decide +kernel, ?_⟩⟩
  · rintro ⟨⟨msg, isMsg, -⟩, -⟩
    cases isMsg
  · rintro ⟨⟨msg, isMsg, -⟩, -⟩
    cases isMsg

/-! ## Loss of the Primary role -/

structure Status where
  cstate : String
  role : String
  ldisk : String
  rdisk : String
  deriving DecidableEq, Repr

def Status.snapshot (status : Status) : Snapshot :=
  ⟨some status.cstate, some status.role, some status.ldisk, some status.rdisk⟩

def Status.tick (status : Status) : Tick :=
  ⟨status.snapshot, true, true⟩

def sentAfter (seen : List Status) (now : Status) : List Msg :=
  (healthCheck (checkAll .new (seen.map Status.tick)) now.tick).sent

/-- Whenever the role was Primary on the last tick and is not on this one, a role change is
reported on this tick. -/
def ReportsRoleLoss (statuses : List Status) : Prop :=
  ∀ before last now after, statuses = before ++ last :: now :: after →
    last.role = "Primary" → now.role ≠ "Primary" →
    ∃ msg ∈ sentAfter (before ++ [last]) now, msg.type = .roleChange

def LosesRoleAlone (statuses : List Status) : Prop :=
  ∀ before last now after, statuses = before ++ last :: now :: after →
    last.role = "Primary" → now.role ≠ "Primary" →
    last.snapshot.healthy = true ∧ now.cstate = "Connected"

theorem checkAll_flag (seen : List Status) (last : Status) :
    (checkAll .new ((seen ++ [last]).map Status.tick)).sendMsg = !last.snapshot.healthy := by
  rw [checkAll, List.map_append, List.foldl_append]
  have told : (!(healthCheck (checkAll .new (seen.map Status.tick)) last.tick).mon.sendMsg) =
      last.snapshot.healthy := flag_of_tick _ rfl fun _ _ => rfl
  rw [← Bool.not_not (DRBDMon.sendMsg _)]
  exact congrArg (!·) told

theorem Status.not_healthy {status : Status} (lost : status.role ≠ "Primary") :
    status.snapshot.healthy = false := by
  simp [Status.snapshot, Snapshot.healthy, lost]

theorem roleChange_sent_iff (seen : List Status) (last : Status) {now : Status}
    (lost : now.role ≠ "Primary") :
    (∃ msg ∈ sentAfter (seen ++ [last]) now, msg.type = .roleChange) ↔
      last.snapshot.healthy = true ∧ now.cstate = "Connected" := by
  have unhealthy : now.tick.seen.healthy = false := Status.not_healthy lost
  have flag := checkAll_flag seen last
  cases health : last.snapshot.healthy with
  | false =>
    rw [health] at flag
    obtain ⟨sent, -⟩ := healthCheck_of_reported rfl unhealthy flag
    rw [sentAfter, sent]
    simp
  | true =>
    rw [health] at flag
    obtain ⟨types, -⟩ := healthCheck_of_fault rfl unhealthy flag
    obtain ⟨msg, sent, type⟩ := eq_singleton_of_map_type types
    have isType : msg.type =
        if now.cstate ≠ "Connected" then .connError else .roleChange := by
      rw [type]
      simp [Status.tick, Status.snapshot, Snapshot.msgType, lost]
    rw [sentAfter, sent]
    by_cases connected : now.cstate = "Connected"
    · simp [isType, connected]
    · simp [isType, connected]

end Apos.Devmon

namespace Apos.DrbdAgent

/-- `HA_AGENT_RoleMgr::processMsg`, by the type that was read. -/
def processMsg (depth : Nat) (type : UInt32) : Agent Int :=
  match type with
  | 1 => pure 0
  | 2 => pure 0
  | 3 => processRoleChange depth
  | 4 => pure 0
  | _ => pure 0

end Apos.DrbdAgent

namespace Apos.Devmon

/-- A lost Primary role is always reported as a role change exactly if it is only ever lost
by a resource that was healthy on the tick before and is still connected.  The agent acts
on no other type of message. -/
theorem role_loss_reported_iff (statuses : List Status) :
    (ReportsRoleLoss statuses ↔ LosesRoleAlone statuses) ∧
      ∀ depth type, DrbdAgent.processMsg depth type ≠ pure 0 ↔
        type = MsgType.roleChange.code := by
  refine ⟨?_, fun depth type => ?_⟩
  · constructor
    · intro reported before last now after split was lost
      exact (roleChange_sent_iff before last lost).mp
        (reported before last now after split was lost)
    · intro alone before last now after split was lost
      exact (roleChange_sent_iff before last lost).mpr
        (alone before last now after split was lost)
  · have acts : DrbdAgent.processRoleChange depth ≠ pure 0 := nofun
    unfold DrbdAgent.processMsg
    split
    · simp [MsgType.code]
    · simp [MsgType.code]
    · simpa [MsgType.code] using acts
    · simp [MsgType.code]
    · next _ _ notRoleChange _ => simpa [MsgType.code] using notRoleChange

/-- A role that is lost together with the connection is reported as a connection error,
and a role that is lost after a faulty disk is not reported. -/
theorem role_loss_hidden :
    (let statuses : List Status := [⟨"Connected", "Primary", "UpToDate", "UpToDate"⟩,
      ⟨"WFConnection", "Secondary", "UpToDate", "DUnknown"⟩]
    (reports .new (statuses.map Status.tick)).map (·.map Msg.type) = [[], [.connError]] ∧
      ¬ReportsRoleLoss statuses) ∧
    (let statuses : List Status := [⟨"Connected", "Primary", "Diskless", "UpToDate"⟩,
      ⟨"Connected", "Secondary", "Diskless", "UpToDate"⟩]
    (reports .new (statuses.map Status.tick)).map (·.map Msg.type) = [[.diskFaulty], []] ∧
      ¬ReportsRoleLoss statuses) := by
  refine ⟨⟨by decide +kernel, fun reported => ?_⟩, ⟨by decide +kernel, fun reported => ?_⟩⟩
  · obtain ⟨msg, sent, type⟩ := reported [] _ _ [] rfl (by decide) (by decide)
    have types : ∀ msg ∈ sentAfter [⟨"Connected", "Primary", "UpToDate", "UpToDate"⟩]
        ⟨"WFConnection", "Secondary", "UpToDate", "DUnknown"⟩, msg.type ≠ .roleChange := by
      decide +kernel
    exact types msg sent type
  · obtain ⟨msg, sent, type⟩ := reported [] _ _ [] rfl (by decide) (by decide)
    have types : ∀ msg ∈ sentAfter [⟨"Connected", "Primary", "Diskless", "UpToDate"⟩]
        ⟨"Connected", "Secondary", "Diskless", "UpToDate"⟩, msg.type ≠ .roleChange := by
      decide +kernel
    exact types msg sent type

end Apos.Devmon
