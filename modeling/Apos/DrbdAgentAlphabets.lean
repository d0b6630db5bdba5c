import Apos.DrbdAgentSystem

/-!
# Alphabets of the agent's functions

Each operation belongs to one kind.  A function of the agent uses only a few
kinds; the lemmas of this file say which, so that a law about one kind never has
to look into a function that does not use it.
-/

namespace Apos.DrbdAgent

open Program (uses_ite Uses uses_perform)

/-- Kinds of operations.  `own` collects what only concerns the node itself. -/
inductive OpKind where
  | own
  | status
  | record
  | probe
  | peer
  | oldState
  | lockCheck
  | lock
  | jobs
  | restart
  | done
  | spawn
  | thread
  | role
  deriving DecidableEq, Repr

def kind : Op → OpKind
  | .read _ => .own
  | .write .tasksDone true => .done
  | .write .compRestart true => .restart
  | .write .compRestart false => .role
  | .write _ _ => .own
  | .getOldhaState => .oldState
  | .accessLock => .lockCheck
  | .openLock | .unlinkLock => .lock
  | .loadRecord | .storeRecord _ => .record
  | .ask (.popen _) => .status
  | .ask (.ping _) | .ask (.arping _) => .probe
  | .ask .peerNodeLockd => .peer
  | .ask _ => .own
  | .note .startJobs | .note (.startJobsReturned _) => .jobs
  | .note .compRestart => .restart
  | .note .nodefailOver => .own
  | .note .stbyStart | .setOldhaState _ | .object _ => .role
  | .task (.activate _) => .spawn
  | .task _ => .thread

theorem act_record (world : World) {op : Op} (reply : op.Reply)
    (other : kind op ≠ .record) : (act world op reply).2.record = world.record := by
  unfold act
  split <;> first | rfl | (exact (other rfl).elim) | (split <;> rfl)

theorem kind_eq_role {op : Op} (isRole : kind op = .role) :
    (∃ objectOp, op = .object objectOp) ∨ (∃ state, op = .setOldhaState state) ∨
      op = .note .stbyStart ∨ op = .write .compRestart false := by
  unfold kind at isRole
  split at isRole <;> simp_all

theorem kind_eq_lock {op : Op} (isLock : kind op = .lock) :
    op = .openLock ∨ op = .unlinkLock := by
  unfold kind at isLock
  split at isLock <;> simp_all

def Only (kinds : List OpKind) (op : Op) : Prop :=
  kind op ∈ kinds

variable {kinds : List OpKind}

theorem ask_uses {question : Ask} (member : kind (.ask question) ∈ kinds) :
    (ask question).Uses (Only kinds) :=
  uses_perform member

theorem read_uses (own : .own ∈ kinds) (flag : Flag) : (read flag).Uses (Only kinds) :=
  uses_perform own

theorem write_uses {flag : Flag} {value : Bool}
    (member : kind (.write flag value) ∈ kinds) :
    (write flag value).Uses (Only kinds) :=
  uses_perform member

theorem note_uses {mark : Note} (member : kind (.note mark) ∈ kinds) :
    (note mark).Uses (Only kinds) :=
  uses_perform member

theorem task_uses {op : TaskOp} (member : kind (.task op) ∈ kinds) :
    (task op).Uses (Only kinds) :=
  uses_perform member

/-! ## Queries, records and commands -/

variable (own : .own ∈ kinds) (status : .status ∈ kinds) (record : .record ∈ kinds)
  (thread : .thread ∈ kinds) (restart : .restart ∈ kinds)

section Queries

include status

theorem runCommand_uses (query : Query) : (runCommand query).Uses (Only kinds) := by
  refine (ask_uses status).bind fun lines => ?_
  cases lines with
  | none | some => trivial

theorem getDiskState_uses (resource : String) (isLocal : Bool) :
    (getDiskState resource isLocal).Uses (Only kinds) :=
  uses_ite (runCommand_uses status _) trivial

theorem getDrbdRole_uses (resource : String) (isLocal : Bool) :
    (getDrbdRole resource isLocal).Uses (Only kinds) := by
  refine uses_ite (uses_ite (runCommand_uses status _) ?_) trivial
  refine (runCommand_uses status _).bind fun peerName => ?_
  exact uses_ite (runCommand_uses status _) trivial

theorem connectedState_uses (resource : String) : (connectedState resource).Uses (Only kinds) := by
  refine (runCommand_uses status _).bind fun replication => ?_
  refine uses_ite (uses_ite ?_ trivial) trivial
  refine (runCommand_uses status _).bind fun connection => ?_
  exact uses_ite trivial trivial

theorem queryInfo_uses (isLocal : Bool) : (queryInfo isLocal).Uses (Only kinds) := by
  refine Program.Uses.bind ?_ fun cstate => ?_
  · exact uses_ite ((connectedState_uses status _).bind fun _ => trivial) trivial
  refine (getDrbdRole_uses status _ _).bind fun role => ?_
  exact (getDiskState_uses status _ _).bind fun dstate => trivial

end Queries

section Records

include record

theorem getPersisInfo_uses : getPersisInfo.Uses (Only kinds) := by
  refine (uses_perform record).bind fun loaded => ?_
  cases loaded with
  | none | some => trivial

theorem writePersisInfo_uses (info : PersistantInfo) : (writePersisInfo info).Uses (Only kinds) :=
  (uses_perform record).bind fun _ => trivial

theorem clearRebootCount_uses (info : PersistantInfo) : (clearRebootCount info).Uses (Only kinds) :=
  uses_ite ((writePersisInfo_uses record _).bind fun _ => trivial) trivial

end Records

theorem lFileExist_uses (lockCheck : .lockCheck ∈ kinds) : lFileExist.Uses (Only kinds) :=
  uses_perform lockCheck

theorem probeMips_uses (probe : .probe ∈ kinds) (isVirtual : Bool) (mips : List Mip) :
    (probeMips isVirtual mips).Uses (Only kinds) := by
  induction mips with
  | nil => trivial
  | cons mip rest ih =>
    refine uses_ite ih (Program.Uses.bind ?_ fun _ =>
      uses_ite trivial ih)
    exact uses_ite (ask_uses probe) (ask_uses probe)

include thread in
theorem closeMon_uses (monObj : MonObj) : (closeMon monObj).Uses (Only kinds) := by
  cases monObj with
  | absent | unopened => trivial
  | opened => exact (task_uses thread).bind fun _ => task_uses thread

include own

theorem execlp_uses (command : Command) : (execlp command).Uses (Only kinds) := by
  refine (ask_uses own).bind fun status => ?_
  cases status with
  | none => trivial
  | some status => exact uses_ite trivial trivial

theorem msecSleep_uses (msecs : UInt32) : (msecSleep msecs).Uses (Only kinds) :=
  ask_uses own

theorem createRCF_uses : createRCF.Uses (Only kinds) := by
  refine (ask_uses own).bind fun found => uses_ite trivial ?_
  exact (ask_uses own).bind fun created => uses_ite trivial trivial

theorem removeRCF_uses : removeRCF.Uses (Only kinds) := by
  refine (ask_uses own).bind fun found => uses_ite ?_ trivial
  exact (ask_uses own).bind fun removed => uses_ite trivial trivial

theorem drbdStartJobs_uses : drbdStartJobs.Uses (Only kinds) := by
  refine Program.Uses.bind ?_ fun assembled => uses_ite trivial ?_
  · exact (execlp_uses own _).bind fun _ =>
      uses_ite ((removeRCF_uses own).bind fun _ => trivial) trivial
  refine (execlp_uses own _).bind fun configured => uses_ite trivial ?_
  exact (execlp_uses own _).bind fun launched => uses_ite trivial trivial

theorem drbdStopJobs_uses : drbdStopJobs.Uses (Only kinds) := by
  refine (execlp_uses own _).bind fun stopped => uses_ite trivial ?_
  refine (execlp_uses own _).bind fun removed => uses_ite trivial ?_
  refine Program.Uses.bind ?_ fun disabled => uses_ite trivial trivial
  exact (execlp_uses own _).bind fun _ => execlp_uses own _

include status in
theorem retryDiskState_uses (resource : String) (remaining : Nat) (state : String) :
    (retryDiskState resource remaining state).Uses (Only kinds) := by
  induction remaining generalizing state with
  | zero => trivial
  | succ remaining ih =>
    refine uses_ite trivial ?_
    refine (msecSleep_uses own _).bind fun _ => ?_
    exact (getDiskState_uses status _ _).bind fun fetched => ih fetched.2

include status in
theorem drbdHealth_uses (onStart : Bool) : (drbdHealth onStart).Uses (Only kinds) := by
  refine (getDiskState_uses status _ _).bind fun state => ?_
  refine (getDrbdRole_uses status _ _).bind fun role => ?_
  refine (retryDiskState_uses own status _ _ _).bind fun final => ?_
  exact uses_ite trivial
    (uses_ite trivial (uses_ite trivial trivial))

/-! ## Error reports -/

theorem reboot_uses : reboot.Uses (Only kinds) := by
  refine (ask_uses own).bind fun status => uses_ite trivial ?_
  refine (ask_uses own).bind fun config => ?_
  exact (msecSleep_uses own _).bind fun _ => trivial

theorem reportFailover_uses : reportFailover.Uses (Only kinds) := by
  refine (ask_uses own).bind fun reported => uses_ite ?_ trivial
  exact (ask_uses own).bind fun config => msecSleep_uses own _

theorem failOrExit_uses {α : Type} {report : Agent Unit} (reports : report.Uses (Only kinds)) :
    (failOrExit report : Agent α).Uses (Only kinds) := by
  refine (read_uses own _).bind fun haMode => ?_
  exact Program.Uses.bind (uses_ite reports trivial) fun _ => trivial

theorem shutDownAllWith_uses {failover : Agent Unit} (fails : failover.Uses (Only kinds)) :
    (shutDownAllWith failover).Uses (Only kinds) := by
  refine (read_uses own _).bind fun started => ?_
  refine Program.Uses.bind (uses_ite ?_ trivial) fun _ => ?_
  · refine Program.Uses.bind ?_ fun rCode =>
      uses_ite (failOrExit_uses own fails) trivial
    exact (drbdStopJobs_uses own).bind fun _ => uses_ite trivial trivial
  · exact (write_uses own).bind fun _ => write_uses own

theorem nodefailOver_uses (depth : Nat) : (nodefailOver depth).Uses (Only kinds) := by
  induction depth with
  | zero => trivial
  | succ depth ih =>
    refine (note_uses own).bind fun _ => ?_
    refine (read_uses own _).bind fun rMgrObj => ?_
    refine Program.Uses.bind (uses_ite (shutDownAllWith_uses own ih) trivial)
      fun _ => ?_
    refine (read_uses own _).bind fun haObj => ?_
    exact Program.Uses.bind (uses_ite (reportFailover_uses own) trivial)
      fun _ => reboot_uses own

theorem shutDownAll_uses (depth : Nat) : (shutDownAll depth).Uses (Only kinds) :=
  shutDownAllWith_uses own (nodefailOver_uses own depth)

include restart in
theorem compRestart_uses (depth : Nat) : (compRestart depth).Uses (Only kinds) := by
  refine (note_uses restart).bind fun _ => ?_
  refine (read_uses own _).bind fun rMgrObj => ?_
  exact Program.Uses.bind (uses_ite (shutDownAll_uses own depth) trivial)
    fun _ => write_uses restart

/-! ## Role manager and monitor -/

theorem pOpen_uses : pOpen.Uses (Only kinds) := by
  refine (ask_uses own).bind fun fifo => uses_ite trivial ?_
  exact (ask_uses own).bind fun opened => uses_ite trivial trivial

theorem initRoleMgr_uses : initRoleMgr.Uses (Only kinds) := by
  refine (pOpen_uses own).bind fun opened => uses_ite trivial ?_
  refine (ask_uses own).bind fun runner => uses_ite trivial ?_
  refine (ask_uses own).bind fun running => uses_ite trivial ?_
  refine (ask_uses own).bind fun registered => uses_ite trivial ?_
  refine (write_uses own).bind fun _ => ?_
  refine (ask_uses own).bind fun drbdMgr => uses_ite trivial ?_
  refine (ask_uses own).bind fun immOm => uses_ite trivial ?_
  refine (ask_uses own).bind fun isVirtual => ?_
  refine (ask_uses own).bind fun prober => uses_ite trivial ?_
  refine (ask_uses own).bind fun ndisc => uses_ite trivial ?_
  exact (ask_uses own).bind fun lFile => trivial

include record in
theorem refuseInconsistent_uses (depth : Nat) (info : PersistantInfo) :
    (refuseInconsistent depth info).Uses (Only kinds) := by
  refine (ask_uses own).bind fun config => ?_
  refine Program.Uses.bind (uses_ite ?_ ?_) fun _ => ?_
  · exact (ask_uses own).bind fun _ => trivial
  · exact (createRCF_uses own).bind fun _ => trivial
  · exact (writePersisInfo_uses record _).bind fun _ =>
      failOrExit_uses own (nodefailOver_uses own depth)

include status record in
theorem checkLiveHealth_uses (info : PersistantInfo) :
    (checkLiveHealth info).Uses (Only kinds) := by
  refine (clearRebootCount_uses record info).bind fun _ => ?_
  refine (drbdHealth_uses own status _).bind fun health => ?_
  exact (removeRCF_uses own).bind fun _ => uses_ite trivial trivial

include status record in
theorem healthCheck_uses (depth : Nat) : (healthCheck depth).Uses (Only kinds) :=
  (getPersisInfo_uses record).bind fun persis => uses_ite
    (uses_ite (refuseInconsistent_uses own record depth persis.2)
      (checkLiveHealth_uses own status record persis.2))
    trivial

theorem mustProbe_uses (peer : .peer ∈ kinds) (oldState : .oldState ∈ kinds)
    (lockCheck : .lockCheck ∈ kinds) : mustProbe.Uses (Only kinds) := by
  refine (ask_uses peer).bind fun locked => uses_ite trivial ?_
  refine (read_uses own _).bind fun haMode => uses_ite ?_ trivial
  exact (uses_perform oldState).bind fun old =>
    uses_ite (lFileExist_uses lockCheck) trivial

theorem isSplitBrainDetected_uses (peer : .peer ∈ kinds) (oldState : .oldState ∈ kinds)
    (lockCheck : .lockCheck ∈ kinds) (probe : .probe ∈ kinds) (isVirtual : Bool) :
    (isSplitBrainDetected isVirtual).Uses (Only kinds) := by
  refine (mustProbe_uses own peer oldState lockCheck).bind fun must =>
    uses_ite ?_ trivial
  exact (ask_uses own).bind fun config => probeMips_uses probe isVirtual config.mipInfo

theorem openMon_uses (spawn : .spawn ∈ kinds) : openMon.Uses (Only kinds) := by
  refine (ask_uses own).bind fun made => uses_ite trivial ?_
  exact (task_uses spawn).bind fun _ => uses_ite trivial trivial

include status in
theorem processRoleChange_uses (depth : Nat) : (processRoleChange depth).Uses (Only kinds) :=
  (drbdHealth_uses own status _).bind fun _ =>
    uses_ite (failOrExit_uses own (nodefailOver_uses own depth)) trivial

theorem reconnectAttempts_uses (remaining : Nat) :
    (reconnectAttempts remaining).Uses (Only kinds) := by
  induction remaining with
  | zero => trivial
  | succ remaining ih =>
    refine (execlp_uses own _).bind fun _ => uses_ite trivial ?_
    exact (msecSleep_uses own _).bind fun _ => ih

theorem getHAState_uses : getHAState.Uses (Only kinds) :=
  (read_uses own _).bind fun _ => uses_ite (ask_uses own) trivial

include record in
theorem superviseStatus_uses (depth : Nat) (info peer : DrbdInfo) :
    (superviseStatus depth info peer).Uses (Only kinds) := by
  have failover := nodefailOver_uses own depth
  refine uses_ite (failOrExit_uses own failover) ?_
  refine (getHAState_uses own).bind fun first => uses_ite ?_ ?_
  · exact (msecSleep_uses own _).bind fun _ => failOrExit_uses own failover
  refine (getHAState_uses own).bind fun second => uses_ite ?_ ?_
  · refine (reconnectAttempts_uses own _).bind fun counter =>
      uses_ite ?_ trivial
    refine (read_uses own _).bind fun haMode => uses_ite ?_ trivial
    exact failover.bind fun _ => trivial
  · refine (getPersisInfo_uses record).bind fun persis =>
      uses_ite trivial (uses_ite ?_ trivial)
    exact (writePersisInfo_uses record _).bind fun _ => trivial

include status record in
theorem superviseDRBD_uses (depth : Nat) : (superviseDRBD depth).Uses (Only kinds) := by
  refine (queryInfo_uses status _).bind fun info => ?_
  refine uses_ite (superviseStatus_uses own record depth _ _) ?_
  refine (queryInfo_uses status _).bind fun peer => ?_
  exact uses_ite (superviseStatus_uses own record depth _ _) trivial

include status record thread in
theorem monLoop_uses (depth ticks : Nat) : (monLoop depth ticks).Uses (Only kinds) := by
  induction ticks with
  | zero => exact (task_uses thread).bind fun _ => trivial
  | succ ticks ih =>
    refine (task_uses thread).bind fun message => uses_ite ?_ trivial
    refine (ask_uses own).bind fun rebuilding => uses_ite ih ?_
    exact (superviseDRBD_uses own status record depth).bind fun _ => ih

theorem monInit_uses : monInit.Uses (Only kinds) := by
  refine (ask_uses own).bind fun reactor => uses_ite trivial ?_
  refine (ask_uses own).bind fun runner => uses_ite trivial ?_
  refine (ask_uses own).bind fun running => uses_ite trivial ?_
  exact (ask_uses own).bind fun scheduled => uses_ite trivial trivial

include status record thread restart in
theorem monThread_uses (depth ticks : Nat) : (monThread depth ticks).Uses (Only kinds) :=
  (monInit_uses own).bind fun _ => uses_ite
    (failOrExit_uses own (compRestart_uses own restart depth))
    (monLoop_uses own status record thread depth ticks)

/-! ## Role objects -/

theorem roleMgr_uses : roleMgr.Uses (Only kinds) := by
  refine (read_uses own _).bind fun present => uses_ite trivial ?_
  refine (ask_uses own).bind fun made => uses_ite ?_ trivial
  exact (write_uses own).bind fun _ => (write_uses own).bind fun _ => write_uses own

include thread in
theorem roleMgrClose_uses : roleMgrClose.Uses (Only kinds) := by
  refine (read_uses own _).bind fun registered => ?_
  refine Program.Uses.bind (uses_ite ?_ trivial) fun _ => ?_
  · exact (ask_uses own).bind fun _ => uses_ite trivial (write_uses own)
  · exact (task_uses thread).bind fun _ => trivial

include thread in
theorem actvShutDownAll_uses : actvShutDownAll.Uses (Only kinds) := by
  refine (ask_uses own).bind fun _ => (ask_uses own).bind fun _ => ?_
  refine (write_uses own).bind fun _ => (roleMgr_uses own).bind fun _ => ?_
  refine (roleMgrClose_uses own thread).bind fun _ => ?_
  exact (roleMgr_uses own).bind fun _ => task_uses thread

include record in
theorem stbyClearRebootCount_uses : stbyClearRebootCount.Uses (Only kinds) := by
  refine (getPersisInfo_uses record).bind fun persis => ?_
  refine (writePersisInfo_uses record _).bind fun _ => ?_
  exact (removeRCF_uses own).bind fun _ => trivial

end Apos.DrbdAgent
