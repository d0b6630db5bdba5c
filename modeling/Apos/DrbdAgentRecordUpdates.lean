import Apos.DrbdAgentAlphabets

/-!
# Concurrent updates of the persistent record

While a standby node starts, two threads update the persistent record without a
lock.  `HA_AGENT_STNBYAdm::svc` loads it, clears the reboot count and stores it;
the monitor that `svc` has started before loads it, sets the connection state and
stores it, once for every supervised status.  An update is lost when the other
thread stores the record between the load and the store of the update.
-/

namespace Apos.DrbdAgent

inductive Updater where
  | standby
  | monitor
  deriving DecidableEq, Repr

def superviseAll : List DrbdInfo → Agent Int
  | [] => pure 0
  | status :: rest => do
      let _ ← recordStatus status
      superviseAll rest

/-- The standby start-up and the supervisions as two threads on one world.  Loads
and stores of the record are single operations. -/
def updaters (statuses : List DrbdInfo) :
    ThreadSystem signature World Updater Int where
  body
    | .standby => do
        stbyClearRebootCount
        pure 0
    | .monitor => superviseAll statuses
  perform world _ _ op proposed :=
    .done (act world op proposed).1 (act world op proposed).2 none
  admits world _ _ := some world
  reboot world := world

abbrev UpdateEntry : Type := Entry signature Updater Int

abbrev UpdateConfig : Type := Config signature World Updater Int

/-- The connection state after some supervisions.  A status that waits for its
connection is not stored. -/
def lastCstate (cstate : String) : List DrbdInfo → String
  | [] => cstate
  | status :: rest =>
    lastCstate (if status.cstate ≠ "WFConnection" then status.cstate else cstate) rest

/-- Whether the other thread has stored the record since the last load of `tid`. -/
def noteStore (tid : Updater) (stored : Bool) : UpdateEntry → Bool
  | .did other ⟨.loadRecord, _⟩ => if other = tid then false else stored
  | .did other ⟨.storeRecord _, _⟩ => if other = tid then stored else true
  | _ => stored

def storedSinceLoad (tid : Updater) (log : List UpdateEntry) : Bool :=
  log.foldl (noteStore tid) false

/-- A thread stores the record only if the other one has not stored it since the
thread's own load, and the node is not rebooted. -/
def uninterrupted (config : UpdateConfig) : UpdateEntry → Bool
  | .did tid ⟨.storeRecord _, _⟩ => !storedSinceLoad tid config.log
  | .booted => false
  | _ => true

def AllFinished (config : UpdateConfig) : Prop :=
  ∀ tid : Updater, config.started tid = true ∧ config.threads tid = none

/-! ## The programs of the two threads -/

def standbyStoring (loaded : PersistantInfo) : Agent Int :=
  .call (.storeRecord { loaded with rebootCount := 0 }) fun _ => removeRCF >>= fun _ => pure 0

def monitorStoring (status : DrbdInfo) (rest : List DrbdInfo) (loaded : PersistantInfo) :
    Agent Int :=
  .call (.storeRecord { loaded with cstate := status.cstate }) fun _ => superviseAll rest

theorem updaters_standby (statuses : List DrbdInfo) :
    (updaters statuses).body .standby = .call .loadRecord fun loaded =>
      match loaded with
      | some info => standbyStoring info
      | none => .halt Halt.segmentationFault := by
  simp only [updaters, stbyClearRebootCount, getPersisInfo, writePersisInfo,
    Program.perform_bind, Program.bind_assoc, Program.call_bind]
  congr 1
  funext loaded
  cases loaded <;> rfl

theorem superviseAll_cons (status : DrbdInfo) (rest : List DrbdInfo) :
    superviseAll (status :: rest) = .call .loadRecord fun loaded =>
      match loaded with
      | some info =>
        if status.cstate ≠ "WFConnection" then monitorStoring status rest info
        else superviseAll rest
      | none => .halt Halt.segmentationFault := by
  rw [superviseAll, recordStatus, getPersisInfo]
  simp only [Program.perform_bind, Program.bind_assoc, Program.call_bind]
  congr 1
  funext loaded
  cases loaded with
  | none => rfl
  | some info =>
    by_cases waits : status.cstate = "WFConnection"
    · simp [waits]
    · simp [waits, writePersisInfo, monitorStoring, Program.perform_bind]

theorem removeRCF_returns : removeRCF.Returns := by
  refine Program.Returns.bind_ends (fun _ => ⟨_, rfl⟩) fun found => ?_
  cases found with
  | false => exact ⟨_, rfl⟩
  | true =>
    refine Program.Returns.bind_ends (fun _ => ⟨_, rfl⟩) fun unlinked => ?_
    exact Program.ends_ite.mpr ⟨fun _ => ⟨_, rfl⟩, fun _ => ⟨_, rfl⟩⟩

/-! ## What the threads know about the record -/

/-- The progress of the standby thread.  Until the monitor stores the record, its
copy has the connection state of the record. -/
inductive StandbyPhase (statuses : List DrbdInfo) (config : UpdateConfig)
    (record : PersistantInfo) : Prop where
  | unstarted (fresh : config.started .standby = false)
  | loading (started : config.started .standby = true)
      (thread : config.threads .standby = some ((updaters statuses).body .standby))
  | storing (loaded : PersistantInfo) (started : config.started .standby = true)
      (thread : config.threads .standby = some (standbyStoring loaded))
      (agrees : storedSinceLoad .standby config.log = false → loaded.cstate = record.cstate)
  | stored (started : config.started .standby = true)
      (quiet : ∀ program, config.threads .standby = some program →
        program.Uses (Only [.own]) ∧ program.Returns)
      (cleared : record.rebootCount = 0)

/-- The progress of the monitor with the statuses `rest` still to be recorded.  Until
the standby thread stores the record, its copy has the reboot count of the record. -/
inductive MonitorPhase (statuses : List DrbdInfo) (config : UpdateConfig)
    (record : PersistantInfo) : List DrbdInfo → Prop where
  | unstarted (fresh : config.started .monitor = false) :
      MonitorPhase statuses config record statuses
  | loading {rest : List DrbdInfo} (started : config.started .monitor = true)
      (thread : config.threads .monitor = some (superviseAll rest)) :
      MonitorPhase statuses config record rest
  | storing {status : DrbdInfo} {rest : List DrbdInfo} (loaded : PersistantInfo)
      (started : config.started .monitor = true)
      (thread : config.threads .monitor = some (monitorStoring status rest loaded))
      (stores : status.cstate ≠ "WFConnection")
      (agrees : storedSinceLoad .monitor config.log = false →
        loaded.rebootCount = record.rebootCount) :
      MonitorPhase statuses config record (status :: rest)
  | finished (started : config.started .monitor = true)
      (thread : config.threads .monitor = none) :
      MonitorPhase statuses config record []

def Consistent (statuses : List DrbdInfo) (old : PersistantInfo)
    (config : UpdateConfig) : Prop :=
  ∃ record handled rest, config.world.record = some record ∧
    statuses = handled ++ rest ∧ record.cstate = lastCstate old.cstate handled ∧
    StandbyPhase statuses config record ∧ MonitorPhase statuses config record rest

theorem lastCstate_snoc (cstate : String) (handled : List DrbdInfo) (status : DrbdInfo) :
    lastCstate cstate (handled ++ [status]) =
      if status.cstate ≠ "WFConnection" then status.cstate else lastCstate cstate handled := by
  induction handled generalizing cstate with
  | nil => rfl
  | cons first handled ih => exact ih _

theorem storedSinceLoad_snoc (tid : Updater) (log : List UpdateEntry) (entry : UpdateEntry) :
    storedSinceLoad tid (log ++ [entry]) = noteStore tid (storedSinceLoad tid log) entry := by
  simp [storedSinceLoad]

variable {statuses : List DrbdInfo} {config : UpdateConfig}

theorem StandbyPhase.frame {after : UpdateConfig} {record next : PersistantInfo}
    (phase : StandbyPhase statuses config record)
    (started : after.started .standby = config.started .standby)
    (thread : after.threads .standby = config.threads .standby)
    (agrees : storedSinceLoad .standby after.log = false →
      storedSinceLoad .standby config.log = false ∧ next.cstate = record.cstate)
    (cleared : record.rebootCount = 0 → next.rebootCount = 0) :
    StandbyPhase statuses after next := by
  cases phase with
  | unstarted fresh => exact .unstarted (started.trans fresh)
  | loading launched waits => exact .loading (started.trans launched) (thread.trans waits)
  | storing loaded launched waits same =>
    apply StandbyPhase.storing loaded (started.trans launched) (thread.trans waits)
    intro alone
    obtain ⟨before, kept⟩ := agrees alone
    rw [same before, kept]
  | stored launched quiet isCleared =>
    exact .stored (started.trans launched) (by rwa [thread]) (cleared isCleared)

theorem MonitorPhase.frame {rest : List DrbdInfo} {after : UpdateConfig}
    {record next : PersistantInfo} (phase : MonitorPhase statuses config record rest)
    (started : after.started .monitor = config.started .monitor)
    (thread : after.threads .monitor = config.threads .monitor)
    (agrees : storedSinceLoad .monitor after.log = false →
      storedSinceLoad .monitor config.log = false ∧
        next.rebootCount = record.rebootCount) : MonitorPhase statuses after next rest := by
  cases phase with
  | unstarted fresh => exact .unstarted (started.trans fresh)
  | loading launched waits => exact .loading (started.trans launched) (thread.trans waits)
  | storing loaded launched waits stores same =>
    apply MonitorPhase.storing loaded (started.trans launched) (thread.trans waits) stores
    intro alone
    obtain ⟨before, kept⟩ := agrees alone
    rw [same before, kept]
  | finished launched ended => exact .finished (started.trans launched) (thread.trans ended)

/-! ## Steps of the threads -/

def performed (config : UpdateConfig) (tid : Updater) (op : Op)
    (rest : op.Reply → Agent Int) (proposed : op.Reply) : UpdateConfig :=
  { config with
    world := (act config.world op proposed).2
    threads := Function.update config.threads tid
      (some (rest (act config.world op proposed).1))
    log := config.log ++ [.did tid ⟨op, (act config.world op proposed).1⟩] }

theorem performed_self (config : UpdateConfig) (tid : Updater) (op : Op)
    (rest : op.Reply → Agent Int) (proposed : op.Reply) :
    (performed config tid op rest proposed).threads tid =
      some (rest (act config.world op proposed).1) :=
  Function.update_self ..

theorem performed_other {tid other : Updater} (different : other ≠ tid) (op : Op)
    (rest : op.Reply → Agent Int) (proposed : op.Reply) :
    (performed config tid op rest proposed).threads other = config.threads other :=
  Function.update_of_ne different ..

variable {old : PersistantInfo}

theorem Consistent.standby_performs (consistent : Consistent statuses old config)
    (idle : config.started .standby = false → config.threads .standby = none) {op : Op}
    {rest : op.Reply → Agent Int} (proposed : op.Reply)
    (thread : config.threads .standby = some (.call op rest)) (permitted : uninterrupted config
      (.did .standby ⟨op, (act config.world op proposed).1⟩) = true) :
    Consistent statuses old (performed config .standby op rest proposed) := by
  obtain ⟨record, handled, pending, isRecord, split, cstate, standby, monitor⟩ := consistent
  have other : (performed config .standby op rest proposed).threads .monitor =
      config.threads .monitor := performed_other (by decide) op rest proposed
  have own := performed_self config .standby op rest proposed
  cases standby with
  | unstarted fresh => simp [idle fresh] at thread
  | loading started body =>
    rw [body, updaters_standby] at thread
    cases thread
    refine ⟨record, handled, pending, isRecord, split, cstate, ?_, ?_⟩
    · apply StandbyPhase.storing record
      · exact started
      · rw [own]
        simp [act, isRecord]
      · exact fun _ => rfl
    · apply monitor.frame
      · rfl
      · exact other
      · intro alone
        exact ⟨by simpa [performed, storedSinceLoad_snoc, noteStore] using alone, rfl⟩
  | storing loaded started body agrees =>
    rw [body] at thread
    cases thread
    have alone : storedSinceLoad .standby config.log = false := by
      simpa [uninterrupted] using permitted
    refine ⟨{ loaded with rebootCount := 0 }, handled, pending, ?_, split, ?_, ?_, ?_⟩
    · simp [performed, act, isRecord]
    · rw [← cstate]
      exact agrees alone
    · apply StandbyPhase.stored
      · exact started
      · intro program continues
        rw [own] at continues
        cases continues
        refine ⟨(removeRCF_uses (by decide)).bind fun _ => trivial, ?_⟩
        exact removeRCF_returns.bind_ends fun _ => ⟨_, rfl⟩
      · rfl
    · apply monitor.frame
      · rfl
      · exact other
      · intro alone
        simp [performed, storedSinceLoad_snoc, noteStore] at alone
  | stored started quiet cleared =>
    obtain ⟨uses, returns⟩ := quiet _ thread
    have notRecord : kind op ≠ .record := by
      have allowed : Only [.own] op := uses.1
      intro isRecordOp
      simp [Only, isRecordOp] at allowed
    refine ⟨record, handled, pending, ?_, split, cstate, ?_, ?_⟩
    · exact (act_record config.world proposed notRecord).trans isRecord
    · apply StandbyPhase.stored
      · exact started
      · intro program continues
        rw [own] at continues
        cases continues
        exact ⟨uses.2 _, returns _⟩
      · exact cleared
    · apply monitor.frame
      · rfl
      · exact other
      · intro alone
        refine ⟨?_, rfl⟩
        cases op with
        | loadRecord | storeRecord => exact (notRecord rfl).elim
        | _ => simpa [performed, storedSinceLoad_snoc, noteStore] using alone

theorem Consistent.monitor_performs (consistent : Consistent statuses old config)
    (idle : config.started .monitor = false → config.threads .monitor = none) {op : Op}
    {rest : op.Reply → Agent Int} (proposed : op.Reply)
    (thread : config.threads .monitor = some (.call op rest)) (permitted : uninterrupted config
      (.did .monitor ⟨op, (act config.world op proposed).1⟩) = true) :
    Consistent statuses old (performed config .monitor op rest proposed) := by
  obtain ⟨record, handled, pending, isRecord, split, cstate, standby, monitor⟩ := consistent
  have other : (performed config .monitor op rest proposed).threads .standby =
      config.threads .standby := performed_other (by decide) op rest proposed
  have own := performed_self config .monitor op rest proposed
  cases monitor with
  | unstarted fresh => simp [idle fresh] at thread
  | finished started ended => simp [ended] at thread
  | loading started body =>
    cases pending with
    | nil =>
      rw [body] at thread
      cases thread
    | cons status pending =>
      rw [body, superviseAll_cons] at thread
      cases thread
      have standbyKept : ∀ continued, StandbyPhase statuses
          (performed config .monitor .loadRecord continued proposed) record := by
        intro continued
        apply standby.frame
        · rfl
        · exact performed_other (by decide) .loadRecord continued proposed
        · intro alone
          exact ⟨by simpa [performed, storedSinceLoad_snoc, noteStore] using alone, rfl⟩
        · exact id
      have continues := own
      simp only [act, isRecord] at continues
      by_cases waits : status.cstate = "WFConnection"
      · refine ⟨record, handled ++ [status], pending, isRecord, by simp [split], ?_,
          standbyKept _, ?_⟩
        · rw [lastCstate_snoc, if_neg (not_not.mpr waits), cstate]
        · apply MonitorPhase.loading
          · exact started
          · simpa [waits] using continues
      · refine ⟨record, handled, status :: pending, isRecord, split, cstate,
          standbyKept _, ?_⟩
        apply MonitorPhase.storing record
        · exact started
        · simpa [waits] using continues
        · exact waits
        · exact fun _ => rfl
  | @storing status pending loaded started body stores agrees =>
    rw [body] at thread
    cases thread
    have alone : storedSinceLoad .monitor config.log = false := by
      simpa [uninterrupted] using permitted
    refine ⟨{ loaded with cstate := status.cstate }, handled ++ [status], pending, ?_,
      by simp [split], ?_, ?_, ?_⟩
    · simp [performed, act, isRecord]
    · rw [lastCstate_snoc, if_pos stores]
    · apply standby.frame
      · rfl
      · exact other
      · intro alone
        simp [performed, storedSinceLoad_snoc, noteStore] at alone
      · exact fun cleared => (agrees alone).trans cleared
    · exact .loading started own

/-! ## Whole runs -/

theorem Consistent.arrives (consistent : Consistent statuses old config) {tid : Updater}
    (fresh : config.started tid = false) :
    Consistent statuses old ((updaters statuses).launch
      { config with log := config.log ++ [.arrived tid] } (some tid)) := by
  obtain ⟨record, handled, pending, isRecord, split, cstate, standby, monitor⟩ := consistent
  refine ⟨record, handled, pending, by simpa using isRecord, split, cstate, ?_, ?_⟩
  · cases tid with
    | standby =>
      apply StandbyPhase.loading
      · simp [ThreadSystem.launch, fresh]
      · simp [ThreadSystem.launch, fresh]
    | monitor =>
      apply standby.frame
      · simp [ThreadSystem.launch, fresh]
      · simp [ThreadSystem.launch, fresh]
      · intro alone
        exact ⟨by simpa [storedSinceLoad_snoc, noteStore] using alone, rfl⟩
      · exact id
  · cases tid with
    | standby =>
      apply monitor.frame
      · simp [ThreadSystem.launch, fresh]
      · simp [ThreadSystem.launch, fresh]
      · intro alone
        exact ⟨by simpa [storedSinceLoad_snoc, noteStore] using alone, rfl⟩
    | monitor =>
      cases monitor with
      | unstarted _ =>
        apply MonitorPhase.loading
        · simp [ThreadSystem.launch, fresh]
        · simp [ThreadSystem.launch, fresh, updaters]
      | loading started _ | storing _ started _ _ _ | finished started _ => simp [fresh] at started

theorem Consistent.returns (consistent : Consistent statuses old config)
    (idle : ∀ tid, config.started tid = false → config.threads tid = none) {tid : Updater}
    {result : Int} (thread : config.threads tid = some (.pure result)) :
    Consistent statuses old
      { config with
        threads := Function.update config.threads tid none
        log := config.log ++ [.returned tid result] } := by
  obtain ⟨record, handled, pending, isRecord, split, cstate, standby, monitor⟩ := consistent
  refine ⟨record, handled, pending, isRecord, split, cstate, ?_, ?_⟩
  · cases tid with
    | standby =>
      cases standby with
      | unstarted fresh => simp [idle _ fresh] at thread
      | loading _ body => simp [body, updaters_standby] at thread
      | storing loaded _ body _ => simp [body, standbyStoring] at thread
      | stored started _ cleared => exact .stored started (by simp) cleared
    | monitor =>
      apply standby.frame
      · rfl
      · simp
      · intro alone
        exact ⟨by simpa [storedSinceLoad_snoc, noteStore] using alone, rfl⟩
      · exact id
  · cases tid with
    | standby =>
      apply monitor.frame
      · rfl
      · simp
      · intro alone
        exact ⟨by simpa [storedSinceLoad_snoc, noteStore] using alone, rfl⟩
    | monitor =>
      cases monitor with
      | unstarted fresh => simp [idle _ fresh] at thread
      | finished _ ended => simp [ended] at thread
      | storing _ _ body _ _ => simp [body, monitorStoring] at thread
      | loading started body =>
        cases pending with
        | nil => exact .finished started (by simp)
        | cons status pending => simp [body, superviseAll_cons] at thread

theorem Consistent.not_halted (consistent : Consistent statuses old config)
    (idle : ∀ tid, config.started tid = false → config.threads tid = none) (tid : Updater)
    (cause : Halt) : config.threads tid ≠ some (.halt cause) := by
  obtain ⟨record, handled, pending, isRecord, split, cstate, standby, monitor⟩ := consistent
  intro thread
  cases tid with
  | standby =>
    cases standby with
    | unstarted fresh => simp [idle _ fresh] at thread
    | loading _ body => simp [body, updaters_standby] at thread
    | storing loaded _ body _ => simp [body, standbyStoring] at thread
    | stored _ quiet _ =>
      obtain ⟨value, impossible⟩ := (quiet _ thread).2
      cases impossible
  | monitor =>
    cases monitor with
    | unstarted fresh => simp [idle _ fresh] at thread
    | finished _ ended => simp [ended] at thread
    | storing _ _ body _ _ => simp [body, monitorStoring] at thread
    | loading _ body =>
      cases pending with
      | nil => rw [body] at thread; cases thread
      | cons status pending => simp [body, superviseAll_cons] at thread

theorem reaches_consistent
    (reaches : (updaters statuses).Reaches (fun world => world.record = some old)
      (ThreadSystem.Passing uninterrupted) config) : Consistent statuses old config := by
  induction reaches with
  | @start world isOld =>
    exact ⟨old, [], statuses, isOld, rfl, rfl, .unstarted rfl, .unstarted rfl⟩
  | @move config after entry reached moves permitted consistent =>
    have idle : ∀ tid, config.started tid = false → config.threads tid = none :=
      fun tid fresh => ((reached.tracks tid).idle fresh).2
    cases moves with
    | boot => cases permitted
    | arrive tid world isUp fresh admitted =>
      cases admitted
      exact consistent.arrives fresh
    | finish tid result thread => exact consistent.returns idle thread
    | halt tid cause thread => exact (consistent.not_halted idle tid cause thread).elim
    | breaks tid op rest proposed thread performs => cases performs
    | act tid op rest proposed reply world spawned thread performs =>
      cases performs
      cases tid with
      | standby => exact consistent.standby_performs (idle _) proposed thread permitted
      | monitor => exact consistent.monitor_performs (idle _) proposed thread permitted

/-- If no thread stores the record between the load and the store of the other one, no
update is lost: after both threads have returned, the reboot count is cleared and the
connection state is that of the last supervision that stored one. -/
theorem uninterrupted_updates_survive (statuses : List DrbdInfo) (old : PersistantInfo)
    (config : UpdateConfig)
    (reaches : (updaters statuses).Reaches (fun world => world.record = some old)
      (ThreadSystem.Passing uninterrupted) config)
    (finished : AllFinished config) :
    config.world.record = some ⟨lastCstate old.cstate statuses, 0⟩ := by
  obtain ⟨record, handled, pending, isRecord, split, cstate, standby, monitor⟩ :=
    reaches_consistent reaches
  have isCleared : record.rebootCount = 0 := by
    obtain ⟨started, ended⟩ := finished .standby
    cases standby with
    | unstarted fresh => simp [started] at fresh
    | loading _ body | storing loaded _ body _ => simp [ended] at body
    | stored _ _ cleared => exact cleared
  have allHandled : pending = [] := by
    obtain ⟨started, ended⟩ := finished .monitor
    cases monitor with
    | unstarted fresh => simp [started] at fresh
    | loading _ body | storing _ _ body _ _ => simp [ended] at body
    | finished _ _ => rfl
  rw [isRecord, split, allHandled, List.append_nil, ← cstate, ← isCleared]

def updateSchedule (order : List Updater) : List (Event signature Updater) :=
  [.arrive .standby, .arrive .monitor] ++ order.map fun tid => .step tid favourable

def notBooted (_ : UpdateConfig) : UpdateEntry → Bool
  | .booted => false
  | _ => true

def syncTarget : DrbdInfo :=
  ⟨true, "SyncTarget", "Secondary", "Inconsistent"⟩

/-- The threads of a node that was rebooted twice while it was connected and now finds
itself a synchronisation target. -/
def sampleUpdates (check : UpdateConfig → UpdateEntry → Bool) (order : List Updater) :
    UpdateConfig :=
  (updaters [syncTarget]).execute check
    (ThreadSystem.initial (freshWorld false (some ⟨"Connected", 2⟩))) (updateSchedule order)

theorem sampleUpdates_reached (check : UpdateConfig → UpdateEntry → Bool)
    (order : List Updater) :
    (updaters [syncTarget]).Reaches (fun world => world.record = some ⟨"Connected", 2⟩)
      (ThreadSystem.Passing check) (sampleUpdates check order) := by
  apply ThreadSystem.reaches_execute
  exact .start rfl

/-- One update after the other keeps both. -/
theorem serial_updates_survive :
    let config := sampleUpdates uninterrupted
      [.standby, .standby, .monitor, .monitor, .standby, .standby, .monitor]
    AllFinished config ∧ config.world.record = some ⟨"SyncTarget", 0⟩ := by
  have finished : AllFinished (sampleUpdates uninterrupted
      [.standby, .standby, .monitor, .monitor, .standby, .standby, .monitor]) := by
    intro tid
    cases tid <;> exact ⟨rfl, rfl⟩
  exact ⟨finished,
    uninterrupted_updates_survive _ _ _ (sampleUpdates_reached _ _) finished⟩

/-- A supervision that has loaded the record before the standby thread stores it brings
the old reboot count back; a standby thread that has loaded the record before the
supervision stores it brings the old connection state back. -/
theorem interleaved_updates_lost :
    (∃ config, (updaters [syncTarget]).Reaches
        (fun world => world.record = some ⟨"Connected", 2⟩)
        (ThreadSystem.Passing notBooted) config ∧ AllFinished config ∧
      config.world.record = some ⟨"SyncTarget", 2⟩) ∧
    (∃ config, (updaters [syncTarget]).Reaches
        (fun world => world.record = some ⟨"Connected", 2⟩)
        (ThreadSystem.Passing notBooted) config ∧ AllFinished config ∧
      config.world.record = some ⟨"Connected", 0⟩) := by
  refine ⟨⟨_, sampleUpdates_reached notBooted
      [.monitor, .standby, .standby, .monitor, .standby, .standby, .monitor], ?_, rfl⟩,
    ⟨_, sampleUpdates_reached notBooted
      [.standby, .monitor, .monitor, .standby, .standby, .standby, .monitor], ?_, rfl⟩⟩
  · intro tid
    cases tid <;> exact ⟨rfl, rfl⟩
  · intro tid
    cases tid <;> exact ⟨rfl, rfl⟩

end Apos.DrbdAgent
