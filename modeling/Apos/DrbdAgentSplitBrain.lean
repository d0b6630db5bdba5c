import Apos.DrbdAgentInvariants
import Mathlib.Data.List.Induction

/-!
# Split brain

A node may only become active when no other node is.  The agent decides this in
`splitBrainAlgo`, remembers an answering address in a lock file, and reads the old
HA state that the callbacks maintain.  This file follows the decision and its two
memories through all interleavings and reboots.
-/

namespace Apos.DrbdAgent

variable {depth ticks : Nat} {allowed : AgentConfiguration → AgentEntry → Prop}
variable {config : AgentConfiguration}

/-! ## The lock file -/

def filesWork (config : AgentConfiguration) : AgentEntry → Bool
  | .did _ ⟨.openLock, fd⟩ => decide (0 ≤ fd)
  | .did _ ⟨.unlinkLock, status⟩ => decide (0 ≤ status)
  | .did _ ⟨.accessLock, found⟩ => found == config.world.lockFile
  | _ => true

/-- How a log entry changes whether a lock file is pending for a role manager. -/
def lockEntry (number : Nat) (pending : Bool) : AgentEntry → Bool
  | .did _ ⟨.openLock, _⟩ => true
  | .did tid ⟨.unlinkLock, _⟩ => pending && decide (tid = .roleMgr number)
  | _ => pending

/-- A lock file was created, and no thread but this role manager has removed it
since. -/
def lockPending (number : Nat) (log : List AgentEntry) : Bool :=
  log.foldl (lockEntry number) false

variable (number : Nat)

theorem lockPending_snoc (log : List AgentEntry) (entry : AgentEntry) :
    lockPending number (log ++ [entry]) = lockEntry number (lockPending number log) entry := by
  simp [lockPending]

theorem lockPending_snoc_of_silent (log : List AgentEntry) {entry : AgentEntry}
    (silent : ∀ tid exchange, entry ≠ .did tid exchange) :
    lockPending number (log ++ [entry]) = lockPending number log := by
  rw [lockPending_snoc]
  cases entry with
  | did tid exchange => exact (silent tid exchange rfl).elim
  | _ => rfl

variable {tid : Tid}

theorem perform_lockFile {world after : World} {alive : Tid → Bool} {op : Op}
    {proposed reply : op.Reply} {spawned : Option Tid}
    (performs : perform world alive tid op proposed = .done reply after spawned)
    (notLock : kind op ≠ .lock) : after.lockFile = world.lockFile := by
  cases op with
  | openLock | unlinkLock => exact (notLock rfl).elim
  | object objectOp =>
    obtain ⟨step, _⟩ := perform_object performs
    cases step <;> rfl
  | task taskOp => rw [(perform_task performs).1]
  | _ =>
    cases performs
    rfl

theorem perform_unlinks {world after : World} {alive : Tid → Bool} {op : Op}
    {proposed reply : op.Reply} {spawned : Option Tid}
    (performs : perform world alive tid op proposed = .done reply after spawned)
    (present : world.lockFile = true) (absent : after.lockFile = false) : op = .unlinkLock := by
  by_cases isLock : kind op = .lock
  · rcases kind_eq_lock isLock with rfl | rfl
    · cases performs
      simp only [act] at absent
      split at absent
      · cases absent
      · cases present.symm.trans absent
    · rfl
  · rw [perform_lockFile performs isLock] at absent
    cases present.symm.trans absent

variable {exchange : Exchange signature}

theorem lockEntry_of_notLock (pending : Bool) (tid : Tid) (notLock : kind exchange.1 ≠ .lock) :
    lockEntry number pending (.did tid exchange) = pending := by
  unfold lockEntry
  split <;> first | rfl | simp_all [kind]

theorem lockEntry_false (tid : Tid) (notOpen : exchange.1 ≠ .openLock) :
    lockEntry number false (.did tid exchange) = false := by
  unfold lockEntry
  split <;> first | rfl | simp_all

theorem openLock_issuer {history : History} (law : agentLaw tid history .openLock) :
    ∃ number, tid = .roleMgr number ∧ ¬Exempt history := by
  obtain ⟨number, rfl⟩ | ⟨number, callback, rfl⟩ := agentLaw_issuer law (.inr rfl)
  · exact ⟨number, rfl, law⟩
  · exact law.elim

/-- Only a role manager past a check without an answer or a callback to the standby role
removes the lock file. -/
theorem unlinkLock_issuer {history : History} (law : agentLaw tid history .unlinkLock) :
    (∃ number, tid = .roleMgr number ∧ NoAnswer history ∧ Guarded history) ∨
      ∃ number callback, tid = .call number callback ∧ callback.isToPassive = true ∧
        (callView history).started = true := by
  obtain ⟨number, rfl⟩ | ⟨number, callback, rfl⟩ := agentLaw_issuer law (.inr rfl)
  · exact .inl ⟨number, rfl, law⟩
  · exact .inr ⟨number, callback, rfl, law⟩

theorem Exempt.of_snoc {history : History} (exempt : Exempt (history ++ [exchange])) :
    Exempt history ∨ exchange = ⟨.accessLock, false⟩ ∧
      ∃ front, history = front ++ [⟨.getOldhaState, HaState.undefined⟩] := by
  rcases List.infix_concat_iff.mp exempt with isSuffix | isInfix
  · obtain ⟨front, split⟩ := isSuffix
    have regrouped : (front ++ [⟨.getOldhaState, HaState.undefined⟩]) ++
        [(⟨.accessLock, false⟩ : Exchange signature)] = history ++ [exchange] := by
      simpa using split
    obtain ⟨historyEq, same⟩ := List.append_inj' regrouped rfl
    exact .inr ⟨(List.cons.inj same).1.symm, front, historyEq.symm⟩
  · exact .inl isInfix

structure LockMemory (number : Nat) (config : AgentConfiguration) : Prop where
  remembered : lockPending number config.log = true → config.world.lockFile = true ∨
    ∃ status, ⟨.unlinkLock, status⟩ ∈ history (.roleMgr number) config.log
  exempt : config.Alive (.roleMgr number) → Exempt (history (.roleMgr number) config.log) →
    lockPending number config.log = false

section Step

variable {tid : Tid} {op : Op} {reply : op.Reply} {spawned : Option Tid}
  {after : AgentConfiguration} {number : Nat}

theorem LockMemory.remembered_act (memory : LockMemory number config)
    (performed : Performed depth ticks (ThreadSystem.Passing filesWork) config after tid op
      reply spawned) (pending : lockPending number after.log = true) :
    after.world.lockFile = true ∨
      ∃ status, ⟨.unlinkLock, status⟩ ∈ history (.roleMgr number) after.log := by
  obtain ⟨proposed, performs⟩ := performed.performs
  have files := performed.permitted
  rw [performed.log_eq, lockPending_snoc] at pending
  by_cases isLock : kind op = .lock
  · rcases kind_eq_lock isLock with rfl | rfl
    · obtain ⟨rfl, worldEq, _⟩ := perform_act performs (by simp) (by simp)
      have opened : (0 : Int) ≤ reply := of_decide_eq_true files
      left
      rw [worldEq]
      simp [act, opened]
    · simp only [lockEntry, Bool.and_eq_true, decide_eq_true_eq] at pending
      obtain ⟨_, rfl⟩ := pending
      rw [performed.history_self]
      exact .inr ⟨reply, List.mem_concat_self⟩
  · rw [lockEntry_of_notLock number _ tid isLock] at pending
    rcases memory.remembered pending with present | ⟨status, member⟩
    · exact .inl ((perform_lockFile performs isLock).trans present)
    · rw [performed.log_eq]
      exact .inr ⟨status, by simp [member]⟩

theorem LockMemory.exempt_act (memory : LockMemory number config)
    (performed : Performed depth ticks (ThreadSystem.Passing filesWork) config after tid op
      reply spawned) (alive : after.Alive (.roleMgr number))
    (exempt : Exempt (history (.roleMgr number) after.log)) :
    lockPending number after.log = false := by
  have law := performed.law
  rw [performed.log_eq, lockPending_snoc]
  rcases performed.was_alive alive with before | unused
  · by_cases same : tid = .roleMgr number
    · subst same
      rw [performed.history_self] at exempt
      rcases exempt.of_snoc with earlier | ⟨isTest, front, historyEq⟩
      · rw [memory.exempt before earlier]
        refine lockEntry_false number _ ?_
        rintro rfl
        exact law earlier
      · obtain rfl : op = .accessLock := congrArg Sigma.fst isTest
        obtain rfl : reply = false := by simpa using isTest
        rw [lockEntry_of_notLock number _ _ (by decide)]
        by_contra pending
        rcases memory.remembered (by simpa using pending) with present | ⟨status, member⟩
        · simpa [ThreadSystem.Passing, filesWork, present] using performed.permitted
        · have asked : Within [.own, .status, .record, .peer] front :=
            (system_lawful depth ticks).recorded performed.reached historyEq
          rw [historyEq] at member
          rcases List.mem_append.mp member with early | last
          · exact asked.not_mem (by simp [kind]) early
          · simp at last
    · rw [performed.history_of_ne same] at exempt
      rw [memory.exempt before exempt]
      refine lockEntry_false number _ ?_
      rintro rfl
      obtain ⟨other, rfl, _⟩ := openLock_issuer law
      have held := performed.wellformed.belongs _ _ _ before rfl
      rw [performed.wellformed.belongs _ _ _ performed.living rfl] at held
      exact same (by rw [Option.some.inj held])
  · simp [unused, Exempt] at exempt

end Step

theorem lockMemory_of_reaches
    (reaches : (system depth ticks).Reaches Fresh (ThreadSystem.Passing filesWork) config)
    (number : Nat) : LockMemory number config := by
  refine agent_invariant ?start ?boot ?quiet ?act reaches
  case start => exact fun _ _ => ⟨by rintro ⟨⟩, by rintro ⟨⟩⟩
  case boot =>
    intro config after memory worldEq dead sameHistory logEq
    refine ⟨?_, fun alive => (dead _ alive).elim⟩
    rw [worldEq, sameHistory, logEq, lockPending_snoc_of_silent number _ (by simp)]
    exact memory.remembered
  case quiet =>
    intro config after entry memory quiet
    have samePending : lockPending number after.log = lockPending number config.log := by
      rw [quiet.log_eq, lockPending_snoc_of_silent number _ quiet.silent]
    constructor
    · rw [samePending, quiet.history_eq, quiet.world_eq]
      exact memory.remembered
    · intro alive
      rw [samePending, quiet.history_eq]
      exact memory.exempt (quiet.alive_of_object rfl alive)
  case act =>
    intro config after tid op reply spawned memory performed
    exact ⟨memory.remembered_act performed, memory.exempt_act performed⟩

theorem stbyStart_of_started {history : History}
    (started : (callView history).started = true) : ⟨.note .stbyStart, ()⟩ ∈ history := by
  induction history using List.reverseRecOn with
  | nil => cases started
  | append_singleton front last ih =>
    rw [callView_snoc] at started
    by_cases isStart : last = ⟨.note .stbyStart, ()⟩
    · simp [isStart]
    · refine List.mem_append_left _ (ih ?_)
      unfold CallView.see at started
      split at started <;> first | exact started | simp_all

/-- Over all boots, interleavings and crashes: while a lock file is pending, a role
manager starts its jobs only with the peer locked or after all addresses were
silent, and the file disappears only at the end of a split-brain check without an
answer or at a start of the standby role. -/
theorem lockFile_guards_activations
    (reaches : (system depth ticks).Reaches Fresh (ThreadSystem.Passing filesWork) config) :
    (∀ number, config.Issues (.roleMgr number) (.note .startJobs) →
      lockPending number config.log = true →
        PeerLocked (history (.roleMgr number) config.log) ∨
          AllSilent (history (.roleMgr number) config.log)) ∧
    (∀ entry after, (system depth ticks).Moves config entry after →
      config.world.lockFile = true → after.world.lockFile = false →
        (∃ number status, entry = .did (.roleMgr number) ⟨.unlinkLock, status⟩ ∧
          NoAnswer (history (.roleMgr number) config.log) ∧
          Guarded (history (.roleMgr number) config.log)) ∨
        (∃ number callback status, entry = .did (.call number callback) ⟨.unlinkLock, status⟩ ∧
          callback.isToPassive = true ∧
            ⟨.note .stbyStart, ()⟩ ∈ history (.call number callback) config.log)) := by
  constructor
  · intro number issues pending
    obtain ⟨_, guarded⟩ := (system_lawful depth ticks).permits reaches issues
    rcases guarded with locked | exempt | silent
    · exact .inl locked
    · have memory := lockMemory_of_reaches reaches number
      rw [memory.exempt issues.alive exempt] at pending
      cases pending
    · exact .inr silent
  · intro entry after moves present absent
    cases moves with
    | act tid op rest proposed reply world spawned thread performs =>
      rw [ThreadSystem.launch_world] at absent
      obtain rfl := perform_unlinks performs present absent
      rcases unlinkLock_issuer ((system_lawful depth ticks).permits reaches
        (.of_thread thread)) with ⟨number, rfl, noAnswer⟩ |
          ⟨number, callback, rfl, toPassive, started⟩
      · exact .inl ⟨number, reply, rfl, noAnswer⟩
      · exact .inr ⟨number, callback, reply, rfl, toPassive, stbyStart_of_started started⟩
    | arrive tid world isUp fresh admitted =>
      rw [ThreadSystem.launch_world, (admits_cases admitted).2.1] at absent
      cases present.symm.trans absent
    | boot | finish | halt | breaks => cases present.symm.trans absent

/-- A first activation finds an answering address; after the reboot a second one
finds all addresses silent. -/
def rebootAfterAnswer : List (Event signature Tid) :=
  activation 0 0 .standby 22
      (favourableBut (.ask (.arping ⟨"192.168.169.1", "bond0"⟩)) true) ++
    .boot :: activation 1 1 .undefined 24 favourable

theorem lockFile_guards_second_boot :
    (scheduled filesWork rebootAfterAnswer).Issues (.roleMgr 1) (.note .startJobs) ∧
      lockPending 1 (scheduled filesWork rebootAfterAnswer).log = true ∧
      (PeerLocked (history (.roleMgr 1) (scheduled filesWork rebootAfterAnswer).log) ∨
        AllSilent (history (.roleMgr 1) (scheduled filesWork rebootAfterAnswer).log)) := by
  have issues : (scheduled filesWork rebootAfterAnswer).Issues (.roleMgr 1)
      (.note .startJobs) := by decide +kernel
  have pending : lockPending 1 (scheduled filesWork rebootAfterAnswer).log = true := by
    decide +kernel
  exact ⟨issues, pending, (lockFile_guards_activations
    (reaches_scheduled filesWork rebootAfterAnswer)).1 1 issues pending⟩

/-! ## The old HA state -/

def StandbyAtArrival (number : Nat) (log : List AgentEntry) : Prop :=
  ∃ call callback before after,
    history (.call call callback) log =
      before ++ ⟨.object .newActv, some number⟩ :: after ∧
    ⟨.object .stbyHeld, true⟩ ∈ before

/-- No callback sets the old HA state to `UNDEFINED` before the active object that
is held has read it. -/
def keepsOldState (config : AgentConfiguration) : AgentEntry → Bool
  | .did _ ⟨.setOldhaState .undefined, _⟩ =>
    config.world.actvAdmObj.all fun number =>
      (history (.roleMgr number) config.log).any fun exchange =>
        exchange.1 = .getOldhaState
  | _ => true

theorem StandbyAtArrival.of_did {number : Nat} {log : List AgentEntry}
    (standby : StandbyAtArrival number (log ++ [.did tid exchange])) :
    StandbyAtArrival number log ∨ exchange = ⟨.object .newActv, some number⟩ ∧
      ⟨.object .stbyHeld, true⟩ ∈ history tid log := by
  obtain ⟨call, callback, before, later, split, found⟩ := standby
  by_cases same : tid = .call call callback
  · subst same
    rw [ThreadSystem.history_snoc_did_self] at split
    rcases List.eq_nil_or_concat later with rfl | ⟨front, last, rfl⟩
    · obtain ⟨historyEq, isLast⟩ := List.append_inj' split rfl
      exact .inr ⟨(List.cons.inj isLast).1, historyEq ▸ found⟩
    · have regrouped : history (.call call callback) log ++ [exchange] =
          (before ++ ⟨.object .newActv, some number⟩ :: front) ++ [last] := by
        simpa using split
      exact .inl ⟨call, callback, before, front, (List.append_inj' regrouped rfl).1, found⟩
  · rw [ThreadSystem.history_snoc_of_ne same] at split
    exact .inl ⟨call, callback, before, later, split, found⟩

theorem StandbyAtArrival.congr {number : Nat} {log other : List AgentEntry}
    (same : ∀ tid, history tid other = history tid log) :
    StandbyAtArrival number other ↔ StandbyAtArrival number log := by
  simp only [StandbyAtArrival, same]

theorem foundStby_of_mem {history : History}
    (found : ⟨.object .stbyHeld, true⟩ ∈ history) :
    (callView history).foundStby = true := by
  induction history using List.reverseRecOn with
  | nil => cases found
  | append_singleton front last ih =>
    rw [callView_snoc]
    rcases List.mem_append.mp found with early | isLast
    · have known := ih early
      unfold CallView.see
      split <;> simp [known]
    · obtain rfl := List.mem_singleton.mp isLast
      simp [CallView.see]

structure OldStateMemory (config : AgentConfiguration) : Prop where
  numbered : ∀ tid number, ⟨.object .newActv, some number⟩ ∈ history tid config.log →
    number < config.world.created
  unread : ∀ number, config.world.actvAdmObj = some number →
    StandbyAtArrival number config.log →
    (∀ state, ⟨.getOldhaState, state⟩ ∉ history (.roleMgr number) config.log) →
      config.world.oldhaState ≠ .undefined
  seen : ∀ number,
    ⟨.getOldhaState, HaState.undefined⟩ ∈ history (.roleMgr number) config.log →
      ¬StandbyAtArrival number config.log

section OldState

variable {tid : Tid} {op : Op} {reply : op.Reply} {spawned : Option Tid}
  {after : AgentConfiguration} {number : Nat}

theorem perform_newActv {world after : World} {alive : Tid → Bool} {proposed : op.Reply}
    (performs : perform world alive tid op proposed = .done reply after spawned)
    (isNew : (⟨op, reply⟩ : Exchange signature) = ⟨.object .newActv, some number⟩) :
    number = world.created ∧ world.created < after.created := by
  obtain rfl : op = .object .newActv := congrArg Sigma.fst isNew
  obtain rfl : reply = some number := by simpa using isNew
  obtain ⟨step, _⟩ := perform_object performs
  cases step
  exact ⟨rfl, Nat.lt_succ_self _⟩

theorem ObjectStep.oldhaState {world after : World} {alive : Tid → Bool} {op : ObjectOp}
    {reply : op.Reply} (step : ObjectStep world alive op reply after)
    (held : after.actvAdmObj = some number) :
    after.oldhaState = .standby ∨ after.oldhaState = world.oldhaState ∧
      ((⟨.object op, reply⟩ : Exchange signature) = ⟨.object .newActv, some number⟩ ∨
        world.actvAdmObj = some number) := by
  cases step with
  | newActv =>
    obtain rfl := Option.some.inj held
    exact .inr ⟨rfl, .inl rfl⟩
  | deleteActv unused => cases held
  | deleteStby unused unmanaged => exact .inl rfl
  | _ => exact .inr ⟨rfl, .inr held⟩

theorem OldStateMemory.numbered_act (memory : OldStateMemory config)
    (performed : Performed depth ticks allowed config after tid op reply spawned) {other : Tid}
    (member : ⟨.object .newActv, some number⟩ ∈ history other after.log) :
    number < after.world.created := by
  obtain ⟨proposed, performs⟩ := performed.performs
  have grows := perform_created_le performs
  by_cases same : tid = other
  · subst same
    rw [performed.history_self] at member
    rcases List.mem_append.mp member with early | last
    · exact Nat.lt_of_lt_of_le (memory.numbered tid number early) grows
    · obtain ⟨rfl, fresh⟩ := perform_newActv performs (List.mem_singleton.mp last).symm
      exact fresh
  · rw [performed.history_of_ne same] at member
    exact Nat.lt_of_lt_of_le (memory.numbered other number member) grows

theorem OldStateMemory.seen_act (memory : OldStateMemory config)
    (performed : Performed depth ticks allowed config after tid op reply spawned)
    (member : ⟨.getOldhaState, HaState.undefined⟩ ∈ history (.roleMgr number) after.log) :
    ¬StandbyAtArrival number after.log := by
  intro standby
  obtain ⟨proposed, performs⟩ := performed.performs
  have law := performed.law
  rw [performed.log_eq] at standby
  rcases standby.of_did with earlier | ⟨isNew, _⟩
  · by_cases same : tid = .roleMgr number
    · subst same
      rw [performed.history_self] at member
      rcases List.mem_append.mp member with early | last
      · exact memory.seen number early earlier
      · have isRead := List.mem_singleton.mp last
        obtain rfl : Op.getOldhaState = op := congrArg Sigma.fst isRead
        obtain rfl : HaState.undefined = reply := by simpa using isRead
        obtain ⟨isUndefined, _, _⟩ := perform_act performs (by simp) (by simp)
        have held := performed.wellformed.belongs _ _ _ performed.living rfl
        have asked : Within [.own, .status, .record, .peer]
            (history (.roleMgr number) config.log) := law
        exact memory.unread number held earlier
          (fun state => asked.not_mem (by simp [kind])) isUndefined.symm
    · rw [performed.history_of_ne same] at member
      exact memory.seen number member earlier
  · obtain ⟨isCreated, _⟩ := perform_newActv performs isNew
    obtain ⟨call, callback, rfl⟩ := exists_call_of_role law (by
      rw [show op = .object .newActv from congrArg Sigma.fst isNew]; rfl)
    rw [performed.history_of_ne (by simp)] at member
    exact absurd isCreated (Nat.ne_of_lt (lt_created_of_mem performed.reached rfl member))

theorem OldStateMemory.unread_act (memory : OldStateMemory config)
    (performed : Performed depth ticks allowed config after tid op reply spawned)
    (keeps : keepsOldState config (.did tid ⟨op, reply⟩) = true)
    (held : after.world.actvAdmObj = some number)
    (standby : StandbyAtArrival number after.log)
    (unread : ∀ state, ⟨.getOldhaState, state⟩ ∉ history (.roleMgr number) after.log) :
    after.world.oldhaState ≠ .undefined := by
  obtain ⟨proposed, performs⟩ := performed.performs
  have law := performed.law
  have unreadBefore (state : HaState) :
      ⟨.getOldhaState, state⟩ ∉ history (.roleMgr number) config.log := by
    intro member
    refine unread state ?_
    rw [performed.log_eq]
    simp [member]
  rw [performed.log_eq] at standby
  have unchanged (heldBefore : config.world.actvAdmObj = some number)
      (old : after.world.oldhaState = config.world.oldhaState) :
      after.world.oldhaState ≠ .undefined := by
    rw [old]
    rcases standby.of_did with earlier | ⟨isNew, _⟩
    · exact memory.unread number heldBefore earlier unreadBefore
    · have smaller := performed.wellformed.held_lt .actv number heldBefore
      exact absurd (perform_newActv performs isNew).1 (Nat.ne_of_lt smaller)
  by_cases isRole : kind op = .role
  · obtain ⟨call, callback, rfl⟩ := exists_call_of_role law isRole
    rcases kind_eq_role isRole with ⟨objectOp, rfl⟩ | ⟨state, rfl⟩ | rfl | rfl
    · rcases (perform_object performs).1.oldhaState held with isStandby | ⟨old, isNew | before⟩
      · simp [isStandby]
      · rcases standby.of_did with earlier | ⟨_, found⟩
        · obtain ⟨maker, makerCallback, _, _, split, _⟩ := earlier
          have smaller := memory.numbered (.call maker makerCallback) number (by simp [split])
          exact absurd (perform_newActv performs isNew).1 (Nat.ne_of_lt smaller)
        · obtain rfl : objectOp = .newActv := by simpa using congrArg Sigma.fst isNew
          have knows := performed.wellformed.knows call callback performed.living
          have isStandby := knows.old .standby (law.2.2.2.2.2 (foundStby_of_mem found))
          simp [old, isStandby]
      · exact unchanged before old
    · obtain ⟨_, worldEq, _⟩ := perform_act performs (by simp) (by simp)
      have heldBefore : config.world.actvAdmObj = some number := by
        simpa [worldEq, act] using held
      rw [worldEq]
      rintro (rfl : state = .undefined)
      simp only [keepsOldState, heldBefore, Option.all_some, List.any_eq_true,
        decide_eq_true_eq] at keeps
      obtain ⟨⟨_, state⟩, member, rfl⟩ := keeps
      exact unreadBefore state member
    all_goals
      obtain ⟨_, worldEq, _⟩ := perform_act performs (by simp) (by simp)
      exact unchanged (by simpa [worldEq, act] using held) (by rw [worldEq]; rfl)
  · have same := perform_sameRoles performs isRole
    exact unchanged ((same.held .actv).symm.trans held) same.oldhaState

end OldState

theorem oldStateMemory_of_reaches
    (reaches : (system depth ticks).Reaches Fresh (ThreadSystem.Passing keepsOldState) config) :
    OldStateMemory config := by
  refine agent_invariant ?start ?boot ?quiet ?act reaches
  case start =>
    rintro _ ⟨lockFile, record, rfl⟩
    exact ⟨by rintro tid number ⟨⟩, by rintro number ⟨⟩, by rintro number ⟨⟩⟩
  case boot =>
    intro config after memory worldEq _ sameHistory _
    refine ⟨?_, by rw [worldEq]; rintro number ⟨⟩, ?_⟩
    · simp only [sameHistory, worldEq]
      exact memory.numbered
    · simp only [sameHistory, StandbyAtArrival.congr sameHistory]
      exact memory.seen
  case quiet =>
    intro config after entry memory quiet
    constructor
    · simp only [quiet.history_eq]
      rw [quiet.world_eq]
      exact memory.numbered
    · simp only [quiet.history_eq, StandbyAtArrival.congr quiet.history_eq]
      rw [quiet.world_eq]
      exact memory.unread
    · simp only [quiet.history_eq, StandbyAtArrival.congr quiet.history_eq]
      exact memory.seen
  case act =>
    intro config after tid op reply spawned memory performed
    exact ⟨fun _ _ => memory.numbered_act performed,
      fun _ => memory.unread_act performed performed.permitted,
      fun _ => memory.seen_act performed⟩

/-- In every run a role manager starts its jobs only with the peer locked, by the
`UNDEFINED` exemption, or after all addresses were silent.  In the runs that keep the
old HA state until it was read, an activation that found a standby object is not
exempt. -/
theorem startJobs_guarded (reaches : (system depth ticks).Reaches Fresh allowed config)
    {number : Nat} (issues : config.Issues (.roleMgr number) (.note .startJobs)) :
    Guarded (history (.roleMgr number) config.log) ∧
      ((∀ reached entry, allowed reached entry → keepsOldState reached entry = true) →
        StandbyAtArrival number config.log →
          ¬Exempt (history (.roleMgr number) config.log)) := by
  refine ⟨((system_lawful depth ticks).permits reaches issues).2, ?_⟩
  intro keeps standby exempt
  have memory := oldStateMemory_of_reaches (reaches.mono keeps)
  exact memory.seen number exempt.mem.1 standby

/-- A standby object is made; the callback to the active role stops it, makes the
active object 1 and gives up waiting for it. -/
def standbyThenActive : List (Event signature Tid) :=
  .arrive (.call 0 (.toPassive .undefined)) ::
    turns (.call 0 (.toPassive .undefined)) 13 favourable ++
    turns (.stbyAdm 0) 6 favourable ++
    turns (.call 0 (.toPassive .undefined)) 5 favourable ++
    turns (.stbyMon 0) 4 favourable ++
  .arrive (.call 1 (.toActive .standby)) ::
    turns (.call 1 (.toActive .standby)) 7 favourable ++
    turns (.stbyAdm 0) 2 favourable ++ turns (.stbyMon 0) 2 favourable ++
    turns (.stbyAdm 0) 3 favourable ++
    turns (.call 1 (.toActive .standby)) 19 favourable

/-- The role manager of the active object 1 runs up to its jobs. -/
def probingActivation : List (Event signature Tid) :=
  standbyThenActive ++ turns (.actvAdm 1) 7 favourable ++ turns (.roleMgr 1) 22 favourable

theorem startJobs_guarded_after_standby :
    (scheduled keepsOldState probingActivation).Issues (.roleMgr 1) (.note .startJobs) ∧
      StandbyAtArrival 1 (scheduled keepsOldState probingActivation).log ∧
      Guarded (history (.roleMgr 1) (scheduled keepsOldState probingActivation).log) ∧
      ¬Exempt (history (.roleMgr 1) (scheduled keepsOldState probingActivation).log) := by
  have issues : (scheduled keepsOldState probingActivation).Issues (.roleMgr 1)
      (.note .startJobs) := by decide +kernel
  have standby : StandbyAtArrival 1 (scheduled keepsOldState probingActivation).log :=
    ⟨1, .toActive .standby,
      (history (.call 1 (.toActive .standby))
        (scheduled keepsOldState probingActivation).log).take 11,
      (history (.call 1 (.toActive .standby))
        (scheduled keepsOldState probingActivation).log).drop 12,
      by decide +kernel, by decide +kernel⟩
  obtain ⟨guarded, notExempt⟩ :=
    startJobs_guarded (reaches_scheduled keepsOldState probingActivation) issues
  exact ⟨issues, standby, guarded, notExempt (fun _ _ keeps => keeps) standby⟩

/-- Before the role manager reads the old HA state, a second callback to the active
role with previous state `UNDEFINED` is answered at once. -/
def overwrittenOldState : List (Event signature Tid) :=
  standbyThenActive ++ .arrive (.call 2 (.toActive .undefined)) ::
    turns (.call 2 (.toActive .undefined)) 4 favourable ++
    turns (.actvAdm 1) 7 favourable ++ turns (.roleMgr 1) 21 favourable

theorem exempt_after_standby :
    ∃ config, (system 1 1).Reaches Fresh (fun _ _ => True) config ∧
      config.Issues (.roleMgr 1) (.note .startJobs) ∧
      StandbyAtArrival 1 config.log ∧ Exempt (history (.roleMgr 1) config.log) := by
  refine ⟨scheduled (fun _ _ => true) overwrittenOldState,
    (reaches_scheduled _ _).mono fun _ _ _ => trivial, by decide +kernel, ?_, ?_⟩
  · exact ⟨1, .toActive .standby,
      (history (.call 1 (.toActive .standby))
        (scheduled (fun _ _ => true) overwrittenOldState).log).take 11,
      (history (.call 1 (.toActive .standby))
        (scheduled (fun _ _ => true) overwrittenOldState).log).drop 12,
      by decide +kernel, by decide +kernel⟩
  · unfold Exempt
    decide +kernel

end Apos.DrbdAgent
