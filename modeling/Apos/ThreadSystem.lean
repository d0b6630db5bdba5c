import Apos.EffectProgram
import Mathlib.Logic.Function.Basic

/-!
# Interleaved threads and reboots

Several threads of one process run their programs step by step on a shared
world.  A move either starts a thread from outside, performs one operation,
ends a thread, ends the process, or boots a new process on what survived the
old one.  Every move appends exactly one entry to a log, and the exchanges of
one thread, read off the log, are a history of its program.  A law about the
program alone therefore becomes a law about every run of the system.
-/

namespace Apos

/-- The effect of an operation on the world.  A `blocked` operation is not
enabled; a `broken` one has no defined continuation. -/
inductive Effect (S : Signature) (World Tid : Type) (op : S.Op) : Type where
  | blocked
  | broken
  | done (reply : S.Reply op) (world : World) (spawned : Option Tid)

/-- Threads over a shared world.  `admits` gives the world after a thread has
been started from outside, if it may be.  Thread identifiers are never
reused. -/
structure ThreadSystem (S : Signature) (World Tid Result : Type) where
  body : Tid → Program S Result
  perform : World → (Tid → Bool) → Tid → (op : S.Op) → S.Reply op →
    Effect S World Tid op
  admits : World → (Tid → Bool) → Tid → Option World
  reboot : World → World

inductive Entry (S : Signature) (Tid Result : Type) : Type where
  | arrived (tid : Tid)
  | did (tid : Tid) (exchange : Exchange S)
  | returned (tid : Tid) (result : Result)
  | halted (tid : Tid) (cause : S.Halt)
  | broke (tid : Tid) (op : S.Op)
  | booted

/-- What the scheduler and the environment choose for one move. -/
inductive Event (S : Signature) (Tid : Type) : Type where
  | arrive (tid : Tid)
  | step (tid : Tid) (replies : (op : S.Op) → S.Reply op)
  | boot

/-- A configuration of the system.  `started` remembers all threads of all
boots. -/
structure Config (S : Signature) (World Tid Result : Type) where
  world : World
  threads : Tid → Option (Program S Result)
  started : Tid → Bool
  up : Bool
  log : List (Entry S Tid Result)

def Config.Alive {S : Signature} {World Tid Result : Type}
    (config : Config S World Tid Result) (tid : Tid) : Prop :=
  (config.threads tid).isSome = true

def Program.nextOp {S : Signature} {α : Type} : Program S α → Option S.Op
  | .call op _ => some op
  | _ => none

def Config.Issues {S : Signature} {World Tid Result : Type}
    (config : Config S World Tid Result) (tid : Tid) (op : S.Op) : Prop :=
  (config.threads tid).bind Program.nextOp = some op

variable {S : Signature}

theorem Config.Issues.of_thread {World Tid Result : Type} {config : Config S World Tid Result}
    {tid : Tid} {op : S.Op} {rest : S.Reply op → Program S Result}
    (thread : config.threads tid = some (.call op rest)) : config.Issues tid op := by
  simp [Config.Issues, thread, Program.nextOp]

theorem Config.Issues.alive {World Tid Result : Type} {config : Config S World Tid Result}
    {tid : Tid} {op : S.Op} (issues : config.Issues tid op) : config.Alive tid := by
  obtain ⟨program, thread, _⟩ := Option.bind_eq_some_iff.mp issues
  simp [Config.Alive, thread]

instance {S : Signature} {World Tid Result : Type} [DecidableEq S.Op]
    (config : Config S World Tid Result) (tid : Tid) (op : S.Op) :
    Decidable (config.Issues tid op) :=
  inferInstanceAs (Decidable (_ = some op))

def Program.result {S : Signature} {α : Type} : Program S α → Option α
  | .pure value => some value
  | _ => none

def Config.Returns {S : Signature} {World Tid Result : Type}
    (config : Config S World Tid Result) (tid : Tid) (result : Result) : Prop :=
  (config.threads tid).bind Program.result = some result

theorem Config.Returns.alive {World Tid Result : Type} {config : Config S World Tid Result}
    {tid : Tid} {result : Result} (returns : config.Returns tid result) : config.Alive tid := by
  obtain ⟨program, thread, _⟩ := Option.bind_eq_some_iff.mp returns
  simp [Config.Alive, thread]

instance {S : Signature} {World Tid Result : Type} [DecidableEq Result]
    (config : Config S World Tid Result) (tid : Tid) (result : Result) :
    Decidable (config.Returns tid result) :=
  inferInstanceAs (Decidable (_ = some result))

section History

variable {S : Signature} {Tid Result : Type} [DecidableEq Tid]

def Entry.exchangeOf (tid : Tid) : Entry S Tid Result → Option (Exchange S)
  | .did other exchange => if other = tid then some exchange else none
  | _ => none

def history (tid : Tid) (log : List (Entry S Tid Result)) :
    List (Exchange S) :=
  log.filterMap (Entry.exchangeOf tid)

@[simp]
theorem history_nil (tid : Tid) :
    history tid ([] : List (Entry S Tid Result)) = [] :=
  rfl

@[simp]
theorem history_append (tid : Tid) (first second : List (Entry S Tid Result)) :
    history tid (first ++ second) = history tid first ++ history tid second := by
  simp [history]

end History

namespace ThreadSystem

variable {S : Signature} {World Tid Result : Type} [DecidableEq Tid]

def initial (world : World) : Config S World Tid Result where
  world := world
  threads := fun _ => none
  started := fun _ => false
  up := true
  log := []

variable (system : ThreadSystem S World Tid Result)

/-- Start a thread unless its identifier has been used before. -/
def launch (config : Config S World Tid Result) : Option Tid →
    Config S World Tid Result
  | none => config
  | some tid =>
    if config.started tid then config else
      { config with
        threads := Function.update config.threads tid (some (system.body tid))
        started := Function.update config.started tid true }

/-- The move an event triggers, with the log entry it leaves; `none` where the
event is not enabled. -/
def next (config : Config S World Tid Result) :
    Event S Tid → Option (Entry S Tid Result × Config S World Tid Result)
  | .boot =>
    some (.booted,
      { config with
        world := system.reboot config.world
        threads := fun _ => none
        up := true
        log := config.log ++ [.booted] })
  | .arrive tid =>
    if config.up && !config.started tid then
      (system.admits config.world (fun other => (config.threads other).isSome) tid).map
        fun world =>
          (.arrived tid,
            system.launch
              { config with world := world, log := config.log ++ [.arrived tid] }
              (some tid))
    else none
  | .step tid replies =>
    match config.threads tid with
    | none => none
    | some (.pure result) =>
      some (.returned tid result,
        { config with
          threads := Function.update config.threads tid none
          log := config.log ++ [.returned tid result] })
    | some (.halt cause) =>
      some (.halted tid cause,
        { config with
          threads := fun _ => none
          up := false
          log := config.log ++ [.halted tid cause] })
    | some (.call op rest) =>
      match system.perform config.world
          (fun other => (config.threads other).isSome) tid op (replies op) with
      | .blocked => none
      | .broken =>
        some (.broke tid op,
          { config with
            threads := fun _ => none
            up := false
            log := config.log ++ [.broke tid op] })
      | .done reply world spawned =>
        some (.did tid ⟨op, reply⟩,
          system.launch
            { config with
              world := world
              threads := Function.update config.threads tid (some (rest reply))
              log := config.log ++ [.did tid ⟨op, reply⟩] }
            spawned)

inductive Moves (config : Config S World Tid Result) :
    Entry S Tid Result → Config S World Tid Result → Prop where
  | boot :
      Moves config .booted
        { config with
          world := system.reboot config.world
          threads := fun _ => none
          up := true
          log := config.log ++ [.booted] }
  | arrive (tid : Tid) (world : World) (isUp : config.up = true)
      (fresh : config.started tid = false)
      (admitted : system.admits config.world
        (fun other => (config.threads other).isSome) tid = some world) :
      Moves config (.arrived tid)
        (system.launch
          { config with world := world, log := config.log ++ [.arrived tid] }
          (some tid))
  | finish (tid : Tid) (result : Result)
      (thread : config.threads tid = some (.pure result)) :
      Moves config (.returned tid result)
        { config with
          threads := Function.update config.threads tid none
          log := config.log ++ [.returned tid result] }
  | halt (tid : Tid) (cause : S.Halt)
      (thread : config.threads tid = some (.halt cause)) :
      Moves config (.halted tid cause)
        { config with
          threads := fun _ => none
          up := false
          log := config.log ++ [.halted tid cause] }
  | breaks (tid : Tid) (op : S.Op) (rest : S.Reply op → Program S Result)
      (proposed : S.Reply op)
      (thread : config.threads tid = some (.call op rest))
      (performs : system.perform config.world
        (fun other => (config.threads other).isSome) tid op proposed = .broken) :
      Moves config (.broke tid op)
        { config with
          threads := fun _ => none
          up := false
          log := config.log ++ [.broke tid op] }
  | act (tid : Tid) (op : S.Op) (rest : S.Reply op → Program S Result)
      (proposed reply : S.Reply op) (world : World) (spawned : Option Tid)
      (thread : config.threads tid = some (.call op rest))
      (performs : system.perform config.world
        (fun other => (config.threads other).isSome) tid op proposed =
          .done reply world spawned) :
      Moves config (.did tid ⟨op, reply⟩)
        (system.launch
          { config with
            world := world
            threads := Function.update config.threads tid (some (rest reply))
            log := config.log ++ [.did tid ⟨op, reply⟩] }
          spawned)

variable {system}

variable {config : Config S World Tid Result}

theorem moves_of_next {after : Config S World Tid Result} {event : Event S Tid}
    {entry : Entry S Tid Result} (triggers : system.next config event = some (entry, after)) :
    system.Moves config entry after := by
  cases event with
  | boot =>
    obtain ⟨rfl, rfl⟩ := Prod.mk.inj (Option.some.inj triggers)
    exact .boot
  | arrive tid =>
    simp only [next] at triggers
    split at triggers
    · next enabled =>
        obtain ⟨world, admitted, moved⟩ := Option.map_eq_some_iff.mp triggers
        obtain ⟨rfl, rfl⟩ := Prod.mk.inj moved
        simp only [Bool.and_eq_true, Bool.not_eq_true'] at enabled
        exact .arrive tid world enabled.1 enabled.2 admitted
    · cases triggers
  | step tid replies =>
    simp only [next] at triggers
    split at triggers
    · cases triggers
    · next result thread =>
        obtain ⟨rfl, rfl⟩ := Prod.mk.inj (Option.some.inj triggers)
        exact .finish tid result thread
    · next cause thread =>
        obtain ⟨rfl, rfl⟩ := Prod.mk.inj (Option.some.inj triggers)
        exact .halt tid cause thread
    · next op rest thread =>
        split at triggers
        · cases triggers
        · next performs =>
            obtain ⟨rfl, rfl⟩ := Prod.mk.inj (Option.some.inj triggers)
            exact .breaks tid op rest _ thread performs
        · next reply world spawned performs =>
            obtain ⟨rfl, rfl⟩ := Prod.mk.inj (Option.some.inj triggers)
            exact .act tid op rest _ reply world spawned thread performs

variable (system)

inductive Reaches (starts : World → Prop)
    (allowed : Config S World Tid Result → Entry S Tid Result → Prop) :
    Config S World Tid Result → Prop where
  | start {world : World} (starting : starts world) :
      Reaches starts allowed (initial world)
  | move {config after : Config S World Tid Result}
      {entry : Entry S Tid Result}
      (before : Reaches starts allowed config)
      (moves : system.Moves config entry after)
      (permitted : allowed config entry) :
      Reaches starts allowed after

def Passing (check : Config S World Tid Result → Entry S Tid Result → Bool)
    (config : Config S World Tid Result) (entry : Entry S Tid Result) : Prop :=
  check config entry = true

/-- Run a schedule, leaving out events that are not enabled or whose entry does
not pass a check. -/
def execute (check : Config S World Tid Result → Entry S Tid Result → Bool)
    (config : Config S World Tid Result) (events : List (Event S Tid)) :
    Config S World Tid Result :=
  events.foldl
    (fun current event =>
      match system.next current event with
      | some (entry, after) => if check current entry then after else current
      | none => current)
    config

variable {system}
variable {starts : World → Prop}
variable {allowed : Config S World Tid Result → Entry S Tid Result → Prop}

theorem reaches_execute {check : Config S World Tid Result → Entry S Tid Result → Bool}
    (reaches : system.Reaches starts (Passing check) config) (events : List (Event S Tid)) :
    system.Reaches starts (Passing check) (system.execute check config events) := by
  induction events generalizing config with
  | nil => exact reaches
  | cons event events ih =>
    simp only [execute, List.foldl_cons]
    apply ih
    split
    · next entry after triggers =>
        split
        · next passes => exact .move reaches (moves_of_next triggers) passes
        · exact reaches
    · exact reaches

theorem Reaches.mono {weaker : Config S World Tid Result → Entry S Tid Result → Prop}
    (implies : ∀ config entry, allowed config entry → weaker config entry)
    (reaches : system.Reaches starts allowed config) : system.Reaches starts weaker config := by
  induction reaches with
  | start starting => exact .start starting
  | move before moves permitted ih => exact .move ih moves (implies _ _ permitted)

/-! ## Logs and launches -/

@[simp]
theorem launch_world (config : Config S World Tid Result) (spawned : Option Tid) :
    (system.launch config spawned).world = config.world := by
  cases spawned with
  | none => rfl
  | some tid =>
    simp only [launch]
    split <;> rfl

@[simp]
theorem launch_log (config : Config S World Tid Result) (spawned : Option Tid) :
    (system.launch config spawned).log = config.log := by
  cases spawned with
  | none => rfl
  | some tid =>
    simp only [launch]
    split <;> rfl

theorem launch_threads {spawned : Option Tid} {tid : Tid} {program : Program S Result}
    (thread : (system.launch config spawned).threads tid = some program) :
    config.threads tid = some program ∨
      (spawned = some tid ∧ config.started tid = false ∧
        program = system.body tid) := by
  cases spawned with
  | none => exact .inl thread
  | some other =>
    simp only [launch] at thread
    split at thread
    · exact .inl thread
    · next fresh =>
        by_cases same : tid = other
        · subst same
          simp only [Function.update_self, Option.some.injEq] at thread
          exact .inr ⟨rfl, by simpa using fresh, thread.symm⟩
        · simp only [Function.update_of_ne same] at thread
          exact .inl thread

theorem launch_started {spawned : Option Tid} {tid : Tid}
    (unstarted : (system.launch config spawned).started tid = false) :
    config.started tid = false := by
  cases spawned with
  | none => exact unstarted
  | some other =>
    simp only [launch] at unstarted
    split at unstarted
    · exact unstarted
    · by_cases same : tid = other
      · subst same
        simp at unstarted
      · simpa only [Function.update_of_ne same] using unstarted

theorem Moves.log_eq {after : Config S World Tid Result} {entry : Entry S Tid Result}
    (moves : system.Moves config entry after) : after.log = config.log ++ [entry] := by
  cases moves <;> simp

/-! ## Histories of threads -/

/-- What a log says about one thread: nothing before it is started, and a
history of its program afterwards. -/
structure Tracks (system : ThreadSystem S World Tid Result)
    (config : Config S World Tid Result) (tid : Tid) : Prop where
  idle : config.started tid = false →
    history tid config.log = [] ∧ config.threads tid = none
  running : ∀ program, config.threads tid = some program →
    Program.Follows (system.body tid) (history tid config.log) program

theorem history_snoc_did_self (tid : Tid) (log : List (Entry S Tid Result))
    (exchange : Exchange S) :
    history tid (log ++ [.did tid exchange]) = history tid log ++ [exchange] := by
  rw [history_append]
  simp [history, Entry.exchangeOf]

theorem history_snoc_of_ne {tid other : Tid} (different : other ≠ tid)
    (log : List (Entry S Tid Result)) (exchange : Exchange S) :
    history tid (log ++ [.did other exchange]) = history tid log := by
  rw [history_append]
  simp [history, Entry.exchangeOf, different]

theorem history_snoc_of_silent (entry : Entry S Tid Result)
    (silent : ∀ tid exchange, entry ≠ .did tid exchange) (tid : Tid)
    (log : List (Entry S Tid Result)) :
    history tid (log ++ [entry]) = history tid log := by
  rw [history_append]
  cases entry with
  | did other exchange => exact (silent other exchange rfl).elim
  | arrived | returned | halted | broke | booted => simp [history, Entry.exchangeOf]

theorem Tracks.launch {config : Config S World Tid Result} {tid : Tid}
    (tracks : Tracks system config tid) (spawned : Option Tid) :
    Tracks system (system.launch config spawned) tid where
  idle unstarted := by
    have before := launch_started unstarted
    refine ⟨by simpa using (tracks.idle before).1, ?_⟩
    cases thread : (system.launch config spawned).threads tid with
    | none => rfl
    | some program =>
      rcases launch_threads thread with old | ⟨rfl, _, _⟩
      · rw [(tracks.idle before).2] at old
        cases old
      · simp [ThreadSystem.launch, before] at unstarted
  running program thread := by
    rw [launch_log]
    rcases launch_threads thread with old | ⟨_, fresh, rfl⟩
    · exact tracks.running program old
    · rw [(tracks.idle fresh).1]
      exact .start

theorem Moves.tracks {config after : Config S World Tid Result}
    {entry : Entry S Tid Result} (moves : system.Moves config entry after)
    {tid : Tid} (tracks : Tracks system config tid) :
    Tracks system after tid := by
  cases moves with
  | boot =>
    have same := history_snoc_of_silent (.booted : Entry S Tid Result)
      (by simp) tid config.log
    exact ⟨fun unstarted => ⟨same ▸ (tracks.idle unstarted).1, rfl⟩,
      fun program thread => by cases thread⟩
  | arrive other world isUp fresh admitted =>
    have same := history_snoc_of_silent (.arrived other : Entry S Tid Result)
      (by simp) tid config.log
    apply Tracks.launch
    exact ⟨fun unstarted => ⟨same ▸ (tracks.idle unstarted).1,
        (tracks.idle unstarted).2⟩,
      fun program thread => same ▸ tracks.running program thread⟩
  | finish other result thread =>
    have same := history_snoc_of_silent (.returned other result : Entry S Tid Result)
      (by simp) tid config.log
    constructor
    · intro unstarted
      have before := tracks.idle unstarted
      refine ⟨same ▸ before.1, ?_⟩
      by_cases equal : tid = other
      · subst equal; simp
      · simpa [Function.update_of_ne equal] using before.2
    · intro program running
      by_cases equal : tid = other
      · subst equal; simp at running
      · simp only [Function.update_of_ne equal] at running
        exact same ▸ tracks.running program running
  | halt other cause thread =>
    have same := history_snoc_of_silent (.halted other cause : Entry S Tid Result)
      (by simp) tid config.log
    exact ⟨fun unstarted => ⟨same ▸ (tracks.idle unstarted).1, rfl⟩,
      fun program thread => by cases thread⟩
  | breaks other op rest proposed thread performs =>
    have same := history_snoc_of_silent (.broke other op : Entry S Tid Result)
      (by simp) tid config.log
    exact ⟨fun unstarted => ⟨same ▸ (tracks.idle unstarted).1, rfl⟩,
      fun program thread => by cases thread⟩
  | act other op rest proposed reply world spawned thread performs =>
    apply Tracks.launch
    by_cases equal : other = tid
    · subst equal
      constructor
      · intro unstarted
        rw [(tracks.idle unstarted).2] at thread
        cases thread
      · intro program running
        simp only [Function.update_self, Option.some.injEq] at running
        rw [← running]
        simp only [history_snoc_did_self]
        exact .step reply (tracks.running _ thread)
    · have same := history_snoc_of_ne equal config.log
        (⟨op, reply⟩ : Exchange S)
      have threadSame (program : Option (Program S Result)) :
          Function.update config.threads other program tid =
            config.threads tid :=
        Function.update_of_ne (Ne.symm equal) _ _
      exact ⟨fun unstarted => ⟨same ▸ (tracks.idle unstarted).1,
          (threadSame _).trans (tracks.idle unstarted).2⟩,
        fun program running =>
          same ▸ tracks.running program ((threadSame _).symm.trans running)⟩

theorem Reaches.tracks {config : Config S World Tid Result}
    (reaches : system.Reaches starts allowed config) (tid : Tid) :
    Tracks system config tid := by
  induction reaches with
  | start starting =>
    exact ⟨fun _ => ⟨rfl, rfl⟩, fun program thread => by cases thread⟩
  | move before moves permitted ih => exact moves.tracks ih

section Laws

variable {laws : Tid → List (Exchange S) → S.Op → Prop}
variable {posts : Tid → List (Exchange S) → Outcome S Result → Prop}

def Lawful (system : ThreadSystem S World Tid Result)
    (laws : Tid → List (Exchange S) → S.Op → Prop)
    (posts : Tid → List (Exchange S) → Outcome S Result → Prop) : Prop :=
  ∀ tid, Program.Always (Program.recording (laws tid)) (posts tid) []
    (system.body tid)

variable {config : Config S World Tid Result}

theorem Lawful.permits (lawful : system.Lawful laws posts)
    (reaches : system.Reaches starts allowed config) {tid : Tid} {op : S.Op}
    (issues : config.Issues tid op) : laws tid (history tid config.log) op := by
  obtain ⟨program, thread, isNext⟩ := Option.bind_eq_some_iff.mp issues
  have always := ((reaches.tracks tid).running program thread).always (lawful tid)
  cases program with
  | call issued rest =>
    obtain rfl := Option.some.inj isNext
    exact always.1
  | pure | halt => cases isNext

theorem Reaches.returned (reaches : system.Reaches starts allowed config) {tid : Tid}
    {result : Result} {law : List (Exchange S) → S.Op → Prop}
    {post : List (Exchange S) → Outcome S Result → Prop}
    (always : Program.Always (Program.recording law) post [] (system.body tid))
    (returns : config.Returns tid result) :
    post (history tid config.log) (.returned result) := by
  obtain ⟨program, thread, isResult⟩ := Option.bind_eq_some_iff.mp returns
  have ended := ((reaches.tracks tid).running program thread).always always
  cases program with
  | pure value =>
    obtain rfl := Option.some.inj isResult
    exact ended
  | call | halt => cases isResult

theorem Lawful.returns (lawful : system.Lawful laws posts)
    (reaches : system.Reaches starts allowed config) {tid : Tid} {result : Result}
    (returns : config.Returns tid result) :
    posts tid (history tid config.log) (.returned result) :=
  reaches.returned (lawful tid) returns

theorem Lawful.recorded (lawful : system.Lawful laws posts)
    {config : Config S World Tid Result}
    (reaches : system.Reaches starts allowed config) {tid : Tid}
    {before after : List (Exchange S)} {exchange : Exchange S}
    (recorded : history tid config.log = before ++ exchange :: after) :
    laws tid before exchange.1 := by
  induction reaches generalizing after with
  | start starting => simp [initial] at recorded
  | @move config next entry reached moves permitted ih =>
    rw [moves.log_eq] at recorded
    by_cases silent : ∀ other, entry ≠ .did tid other
    · refine ih (recorded.symm.trans ?_).symm
      cases entry with
      | did other found =>
        exact history_snoc_of_ne (fun same => silent found (by rw [same])) _ _
      | _ => exact history_snoc_of_silent _ (by simp) tid config.log
    · push Not at silent
      obtain ⟨last, rfl⟩ := silent
      rw [history_snoc_did_self] at recorded
      rcases List.eq_nil_or_concat after with rfl | ⟨front, final, rfl⟩
      · obtain ⟨historyEq, same⟩ := List.append_inj' recorded rfl
        obtain rfl := (List.cons.inj same).1
        cases moves with
        | act _ op rest proposed reply world spawned thread performs =>
          rw [← historyEq]
          exact lawful.permits reached (.of_thread thread)
      · have split : history tid config.log ++ [last] =
            (before ++ exchange :: front) ++ [final] := by
          simpa using recorded
        exact ih (List.append_inj' split rfl).1

/-- Between two configurations at most the thread `new` has been started. -/
structure StartsAtMost (config after : Config S World Tid Result)
    (new : Option Tid) : Prop where
  alive : ∀ tid, after.Alive tid →
    config.Alive tid ∨ (new = some tid ∧ config.started tid = false)
  started : ∀ tid, after.started tid = true →
    config.started tid = true ∨ new = some tid

omit [DecidableEq Tid] in
theorem StartsAtMost.of_none {after : Config S World Tid Result}
    (startsAtMost : StartsAtMost config after none) {tid : Tid} (alive : after.Alive tid) :
    config.Alive tid := by
  rcases startsAtMost.alive tid alive with before | ⟨impossible, _⟩
  · exact before
  · cases impossible

theorem startsAtMost_launch {middle : Config S World Tid Result}
    (alive : ∀ tid, middle.Alive tid → config.Alive tid) (started : middle.started = config.started)
    (new : Option Tid) :
    StartsAtMost config (system.launch middle new) new where
  alive tid living := by
    obtain ⟨program, thread⟩ := Option.isSome_iff_exists.mp living
    rcases launch_threads thread with old | ⟨same, fresh, _⟩
    · exact .inl (alive tid (by simp [Config.Alive, old]))
    · exact .inr ⟨same, started ▸ fresh⟩
  started tid launched := by
    cases new with
    | none => exact .inl (started ▸ launched)
    | some other =>
      by_cases same : tid = other
      · exact .inr (by rw [same])
      · left
        rw [← started]
        simp only [launch] at launched
        split at launched
        · exact launched
        · simpa only [Function.update_of_ne same] using launched

/-- The rule of invariants.  It forgets the programs of the threads: a move of a
running thread may assume the law of that thread instead. -/
theorem Reaches.invariant (lawful : system.Lawful laws posts)
    {inv : Config S World Tid Result → Prop} (start : ∀ world, starts world → inv (initial world))
    (boot : ∀ config after, inv config → after.world = system.reboot config.world →
      (∀ tid, ¬after.Alive tid) → after.started = config.started →
      after.log = config.log ++ [.booted] → inv after)
    (arrive : ∀ config after tid world, system.Reaches starts allowed config →
      inv config → config.started tid = false →
      system.admits config.world (fun other => (config.threads other).isSome) tid =
        some world →
      allowed config (.arrived tid) → after.world = world →
      StartsAtMost config after (some tid) →
      after.log = config.log ++ [.arrived tid] → inv after)
    (quiet : ∀ config after entry, inv config →
      (∀ tid exchange, entry ≠ Entry.did tid exchange) → after.world = config.world →
      StartsAtMost config after none → after.log = config.log ++ [entry] → inv after)
    (act : ∀ config after tid op proposed reply world spawned,
      system.Reaches starts allowed config → inv config → config.Alive tid →
      system.perform config.world (fun other => (config.threads other).isSome) tid op
        proposed = .done reply world spawned →
      laws tid (history tid config.log) op →
      allowed config (.did tid ⟨op, reply⟩) → after.world = world →
      StartsAtMost config after spawned →
      after.log = config.log ++ [.did tid ⟨op, reply⟩] → inv after)
    (reaches : system.Reaches starts allowed config) : inv config := by
  induction reaches with
  | start starting => exact start _ starting
  | @move config after entry reached moves permitted ih =>
    cases moves with
    | boot => exact boot config _ ih rfl (by simp [Config.Alive]) rfl rfl
    | arrive tid world isUp fresh admitted =>
      refine arrive config _ tid world reached ih fresh admitted permitted (by simp)
        ?_ (by simp)
      apply startsAtMost_launch
      · exact fun _ living => living
      · rfl
    | finish tid result thread =>
      refine quiet config _ _ ih (by simp) rfl ⟨?_, fun _ => .inl⟩ rfl
      intro other living
      left
      by_cases same : other = tid
      · simp [Config.Alive, same, thread]
      · simpa [Config.Alive, Function.update_of_ne same] using living
    | halt tid cause thread =>
      exact quiet config _ (.halted tid cause) ih (by simp) rfl
        ⟨by simp [Config.Alive], fun _ => .inl⟩ rfl
    | breaks tid op rest proposed thread performs =>
      exact quiet config _ (.broke tid op) ih (by simp) rfl
        ⟨by simp [Config.Alive], fun _ => .inl⟩ rfl
    | act tid op rest proposed reply world spawned thread performs =>
      have living : config.Alive tid := by simp [Config.Alive, thread]
      refine act config _ tid op proposed reply world spawned reached ih living
        performs (lawful.permits reached (.of_thread thread)) permitted (by simp) ?_ (by simp)
      apply startsAtMost_launch
      · intro other otherLiving
        by_cases same : other = tid
        · rwa [same]
        · simpa [Config.Alive, Function.update_of_ne same] using otherLiving
      · rfl

end Laws

end ThreadSystem

end Apos
