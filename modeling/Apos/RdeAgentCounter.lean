import Apos.ProgramInterpretation
import Apos.RdeAgentDisks

/-!
# Watching the generation counter of a disk

`checkDiskPRGenerationCounter` queries the generation key of a disk until it has seen the
same key `X_Times` times, or two changes of the key.  The first change starts the count
again.  `2 * X_Times` queries always suffice: a first change comes within the first
`X_Times` queries, and `X_Times` more queries decide.

The buffers that a line and its token are read into live as long as the call.  A query that
prints nothing leaves the line of the query before in them, so that it counts as one that
has read the same key again.
-/

namespace Apos.RdeAgent

open Stateful

/-! ## The loop, one query at a time -/

def CounterWatch.step (watch : CounterWatch) (xTimes : Nat) (output : Output) :
    CounterWatch ⊕ (ReturnType × Bool) :=
  match collectCounter watch.line watch.buff output.lines with
  | none => .inr (.failure, true)
  | some (line, buff) =>
    if buff = "" then .inr (.failure, true)
    else if !output.exitsZero then .inr (.failure, true)
    else
      match watch.next xTimes line buff with
      | .inr counterChanged => .inr (.success, counterChanged)
      | .inl watch => .inl watch

def CounterWatch.start : CounterWatch :=
  ⟨"", "", none, false, 0⟩

/-- The environment answers the queries from a stream and counts them. -/
def queryStream (outputs : Nat → Output) (others : (op : Op) → op.Reply) :
    (op : Op) → Nat → op.Reply × Nat
  | .queryGenerationKey _, queries => (some (outputs queries), queries + 1)
  | op, queries => (others op, queries)

section Loop

variable {outputs : Nat → Output} {others : (op : Op) → op.Reply} {disk : String}
  {xTimes launches queries : Nat} {agent : Agent} {watch : CounterWatch}

abbrev Answers (outputs : Nat → Output) (others : (op : Op) → op.Reply) {α : Type} (act : Act α)
    (agent : Agent) (queries : Nat) (value : α) (agent' : Agent) (queries' : Nat) : Prop :=
  Returns (S := commands) (queryStream outputs others) act agent queries value agent'
    queries'

def afterQuery (disk : String) (xTimes launches : Nat) (watch : CounterWatch) :
    Option Output → Act (ReturnType × Bool)
  | none => pure (.failure, true)
  | some output =>
    match watch.step xTimes output with
    | .inl next => watchCounter disk xTimes launches next
    | .inr result => pure result

theorem watchCounter_succ :
    watchCounter disk xTimes (launches + 1) watch =
      ask (.queryGenerationKey disk) >>= afterQuery disk xTimes launches watch := by
  rw [watchCounter]
  congr 1
  funext reply
  cases reply with
  | none => rfl
  | some output =>
    simp only [afterQuery, CounterWatch.step]
    cases collectCounter watch.line watch.buff output.lines with
    | none => rfl
    | some buffers =>
      simp only
      by_cases empty : buffers.2 = ""
      · simp only [if_pos empty]
      · simp only [if_neg empty]
        cases output.exitsZero with
        | false => rfl
        | true => cases watch.next xTimes buffers.1 buffers.2 <;> rfl

theorem watchCounter_ends {result : ReturnType × Bool}
    (ends : watch.step xTimes (outputs queries) = .inr result) :
    Answers outputs others (watchCounter disk xTimes (launches + 1) watch) agent queries result
      agent (queries + 1) := by
  rw [watchCounter_succ]
  apply returns_bind (returns_ask rfl)
  simp only [afterQuery, ends]
  exact returns_pure

theorem watchCounter_goes_on {next : CounterWatch} {agent' : Agent}
    {result : ReturnType × Bool} {queries' : Nat}
    (goesOn : watch.step xTimes (outputs queries) = .inl next)
    (later : Answers outputs others (watchCounter disk xTimes launches next) agent (queries + 1)
      result agent' queries') :
    Answers outputs others (watchCounter disk xTimes (launches + 1) watch) agent queries result
      agent' queries' := by
  rw [watchCounter_succ]
  apply returns_bind (returns_ask rfl)
  simp only [afterQuery, goesOn]
  exact later

end Loop

/-! ## Queries that print a key -/

structure KeyLine (output : Output) (key : UInt32) : Prop where
  line : ∃ line, output.lines = [line] ∧ scanToken "" line ≠ "" ∧
    generationKey (scanToken "" line) = key
  exitsZero : output.exitsZero = true

theorem scanToken_eq_or (buff line : String) :
    scanToken buff line = scanToken "" line ∨ scanToken "" line = "" := by
  unfold scanToken
  split
  · exact .inr rfl
  · exact .inl rfl

structure HoldsKey (line buff : String) (key : UInt32) : Prop where
  someLine : line ≠ ""
  someToken : buff ≠ ""
  scanned : scanToken buff line = buff
  isKey : generationKey buff = key

theorem KeyLine.step {output : Output} {key : UInt32} (keyLine : KeyLine output key)
    (watch : CounterWatch) (xTimes : Nat) :
    ∃ line buff, HoldsKey line buff key ∧
      watch.step xTimes output =
        match watch.next xTimes line buff with
        | .inr counterChanged => .inr (.success, counterChanged)
        | .inl watch => .inl watch := by
  obtain ⟨line, lines, hasToken, isKey⟩ := keyLine.line
  have nonempty : line ≠ "" := by
    rintro rfl
    exact hasToken rfl
  have scanned : scanToken watch.buff line = scanToken "" line :=
    (scanToken_eq_or watch.buff line).resolve_right hasToken
  have collected : collectCounter watch.line watch.buff output.lines =
      some (line, scanToken "" line) := by
    rw [lines, ← scanned]
    rfl
  have again : scanToken (scanToken "" line) line = scanToken "" line :=
    (scanToken_eq_or _ line).resolve_right hasToken
  refine ⟨line, scanToken "" line, ⟨nonempty, hasToken, again, isKey⟩, ?_⟩
  rw [CounterWatch.step, collected]
  simp only
  rw [if_neg hasToken, if_neg (by simp [keyLine.exitsZero])]

/-! ## The course of the watch -/

/-- The first `queries` keys are equal, and there are fewer than `X_Times` of them. -/
structure Calm (xTimes : Nat) (keys : Nat → UInt32) (queries : Nat) : Prop where
  within : queries < xTimes
  same : ∀ i, i < queries → keys i = keys 0

/-- Among the first `queries` keys there is one change, and at most `X_Times` keys come after
the change. -/
structure Spiked (xTimes : Nat) (keys : Nat → UInt32) (change queries : Nat) : Prop where
  first : 1 ≤ change
  early : change < xTimes
  after : change < queries
  within : queries ≤ change + xTimes
  before : ∀ i, i < change → keys i = keys 0
  changes : keys change ≠ keys (change - 1)
  since : ∀ i, change ≤ i → i < queries → keys i = keys change

inductive Watching (xTimes : Nat) (keys : Nat → UInt32) (queries : Nat) : CounterWatch → Prop
  | calm {watch : CounterWatch} (calm : Calm xTimes keys queries)
      (first : watch.frstPRGenKey = if queries = 0 then none else some (keys 0))
      (noSpike : watch.spikeRaised = false) (count : watch.iterations = queries) :
      Watching xTimes keys queries watch
  | spiked {watch : CounterWatch} (change : Nat) (spiked : Spiked xTimes keys change queries)
      (first : watch.frstPRGenKey = some (keys change)) (spike : watch.spikeRaised = true)
      (count : watch.iterations + change + 1 = queries) : Watching xTimes keys queries watch

/-- How the watch ends after the query with index `last`. -/
inductive Decided (xTimes : Nat) (keys : Nat → UInt32) (last : Nat) : Bool → Prop
  | still (same : ∀ i, i < xTimes → keys i = keys 0) (atLast : last + 1 = xTimes) :
      Decided xTimes keys last false
  | stillAfter (change : Nat) (spiked : Spiked xTimes keys change last)
      (same : keys last = keys change) (atLast : last = change + xTimes) :
      Decided xTimes keys last false
  | changed (change : Nat) (spiked : Spiked xTimes keys change last)
      (again : keys last ≠ keys change) : Decided xTimes keys last true

section Course

variable {xTimes queries : Nat} {keys : Nat → UInt32} {watch : CounterWatch} {line buff : String}

theorem watching_start (positive : 1 ≤ xTimes) : Watching xTimes keys 0 .start :=
  .calm ⟨positive, fun _ below => absurd below (Nat.not_lt_zero _)⟩ rfl rfl rfl

theorem Watching.next (watching : Watching xTimes keys queries watch)
    (isKey : generationKey buff = keys queries) :
    (∃ after, watch.next xTimes line buff = .inl after ∧ after.line = line ∧ after.buff = buff ∧
        Watching xTimes keys (queries + 1) after) ∨
      ∃ changed, watch.next xTimes line buff = .inr changed ∧
        Decided xTimes keys queries changed := by
  cases watching with
  | calm calm first noSpike count =>
    have fewer := calm.within
    by_cases same : keys queries = keys 0
    · have unchanged : ¬watch.frstPRGenKey.getD (generationKey buff) ≠ generationKey buff := by
        rw [first, isKey, same]
        split <;> simp
      have sameSoFar : ∀ i, i < queries + 1 → keys i = keys 0 := by
        intro i below
        rcases Nat.lt_succ_iff_lt_or_eq.mp below with earlier | rfl
        · exact calm.same i earlier
        · exact same
      rw [CounterWatch.next, if_neg unchanged, count]
      by_cases full : queries + 1 = xTimes
      · rw [if_pos full]
        exact .inr ⟨false, rfl, .still (full ▸ sameSoFar) full⟩
      · rw [if_neg full]
        refine .inl ⟨_, rfl, rfl, rfl, .calm ⟨by omega, sameSoFar⟩ ?_ noSpike rfl⟩
        simp [isKey, same]
    · have later : queries ≠ 0 := by
        rintro rfl
        exact same rfl
      have differs : watch.frstPRGenKey.getD (generationKey buff) ≠ generationKey buff := by
        rw [first, isKey, if_neg later]
        exact Ne.symm same
      rw [CounterWatch.next, if_pos differs, noSpike, if_neg Bool.false_ne_true,
        if_neg (by omega)]
      refine .inl ⟨_, rfl, rfl, rfl, .spiked queries ?_ ?_ rfl ?_⟩
      · refine ⟨by omega, fewer, by omega, by omega, calm.same, ?_, ?_⟩
        · rwa [calm.same (queries - 1) (by omega)]
        · intro i atLeast below
          rw [show i = queries by omega]
      · rw [isKey]
      · exact Nat.zero_add _ ▸ rfl
  | spiked change spiked first spike count =>
    by_cases same : keys queries = keys change
    · have unchanged : ¬watch.frstPRGenKey.getD (generationKey buff) ≠ generationKey buff := by
        rw [first, isKey, same]
        simp
      rw [CounterWatch.next, if_neg unchanged]
      by_cases full : watch.iterations + 1 = xTimes
      · rw [if_pos full]
        exact .inr ⟨false, rfl, .stillAfter change spiked same (by omega)⟩
      · rw [if_neg full]
        have within := spiked.within
        have after := spiked.after
        refine .inl ⟨_, rfl, rfl, rfl, .spiked change ?_ ?_ spike ?_⟩
        · refine ⟨spiked.first, spiked.early, by omega, by omega, spiked.before,
            spiked.changes, ?_⟩
          intro i atLeast below
          rcases Nat.lt_succ_iff_lt_or_eq.mp below with earlier | rfl
          · exact spiked.since i atLeast earlier
          · exact same
        · rw [isKey, same]
        · simp only
          omega
    · have differs : watch.frstPRGenKey.getD (generationKey buff) ≠ generationKey buff := by
        rw [first, isKey]
        exact Ne.symm same
      rw [CounterWatch.next, if_pos differs, spike, if_pos rfl]
      exact .inr ⟨true, rfl, .changed change spiked same⟩

theorem Watching.lt (watching : Watching xTimes keys queries watch) : queries < 2 * xTimes := by
  cases watching with
  | calm calm => have := calm.within; omega
  | spiked change spiked => have := spiked.within; have := spiked.early; omega

end Course

/-! ## When the counter counts as unchanged -/

/-- The first `X_Times` keys are equal, or there is one change among them, at an index from
which `X_Times + 1` keys are equal. -/
def StandsStill (xTimes : Nat) (keys : Nat → UInt32) : Prop :=
  (∀ i, i < xTimes → keys i = keys 0) ∨
    ∃! change, (1 ≤ change ∧ change ≤ xTimes - 1) ∧ (∀ i, i < change → keys i = keys 0) ∧
      keys change ≠ keys (change - 1) ∧
      ∀ i, change ≤ i → i ≤ change + xTimes → keys i = keys change

def TwoChanges (keys : Nat → UInt32) (queries : Nat) : Prop :=
  ∃ first second, 1 ≤ first ∧ first < second ∧ second + 1 = queries ∧
    keys first ≠ keys (first - 1) ∧ keys second ≠ keys (second - 1)

section Verdict

variable {xTimes last change : Nat} {keys : Nat → UInt32}

theorem Spiked.change_eq {queries other : Nat} (spiked : Spiked xTimes keys change queries)
    (before : ∀ i, i < other → keys i = keys 0) (changes : keys other ≠ keys (other - 1)) :
    other = change := by
  have first := spiked.first
  rcases Nat.lt_trichotomy other change with earlier | same | later
  · have atOther := spiked.before other earlier
    have beforeOther := spiked.before (other - 1) (by omega)
    exact absurd (atOther.trans beforeOther.symm) changes
  · exact same
  · have atChange := before change later
    have beforeChange := before (change - 1) (by omega)
    exact absurd (atChange.trans beforeChange.symm) spiked.changes

theorem Decided.standsStill (decided : Decided xTimes keys last false) :
    StandsStill xTimes keys := by
  cases decided with
  | still same atLast => exact .inl same
  | stillAfter change spiked same atLast =>
    have early := spiked.early
    refine .inr ⟨change, ⟨⟨spiked.first, by omega⟩, spiked.before, spiked.changes, ?_⟩, ?_⟩
    · intro i atLeast atMost
      by_cases isLast : i = last
      · rw [isLast, same]
      · exact spiked.since i atLeast (by omega)
    · rintro other ⟨-, before, changes, -⟩
      exact spiked.change_eq before changes

theorem Decided.not_standsStill (decided : Decided xTimes keys last true) :
    ¬StandsStill xTimes keys := by
  cases decided with
  | changed change spiked again =>
    rintro (same | ⟨other, ⟨-, before, changes, since⟩, -⟩)
    · have first := spiked.first
      have early := spiked.early
      have atChange := same change early
      have beforeChange := same (change - 1) (by omega)
      exact spiked.changes (atChange.trans beforeChange.symm)
    · have isChange := spiked.change_eq before changes
      subst isChange
      exact again (since last (Nat.le_of_lt spiked.after) spiked.within)

theorem Decided.twoChanges (decided : Decided xTimes keys last true) :
    TwoChanges keys (last + 1) ∧ last + 1 ≤ 2 * xTimes := by
  cases decided with
  | changed change spiked again =>
    have after := spiked.after
    have within := spiked.within
    have early := spiked.early
    have beforeLast := spiked.since (last - 1) (by omega) (by omega)
    refine ⟨⟨change, last, spiked.first, after, rfl, spiked.changes, ?_⟩, by omega⟩
    rwa [beforeLast]

end Verdict

section Check

variable {outputs : Nat → Output} {others : (op : Op) → op.Reply} {disk : String} {agent : Agent}
  {keys : Nat → UInt32}

theorem watchCounter_decides {xTimes launches queries : Nat} {watch : CounterWatch}
    (keyLines : ∀ n, KeyLine (outputs n) (keys n)) (watching : Watching xTimes keys queries watch)
    (left : queries + launches = 2 * xTimes) :
    ∃ changed last, Answers outputs others (watchCounter disk xTimes launches watch) agent queries
      (.success, changed) agent (last + 1) ∧ Decided xTimes keys last changed := by
  induction launches generalizing queries watch with
  | zero =>
    have fewer := watching.lt
    omega
  | succ launches ih =>
    obtain ⟨line, buff, holdsKey, step⟩ := (keyLines queries).step watch xTimes
    rcases @Watching.next xTimes queries keys watch line buff watching holdsKey.isKey with
      ⟨after, next, -, -, watchingAfter⟩ | ⟨changed, next, decided⟩
    · rw [next] at step
      obtain ⟨changed, last, answers, decided⟩ := ih watchingAfter (by omega)
      exact ⟨changed, last, watchCounter_goes_on step answers, decided⟩
    · rw [next] at step
      exact ⟨changed, queries, watchCounter_ends step, decided⟩

/-- On every stream of keys the check succeeds.  It finds the counter unchanged exactly if the
keys stand still, and otherwise has seen two changes within its queries. -/
theorem counter_check_exact (positive : 1 ≤ agent.xTimes)
    (keyLines : ∀ n, KeyLine (outputs n) (keys n)) :
    ∃ changed queries, Answers outputs others (checkDiskPRGenerationCounter disk) agent 0
        (.success, changed) agent queries ∧
      (changed = false ↔ StandsStill agent.xTimes keys) ∧
      (¬StandsStill agent.xTimes keys →
        changed = true ∧ TwoChanges keys queries ∧ queries ≤ 2 * agent.xTimes) := by
  obtain ⟨changed, last, answers, decided⟩ := @watchCounter_decides outputs others disk agent keys
    agent.xTimes (agent.xTimes * 2) 0 .start keyLines (watching_start positive) (by omega)
  refine ⟨changed, last + 1, ?_, ?_, ?_⟩
  · apply returns_bind returns_get
    apply returns_bind answers
    exact returns_bind (returns_ask rfl) returns_pure
  · cases changed with
    | false => exact ⟨fun _ => decided.standsStill, fun _ => rfl⟩
    | true =>
      exact ⟨fun impossible => absurd impossible Bool.true_eq_false.mp,
        fun still => absurd still decided.not_standsStill⟩
  · intro moves
    cases changed with
    | false => exact absurd decided.standsStill moves
    | true => exact ⟨rfl, decided.twoChanges⟩

end Check

def refusing : (op : Op) → op.Reply
  | .scsi _ _ => .failure
  | .queryGenerationKey _ => none
  | .listPortDisk => none
  | .listRaidDisks => none
  | .portStatus _ _ => none
  | .diskStatusFile _ => none
  | .assembleMount => .failure
  | .disableUnmount => .failure
  | .activateMIPs _ => .failure
  | .deactivateMIPs => .failure
  | .cleanup => .failure
  | .queryTopology _ => none
  | .componentErrorReport _ => .failure
  | .finalize => .failure
  | .rebootNode => .failure
  | .amfResponse _ => .failure
  | .quiescingComplete _ => .failure
  | .readConfig => none
  | .readNodeId => none
  | .readHwType => none
  | .updateDiskStatus => .failure
  | .tipcInitialize => .failure
  | .mark _ => ()

def oneChange (query : Nat) : Output :=
  ⟨[if query = 0 then "7\n" else "8\n"], true⟩

theorem keyLine_oneChange (query : Nat) :
    KeyLine (oneChange query) (if query = 0 then 7 else 8) := by
  refine ⟨⟨_, rfl, ?_⟩, rfl⟩
  split <;> decide +kernel

theorem counter_check_after_one_change :
    (∀ n, KeyLine (oneChange n) (if n = 0 then 7 else 8)) ∧
      ∃ changed queries, Answers oneChange refusing (checkDiskPRGenerationCounter "sda")
          Agent.initial 0 (.success, changed) Agent.initial queries ∧
        (changed = false ↔ StandsStill 3 fun n => if n = 0 then 7 else 8) := by
  obtain ⟨changed, queries, answers, unchanged, -⟩ :=
    @counter_check_exact oneChange refusing "sda" Agent.initial _ (by decide) keyLine_oneChange
  exact ⟨keyLine_oneChange, changed, queries, answers, unchanged⟩

/-! ## Queries that print nothing -/

inductive Answered (output : Output) : Prop
  | key (key : UInt32) (keyLine : KeyLine output key)
  | empty (lines : output.lines = []) (exitsZero : output.exitsZero = true)
  | failed (exitsNonzero : output.exitsZero = false)

/-- The watch before the query with an index, if the call has not returned before. -/
def watchAt (xTimes : Nat) (outputs : Nat → Output) : Nat → Option CounterWatch
  | 0 => some .start
  | query + 1 =>
    match watchAt xTimes outputs query with
    | none => none
    | some watch =>
      match watch.step xTimes (outputs query) with
      | .inl after => some after
      | .inr _ => none

/-- An iteration in which the call takes the key for unchanged. -/
def CounterWatch.Counts (watch : CounterWatch) (output : Output) : Prop :=
  ∃ line buff, collectCounter watch.line watch.buff output.lines = some (line, buff) ∧
    buff ≠ "" ∧ output.exitsZero = true ∧
    watch.frstPRGenKey.getD (generationKey buff) = generationKey buff

def CountedUnchanged (xTimes : Nat) (outputs : Nat → Output) (query : Nat) : Prop :=
  ∃ watch, watchAt xTimes outputs query = some watch ∧ watch.Counts (outputs query)

def Output.key (output : Output) : UInt32 :=
  generationKey (scanToken "" (output.lines.headD ""))

def Undecided (xTimes : Nat) (keys : Nat → UInt32) (queries : Nat) : Prop :=
  Calm xTimes keys queries ∨ ∃ change, Spiked xTimes keys change queries

def SilenceFails (xTimes : Nat) (outputs : Nat → Output) : Prop :=
  ∀ query, 1 ≤ query → (∀ i, i < query → ∃ key, KeyLine (outputs i) key) →
    Undecided xTimes (fun i => (outputs i).key) query → (outputs query).lines = [] →
    (outputs query).exitsZero = false

theorem KeyLine.key_eq {output : Output} {key : UInt32} (keyLine : KeyLine output key) :
    output.key = key := by
  obtain ⟨line, lines, -, isKey⟩ := keyLine.line
  rw [Output.key, lines]
  exact isKey

section Silence

variable {xTimes : Nat} {keys : Nat → UInt32} {outputs : Nat → Output}

theorem Watching.undecided {queries : Nat} {watch : CounterWatch}
    (watching : Watching xTimes keys queries watch) : Undecided xTimes keys queries := by
  cases watching with
  | calm calm => exact .inl calm
  | spiked change spiked => exact .inr ⟨change, spiked⟩

theorem Undecided.earlier {queries : Nat} (undecided : Undecided xTimes keys (queries + 1)) :
    Undecided xTimes keys queries := by
  rcases undecided with calm | ⟨change, spiked⟩
  · have within := calm.within
    exact .inl ⟨by omega, fun i below => calm.same i (by omega)⟩
  · have after := spiked.after
    have within := spiked.within
    by_cases atChange : change = queries
    · subst atChange
      exact .inl ⟨spiked.early, spiked.before⟩
    · refine .inr ⟨change, spiked.first, spiked.early, by omega, by omega, spiked.before,
        spiked.changes, fun i atLeast below => spiked.since i atLeast (by omega)⟩

theorem Decided.not_undecided {last : Nat} {changed : Bool}
    (decided : Decided xTimes keys last changed) : ¬Undecided xTimes keys (last + 1) := by
  rintro (calm | ⟨other, spiked⟩)
  · have within := calm.within
    cases decided with
    | still | stillAfter => omega
    | changed change spiked again =>
      have after := spiked.after
      exact again ((calm.same last (by omega)).trans (calm.same change (by omega)).symm)
  · have after := spiked.after
    have within := spiked.within
    have early := spiked.early
    cases decided with
    | still same atLast =>
      have first := spiked.first
      have atOther := same other early
      have beforeOther := same (other - 1) (by omega)
      exact spiked.changes (atOther.trans beforeOther.symm)
    | stillAfter change earlier same atLast =>
      have isChange := earlier.change_eq spiked.before spiked.changes
      omega
    | changed change earlier again =>
      have isChange := earlier.change_eq spiked.before spiked.changes
      subst isChange
      exact again (spiked.since last (Nat.le_of_lt earlier.after) (Nat.lt_succ_self _))

theorem watchAt_of_undecided {query : Nat}
    (positive : 1 ≤ xTimes) (keyLines : ∀ i, i < query → KeyLine (outputs i) (keys i))
    (undecided : Undecided xTimes keys query) :
    ∃ watch, watchAt xTimes outputs query = some watch ∧ Watching xTimes keys query watch ∧
      (1 ≤ query → HoldsKey watch.line watch.buff (keys (query - 1))) := by
  induction query with
  | zero => exact ⟨.start, rfl, watching_start positive, fun some => absurd some (by decide)⟩
  | succ query ih =>
    obtain ⟨watch, reached, watching, -⟩ :=
      ih (fun i below => keyLines i (by omega)) undecided.earlier
    obtain ⟨line, buff, holdsKey, step⟩ := (keyLines query (by omega)).step watch xTimes
    rcases @Watching.next xTimes query keys watch line buff watching holdsKey.isKey with
      ⟨after, next, isLine, isBuff, watchingAfter⟩ | ⟨changed, next, decided⟩
    · rw [next] at step
      refine ⟨after, ?_, watchingAfter, fun _ => ?_⟩
      · rw [watchAt, reached]
        simp only [step]
      · rw [isLine, isBuff]
        exact holdsKey
    · exact absurd undecided decided.not_undecided

theorem Watching.counts_silence {query : Nat} {watch : CounterWatch} {output : Output}
    (later : 1 ≤ query) (watching : Watching xTimes keys query watch)
    (holdsKey : HoldsKey watch.line watch.buff (keys (query - 1))) (lines : output.lines = [])
    (exitsZero : output.exitsZero = true) : watch.Counts output := by
  refine ⟨watch.line, watch.buff, ?_, holdsKey.someToken, exitsZero, ?_⟩
  · rw [collectCounter, lines]
    simp only [List.getLast?_nil, if_neg holdsKey.someLine, holdsKey.scanned]
  · rw [holdsKey.isKey]
    cases watching with
    | calm calm first =>
      rw [first, if_neg (by omega), Option.getD_some, calm.same (query - 1) (by omega)]
    | spiked change spiked first =>
      have after := spiked.after
      rw [first, Option.getD_some, spiked.since (query - 1) (by omega) (by omega)]

theorem keyLines_of_watchAt {query : Nat} {watch : CounterWatch} (positive : 1 ≤ xTimes)
    (answered : ∀ n, Answered (outputs n)) (silenceFails : SilenceFails xTimes outputs)
    (reached : watchAt xTimes outputs query = some watch) :
    (∀ i, i < query → ∃ key, KeyLine (outputs i) key) ∧
      Watching xTimes (fun i => (outputs i).key) query watch := by
  induction query generalizing watch with
  | zero =>
    cases reached
    exact ⟨fun i below => absurd below (Nat.not_lt_zero i), watching_start positive⟩
  | succ query ih =>
    rw [watchAt] at reached
    split at reached
    · cases reached
    · next before reachedBefore =>
        obtain ⟨keyLines, watching⟩ := ih reachedBefore
        split at reached
        · next after goesOn =>
            cases reached
            cases answered query with
            | key key keyLine =>
              obtain ⟨line, buff, holdsKey, step⟩ := keyLine.step before xTimes
              have isKey : generationKey buff = (outputs query).key :=
                holdsKey.isKey.trans keyLine.key_eq.symm
              refine ⟨fun i below => ?_, ?_⟩
              · rcases Nat.lt_succ_iff_lt_or_eq.mp below with earlier | rfl
                · exact keyLines i earlier
                · exact ⟨key, keyLine⟩
              · rcases @Watching.next xTimes query _ before line buff watching isKey with
                  ⟨other, next, -, -, watchingAfter⟩ | ⟨changed, next, -⟩
                · rw [next, goesOn] at step
                  cases step
                  exact watchingAfter
                · rw [next, goesOn] at step
                  cases step
            | empty lines exitsZero =>
              exfalso
              by_cases first : query = 0
              · subst first
                cases reachedBefore
                rw [CounterWatch.step, lines] at goesOn
                cases goesOn
              · have fails := silenceFails query (by omega) keyLines watching.undecided lines
                rw [exitsZero] at fails
                cases fails
            | failed exitsNonzero =>
              exfalso
              rw [CounterWatch.step, exitsNonzero] at goesOn
              split at goesOn
              · cases goesOn
              · split at goesOn
                · cases goesOn
                · cases goesOn
        · cases reached

theorem counted_keyLines_iff (positive : 1 ≤ xTimes) (answered : ∀ n, Answered (outputs n)) :
    (∀ query, query < 2 * xTimes → CountedUnchanged xTimes outputs query →
        ∃ key, KeyLine (outputs query) key) ↔ SilenceFails xTimes outputs := by
  constructor
  · intro own query later keyLines undecided lines
    by_contra exitsZero
    rw [Bool.not_eq_false] at exitsZero
    have keysRead : ∀ i, i < query → KeyLine (outputs i) (outputs i).key := by
      intro i below
      obtain ⟨key, keyLine⟩ := keyLines i below
      rw [keyLine.key_eq]
      exact keyLine
    obtain ⟨watch, reached, watching, holdsKey⟩ :=
      watchAt_of_undecided positive keysRead undecided
    obtain ⟨key, keyLine⟩ := own query watching.lt
      ⟨watch, reached, watching.counts_silence later (holdsKey later) lines exitsZero⟩
    obtain ⟨line, some, -⟩ := keyLine.line
    rw [lines] at some
    cases some
  · rintro silenceFails query - ⟨watch, reached, line, buff, collected, -, exitsZero, -⟩
    obtain ⟨keyLines, watching⟩ := keyLines_of_watchAt positive answered silenceFails reached
    cases answered query with
    | key key keyLine => exact ⟨key, keyLine⟩
    | empty lines _ =>
      exfalso
      by_cases first : query = 0
      · subst first
        cases reached
        rw [lines] at collected
        cases collected
      · have fails := silenceFails query (by omega) keyLines watching.undecided lines
        rw [exitsZero] at fails
        cases fails
    | failed exitsNonzero =>
      rw [exitsZero] at exitsNonzero
      cases exitsNonzero

end Silence

/-! ## The queries of a call -/

section Call

variable {outputs : Nat → Output} {others : (op : Op) → op.Reply} {disk : String} {agent : Agent}
  {xTimes : Nat}

theorem watchAt_eq_none {query later : Nat} (returned : watchAt xTimes outputs query = none)
    (after : query ≤ later) : watchAt xTimes outputs later = none := by
  induction after with
  | refl => exact returned
  | step _ ih => rw [watchAt, ih]

/-- The call returns, and the queries it makes are those before which it has a watch. -/
theorem watchCounter_returns {launches query : Nat} {watch : CounterWatch}
    (reached : watchAt xTimes outputs query = some watch)
    (left : query + launches = 2 * xTimes) :
    ∃ result queries, Answers outputs others (watchCounter disk xTimes launches watch) agent query
        result agent queries ∧ query ≤ queries ∧
      ∀ n, query ≤ n → (n < queries ↔ n < 2 * xTimes ∧ (watchAt xTimes outputs n).isSome) := by
  induction launches generalizing query watch with
  | zero =>
    refine ⟨_, query, returns_pure, Nat.le_refl _, fun n atLeast => ?_⟩
    constructor
    · intro below
      omega
    · rintro ⟨below, -⟩
      omega
  | succ launches ih =>
    have here : (watchAt xTimes outputs query).isSome = true := by
      rw [reached]
      rfl
    cases step : watch.step xTimes (outputs query) with
    | inl after =>
      have reachedNext : watchAt xTimes outputs (query + 1) = some after := by
        rw [watchAt, reached]
        simp only [step]
      obtain ⟨result, queries, answers, further, made⟩ := ih reachedNext (by omega)
      refine ⟨result, queries, watchCounter_goes_on step answers, by omega,
        fun n atLeast => ?_⟩
      rcases Nat.eq_or_lt_of_le atLeast with rfl | later
      · exact ⟨fun _ => ⟨by omega, here⟩, fun _ => further⟩
      · exact made n later
    | inr result =>
      have returned : watchAt xTimes outputs (query + 1) = none := by
        rw [watchAt, reached]
        simp only [step]
      refine ⟨result, query + 1, watchCounter_ends step, by omega, fun n atLeast => ?_⟩
      rcases Nat.eq_or_lt_of_le atLeast with rfl | later
      · exact ⟨fun _ => ⟨by omega, here⟩, fun _ => Nat.lt_succ_self _⟩
      · rw [watchAt_eq_none returned later]
        constructor
        · intro below
          omega
        · rintro ⟨-, none⟩
          cases none

/-- On every stream of key lines, empty outputs and failures the call returns.  Each query that
it counts as unchanged has printed its own key exactly if, after key lines that do not decide
yet, a query that prints nothing fails. -/
theorem counted_queries_own_key_iff (positive : 1 ≤ agent.xTimes)
    (answered : ∀ n, Answered (outputs n)) :
    ∃ result queries, Answers outputs others (checkDiskPRGenerationCounter disk) agent 0 result
        agent queries ∧
      ((∀ query, query < queries → CountedUnchanged agent.xTimes outputs query →
        ∃ key, KeyLine (outputs query) key) ↔ SilenceFails agent.xTimes outputs) := by
  obtain ⟨result, queries, answers, -, made⟩ := @watchCounter_returns outputs others disk agent
    agent.xTimes (agent.xTimes * 2) 0 .start rfl (by omega)
  refine ⟨result, queries, ?_, ?_⟩
  · apply returns_bind returns_get
    apply returns_bind answers
    exact returns_bind (returns_ask rfl) returns_pure
  · rw [← counted_keyLines_iff positive answered]
    constructor
    · intro own query below counted
      have reached : (watchAt agent.xTimes outputs query).isSome = true := by
        obtain ⟨watch, reached, -⟩ := counted
        rw [reached]
        rfl
      exact own query ((made query (Nat.zero_le _)).mpr ⟨below, reached⟩) counted
    · intro own query isMade counted
      exact own query ((made query (Nat.zero_le _)).mp isMade).1 counted

end Call

theorem counted_queries_own_key_after_one_change :
    SilenceFails 3 oneChange ∧
      ∃ result queries, Answers oneChange refusing (checkDiskPRGenerationCounter "sda")
          Agent.initial 0 result Agent.initial queries ∧
        ∀ query, query < queries → CountedUnchanged 3 oneChange query →
          ∃ key, KeyLine (oneChange query) key := by
  have silenceFails : SilenceFails 3 oneChange := by
    intro query _ _ _ lines
    cases lines
  obtain ⟨result, queries, answers, own⟩ := @counted_queries_own_key_iff oneChange refusing "sda"
    Agent.initial (by decide) fun n => .key _ (keyLine_oneChange n)
  exact ⟨silenceFails, result, queries, answers, own.mpr silenceFails⟩

def silentAfterOne (query : Nat) : Output :=
  ⟨if query = 0 then ["7\n"] else [], true⟩

def watchAfterOne (queries : Nat) : CounterWatch :=
  ⟨"7\n", "7", some 7, false, queries⟩

theorem step_silentAfterOne_first :
    CounterWatch.start.step 3 (silentAfterOne 0) = .inl (watchAfterOne 1) :=
  rfl

theorem step_silentAfterOne_second :
    (watchAfterOne 1).step 3 (silentAfterOne 1) = .inl (watchAfterOne 2) :=
  rfl

theorem step_silentAfterOne_third :
    (watchAfterOne 2).step 3 (silentAfterOne 2) = .inr (.success, false) :=
  rfl

/-- A single answer and two silent queries count as three equal keys. -/
theorem silence_counted_as_unchanged :
    (∀ n, Answered (silentAfterOne n)) ∧
      Answers silentAfterOne refusing (checkDiskPRGenerationCounter "sda") Agent.initial 0
        (.success, false) Agent.initial 3 ∧
      CountedUnchanged 3 silentAfterOne 2 ∧ ¬∃ key, KeyLine (silentAfterOne 2) key := by
  refine ⟨?_, ?_, ?_, ?_⟩
  · intro n
    cases n with
    | zero => exact .key 7 ⟨⟨"7\n", rfl, by decide +kernel, by decide +kernel⟩, rfl⟩
    | succ n => exact .empty rfl rfl
  · have watched : Answers silentAfterOne refusing (watchCounter "sda" 3 6 .start) Agent.initial 0
        (.success, false) Agent.initial 3 :=
      watchCounter_goes_on step_silentAfterOne_first
        (watchCounter_goes_on step_silentAfterOne_second
          (watchCounter_ends step_silentAfterOne_third))
    apply returns_bind returns_get
    apply returns_bind watched
    exact returns_bind (returns_ask rfl) returns_pure
  · exact ⟨watchAfterOne 2, rfl, "7\n", "7", rfl, by decide, rfl, rfl⟩
  · rintro ⟨key, keyLine⟩
    obtain ⟨line, lines, -⟩ := keyLine.line
    cases lines

end Apos.RdeAgent
