import Apos.DrbdAgentHealth

/-!
# Starting and stopping the jobs of the active role

The start of the DRBD jobs is a sequence of three commands.  The stop commands are
guarded by a flag that is set only at the end of that sequence, and they stop at the
first failure.  This file follows a start through a later error report and says
exactly when everything that was started has been stopped again.
-/

namespace Apos.DrbdAgent

open Program (run_call run_bind)

def ran (command : Command) (history : History) : Bool :=
  history.any fun exchange => exchange.1 = .ask (.execlp command)

def succeeded (command : Command) (history : History) : Bool :=
  history.any fun exchange => exchange = ⟨.ask (.execlp command), some 0⟩

variable (command : Command)

@[simp]
theorem ran_nil : ran command [] = false :=
  rfl

variable (exchange : Exchange signature) (history : History)

@[simp]
theorem ran_cons :
    ran command (exchange :: history) =
      (decide (exchange.1 = .ask (.execlp command)) || ran command history) :=
  List.any_cons

variable (first second : History)

@[simp]
theorem ran_append : ran command (first ++ second) = (ran command first || ran command second) :=
  List.any_append

def runs (command : Command) (history : History) : Nat :=
  history.countP fun exchange => exchange.1 = .ask (.execlp command)

@[simp]
theorem runs_nil : runs command [] = 0 :=
  rfl

@[simp]
theorem runs_cons :
    runs command (exchange :: history) =
      runs command history + if exchange.1 = .ask (.execlp command) then 1 else 0 := by
  simp [runs, List.countP_cons]

@[simp]
theorem runs_append : runs command (first ++ second) = runs command first + runs command second :=
  List.countP_append

@[simp]
theorem succeeded_nil : succeeded command [] = false :=
  rfl

@[simp]
theorem succeeded_cons :
    succeeded command (exchange :: history) =
      (decide (exchange = ⟨.ask (.execlp command), some 0⟩) || succeeded command history) :=
  List.any_cons

@[simp]
theorem succeeded_append :
    succeeded command (first ++ second) =
      (succeeded command first || succeeded command second) :=
  List.any_append

theorem succeeded_ran {command : Command} {history : History}
    (success : succeeded command history = true) : ran command history = true := by
  obtain ⟨exchange, member, isSuccess⟩ := List.any_eq_true.mp success
  obtain rfl := of_decide_eq_true isSuccess
  exact List.any_eq_true.mpr ⟨_, member, decide_eq_true rfl⟩

/-- Whatever was started has had its stop command issued. -/
def Undone (history : History) : Prop :=
  (succeeded .assemble history = true → ran .disable history = true) ∧
    (succeeded .activateMips history = true → ran .deactivateMips history = true)

instance (history : History) : Decidable (Undone history) :=
  inferInstanceAs (Decidable (_ ∧ _))

abbrev Outcomes : Type := Command → Nat → Option Int

/-- An environment in which the commands end as `outcomes` tells and everything else is
arbitrary. -/
def answering (outcomes : Outcomes) (others : Environment signature) :
    Environment signature := fun history op =>
  match op with
  | .ask (.execlp command) => outcomes command (runs command history)
  | op => others history op

def succeeds (outcomes : Outcomes) (command : Command) (attempt : Nat) : Bool :=
  outcomes command attempt = some 0

variable (outcomes : Outcomes) (others : Environment signature)

theorem execlp_run (world : World) (history : History) :
    (execlp command).run machine (answering outcomes others) world history =
      ⟨.returned (if succeeds outcomes command (runs command history) then 0 else -1), world,
        history ++ [⟨.ask (.execlp command), outcomes command (runs command history)⟩]⟩ := by
  unfold execlp
  rw [ask, Program.perform_bind, run_call]
  dsimp only [act, answering]
  unfold succeeds
  cases outcomes command (runs command history) with
  | none => rfl
  | some status =>
    by_cases zero : status = 0
    · simp [zero]
    · simp [zero]

/-! ## Start -/

theorem assemble_bind {α : Type} (next : Int → Agent α) :
    assemble false >>= next = execlp .assemble >>= next := by
  simp [assemble, Program.bind_assoc]

variable {world : World}

theorem startJobs_run (idle : world.flags .startJobsDone = false) :
    let finished := startJobs.run machine (answering outcomes others) world []
    (ran .disable finished.history = false ∧ ran .deactivateMips finished.history = false ∧
      runs .failoverActive finished.history = 0 ∧ runs .deactivateMips finished.history = 0) ∧
    succeeded .assemble finished.history = succeeds outcomes .assemble 0 ∧
    succeeded .activateMips finished.history =
      (succeeds outcomes .assemble 0 && succeeds outcomes .activateMips 0) ∧
    finished.state.flags .startJobsDone =
      (succeeds outcomes .assemble 0 && succeeds outcomes .activateMips 0 &&
        succeeds outcomes .startup 0) := by
  by_cases assembled : outcomes .assemble 0 = some 0
  · by_cases addressed : outcomes .activateMips 0 = some 0
    · by_cases launched : outcomes .startup 0 = some 0
      · simp [startJobs, drbdStartJobs, assemble_bind, setMipAddrs, aposJobs, note, write,
          Program.perform, run_call, run_bind, execlp_run, succeeds, act,
          assembled, addressed, launched]
      · simp [startJobs, drbdStartJobs, assemble_bind, setMipAddrs, aposJobs, note,
          Program.perform, run_call, run_bind, execlp_run, succeeds, act,
          assembled, addressed, launched, idle]
    · simp [startJobs, drbdStartJobs, assemble_bind, setMipAddrs, note, Program.perform,
        run_call, run_bind, execlp_run, succeeds, act, assembled, addressed,
        idle]
  · simp [startJobs, drbdStartJobs, assemble_bind, note, Program.perform, run_call,
      run_bind, execlp_run, succeeds, act, assembled, idle]

/-! ## Stop -/

/-- An attempt to stop the jobs comes to the addresses and releases them. -/
def releasesNow (stops downs : Nat) : Bool :=
  succeeds outcomes .failoverActive stops && succeeds outcomes .deactivateMips downs

theorem stopJobs_run (world : World) (history : History) :
    ∃ (rCode : Int) (commands : History),
      stopJobs.run machine (answering outcomes others) world history =
        ⟨.returned rCode, world, history ++ commands⟩ ∧
      ran .disable commands = releasesNow outcomes (runs .failoverActive history)
        (runs .deactivateMips history) ∧
      (ran .disable commands = true → ran .deactivateMips commands = true) ∧
      (ran .disable commands = false → rCode = -1 ∧ runs .failoverActive commands = 1 ∧
        runs .deactivateMips commands =
          if succeeds outcomes .failoverActive (runs .failoverActive history) then 1 else 0) := by
  let issue : Command → Exchange signature :=
    fun command => ⟨.ask (.execlp command), outcomes command (runs command history)⟩
  cases stopped : succeeds outcomes .failoverActive (runs .failoverActive history) with
  | false =>
    refine ⟨-1, [issue .failoverActive], ?_, ?_⟩
    · simp [stopJobs, drbdStopJobs, aposJobs, run_bind, execlp_run, stopped, issue]
    · simp [releasesNow, stopped, issue]
  | true =>
    cases released : succeeds outcomes .deactivateMips (runs .deactivateMips history) with
    | false =>
      refine ⟨-1, [issue .failoverActive, issue .deactivateMips], ?_, ?_⟩
      · simp [stopJobs, drbdStopJobs, aposJobs, usetMipAddrs, run_bind, execlp_run,
          stopped, released, issue]
      · simp [releasesNow, released, issue]
    | true =>
      refine ⟨if succeeds outcomes .disable (runs .disable history) then 0 else -1,
        [issue .failoverActive, issue .deactivateMips, issue .cleanup, issue .disable],
        ?_, ?_⟩
      · cases disabled : succeeds outcomes .disable (runs .disable history) <;>
          simp [stopJobs, drbdStopJobs, aposJobs, usetMipAddrs, disable, run_bind,
            execlp_run, stopped, released, disabled, issue]
      · simp [releasesNow, stopped, released, issue]

/-- One of the attempts to stop the jobs releases the addresses.  A failed attempt is
repeated by the recovery, which stops the jobs once more. -/
def releases : Nat → Nat → Nat → Bool
  | 0, stops, downs => releasesNow outcomes stops downs
  | retries + 1, stops, downs =>
    releasesNow outcomes stops downs ||
      releases retries (stops + 1)
        (downs + if succeeds outcomes .failoverActive stops then 1 else 0)

def NoCommand (op : Op) : Prop :=
  ∀ command, op ≠ .ask (.execlp command)

variable {exchanges : History}

theorem ran_of_noCommand (silent : ∀ exchange ∈ exchanges, NoCommand exchange.1)
    (command : Command) : ran command exchanges = false := by
  refine List.any_eq_false.mpr fun exchange member isCommand => ?_
  exact silent exchange member command (of_decide_eq_true isCommand)

theorem runs_of_noCommand (silent : ∀ exchange ∈ exchanges, NoCommand exchange.1)
    (command : Command) : runs command exchanges = 0 := by
  refine List.countP_eq_zero.mpr fun exchange member isCommand => ?_
  exact silent exchange member command (of_decide_eq_true isCommand)

theorem succeeded_of_noCommand (silent : ∀ exchange ∈ exchanges, NoCommand exchange.1)
    (command : Command) : succeeded command exchanges = false :=
  Bool.eq_false_iff.mpr fun success =>
    Bool.false_ne_true ((ran_of_noCommand silent command).symm.trans (succeeded_ran success))

theorem run_bind_noCommand {α β : Type} (program : Agent α) {next : α → Agent β}
    (quiet : ∀ value, (next value).Uses NoCommand) (env : Environment signature)
    (world : World) (history : History) :
    ∃ later, ((program >>= next).run machine env world history).history =
        (program.run machine env world history).history ++ later ∧
      ∀ exchange ∈ later, NoCommand exchange.1 := by
  rw [run_bind]
  cases (program.run machine env world history).outcome with
  | returned value =>
    obtain ⟨later, extended, within, _⟩ :=
      ((quiet value).ends (Program.ends_trivial _)).run machine env
        (program.run machine env world history).state
        (program.run machine env world history).history
    exact ⟨later, extended, within⟩
  | halted cause => exact ⟨[], by simp, by simp⟩

theorem read_noCommand (flag : Flag) : (read flag).Uses NoCommand :=
  Program.uses_perform nofun

theorem write_noCommand (flag : Flag) (value : Bool) : (write flag value).Uses NoCommand :=
  Program.uses_perform nofun

theorem ask_noCommand (question : Ask) (other : ∀ command, question ≠ .execlp command) :
    (ask question).Uses NoCommand :=
  Program.uses_perform fun command isCommand => other command (Op.ask.inj isCommand)

theorem msecSleep_noCommand (msecs : UInt32) : (msecSleep msecs).Uses NoCommand :=
  ask_noCommand _ nofun

/-- The common shape of `compRestart` and `nodefailOver`. -/
def reportWith (mark : Note) (failover tail : Agent Unit) : Agent Unit := do
  note mark
  let rMgrObj ← read .rMgrObj
  (if rMgrObj then shutDownAllWith failover else pure ())
  tail

theorem compRestart_eq (depth : Nat) :
    compRestart depth =
      reportWith .compRestart (nodefailOver depth) (write .compRestart true) :=
  rfl

def leaveNode : Agent Unit := do
  let haObj ← read .haObj
  (if haObj then reportFailover else pure ())
  reboot

theorem nodefailOver_eq (depth : Nat) :
    nodefailOver (depth + 1) = reportWith .nodefailOver (nodefailOver depth) leaveNode :=
  rfl

theorem leaveNode_noCommand : leaveNode.Uses NoCommand := by
  refine (read_noCommand _).bind fun haObj =>
    Program.Uses.bind (Program.uses_ite ?_ trivial) fun _ => ?_
  · refine (ask_noCommand .componentReportError nofun).bind fun result =>
      Program.uses_ite ?_ trivial
    exact (ask_noCommand .getConfig nofun).bind fun config => msecSleep_noCommand _
  · refine (ask_noCommand .sbinReboot nofun).bind fun status => Program.uses_ite trivial ?_
    exact (ask_noCommand .getConfig nofun).bind fun config =>
      (msecSleep_noCommand _).bind fun _ => trivial

theorem reportWith_run (mark : Note) (failover : Agent Unit) {tail : Agent Unit}
    (quiet : tail.Uses NoCommand) (env : Environment signature)
    (managed : world.flags .rMgrObj = true) (history : History) :
    ∃ later, ((reportWith mark failover tail).run machine env world history).history =
        ((shutDownAllWith failover).run machine env world
          (history ++ [⟨.note mark, ()⟩, ⟨.read .rMgrObj, true⟩])).history ++ later ∧
      ∀ exchange ∈ later, NoCommand exchange.1 := by
  have reported : (reportWith mark failover tail).run machine env world history =
      (shutDownAllWith failover >>= fun _ => tail).run machine env world
        (history ++ [⟨.note mark, ()⟩, ⟨.read .rMgrObj, true⟩]) := by
    simp [reportWith, note, read, Program.perform, run_call, act, managed]
  rw [reported]
  exact run_bind_noCommand _ (fun _ => quiet) env world _

/-- From `history` to `final` the disk is given back exactly if one of the attempts
releases the addresses, and the addresses first. -/
def Stops (retries : Nat) (history final : History) : Prop :=
  ∃ commands, final = history ++ commands ∧
    ran .disable commands = releases outcomes retries (runs .failoverActive history)
      (runs .deactivateMips history) ∧
    (ran .disable commands = true → ran .deactivateMips commands = true)

theorem Stops.extend {retries : Nat} {history final later : History}
    (stops : Stops outcomes retries history final)
    (silent : ∀ exchange ∈ later, NoCommand exchange.1) :
    Stops outcomes retries history (final ++ later) := by
  obtain ⟨commands, rfl, disables, ordered⟩ := stops
  refine ⟨commands ++ later, List.append_assoc .., ?_, ?_⟩
  · rw [ran_append, ran_of_noCommand silent, Bool.or_false, disables]
  · simpa [ran_of_noCommand silent] using ordered

structure FailedAttempt (history commands : History) : Prop where
  notDisabled : ran .disable commands = false
  notReleased : releasesNow outcomes (runs .failoverActive history)
    (runs .deactivateMips history) = false
  stopsEq : runs .failoverActive commands = 1
  downsEq : runs .deactivateMips commands =
    if succeeds outcomes .failoverActive (runs .failoverActive history) then 1 else 0

theorem FailedAttempt.append {history commands later : History}
    (failed : FailedAttempt outcomes history commands)
    (silent : ∀ exchange ∈ later, NoCommand exchange.1) :
    FailedAttempt outcomes history (commands ++ later) where
  notDisabled := by rw [ran_append, failed.notDisabled, ran_of_noCommand silent, Bool.or_false]
  notReleased := failed.notReleased
  stopsEq := by rw [runs_append, failed.stopsEq, runs_of_noCommand silent]
  downsEq := by rw [runs_append, failed.downsEq, runs_of_noCommand silent, Nat.add_zero]

theorem FailedAttempt.gives_up {history commands : History}
    (failed : FailedAttempt outcomes history commands) :
    Stops outcomes 0 history (history ++ commands) := by
  refine ⟨commands, rfl, failed.notDisabled.trans failed.notReleased.symm, fun disabled => ?_⟩
  exact (Bool.false_ne_true (failed.notDisabled.symm.trans disabled)).elim

theorem FailedAttempt.retries {retries : Nat} {history commands final : History}
    (failed : FailedAttempt outcomes history commands)
    (stops : Stops outcomes retries (history ++ commands) final) :
    Stops outcomes (retries + 1) history final := by
  obtain ⟨next, rfl, disables, ordered⟩ := stops
  refine ⟨commands ++ next, List.append_assoc .., ?_, ?_⟩
  · rw [ran_append, failed.notDisabled, Bool.false_or, disables, runs_append, runs_append,
      failed.stopsEq, failed.downsEq, releases, failed.notReleased, Bool.false_or]
  · intro disabled
    rw [ran_append, failed.notDisabled, Bool.false_or] at disabled
    rw [ran_append, ordered disabled, Bool.or_true]

theorem releases_of_now {retries stops downs : Nat}
    (now : releasesNow outcomes stops downs = true) :
    releases outcomes retries stops downs = true := by
  cases retries with
  | zero => exact now
  | succ retries => rw [releases, now, Bool.true_or]

theorem shutDownAllWith_attempt {failover : Agent Unit} {retries : Nat}
    (started : world.flags .startJobsDone = true) (history : History)
    (recovery : ∀ commands, FailedAttempt outcomes history commands →
      Stops outcomes retries history ((failOrExit failover : Agent Unit).run machine
        (answering outcomes others) world (history ++ commands)).history) :
    Stops outcomes retries history ((shutDownAllWith failover).run machine
      (answering outcomes others) world history).history := by
  let reading : History := history ++ [⟨.read .startJobsDone, true⟩]
  let handle : Int → Agent Unit :=
    fun rCode => if rCode < 0 then failOrExit failover else pure ()
  have unfolded : (shutDownAllWith failover).run machine (answering outcomes others) world
      history = ((stopJobs >>= handle) >>= fun _ =>
        write .tasksDone false >>= fun _ => write .startJobsDone false).run machine
          (answering outcomes others) world reading := by
    simp [shutDownAllWith, read, run_call, act, started, handle, reading]
  obtain ⟨later, extended, silent⟩ := run_bind_noCommand (stopJobs >>= handle)
    (fun _ => (write_noCommand .tasksDone false).bind fun _ => write_noCommand .startJobsDone false)
    (answering outcomes others) world reading
  rw [unfolded, extended]
  refine Stops.extend outcomes ?_ silent
  obtain ⟨rCode, commands, stopped, disables, ordered, otherwise⟩ :=
    stopJobs_run outcomes others world reading
  rw [Program.run_bind_returned machine _ stopped]
  have stopsEq : runs .failoverActive reading = runs .failoverActive history := by
    simp [reading]
  have downsEq : runs .deactivateMips reading = runs .deactivateMips history := by
    simp [reading]
  rw [stopsEq, downsEq] at disables
  rw [stopsEq] at otherwise
  have joined : reading ++ commands = history ++ (⟨.read .startJobsDone, true⟩ :: commands) := by
    simp [reading]
  cases disabled : ran .disable commands with
  | true =>
    obtain ⟨next, extended, _⟩ := (Program.ends_trivial (handle rCode)).run machine
      (answering outcomes others) world (reading ++ commands)
    refine ⟨⟨.read .startJobsDone, true⟩ :: commands ++ next, ?_, ?_, fun _ => ?_⟩
    · rw [extended, joined, List.append_assoc]
    · rw [releases_of_now outcomes (disables.symm.trans disabled)]
      simp [disabled]
    · simp [ordered disabled]
  | false =>
    obtain ⟨rfl, stops, downs⟩ := otherwise disabled
    have failed : FailedAttempt outcomes history (⟨.read .startJobsDone, true⟩ :: commands) :=
      ⟨by simp [disabled], disables.symm.trans disabled, by simp [stops], by simp [downs]⟩
    rw [joined]
    exact recovery _ failed

variable (failover : Agent Unit) (env : Environment signature)

theorem failOrExit_history (world : World) (history : History) :
    ((failOrExit failover : Agent Unit).run machine env world history).history =
      if world.flags .haMode then
        (failover.run machine env world (history ++ [⟨.read .haMode, true⟩])).history
      else history ++ [⟨.read .haMode, false⟩] := by
  cases haMode : world.flags .haMode with
  | false => simp [failOrExit, read, run_call, act, haMode, exitFailure]
  | true =>
    simp only [failOrExit, read, Program.perform_bind, run_call, act, haMode, if_true,
      run_bind]
    split <;> rfl

theorem shutDownAllWith_stops (depth : Nat) (started : world.flags .startJobsDone = true)
    (managed : world.flags .rMgrObj = true) (history : History) :
    Stops outcomes (if world.flags .haMode then depth else 0) history
      ((shutDownAllWith (nodefailOver depth)).run machine (answering outcomes others) world
        history).history := by
  have quiet (value : Bool) : ∀ exchange ∈ ([⟨.read .haMode, value⟩] : History),
      NoCommand exchange.1 := by simp [NoCommand]
  induction depth generalizing history with
  | zero =>
    refine shutDownAllWith_attempt outcomes others started history fun commands failed => ?_
    rw [failOrExit_history]
    split
    · rw [List.append_assoc]
      exact (failed.append outcomes (quiet true)).gives_up
    · rw [List.append_assoc]
      exact (failed.append outcomes (quiet false)).gives_up
  | succ depth ih =>
    refine shutDownAllWith_attempt outcomes others started history fun commands failed => ?_
    rw [failOrExit_history]
    split
    · next haMode =>
      obtain ⟨later, reported, silent⟩ := reportWith_run .nodefailOver (nodefailOver depth)
        leaveNode_noCommand (answering outcomes others) managed
        (history ++ commands ++ [⟨.read .haMode, true⟩])
      have reporting : ∀ exchange ∈ ([⟨.read .haMode, true⟩, ⟨.note .nodefailOver, ()⟩,
          ⟨.read .rMgrObj, true⟩] : History), NoCommand exchange.1 := by simp [NoCommand]
      rw [nodefailOver_eq, reported]
      refine Stops.extend outcomes ((failed.append outcomes reporting).retries outcomes ?_) silent
      simpa [haMode] using ih (history ++ (commands ++ [⟨.read .haMode, true⟩,
        ⟨.note .nodefailOver, ()⟩, ⟨.read .rMgrObj, true⟩]))
    · rw [List.append_assoc]
      exact (failed.append outcomes (quiet false)).gives_up

theorem shutDownAllWith_idle (idle : world.flags .startJobsDone = false) (history : History) :
    ((shutDownAllWith failover).run machine env world history).history =
      history ++ [⟨.read .startJobsDone, false⟩, ⟨.write .tasksDone false, ()⟩,
        ⟨.write .startJobsDone false, ()⟩] := by
  simp [shutDownAllWith, read, write, Program.perform, run_call, act, idle]

/-! ## An activation and a later report -/

theorem undone_iff_of_report (mark : Note) (depth : Nat) {tail : Agent Unit}
    (quiet : tail.Uses NoCommand) (reportOthers : Environment signature) {before later : World}
    (idle : before.flags .startJobsDone = false) (managed : later.flags .rMgrObj = true)
    (sameFlag : later.flags .startJobsDone = (startJobs.run machine
      (answering outcomes others) before []).state.flags .startJobsDone) :
    Undone ((reportWith mark (nodefailOver depth) tail).run machine
        (answering outcomes reportOthers) later (startJobs.run machine
          (answering outcomes others) before []).history).history ↔
      (succeeds outcomes .assemble 0 = true →
        succeeds outcomes .activateMips 0 = true ∧ succeeds outcomes .startup 0 = true ∧
          releases outcomes (if later.flags .haMode then depth else 0) 0 0 = true) := by
  obtain ⟨⟨noDisable, noDown, noStops, noDowns⟩, assembled, addressed, flagEq⟩ :=
    startJobs_run outcomes others idle
  rw [flagEq] at sameFlag
  generalize (startJobs.run machine (answering outcomes others) before []).history = started at *
  obtain ⟨after, reported, silent⟩ := reportWith_run mark (nodefailOver depth) quiet
    (answering outcomes reportOthers) managed started
  rw [reported]
  cases done : later.flags .startJobsDone with
  | false =>
    rw [shutDownAllWith_idle _ _ done]
    have incomplete := done.symm.trans sameFlag
    cases assembles : succeeds outcomes .assemble 0 with
    | false =>
      simp [Undone, ran_of_noCommand silent, succeeded_of_noCommand silent, assembled,
        addressed, assembles]
    | true =>
      rw [assembles, Bool.true_and] at incomplete
      refine iff_of_false ?_ fun complete => ?_
      · simp [Undone, ran_of_noCommand silent, noDisable, assembled, assembles]
      · rw [(complete rfl).1, (complete rfl).2.1] at incomplete
        cases incomplete
  | true =>
    obtain ⟨commands, stopped, disables, ordered⟩ :=
      shutDownAllWith_stops outcomes reportOthers depth done managed
        (started ++ [⟨.note mark, ()⟩, ⟨.read .rMgrObj, true⟩])
    obtain ⟨⟨assembles, addresses⟩, launches⟩ : (succeeds outcomes .assemble 0 = true ∧
        succeeds outcomes .activateMips 0 = true) ∧ succeeds outcomes .startup 0 = true := by
      simpa [done] using sameFlag.symm
    have disablesEq : ran .disable commands =
        releases outcomes (if later.flags .haMode then depth else 0) 0 0 := by
      simpa [noStops, noDowns] using disables
    rw [stopped, ← disablesEq]
    simpa [Undone, ran_of_noCommand silent, noDisable, noDown, assembled, addressed, assembles,
      addresses, launches] using ordered

/-- When an error is reported after a start of the jobs, everything that was started has
had its stop command issued exactly if the disk could not be assembled at all, or the
whole start succeeded and one of the attempts to stop the jobs released the addresses. -/
theorem activation_undone_iff (depth : Nat) (report : Agent Unit)
    (startOthers reportOthers : Environment signature) (before later : World)
    (isReport : report = compRestart depth ∨ report = nodefailOver (depth + 1))
    (idle : before.flags .startJobsDone = false) (managed : later.flags .rMgrObj = true)
    (sameFlag : later.flags .startJobsDone = (startJobs.run machine
      (answering outcomes startOthers) before []).state.flags .startJobsDone) :
    Undone (report.run machine (answering outcomes reportOthers) later
        (startJobs.run machine (answering outcomes startOthers) before []).history).history ↔
      (succeeds outcomes .assemble 0 = true →
        succeeds outcomes .activateMips 0 = true ∧ succeeds outcomes .startup 0 = true ∧
          releases outcomes (if later.flags .haMode then depth else 0) 0 0 = true) := by
  rcases isReport with rfl | rfl
  · rw [compRestart_eq]
    exact undone_iff_of_report outcomes startOthers .compRestart depth (write_noCommand _ _)
      reportOthers idle managed sameFlag
  · rw [nodefailOver_eq]
    exact undone_iff_of_report outcomes startOthers .nodefailOver depth leaveNode_noCommand
      reportOthers idle managed sameFlag

def managedWorld (startJobsDone : Bool) : World :=
  { freshWorld false none with
    flags := fun flag => flag == .haMode || flag == .rMgrObj ||
      (flag == .startJobsDone && startJobsDone) }

def allBut (failing : Command) : Outcomes :=
  fun command _ => if command = failing then some 1 else some 0

theorem undone_after_full_start :
    Undone ((compRestart 1).run machine (answering (allBut .cleanup) fun _ => favourable)
      (managedWorld true) (startJobs.run machine (answering (allBut .cleanup) fun _ => favourable)
        (managedWorld false) []).history).history :=
  (activation_undone_iff (allBut .cleanup) 1 (compRestart 1) (fun _ => favourable)
    (fun _ => favourable) (managedWorld false) (managedWorld true) (.inl rfl) (by decide)
    (by decide) (by decide +kernel)).mpr (by decide +kernel)

theorem mounted_after_failed_addresses :
    let env := answering (allBut .activateMips) fun _ => favourable
    let started := startJobs.run machine env (managedWorld false) []
    let history := ((compRestart 1).run machine env started.state started.history).history
    succeeded .assemble history = true ∧ ran .disable history = false ∧ ¬Undone history := by
  decide +kernel

end Apos.DrbdAgent
