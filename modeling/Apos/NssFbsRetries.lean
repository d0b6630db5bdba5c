import Apos.NssFbsEnumeration

/-!
# Enumerating with small buffers

A call of the enumeration whose buffer is too small returns `NSS_STATUS_TRYAGAIN` and leaves
the stream wherever `fgetpwent_r` stopped reading.  The position kept by the library is still
the one after the last entry delivered, and the failed call makes the next one go back there.
This file follows the place of the enumeration over any sequence of `setpwent`, `endpwent`
and `getpwent_r` with any buffers, and shows that no entry is lost or delivered twice.
-/

namespace Apos.NssFbs

open Stateful

open UserDb (Text)

variable (format : PasswdFormat) {reader reader' : Reader} {world world' : World}
  {lines : List Text} {pending : List Passwd}

theorem endpwent_stands (stands : Stands format lines pending reader world) :
    ∃ reader' world', Gives format endpwent reader world .success reader' world' ∧
      Stands format lines (format.entries lines) reader' world' := by
  have same := stands.same
  subst same
  cases isOpen : reader.passwdStream with
  | true =>
    refine ⟨_, _, returns_bind (closePasswdDatabase_gives format isOpen)
      returns_pure, rfl, fun _ => rfl, fun opened => absurd opened (by simp)⟩
  | false =>
    refine ⟨reader, world, ?_, rfl, fun _ => rfl, fun opened => ?_⟩
    · have stays : Gives format closePasswdDatabase reader world PUnit.unit reader world := by
        apply returns_bind returns_get
        exact Returns.of_else (by simp [isOpen]) returns_pure
      exact returns_bind stays returns_pure
    · exact absurd (isOpen.symm.trans opened) Bool.false_ne_true

/-! ## Sequences of calls -/

inductive EntCall where
  | setpwent
  | endpwent
  | getpwent (buflen : Nat)
  deriving DecidableEq, Repr

def EntCall.act : EntCall → ReaderAct Answer
  | .setpwent => do
      let status ← NssFbs.setpwent
      pure ⟨status, none⟩
  | .endpwent => do
      let status ← NssFbs.endpwent
      pure ⟨status, none⟩
  | .getpwent buflen => NssFbs.getpwent buflen

def EntCall.restarts : EntCall → Bool
  | .getpwent _ => false
  | _ => true

structure EntStep where
  call : EntCall
  answer : Answer
  deriving DecidableEq, Repr

/-- A call that returned `NSS_STATUS_TRYAGAIN` may have left the stream anywhere. -/
def Leaves (answer : Answer) (world world' : World) : Prop :=
  world' = world ∨ (answer = .tryAgain ∧ ∃ position,
    world' = { world with stream := world.stream.map fun file => { file with position } })

/-- The calls of a process, from the static variables and the files it starts with. -/
inductive Session : Reader → World → List EntStep → Prop where
  | nil (reader : Reader) (world : World) : Session reader world []
  | cons {reader reader' : Reader} {world called left : World} {call : EntCall} {answer : Answer}
      {steps : List EntStep}
      (gives : Gives format call.act reader world answer reader' called)
      (leaves : Leaves answer called left) (later : Session reader' left steps) :
      Session reader world (⟨call, answer⟩ :: steps)

def successes (steps : List EntStep) : List Passwd :=
  steps.filterMap fun step => step.answer.result

/-- The entries are delivered in order from the first one on, none is missing and none comes
twice.  A call whose buffer has room for the entry after those delivered so far, or that does
not ask for a larger one, delivers that entry. -/
structure LosesNothing (lines : List Text) (segment : List EntStep) : Prop where
  inOrder : successes segment <+: format.entries lines
  retried : ∀ early buflen answer late, segment = early ++ ⟨.getpwent buflen, answer⟩ :: late →
    format.Room lines ((format.entries lines).drop (successes early).length) buflen ∨
        answer ≠ .tryAgain →
      answer = nextAnswer ((format.entries lines).drop (successes early).length)

theorem Stands.shift (stands : Stands format lines pending reader world)
    (failed : reader.lastOp = .noOp) (position : Nat) :
    Stands format lines pending reader
      { world with stream := world.stream.map fun file => { file with position } } where
  same := stands.same
  closed := stands.closed
  opened isOpen := by
    obtain ⟨_, stream, saved, _⟩ := stands.opened isOpen
    exact ⟨position, by simp [stream], saved, fun enumerating => by simp [failed] at enumerating⟩

theorem nextAnswer_ne_tryAgain (pending : List Passwd) : nextAnswer pending ≠ .tryAgain := by
  cases pending <;> nofun

variable {answer : Answer} {called left : World}

theorem Leaves.eq_of_ne (leaves : Leaves answer called left) (other : answer ≠ .tryAgain) :
    left = called :=
  leaves.resolve_right fun again => other again.1

theorem restart_stands {call : EntCall} (stands : Stands format lines pending reader world)
    (restarts : call.restarts = true)
    (gives : Gives format call.act reader world answer reader' called)
    (leaves : Leaves answer called left) :
    Stands format lines (format.entries lines) reader' left := by
  cases call with
  | setpwent =>
    obtain ⟨_, _, givesSet, standsAfter⟩ := setpwent_stands format stands.ready
    rw [stands.same] at standsAfter
    have made : Gives format EntCall.setpwent.act reader world ⟨.success, none⟩ _ _ :=
      returns_bind givesSet returns_pure
    obtain ⟨rfl, rfl, rfl⟩ := made.unique gives
    rwa [leaves.eq_of_ne nofun]
  | endpwent =>
    obtain ⟨_, _, givesEnd, standsAfter⟩ := endpwent_stands format stands
    have made : Gives format EntCall.endpwent.act reader world ⟨.success, none⟩ _ _ :=
      returns_bind givesEnd returns_pure
    obtain ⟨rfl, rfl, rfl⟩ := made.unique gives
    rwa [leaves.eq_of_ne nofun]
  | getpwent buflen => cases restarts

/-- `getpwent_r` delivers the next entry, or asks for a larger buffer and keeps its place. -/
theorem getpwent_step {buflen : Nat} (stands : Stands format lines pending reader world)
    (gives : Gives format (getpwent buflen) reader world answer reader' called)
    (leaves : Leaves answer called left) :
    (answer = nextAnswer pending ∧ Stands format lines pending.tail reader' left) ∨
      (answer = .tryAgain ∧ ¬format.Room lines pending buflen ∧
        Stands format lines pending reader' left) := by
  obtain ⟨_, _, _, givesAny, outcome⟩ := getpwent_any format buflen stands
  obtain ⟨rfl, rfl, rfl⟩ := givesAny.unique gives
  rcases outcome with ⟨rfl, standsAfter⟩ | ⟨rfl, small, standsAfter, failed⟩
  · rw [leaves.eq_of_ne (nextAnswer_ne_tryAgain pending)]
    exact .inl ⟨rfl, standsAfter⟩
  · refine .inr ⟨rfl, small, ?_⟩
    rcases leaves with rfl | ⟨-, position, rfl⟩
    · exact standsAfter
    · exact standsAfter.shift format failed position

theorem EntCall.stands {call : EntCall} {answer : Answer} {called left : World}
    (stands : Stands format lines pending reader world)
    (gives : Gives format call.act reader world answer reader' called)
    (leaves : Leaves answer called left) :
    ∃ pending', Stands format lines pending' reader' left ∧
      (call.restarts = true → pending' = format.entries lines) := by
  cases restarts : call.restarts with
  | true => exact ⟨_, restart_stands format stands restarts gives leaves, fun _ => rfl⟩
  | false =>
    cases call with
    | setpwent | endpwent => cases restarts
    | getpwent buflen =>
      rcases getpwent_step format stands gives leaves with
        ⟨-, standsAfter⟩ | ⟨-, -, standsAfter⟩
      · exact ⟨_, standsAfter, nofun⟩
      · exact ⟨_, standsAfter, nofun⟩

theorem Session.split {before rest : List EntStep}
    (session : Session format reader world (before ++ rest))
    (stands : Stands format lines pending reader world)
    (start : before = [] → pending = format.entries lines)
    (restarted : ∀ step ∈ before.getLast?, step.call.restarts = true) :
    ∃ reader' world', Session format reader' world' rest ∧
      Stands format lines (format.entries lines) reader' world' := by
  induction before generalizing pending reader world with
  | nil =>
    rw [start rfl] at stands
    exact ⟨reader, world, session, stands⟩
  | cons step before ih =>
    cases session with
    | cons gives leaves later =>
      obtain ⟨pending', standsAfter, all⟩ := EntCall.stands format stands gives leaves
      refine ih later standsAfter (fun last => ?_) fun step member => restarted step ?_
      · subst last
        exact all (restarted _ rfl)
      · cases before with
        | nil => cases member
        | cons next before =>
          rw [List.getLast?_cons_cons]
          exact member

theorem drop_successes_cons (pending : List Passwd) (buflen : Nat) (early : List EntStep) :
    pending.drop (successes (⟨.getpwent buflen, nextAnswer pending⟩ :: early)).length =
      pending.tail.drop (successes early).length := by
  cases pending with
  | nil => simp
  | cons pwd later => rfl

theorem Session.delivers {segment after : List EntStep}
    (session : Session format reader world (segment ++ after))
    (stands : Stands format lines pending reader world)
    (onlyGets : ∀ step ∈ segment, step.call.restarts = false) :
    successes segment <+: pending ∧
      ∀ early buflen answer late, segment = early ++ ⟨.getpwent buflen, answer⟩ :: late →
        format.Room lines (pending.drop (successes early).length) buflen ∨ answer ≠ .tryAgain →
          answer = nextAnswer (pending.drop (successes early).length) := by
  induction segment generalizing reader world pending with
  | nil => exact ⟨List.nil_prefix, by simp⟩
  | cons step segment ih =>
    have onlyGetsLater : ∀ step ∈ segment, step.call.restarts = false :=
      fun step member => onlyGets step (List.mem_cons_of_mem _ member)
    have isGet := onlyGets step List.mem_cons_self
    cases session with
    | @cons _ _ _ _ _ call answer _ gives leaves later =>
      cases call with
      | setpwent | endpwent => cases isGet
      | getpwent buflen =>
        rcases getpwent_step format stands gives leaves with
          ⟨rfl, standsAfter⟩ | ⟨rfl, small, standsAfter⟩
        · obtain ⟨inOrder, retried⟩ := ih later standsAfter onlyGetsLater
          refine ⟨?_, fun early buflen' answer late shape large => ?_⟩
          · cases pending with
            | nil => exact inOrder
            | cons pwd others => exact (List.prefix_cons_inj pwd).mpr inOrder
          · cases early with
            | nil =>
              rw [List.nil_append, List.cons.injEq, EntStep.mk.injEq] at shape
              exact shape.1.2.symm
            | cons first early =>
              rw [List.cons_append, List.cons.injEq] at shape
              obtain ⟨rfl, rfl⟩ := shape
              rw [drop_successes_cons] at large ⊢
              exact retried early buflen' answer late rfl large
        · obtain ⟨inOrder, retried⟩ := ih later standsAfter onlyGetsLater
          refine ⟨inOrder, fun early buflen' answer late shape large => ?_⟩
          cases early with
          | nil =>
            rw [List.nil_append, List.cons.injEq, EntStep.mk.injEq,
              EntCall.getpwent.injEq] at shape
            obtain ⟨⟨rfl, rfl⟩, -⟩ := shape
            rcases large with room | other
            · exact absurd room small
            · exact absurd rfl other
          | cons first early =>
            rw [List.cons_append, List.cons.injEq] at shape
            obtain ⟨rfl, rfl⟩ := shape
            exact retried early buflen' answer late rfl large

/-- Between two calls that set the enumeration back nothing is lost and nothing comes twice,
whatever the buffers are. -/
theorem retries_lose_nothing {steps before segment after : List EntStep}
    (closed : reader.passwdStream = false) (session : Session format reader world steps)
    (shape : steps = before ++ (segment ++ after))
    (restarted : ∀ step ∈ before.getLast?, step.call.restarts = true)
    (onlyGets : ∀ step ∈ segment, step.call.restarts = false) :
    LosesNothing format world.lines segment := by
  subst shape
  have stands : Stands format world.lines (format.entries world.lines) reader world :=
    ⟨rfl, fun _ => rfl, fun opened => absurd (closed.symm.trans opened) Bool.false_ne_true⟩
  obtain ⟨_, _, later, standsThere⟩ := session.split format stands (fun _ => rfl) restarted
  obtain ⟨inOrder, retried⟩ := later.delivers format standsThere onlyGets
  exact ⟨inOrder, retried⟩

/-- A buffer that is too small, then one that is large enough. -/
theorem first_user_after_retry :
    successes [⟨.getpwent 5, .tryAgain⟩, ⟨.getpwent 20, .found ann⟩] = [ann] ∧
      LosesNothing sevenFields twoUsers.lines
        [⟨.getpwent 5, .tryAgain⟩, ⟨.getpwent 20, .found ann⟩] := by
  have session : Session sevenFields freshReader twoUsers ([⟨.setpwent, ⟨.success, none⟩⟩] ++
      ([⟨.getpwent 5, .tryAgain⟩, ⟨.getpwent 20, .found ann⟩] ++ [])) := by
    have started : Gives sevenFields EntCall.setpwent.act freshReader twoUsers ⟨.success, none⟩
        ⟨"/p".toList, true, 0, .getentOp⟩ (twoUsers.atLine twoUsers.lines 0) := rfl
    have refused : Gives sevenFields (EntCall.getpwent 5).act ⟨"/p".toList, true, 0, .getentOp⟩
        (twoUsers.atLine twoUsers.lines 0) .tryAgain ⟨"/p".toList, true, 0, .noOp⟩
        (twoUsers.atLine twoUsers.lines 1) := by
      unfold Gives Returns
      decide +kernel
    have delivered : Gives sevenFields (EntCall.getpwent 20).act ⟨"/p".toList, true, 0, .noOp⟩
        (twoUsers.atLine twoUsers.lines 7) (.found ann) ⟨"/p".toList, true, 1, .getentOp⟩
        (twoUsers.atLine twoUsers.lines 1) := by
      unfold Gives Returns
      decide +kernel
    exact .cons started (.inl rfl) (.cons refused (.inr ⟨rfl, 7, rfl⟩)
      (.cons delivered (.inl rfl) (.nil _ _)))
  refine ⟨rfl, retries_lose_nothing sevenFields rfl session rfl ?_ ?_⟩
  · simp [EntCall.restarts]
  · simp [EntCall.restarts]

/-! ## The library as a cursor -/

/-- A call of the enumeration, or a lookup with the test of `getpwnam_r` or `getpwuid_r`. -/
inductive LibraryCall where
  | ent (call : EntCall)
  | lookUp (wanted : Passwd → Bool) (buflen : Nat)

def LibraryCall.act (rounds : Nat) : LibraryCall → ReaderAct Answer
  | .ent call => call.act
  | .lookUp wanted buflen => NssFbs.lookUp wanted rounds buflen

def makeCalls (rounds : Nat) : List LibraryCall → ReaderAct (List Answer)
  | [] => pure []
  | call :: calls => do
      let answer ← call.act rounds
      let answers ← makeCalls rounds calls
      pure (answer :: answers)

/-- What a call answers with these entries before the cursor, and which ones are there
afterwards.  Every call but `getpwent_r` goes back to the first entry. -/
inductive CursorStep (lines : List Text) (pending : List Passwd) :
    LibraryCall → Answer → List Passwd → Prop where
  | restarts {call : EntCall} (restarts : call.restarts = true) :
      CursorStep lines pending (.ent call) ⟨.success, none⟩ (format.entries lines)
  | moves (buflen : Nat) :
      CursorStep lines pending (.ent (.getpwent buflen)) (nextAnswer pending) pending.tail
  | stays {buflen : Nat} (small : ¬format.Room lines pending buflen) :
      CursorStep lines pending (.ent (.getpwent buflen)) .tryAgain pending
  | searches (wanted : Passwd → Bool) (buflen : Nat) :
      CursorStep lines pending (.lookUp wanted buflen) (searchLines format wanted buflen lines)
        (format.entries lines)

def CursorRun (lines : List Text) : List Passwd → List LibraryCall → List Answer → Prop
  | _, [], answers => answers = []
  | pending, call :: calls, answers => ∃ answer left later, answers = answer :: later ∧
      CursorStep format lines pending call answer left ∧ CursorRun lines left calls later

theorem LibraryCall.follows {rounds : Nat} (call : LibraryCall) (enough : lines.length < rounds)
    (stands : Stands format lines pending reader world) :
    ∃ answer left reader' world',
      Gives format (call.act rounds) reader world answer reader' world' ∧
      CursorStep format lines pending call answer left ∧
      Stands format lines left reader' world' := by
  cases call with
  | ent call =>
    cases call with
    | setpwent =>
      obtain ⟨_, _, gives, standsAfter⟩ := setpwent_stands format stands.ready
      rw [stands.same] at standsAfter
      exact ⟨_, _, _, _, returns_bind gives returns_pure, .restarts rfl, standsAfter⟩
    | endpwent =>
      obtain ⟨_, _, gives, standsAfter⟩ := endpwent_stands format stands
      exact ⟨_, _, _, _, returns_bind gives returns_pure, .restarts rfl, standsAfter⟩
    | getpwent buflen =>
      obtain ⟨_, _, _, gives, outcome⟩ := getpwent_any format buflen stands
      rcases outcome with ⟨rfl, standsAfter⟩ | ⟨rfl, small, standsAfter, -⟩
      · exact ⟨_, _, _, _, gives, .moves buflen, standsAfter⟩
      · exact ⟨_, _, _, _, gives, .stays small, standsAfter⟩
  | lookUp wanted buflen =>
    have same := stands.same
    subst same
    obtain ⟨path, gives⟩ := lookUp_gives format wanted buflen stands.ready.sees enough
    exact ⟨_, _, _, _, gives, .searches wanted buflen, rfl, fun _ => rfl,
      fun opened => absurd opened (by simp)⟩

theorem Stands.follows {rounds : Nat} (enough : lines.length < rounds) (calls : List LibraryCall)
    (stands : Stands format lines pending reader world) :
    ∃ answers reader' world',
      Gives format (makeCalls rounds calls) reader world answers reader' world' ∧
      CursorRun format lines pending calls answers := by
  induction calls generalizing pending reader world with
  | nil => exact ⟨[], reader, world, returns_pure, rfl⟩
  | cons call calls ih =>
    obtain ⟨answer, left, _, _, gives, step, standsAfter⟩ := call.follows format enough stands
    obtain ⟨later, _, _, givesLater, run⟩ := ih standsAfter
    exact ⟨answer :: later, _, _, returns_bind gives (returns_bind givesLater returns_pure),
      answer, left, later, rfl, step, run⟩

/-- Whatever calls a process makes and whatever buffers it gives, the library answers them all,
and answers them like a cursor over the entries of the file. -/
theorem library_follows_cursor {rounds : Nat} (closed : reader.passwdStream = false)
    (enough : world.lines.length < rounds) (calls : List LibraryCall) :
    ∃ answers reader' world',
      Gives format (makeCalls rounds calls) reader world answers reader' world' ∧
      CursorRun format world.lines (format.entries world.lines) calls answers :=
  Stands.follows format enough calls
    ⟨rfl, fun _ => rfl, fun opened => absurd (closed.symm.trans opened) Bool.false_ne_true⟩

/-- A lookup between two calls of the enumeration, the first one with a small buffer. -/
theorem cursor_over_two_users :
    ∃ answers reader' world', Gives sevenFields
        (makeCalls 3 [.ent (.getpwent 5), .lookUp (hasUid 2) 20, .ent (.getpwent 20)]) freshReader
        twoUsers answers reader' world' ∧
      CursorRun sevenFields twoUsers.lines (sevenFields.entries twoUsers.lines)
        [.ent (.getpwent 5), .lookUp (hasUid 2) 20, .ent (.getpwent 20)] answers :=
  library_follows_cursor sevenFields rfl (by decide +kernel) _

end Apos.NssFbs
