import Apos.NssFbsReader

/-!
# Enumerating the user database

The library keeps the place of an enumeration in its static variables.  A lookup reads the
file from the beginning on the same stream and closes it.  The next call of the enumeration
opens the file again and takes its beginning for the place it had reached, so that a lookup
sets the enumeration back to the first entry.
-/

namespace Apos.NssFbs

open Stateful

open UserDb (Text)

variable (format : PasswdFormat) {reader : Reader} {world : World}

abbrev Gives {α : Type} (format : PasswdFormat) (act : ReaderAct α) (reader : Reader)
    (world : World) (value : α) (reader' : Reader) (world' : World) : Prop :=
  Returns (S := readerOps) (World.answer format) act reader world value reader' world'

/-- The stream that the library has open is one on the database file. -/
def Ready (reader : Reader) (world : World) : Prop :=
  reader.passwdStream = true → ∃ position, world.stream = some ⟨world.lines, position⟩

/-- The lines that the library goes through: those of the stream that it has open, which may
be one on an earlier file, or those of the database file. -/
structure Sees (reader : Reader) (world : World) (lines : List Text) : Prop where
  opened : reader.passwdStream = true → ∃ position, world.stream = some ⟨lines, position⟩
  closed : reader.passwdStream = false → world.lines = lines

theorem Ready.sees (ready : Ready reader world) : Sees reader world world.lines :=
  ⟨ready, fun _ => rfl⟩

def World.atLine (world : World) (lines : List Text) (position : Nat) : World :=
  { world with stream := some ⟨lines, position⟩ }

theorem readPasswdFilepath_gives (reader : Reader) (world : World) :
    ∃ path, Gives format readPasswdFilepath reader world PUnit.unit
      { reader with passwdFilepath := path } world := by
  by_cases unknown : reader.passwdFilepath = []
  · refine ⟨(getPasswdFilepath world.config false reader.passwdFilepath).2, ?_⟩
    apply returns_bind returns_get
    apply Returns.of_if unknown
    apply returns_bind (returns_ask rfl)
    exact returns_modify
  · refine ⟨reader.passwdFilepath, ?_⟩
    apply returns_bind returns_get
    exact Returns.of_else unknown returns_pure

variable {lines : List Text}

theorem initPasswdDatabase_gives (sees : Sees reader world lines) :
    ∃ path, Gives format initPasswdDatabase reader world .success
      { reader with passwdFilepath := path, passwdStream := true } (world.atLine lines 0) := by
  cases open_ : reader.passwdStream with
  | true =>
    obtain ⟨position, stream⟩ := sees.opened open_
    have rewound : World.answer format .rewind world = ((), world.atLine lines 0) := by
      simp [World.answer, World.atLine, stream, TextFile.rewind]
    refine ⟨reader.passwdFilepath, ?_⟩
    rw [← open_]
    apply returns_bind returns_get
    apply Returns.of_if open_
    apply returns_bind (returns_ask rewound)
    exact returns_pure
  | false =>
    obtain ⟨path, known⟩ := readPasswdFilepath_gives format reader world
    refine ⟨path, ?_⟩
    obtain rfl := sees.closed open_
    apply returns_bind returns_get
    apply Returns.of_else (by simp [open_])
    apply returns_bind known
    apply returns_bind returns_get
    apply returns_bind (returns_ask rfl)
    exact returns_bind returns_modify returns_pure

theorem startPasswdDatabase_gives (sees : Sees reader world lines) :
    ∃ path, Gives format startPasswdDatabase reader world .success
      { reader with passwdFilepath := path, passwdStream := true, passwdPosition := 0 }
      (world.atLine lines 0) := by
  obtain ⟨path, opened⟩ := initPasswdDatabase_gives format sees
  refine ⟨path, ?_⟩
  apply returns_bind opened
  apply Returns.of_if rfl
  apply returns_bind (returns_ask rfl)
  exact returns_bind returns_modify returns_pure

theorem closePasswdDatabase_gives (opened : reader.passwdStream = true) :
    Gives format closePasswdDatabase reader world PUnit.unit
      { reader with passwdStream := false } { world with stream := none } := by
  apply returns_bind returns_get
  apply Returns.of_if opened
  exact returns_bind (returns_ask rfl) returns_modify

/-! ## The next entry -/

def Fetched.answer : Fetched → Answer
  | .entry pwd => .found pwd
  | .erange => ⟨.tryagain, none⟩
  | .noEntry => .notFound

theorem getentFromPasswd_gives {lines : List Text} {buflen position : Nat}
    (stream : world.stream = some ⟨lines, position⟩) :
    Gives format (getentFromPasswd buflen) reader world
      (format.fetch buflen (lines.drop position)).1.answer reader
      (world.atLine lines (position + (format.fetch buflen (lines.drop position)).2)) := by
  have fetched : World.answer format (.fgetpwent buflen) world =
      ((format.fetch buflen (lines.drop position)).1,
        world.atLine lines (position + (format.fetch buflen (lines.drop position)).2)) := by
    simp [World.answer, World.atLine, stream, TextFile.rest, TextFile.advance]
  apply returns_bind (returns_ask fetched)
  generalize (format.fetch buflen (lines.drop position)).1 = reply
  cases reply <;> exact returns_pure

theorem fetch_cases (buflen : Nat) (lines : List Text) :
    (∃ pwd, (format.fetch buflen lines).1 = .entry pwd ∧
      format.entries lines = pwd :: format.entries (lines.drop (format.fetch buflen lines).2)) ∨
    ((format.fetch buflen lines).1 = .noEntry ∧ format.entries lines = []) ∨
    ((format.fetch buflen lines).1 = .erange ∧
      ¬format.Room lines (format.entries lines) buflen) := by
  induction lines with
  | nil => exact .inr (.inl ⟨rfl, rfl⟩)
  | cons line lines ih =>
    rw [PasswdFormat.fetch]
    by_cases short : buflen < format.size (lineBody line)
    · rw [if_pos short]
      refine .inr (.inr ⟨rfl, fun room => ?_⟩)
      exact absurd (room [] line lines rfl rfl) (Nat.not_le.mpr short)
    · rw [if_neg short]
      cases parsed : format.entry (lineBody line) with
      | some pwd => exact .inl ⟨pwd, rfl, format.entries_cons_some parsed⟩
      | none =>
        rw [format.entries_cons_none parsed]
        rcases ih with found | ended | ⟨long, small⟩
        · exact .inl found
        · exact .inr (.inl ended)
        · refine .inr (.inr ⟨long, fun room => small ?_⟩)
          rw [← List.singleton_append] at room
          exact room.of_append

/-! ## The place of the enumeration -/

/-- The next call of the enumeration has these entries before it. -/
structure Stands (lines : List Text) (pending : List Passwd) (reader : Reader) (world : World) :
    Prop where
  same : world.lines = lines
  closed : reader.passwdStream = false → pending = format.entries lines
  opened : reader.passwdStream = true → ∃ position,
    world.stream = some ⟨lines, position⟩ ∧
      format.entries (lines.drop reader.passwdPosition) = pending ∧
      (reader.lastOp = .getentOp → format.entries (lines.drop position) = pending)

variable {pending : List Passwd}

theorem Stands.ready (stands : Stands format lines pending reader world) : Ready reader world := by
  intro opened
  obtain ⟨position, stream, -⟩ := stands.opened opened
  exact ⟨position, by rw [stream, stands.same]⟩

theorem setpwent_stands (ready : Ready reader world) :
    ∃ reader' world', Gives format setpwent reader world .success reader' world' ∧
      Stands format world.lines (format.entries world.lines) reader' world' := by
  obtain ⟨path, started⟩ := startPasswdDatabase_gives format ready.sees
  refine ⟨_, _, returns_bind started
    (returns_bind returns_modify returns_pure), ?_⟩
  exact ⟨rfl, fun _ => rfl, fun _ => ⟨0, rfl, rfl, fun _ => rfl⟩⟩

section Getpwent

variable {lines : List Text} {pending : List Passwd}

theorem openForGetpwent_stands (stands : Stands format lines pending reader world) :
    ∃ reader' world', Gives format openForGetpwent reader world .success reader' world' ∧
      Stands format lines pending reader' world' ∧ reader'.passwdStream = true := by
  cases isOpen : reader.passwdStream with
  | true =>
    refine ⟨reader, world, ?_, stands, isOpen⟩
    apply returns_bind returns_get
    exact Returns.of_if isOpen returns_pure
  | false =>
    obtain ⟨path, started⟩ := startPasswdDatabase_gives format stands.ready.sees
    refine ⟨_, _, returns_bind returns_get
      (Returns.of_else (by simp [isOpen]) started), ?_, rfl⟩
    have all := stands.closed isOpen
    have same := stands.same
    subst same
    exact ⟨rfl, fun closed => absurd closed (by simp),
      fun _ => ⟨0, rfl, all.symm, fun _ => all.symm⟩⟩

theorem returnToPosition_stands (stands : Stands format lines pending reader world)
    (isOpen : reader.passwdStream = true) :
    ∃ reader' world', Gives format returnToPosition reader world .success reader' world' ∧
      Stands format lines pending reader' world' ∧ reader'.passwdStream = true ∧
      reader'.lastOp = .getentOp := by
  obtain ⟨position, stream, saved, current⟩ := stands.opened isOpen
  by_cases enumerating : reader.lastOp = .getentOp
  · refine ⟨reader, world, ?_, stands, isOpen, enumerating⟩
    apply returns_bind returns_get
    exact Returns.of_else (not_not_intro enumerating) returns_pure
  · have positioned : World.answer format (.fsetpos reader.passwdPosition) world =
        (true, { world with stream := some ⟨lines, reader.passwdPosition⟩ }) := by
      simp [World.answer, stream]
    refine ⟨{ reader with lastOp := .getentOp },
      { world with stream := some ⟨lines, reader.passwdPosition⟩ }, ?_, ?_, isOpen, rfl⟩
    · apply returns_bind returns_get
      apply Returns.of_if enumerating
      apply returns_bind (returns_ask positioned)
      apply Returns.of_if rfl
      exact returns_bind returns_modify returns_pure
    · exact ⟨stands.same, fun closed => absurd closed (by simp [isOpen]),
        fun _ => ⟨_, rfl, saved, fun _ => saved⟩⟩

def nextAnswer : List Passwd → Answer
  | [] => .notFound
  | pwd :: _ => .found pwd

def Answer.tryAgain : Answer :=
  ⟨.tryagain, none⟩

/-- A call either delivers the next entry, or fails for want of a buffer and keeps the place
of the enumeration without relying on the stream. -/
theorem nextEntry_any (buflen : Nat) (stands : Stands format lines pending reader world)
    (isOpen : reader.passwdStream = true) (enumerating : reader.lastOp = .getentOp) :
    ∃ answer reader' world',
      Gives format (nextEntry buflen) reader world answer reader' world' ∧
      ((answer = nextAnswer pending ∧ Stands format lines pending.tail reader' world') ∨
        (answer = .tryAgain ∧ ¬format.Room lines pending buflen ∧
          Stands format lines pending reader' world' ∧ reader'.lastOp = .noOp)) := by
  obtain ⟨position, stream, saved, current⟩ := stands.opened isOpen
  have same := stands.same
  subst same
  have fetched := @getentFromPasswd_gives format reader world _ buflen position stream
  have pendingHere := current enumerating
  rcases fetch_cases format buflen (world.lines.drop position) with
    ⟨pwd, found, next⟩ | ⟨ended, none⟩ | ⟨long, small⟩
  · rw [found] at fetched
    rw [pendingHere, List.drop_drop] at next
    subst next
    refine ⟨_, _, _, returns_bind fetched (Returns.of_if rfl
      (returns_bind (returns_bind (returns_ask rfl)
        returns_modify) returns_pure)), .inl ⟨rfl, ?_⟩⟩
    exact ⟨rfl, fun closed => absurd closed (by simp [isOpen]),
      fun _ => ⟨_, rfl, rfl, fun _ => rfl⟩⟩
  · rw [ended] at fetched
    rw [pendingHere] at none
    subst none
    refine ⟨_, _, _, returns_bind fetched (Returns.of_else (by decide)
      (returns_bind returns_modify returns_pure)), .inl ⟨rfl, ?_⟩⟩
    exact ⟨rfl, fun closed => absurd closed (by simp [isOpen]),
      fun _ => ⟨_, rfl, saved, fun impossible => by cases impossible⟩⟩
  · rw [long] at fetched
    rw [pendingHere] at small
    refine ⟨_, _, _, returns_bind fetched (Returns.of_else (by decide)
      (returns_bind returns_modify returns_pure)), .inr ⟨rfl, fun room => small ?_, ?_, rfl⟩⟩
    · rw [← List.take_append_drop position world.lines] at room
      exact room.of_append
    exact ⟨rfl, fun closed => absurd closed (by simp [isOpen]),
      fun _ => ⟨_, rfl, saved, fun impossible => by cases impossible⟩⟩

theorem getpwent_any (buflen : Nat) (stands : Stands format lines pending reader world) :
    ∃ answer reader' world',
      Gives format (getpwent buflen) reader world answer reader' world' ∧
      ((answer = nextAnswer pending ∧ Stands format lines pending.tail reader' world') ∨
        (answer = .tryAgain ∧ ¬format.Room lines pending buflen ∧
          Stands format lines pending reader' world' ∧ reader'.lastOp = .noOp)) := by
  obtain ⟨opened, openedWorld, givesOpened, openedStands, isOpen⟩ :=
    openForGetpwent_stands format stands
  obtain ⟨placed, placedWorld, givesPlaced, placedStands, stillOpen, enumerating⟩ :=
    returnToPosition_stands format openedStands isOpen
  obtain ⟨answer, reader', world', givesNext, outcome⟩ :=
    nextEntry_any format buflen placedStands stillOpen enumerating
  refine ⟨answer, reader', world', ?_, outcome⟩
  apply returns_bind givesOpened
  apply Returns.of_if rfl
  apply returns_bind givesPlaced
  exact Returns.of_if rfl givesNext

theorem getpwent_stands {buflen : Nat} (fits : format.Fits lines buflen)
    (stands : Stands format lines pending reader world) :
    ∃ reader' world',
      Gives format (getpwent buflen) reader world (nextAnswer pending) reader' world' ∧
      Stands format lines pending.tail reader' world' := by
  obtain ⟨_, reader', world', gives, ⟨rfl, after⟩ | ⟨-, small, -⟩⟩ :=
    getpwent_any format buflen stands
  · exact ⟨reader', world', gives, after⟩
  · exact absurd fits.room small

end Getpwent

/-! ## Lookups -/

section LookUp

variable (wanted : Passwd → Bool)

def searchLines (buflen : Nat) : List Text → Answer
  | [] => .notFound
  | line :: lines =>
    if buflen < format.size (lineBody line) then ⟨.tryagain, none⟩
    else
      match format.entry (lineBody line) with
      | some pwd => if wanted pwd then .found pwd else searchLines buflen lines
      | none => searchLines buflen lines

theorem searchLines_eq (buflen : Nat) (lines : List Text) :
    searchLines format wanted buflen lines =
      match (format.fetch buflen lines).1 with
      | .entry pwd =>
        if wanted pwd then .found pwd
        else searchLines format wanted buflen (lines.drop (format.fetch buflen lines).2)
      | fetched => fetched.answer := by
  induction lines with
  | nil => rfl
  | cons line lines ih =>
    rw [searchLines, PasswdFormat.fetch]
    split
    · rfl
    · cases format.entry (lineBody line) with
      | none => exact ih
      | some pwd => rfl

variable {lines : List Text}

theorem fetch_advances {buflen : Nat} {pwd : Passwd}
    (found : (format.fetch buflen lines).1 = .entry pwd) :
    (lines.drop (format.fetch buflen lines).2).length < lines.length := by
  cases lines with
  | nil => cases found
  | cons line lines =>
    have moved : 0 < (format.fetch buflen (line :: lines)).2 := by
      rw [PasswdFormat.fetch]
      split
      · exact Nat.one_pos
      · cases format.entry (lineBody line) <;> exact Nat.succ_pos _
    rw [List.length_drop, List.length_cons]
    omega

theorem searchEntry_gives {lines : List Text} {buflen rounds position : Nat}
    (stream : world.stream = some ⟨lines, position⟩)
    (enough : (lines.drop position).length < rounds) :
    ∃ last, Gives format (searchEntry wanted buflen rounds) reader world
      (searchLines format wanted buflen (lines.drop position)) reader
      (world.atLine lines last) := by
  induction rounds generalizing world position with
  | zero => exact absurd enough (Nat.not_lt_zero _)
  | succ rounds ih =>
    have fetched := @getentFromPasswd_gives format reader world _ buflen position stream
    rw [searchLines_eq]
    cases reply : (format.fetch buflen (lines.drop position)).1 with
    | entry pwd =>
      rw [reply] at fetched
      have shorter := fetch_advances format reply
      rw [List.drop_drop] at shorter ⊢
      cases isWanted : wanted pwd with
      | true =>
        simp only [isWanted, if_true]
        exact ⟨_, returns_bind fetched
          (Returns.of_if isWanted returns_pure)⟩
      | false =>
        simp only [isWanted, Bool.false_eq_true, if_false]
        obtain ⟨last, later⟩ := @ih (world.atLine lines _) _ rfl
          (Nat.lt_of_lt_of_le shorter (Nat.le_of_lt_succ enough))
        refine ⟨last, returns_bind fetched ?_⟩
        exact Returns.of_else (by simp [isWanted]) later
    | erange | noEntry =>
      rw [reply] at fetched
      exact ⟨_, returns_bind fetched returns_pure⟩

theorem lookUp_gives {rounds : Nat} (buflen : Nat) (sees : Sees reader world lines)
    (enough : lines.length < rounds) :
    ∃ path, Gives format (lookUp wanted rounds buflen) reader world
      (searchLines format wanted buflen lines)
      { reader with passwdFilepath := path, passwdStream := false, lastOp := .getbyOp }
      { world with stream := none } := by
  obtain ⟨path, opened⟩ := initPasswdDatabase_gives format sees
  obtain ⟨last, searched⟩ := @searchEntry_gives format
    { reader with passwdFilepath := path, passwdStream := true, lastOp := .getbyOp }
    (world.atLine lines 0) wanted lines buflen rounds 0 rfl enough
  refine ⟨path, returns_bind opened ?_⟩
  apply Returns.of_if rfl
  apply returns_bind returns_modify
  apply returns_bind searched
  exact returns_bind (closePasswdDatabase_gives format rfl) returns_pure

theorem searchLines_of_fits {buflen : Nat} (fits : format.Fits lines buflen) :
    searchLines format wanted buflen lines =
      match (format.entries lines).find? wanted with
      | some pwd => .found pwd
      | none => .notFound := by
  induction lines with
  | nil => rfl
  | cons line lines ih =>
    have room : ¬buflen < format.size (lineBody line) :=
      Nat.not_lt.mpr (fits line List.mem_cons_self)
    have later := ih fun other member => fits other (List.mem_cons_of_mem _ member)
    rw [searchLines, if_neg room]
    cases parsed : format.entry (lineBody line) with
    | none =>
      rw [format.entries_cons_none parsed]
      exact later
    | some pwd =>
      rw [format.entries_cons_some parsed, List.find?_cons]
      dsimp only
      cases wanted pwd with
      | true => rfl
      | false => exact later

end LookUp

/-! ## Sequences of calls -/

inductive NssCall where
  | getpwent (buflen : Nat)
  | getpwnam (name : Text) (buflen : Nat)
  | getpwuid (uid : UInt32) (buflen : Nat)
  deriving DecidableEq, Repr

def NssCall.enumerates : NssCall → Bool
  | .getpwent _ => true
  | _ => false

def NssCall.act (rounds : Nat) : NssCall → ReaderAct Answer
  | .getpwent buflen => NssFbs.getpwent buflen
  | .getpwnam name buflen => NssFbs.getpwnam rounds name buflen
  | .getpwuid uid buflen => NssFbs.getpwuid rounds uid buflen

def enumeration (rounds : Nat) : List NssCall → ReaderAct (List Answer)
  | [] => pure []
  | call :: calls => do
      let answer ← call.act rounds
      let answers ← enumeration rounds calls
      pure (if call.enumerates then answer :: answers else answers)

/-- A cursor over the entries that every lookup moves back to the beginning. -/
def cursorAnswers (entries : List Passwd) : List Passwd → List NssCall → List Answer
  | _, [] => []
  | pending, call :: calls =>
    if call.enumerates then nextAnswer pending :: cursorAnswers entries pending.tail calls
    else cursorAnswers entries entries calls

theorem lookUp_stands {wanted : Passwd → Bool} {rounds : Nat} (buflen : Nat)
    (stands : Stands format lines pending reader world) (enough : lines.length < rounds) :
    ∃ answer reader' world',
      Gives format (lookUp wanted rounds buflen) reader world answer reader' world' ∧
      Stands format lines (format.entries lines) reader' world' := by
  have same := stands.same
  subst same
  obtain ⟨path, gives⟩ := lookUp_gives format wanted buflen stands.ready.sees enough
  exact ⟨_, _, _, gives, rfl, fun _ => rfl, fun opened => absurd opened (by simp)⟩

variable {calls : List NssCall}

theorem enumeration_gives {rounds : Nat}
    (large : ∀ buflen, .getpwent buflen ∈ calls → format.Fits lines buflen)
    (enough : lines.length < rounds) (stands : Stands format lines pending reader world) :
    ∃ reader' world', Gives format (enumeration rounds calls) reader world
      (cursorAnswers (format.entries lines) pending calls) reader' world' := by
  induction calls generalizing pending reader world with
  | nil => exact ⟨reader, world, returns_pure⟩
  | cons call calls ih =>
    have largeLater : ∀ buflen, .getpwent buflen ∈ calls → format.Fits lines buflen :=
      fun buflen member => large buflen (List.mem_cons_of_mem _ member)
    cases call with
    | getpwent buflen =>
      obtain ⟨middle, middleWorld, gives, middleStands⟩ :=
        getpwent_stands format (large buflen List.mem_cons_self) stands
      obtain ⟨reader', world', later⟩ := ih largeLater middleStands
      exact ⟨reader', world', returns_bind gives
        (returns_bind later returns_pure)⟩
    | getpwnam name buflen | getpwuid uid buflen =>
      obtain ⟨answer, middle, middleWorld, gives, middleStands⟩ :=
        lookUp_stands format buflen stands enough
      obtain ⟨reader', world', later⟩ := ih largeLater middleStands
      exact ⟨reader', world', returns_bind gives
        (returns_bind later returns_pure)⟩

/-! ## When every entry is delivered once -/

/-- The answers up to the first `NSS_STATUS_NOTFOUND` are these entries in order, and it comes
after the last of them. -/
def DeliversOnce : List Passwd → List Answer → Prop
  | _, [] => True
  | [], answer :: _ => answer = .notFound
  | pwd :: later, answer :: answers => answer = .found pwd ∧ DeliversOnce later answers

theorem deliversOnce_nil (entries : List Passwd) : DeliversOnce entries [] := by
  cases entries <;> trivial

def enumerating (calls : List NssCall) : Nat :=
  calls.countP NssCall.enumerates

/-- After `done` calls of the enumeration over `count` entries, no lookup among the calls
comes after the first of those calls, before the end is reported and before another such
call. -/
def Undisturbed (count done : Nat) (calls : List NssCall) : Prop :=
  ∀ before call after, calls = before ++ call :: after → call.enumerates = false →
    done + enumerating before = 0 ∨ count < done + enumerating before ∨ enumerating after = 0

variable {count done : Nat}

theorem undisturbed_cons_of_enumerates {call : NssCall} (enumerates : call.enumerates = true) :
    Undisturbed count done (call :: calls) ↔ Undisturbed count (done + 1) calls := by
  have counted (before : List NssCall) :
      done + enumerating (call :: before) = done + 1 + enumerating before := by
    rw [enumerating, List.countP_cons_of_pos enumerates, enumerating]
    omega
  constructor
  · intro undisturbed before lookup after split isLookup
    have whole := undisturbed (call :: before) lookup after (by rw [split]; rfl) isLookup
    rwa [counted] at whole
  · intro undisturbed before lookup after split isLookup
    cases before with
    | nil =>
      obtain rfl := List.head_eq_of_cons_eq split
      rw [enumerates] at isLookup
      cases isLookup
    | cons first before =>
      obtain rfl := List.head_eq_of_cons_eq split
      rw [counted]
      exact undisturbed before lookup after (List.tail_eq_of_cons_eq split) isLookup

theorem undisturbed_cons_of_lookup {call : NssCall} (lookup : call.enumerates = false) :
    Undisturbed count done (call :: calls) ↔
      (done = 0 ∨ count < done ∨ enumerating calls = 0) ∧ Undisturbed count done calls := by
  have counted (before : List NssCall) : enumerating (call :: before) = enumerating before := by
    rw [enumerating, List.countP_cons_of_neg (by simp [lookup]), enumerating]
  constructor
  · intro undisturbed
    refine ⟨undisturbed [] call calls rfl lookup, ?_⟩
    intro before other after split isLookup
    have whole := undisturbed (call :: before) other after (by rw [split]; rfl) isLookup
    rwa [counted] at whole
  · rintro ⟨first, undisturbed⟩ before other after split isLookup
    cases before with
    | nil =>
      obtain rfl := List.tail_eq_of_cons_eq split
      exact first
    | cons head before =>
      obtain rfl := List.head_eq_of_cons_eq split
      rw [counted]
      exact undisturbed before other after (List.tail_eq_of_cons_eq split) isLookup

theorem undisturbed_of_done (calls : List NssCall) (beyond : count < done) :
    Undisturbed count done calls := by
  intro before call after split isLookup
  exact .inr (.inl (by omega))

theorem undisturbed_of_none (none : enumerating calls = 0) : Undisturbed count done calls := by
  intro before call after split isLookup
  rw [split, enumerating, List.countP_append, List.countP_cons] at none
  exact .inr (.inr (by rw [enumerating]; omega))

variable {entries : List Passwd}

theorem cursorAnswers_of_none (none : enumerating calls = 0) :
    cursorAnswers entries pending calls = [] := by
  induction calls generalizing pending with
  | nil => rfl
  | cons call calls ih =>
    rw [enumerating, List.countP_cons] at none
    have lookup : ¬call.enumerates = true := by
      intro enumerates
      rw [if_pos enumerates] at none
      omega
    rw [cursorAnswers, if_neg lookup]
    exact ih (by rw [enumerating]; omega)

theorem cursorAnswers_head (some : enumerating calls ≠ 0) :
    (cursorAnswers entries entries calls).head? = Option.some (nextAnswer entries) := by
  induction calls with
  | nil => exact absurd rfl some
  | cons call calls ih =>
    rw [cursorAnswers]
    split
    · rfl
    · next lookup =>
        apply ih
        rwa [enumerating, List.countP_cons_of_neg lookup] at some

theorem deliversOnce_of_undisturbed (within : done ≤ entries.length)
    (undisturbed : Undisturbed entries.length done calls) :
    DeliversOnce (entries.drop done) (cursorAnswers entries (entries.drop done) calls) := by
  induction calls generalizing done with
  | nil => exact deliversOnce_nil _
  | cons call calls ih =>
    cases enumerates : call.enumerates with
    | true =>
      rw [undisturbed_cons_of_enumerates enumerates] at undisturbed
      rw [cursorAnswers, if_pos enumerates]
      rcases Nat.lt_or_eq_of_le within with more | rfl
      · have later := ih more undisturbed
        rw [List.drop_eq_getElem_cons more]
        exact ⟨rfl, later⟩
      · rw [List.drop_length]
        rfl
    | false =>
      rw [undisturbed_cons_of_lookup enumerates] at undisturbed
      obtain ⟨placed, undisturbedLater⟩ := undisturbed
      rw [cursorAnswers, if_neg (by simp [enumerates])]
      rcases placed with rfl | beyond | none
      · exact ih within undisturbedLater
      · omega
      · rw [cursorAnswers_of_none none]
        exact deliversOnce_nil _

theorem not_deliversOnce_of_restart (distinct : entries.Nodup) (started : done ≠ 0)
    (within : done ≤ entries.length) (more : enumerating calls ≠ 0) :
    ¬DeliversOnce (entries.drop done) (cursorAnswers entries entries calls) := by
  intro delivers
  obtain ⟨first, rest, rfl⟩ : ∃ first rest, entries = first :: rest :=
    List.exists_cons_of_length_pos (by omega)
  have head : (cursorAnswers (first :: rest) (first :: rest) calls).head? =
      some (.found first) := cursorAnswers_head more
  obtain ⟨answers, whole⟩ := List.head?_eq_some_iff.mp head
  rw [whole] at delivers
  rcases Nat.lt_or_eq_of_le within with inside | rfl
  · rw [List.drop_eq_getElem_cons inside] at delivers
    have same : first = (first :: rest)[done] :=
      Option.some.inj (congrArg Answer.result delivers.1)
    obtain ⟨earlier, rfl⟩ := Nat.exists_eq_succ_of_ne_zero started
    rw [List.getElem_cons_succ] at same
    exact (List.nodup_cons.mp distinct).1 (same ▸ List.getElem_mem _)
  · rw [List.drop_length] at delivers
    cases delivers

theorem undisturbed_of_deliversOnce (distinct : entries.Nodup) (within : done ≤ entries.length)
    (delivers : DeliversOnce (entries.drop done)
      (cursorAnswers entries (entries.drop done) calls)) :
    Undisturbed entries.length done calls := by
  induction calls generalizing done with
  | nil =>
    intro before call after split
    simp at split
  | cons call calls ih =>
    cases enumerates : call.enumerates with
    | true =>
      rw [undisturbed_cons_of_enumerates enumerates]
      rw [cursorAnswers, if_pos enumerates] at delivers
      rcases Nat.lt_or_eq_of_le within with more | rfl
      · rw [List.drop_eq_getElem_cons more] at delivers
        exact ih more delivers.2
      · exact undisturbed_of_done calls (Nat.lt_succ_self _)
    | false =>
      rw [undisturbed_cons_of_lookup enumerates]
      rw [cursorAnswers, if_neg (by simp [enumerates])] at delivers
      by_cases none : enumerating calls = 0
      · exact ⟨.inr (.inr none), undisturbed_of_none none⟩
      · have first : done = 0 := by
          by_contra started
          exact not_deliversOnce_of_restart distinct started within none delivers
        subst first
        exact ⟨.inl rfl, ih within delivers⟩

/-- For every file, every sequence of calls that starts the enumeration and gives it buffers
for every line delivers each entry once up to the end, if no lookup falls between two calls
of the enumeration.  In a file without equal entries this is necessary. -/
theorem enumeration_delivers_once {calls : List NssCall} {rounds : Nat}
    (ready : Ready reader world)
    (large : ∀ buflen, .getpwent buflen ∈ calls → format.Fits world.lines buflen)
    (enough : world.lines.length < rounds) :
    ∃ answers reader' world',
      Gives format (do
        let _ ← setpwent
        enumeration rounds calls) reader world answers reader' world' ∧
      (Undisturbed (format.entries world.lines).length 0 calls →
        DeliversOnce (format.entries world.lines) answers) ∧
      ((format.entries world.lines).Nodup → DeliversOnce (format.entries world.lines) answers →
        Undisturbed (format.entries world.lines).length 0 calls) := by
  obtain ⟨started, startedWorld, givesStart, stands⟩ := setpwent_stands format ready
  obtain ⟨reader', world', gives⟩ := enumeration_gives format large enough stands
  refine ⟨_, reader', world', returns_bind givesStart gives, ?_, ?_⟩
  · exact deliversOnce_of_undisturbed (Nat.zero_le _)
  · intro distinct delivers
    exact undisturbed_of_deliversOnce distinct (Nat.zero_le _) delivers

def twoUsers : World where
  config := none
  database := "ann:x:1:1:::\nbob:x:2:1:::\n".toList
  stream := none

def freshReader : Reader :=
  ⟨"/p".toList, false, 0, .noOp⟩

def orderlyCalls : List NssCall :=
  [.getpwuid 2 20, .getpwent 20, .getpwent 20, .getpwent 20, .getpwnam "ann".toList 1]

theorem ready_freshReader : Ready freshReader twoUsers := by
  intro opened
  cases opened

theorem fits_twoUsers : sevenFields.Fits twoUsers.lines 20 := by
  unfold PasswdFormat.Fits
  decide +kernel

theorem undisturbed_orderlyCalls : Undisturbed 2 0 orderlyCalls := by
  unfold orderlyCalls
  rw [undisturbed_cons_of_lookup rfl, undisturbed_cons_of_enumerates rfl,
    undisturbed_cons_of_enumerates rfl, undisturbed_cons_of_enumerates rfl]
  exact ⟨.inl rfl, undisturbed_of_done _ (by decide)⟩

/-- Both users are delivered and then the end is reported. -/
theorem enumeration_delivers_both_users :
    Undisturbed 2 0 orderlyCalls ∧
      ∃ answers reader' world',
        Gives sevenFields (do
          let _ ← setpwent
          enumeration 3 orderlyCalls) freshReader twoUsers answers reader' world' ∧
        DeliversOnce (sevenFields.entries twoUsers.lines) answers := by
  have large : ∀ buflen, .getpwent buflen ∈ orderlyCalls →
      sevenFields.Fits twoUsers.lines buflen := by
    intro buflen member
    obtain rfl : buflen = 20 := by simpa [orderlyCalls] using member
    exact fits_twoUsers
  have enough : twoUsers.lines.length < 3 := by decide +kernel
  have two : (sevenFields.entries twoUsers.lines).length = 2 := by decide +kernel
  obtain ⟨answers, reader', world', gives, delivers, -⟩ :=
    enumeration_delivers_once sevenFields ready_freshReader large enough
  rw [two] at delivers
  exact ⟨undisturbed_orderlyCalls, answers, reader', world', gives,
    delivers undisturbed_orderlyCalls⟩

def ann : Passwd :=
  ⟨"ann".toList, "x".toList, 1, 1, [], [], []⟩

/-- A lookup between two calls of the enumeration: the first user is delivered twice. -/
theorem first_user_delivered_twice :
    Ready freshReader twoUsers ∧ sevenFields.Fits twoUsers.lines 20 ∧
      ∃ reader' world',
        Gives sevenFields (do
          let _ ← setpwent
          enumeration 3 [.getpwent 20, .getpwuid 2 20, .getpwent 20]) freshReader twoUsers
          [.found ann, .found ann] reader' world' ∧
        ¬DeliversOnce (sevenFields.entries twoUsers.lines) [.found ann, .found ann] := by
  have entries : sevenFields.entries twoUsers.lines =
      [ann, ⟨"bob".toList, "x".toList, 2, 1, [], [], []⟩] := by decide +kernel
  refine ⟨ready_freshReader, fits_twoUsers, ⟨"/p".toList, true, 1, .getentOp⟩,
    { twoUsers with stream := some ⟨twoUsers.lines, 1⟩ }, ?_, ?_⟩
  · unfold Gives Returns
    decide +kernel
  · rw [entries]
    rintro ⟨-, second, -⟩
    exact absurd second (by decide +kernel)

end Apos.NssFbs
