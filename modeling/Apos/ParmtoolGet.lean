import Apos.VlanMappings

/-!
# Reading parameters with parmtool

`get` reads each parameter from the file that the table `PSO.db` names for it, or from a simulated
file that `find` looks for.  The path of the file is kept in the variable `PATH`, by which the shell
also finds `find`: after the first parameter that is read from its real file no simulated file is
found any more.
-/

namespace Apos.Parmtool

open LineEdit ClusterConf DrbdAgent

/-! ## The table and the files -/

/-- The characters that the shell or `echo -e` may not leave alone. -/
def special : Text :=
  [' ', '\t', '\n', '*', '?', '[', '\\', '\x00']

/-- The table, with one line and a plain path for each parameter, and the regular files below
`PSO_PATH`. -/
structure Store where
  db : List Text
  files : Text → Option Text
  once : ((db.filter (';' ∈ ·)).map (awkPiece ';' · 1)).Nodup
  paths : ∀ line ∈ db, avoids special (awkPiece ';' line 2) = true
  root : files [] = none

/-- A name that `grep` and `find` take as it is. -/
def isName (name : Text) : Bool :=
  !name.isEmpty && name.all isWordChar

/-- `grep -q "$ATTRIBUTE" $PSO_DB` for such a name. -/
def isFound (db : List Text) (name : Text) : Bool :=
  db.any fun line => name <:+: line

/-- `grep "^$ATTRIBUTE;" $PSO_DB | awk -F';' '{print $2}'` -/
def cfgFile (db : List Text) (name : Text) : Text :=
  substitution ((db.filter (name ++ [';'] <+: ·)).map (awkPiece ';' · 2))

def simulatedFile (name : Text) : Text :=
  "apos/simulated_".toList ++ name

section Get

variable (leadsToFind : Text → Bool) (store : Store) (simulated : Bool)

def catFile (file : Text) : Option Text :=
  (store.files file).map fun content => content.rdropWhile (· = '\n')

def realValue (name : Text) : Option Text :=
  if isFound store.db name then catFile store (cfgFile store.db name) else none

def simulatedValue (name : Text) : Option Text :=
  catFile store (simulatedFile name)

/-- One pass of the loop in `print_params`: the value, and the `PATH` that is left. -/
def readParam (path name : Text) : Option (Text × Text) :=
  match if simulated && leadsToFind path then simulatedValue store name else none with
  | some value => some (value, path)
  | none => (realValue store name).map fun value => (value, cfgFile store.db name)

def readParams : Text → List Text → Option (List (Text × Text))
  | _, [] => some []
  | path, name :: later => do
    let (value, path) ← readParam leadsToFind store simulated path name
    let read ← readParams path later
    return (name, value) :: read

end Get

/-- The surroundings of `get`: the values of `PATH` that lead to `find`, the script that checks
lists of names, and the shell, whose `echo -e` breaks a line at `\n`. -/
structure Host where
  leadsToFind : Text → Bool
  validate : List Text → Bool
  tools : Tools
  breaks : ∀ lines : List Text, lines ≠ [] → (∀ line ∈ lines, '\\' ∉ line) →
    tools.interpret (List.intercalate ['\\', 'n'] lines) ++ ['\n'] = lines.flatMap (· ++ ['\n'])

def assignment (param : Text × Text) : Text :=
  param.1 ++ '=' :: param.2

/-- `RESULT`, with `\n` between the parameters. -/
def result (read : List (Text × Text)) : Text :=
  List.intercalate ['\\', 'n'] (read.map assignment)

/-- What `get_params` prints, with the `PATH` it starts with.  `console_print $RESULT` is `echo -e`
on the words of an expansion without quotes. -/
def getParams (host : Host) (store : Store) (simulated : Bool) (path : Text)
    (names : List Text) : Option Text :=
  if simulated || host.validate names then
    (readParams host.leadsToFind store simulated path names).map fun read =>
      echoLine host.tools (result read)
  else none

/-! ## The loop -/

section Loop

variable {leadsToFind : Text → Bool} {store : Store} {simulated : Bool}

def valueOf (store : Store) (simulated : Bool) (name : Text) : Option Text :=
  (if simulated then simulatedValue store name else none).or (realValue store name)

/-- Whenever an item with a simulated file is reached with a `PATH` that does not lead to `find`,
its real file has the same content. -/
def Undisturbed (leadsToFind : Text → Bool) (store : Store) : Text → List Text → Prop
  | _, [] => True
  | path, name :: later =>
    (leadsToFind path ∨ simulatedValue store name = none ∨
        realValue store name = simulatedValue store name) ∧
      Undisturbed leadsToFind store
        (if leadsToFind path ∧ (simulatedValue store name).isSome then path
          else cfgFile store.db name) later

theorem readParam_of_leads {path : Text} (leads : leadsToFind path = true) (name : Text) :
    (readParam leadsToFind store simulated path name).map (·.1) = valueOf store simulated name := by
  unfold readParam valueOf
  cases simulated <;> cases simulatedValue store name <;> simp [leads, Function.comp_def]

theorem readParams_cons_iff {path name value later : Text} {names : List Text} {other : Text}
    {rest : List (Text × Text)}
    (step : readParam leadsToFind store simulated path name = some (value, later)) :
    readParams leadsToFind store simulated path (name :: names) = some ((name, other) :: rest) ↔
      value = other ∧ readParams leadsToFind store simulated later names = some rest := by
  rw [readParams, step]
  cases read : readParams leadsToFind store simulated later names <;> simp [read]

theorem readParams_iff {path : Text} {names : List Text}
    (found : ∀ name ∈ names, (valueOf store simulated name).isSome) :
    readParams leadsToFind store simulated path names =
        some (names.map fun name => (name, (valueOf store simulated name).getD [])) ↔
      simulated = false ∨ Undisturbed leadsToFind store path names := by
  induction names generalizing path with
  | nil => simp [readParams, Undisturbed]
  | cons name names ih =>
    obtain ⟨first, others⟩ := List.forall_mem_cons.mp found
    have real {path value : Text} (notSimulated : (simulated && leadsToFind path) = false ∨
        simulatedValue store name = none) (read : realValue store name = some value) :
        readParam leadsToFind store simulated path name = some (value, cfgFile store.db name) := by
      unfold readParam
      rcases notSimulated with off | none <;> simp [*]
    rw [List.map_cons]
    cases isSimulated : simulatedValue store name with
    | none =>
      obtain ⟨value, read⟩ := Option.isSome_iff_exists.mp first
      have isReal : realValue store name = some value := by simpa [valueOf, isSimulated] using read
      rw [readParams_cons_iff (real (.inr isSimulated) isReal), ih others, read]
      simp [Undisturbed, isSimulated]
    | some value =>
      cases simulated with
      | false =>
        obtain ⟨other, read⟩ := Option.isSome_iff_exists.mp first
        have isReal : realValue store name = some other := by simpa [valueOf] using read
        rw [readParams_cons_iff (real (.inl rfl) isReal), ih others, read]
        simp
      | true =>
        have read : valueOf store true name = some value := by simp [valueOf, isSimulated]
        rw [read]
        by_cases leads : leadsToFind path = true
        · have step : readParam leadsToFind store true path name = some (value, path) := by
            simp [readParam, leads, isSimulated]
          rw [readParams_cons_iff step, ih others]
          simp [Undisturbed, leads, isSimulated]
        · cases isReal : realValue store name with
          | none => simp [readParams, readParam, leads, isReal, Undisturbed, isSimulated]
          | some other =>
            rw [readParams_cons_iff (real (.inl (by simp [leads])) isReal), ih others]
            simp [Undisturbed, leads, isSimulated, isReal]

theorem of_readParams {path : Text} {names : List Text} {read : List (Text × Text)}
    (found : readParams leadsToFind store simulated path names = some read) :
    read.map Prod.fst = names ∧ ∀ param ∈ read,
      some param.2 = realValue store param.1 ∨ some param.2 = simulatedValue store param.1 := by
  induction names generalizing path read with
  | nil =>
    obtain rfl := Option.some.inj found
    exact ⟨rfl, List.forall_mem_nil _⟩
  | cons name names ih =>
    rw [readParams] at found
    obtain ⟨⟨value, later⟩, first, found⟩ := Option.bind_eq_some_iff.mp found
    obtain ⟨rest, others, same⟩ := Option.bind_eq_some_iff.mp found
    obtain rfl := Option.some.inj same
    obtain ⟨isNames, values⟩ := ih others
    refine ⟨congrArg (name :: ·) isNames, List.forall_mem_cons.mpr ⟨?_, values⟩⟩
    simp only [readParam] at first
    split at first
    · next isSimulated =>
        obtain ⟨rfl, -⟩ := Prod.mk.inj (Option.some.inj first)
        exact .inr (Option.ite_none_right_eq_some.mp isSimulated).2.symm
    · obtain ⟨value, isReal, same⟩ := Option.map_eq_some_iff.mp first
      obtain ⟨rfl, -⟩ := Prod.mk.inj same
      exact .inl isReal.symm

end Loop

/-! ## Printing -/

section Printing

variable {read other : List (Text × Text)}

structure IsPlain (param : Text × Text) : Prop where
  name : isName param.1 = true
  value : avoids special param.2 = true

theorem IsPlain.avoids {param : Text × Text} (plain : IsPlain param) :
    avoids special (assignment param) = true := by
  simp only [LineEdit.avoids, assignment, List.all_append, List.all_cons, Bool.and_eq_true]
  refine ⟨List.all_eq_true.mpr fun char inName => ?_, by decide, plain.value⟩
  rw [contains_eq_false (Bool.and_eq_true_iff.mp plain.name).2 (by decide) inName]
  rfl

theorem IsPlain.not_mem {param : Text × Text} (plain : IsPlain param) {char : Char}
    (isSpecial : special.contains char = true) : char ∉ assignment param := by
  intro member
  have allowed := List.all_eq_true.mp plain.avoids char member
  rw [isSpecial] at allowed
  cases allowed

/-- The parameters as lines. -/
def printed (read : List (Text × Text)) : Text :=
  (read.map assignment).flatMap (· ++ ['\n'])

theorem head_result (plain : ∀ param ∈ read, IsPlain param) (nonempty : read ≠ []) :
    (result read).head?.any isWordChar = true := by
  obtain ⟨first, rest, rfl⟩ := List.exists_cons_of_ne_nil nonempty
  have isName := (plain first List.mem_cons_self).name
  cases shape : first.1 with
  | nil =>
    rw [shape] at isName
    cases isName
  | cons char name =>
    simp only [shape, Parmtool.isName, List.all_cons, Bool.and_eq_true] at isName
    cases rest <;> simpa [result, assignment, shape, List.intercalate_cons_cons] using isName.2.1

theorem avoids_result (plain : ∀ param ∈ read, IsPlain param) :
    avoids [' ', '\t', '\n', '*', '?', '['] (result read) = true := by
  refine List.all_eq_true.mpr fun char member => ?_
  rcases mem_intercalate member with inBreak | ⟨line, among, inLine⟩
  · simp only [List.mem_cons, List.not_mem_nil, or_false] at inBreak
    rcases inBreak with rfl | rfl <;> decide
  · obtain ⟨param, inRead, rfl⟩ := List.mem_map.mp among
    rw [contains_eq_false (plain param inRead).avoids (by decide) inLine]
    rfl

/-- The shell sees one word. -/
theorem echoLine_result (host : Host) (nonempty : read ≠ [])
    (plain : ∀ param ∈ read, IsPlain param) : echoLine host.tools (result read) = printed read := by
  have starts := head_result plain nonempty
  have isWord : IsWord (result read) :=
    ⟨fun empty => by simp [empty] at starts,
      fun _ => contains_eq_false (avoids_result plain) (by decide)⟩
  have alone : expandWord host.tools (result read) = [result read] :=
    expandWord_of_plain _ fun _ => contains_eq_false (avoids_result plain) (by decide)
  have notOption : isEchoOption (result read) = false := by
    refine isEchoOption_of_head fun minus => ?_
    rw [minus] at starts
    exact absurd starts (show ¬isWordChar '-' = true by decide)
  have noBackslash : ∀ line ∈ read.map assignment, '\\' ∉ line := fun line member => by
    obtain ⟨param, inRead, rfl⟩ := List.mem_map.mp member
    exact (plain param inRead).not_mem (by decide)
  rw [echoLine_eq, isWord.fields, joined, List.intercalate_singleton]
  · exact host.breaks _ (by simpa using nonempty) noBackslash
  · rw [isWord.fields]
    exact List.forall_mem_singleton.mpr alone
  · rw [isWord.fields]
    exact fun word first => Option.some.inj first ▸ notOption

theorem printed_inj (names : read.map Prod.fst = other.map Prod.fst)
    (plain : ∀ param ∈ read, IsPlain param) (otherPlain : ∀ param ∈ other, IsPlain param)
    (same : printed read = printed other) : read = other := by
  have newline : special.contains '\n' = true := by decide
  induction read generalizing other with
  | nil => exact (List.map_eq_nil_iff.mp names.symm).symm
  | cons param read ih =>
    cases other with
    | nil => cases names
    | cons second other =>
      obtain ⟨isName, later⟩ := List.cons.inj names
      rw [List.forall_mem_cons] at plain otherPlain
      simp only [printed, List.map_cons, List.flatMap_cons, List.append_assoc,
        List.singleton_append] at same
      have cut := CText.cutAt_eq_some_iff.mpr ⟨same, otherPlain.1.not_mem newline⟩
      rw [CText.cutAt_eq_some_iff.mpr ⟨rfl, plain.1.not_mem newline⟩, Option.some.injEq,
        Prod.mk.injEq, assignment, assignment, isName, List.append_cancel_left_eq] at cut
      rw [ih later plain.2 otherPlain.2 cut.2, Prod.ext isName (List.cons.inj cut.1).2]

end Printing

/-! ## Independence of the items -/

section Independence

variable {host : Host} {store : Store} {simulated : Bool} {path : Text} {names : List Text}

/-- The names are plain, and so are the contents of their files. -/
def Ordinary (store : Store) (names : List Text) : Prop :=
  ∀ name ∈ names, isName name = true ∧ (realValue store name).all (avoids special) = true ∧
    (simulatedValue store name).all (avoids special) = true

instance (store : Store) (names : List Text) : Decidable (Ordinary store names) :=
  inferInstanceAs (Decidable (∀ name ∈ names, _))

theorem Ordinary.isPlain (ordinary : Ordinary store names) {read : List (Text × Text)}
    (isNames : read.map Prod.fst = names) (values : ∀ param ∈ read,
      some param.2 = realValue store param.1 ∨ some param.2 = simulatedValue store param.1) :
    ∀ param ∈ read, IsPlain param := by
  intro param member
  obtain ⟨isName, real, simulated⟩ := ordinary param.1 (isNames ▸ List.mem_map_of_mem member)
  refine ⟨isName, ?_⟩
  rcases values param member with isReal | isSimulated
  · rwa [← isReal] at real
  · rwa [← isSimulated] at simulated

theorem valueOf_cases {name value : Text} (isValue : valueOf store simulated name = some value) :
    some value = realValue store name ∨ some value = simulatedValue store name := by
  rw [valueOf, Option.or_eq_some_iff] at isValue
  rcases isValue with isSimulated | ⟨-, isReal⟩
  · exact .inr (Option.ite_none_right_eq_some.mp isSimulated).2.symm
  · exact .inl isReal.symm

/-- The list prints for each item what it prints alone, which is its own value. -/
def Independent (host : Host) (store : Store) (simulated : Bool) (path : Text)
    (names : List Text) : Prop :=
  getParams host store simulated path names =
      some (names.flatMap fun name => (getParams host store simulated path [name]).getD []) ∧
    ∀ name ∈ names, getParams host store simulated path [name] =
      (valueOf store simulated name).map fun value => assignment (name, value) ++ ['\n']

theorem getParams_single (ordinary : Ordinary store names) (leads : host.leadsToFind path = true)
    {name : Text} (member : name ∈ names)
    (succeeds : (getParams host store simulated path [name]).isSome) :
    getParams host store simulated path [name] =
      (valueOf store simulated name).map fun value => assignment (name, value) ++ ['\n'] := by
  have allowed : (simulated || host.validate [name]) = true := by
    by_contra refused
    rw [getParams, if_neg refused] at succeeds
    cases succeeds
  have single : readParams host.leadsToFind store simulated path [name] =
      (valueOf store simulated name).map fun value => [(name, value)] := by
    rw [← readParam_of_leads leads, readParams]
    cases readParam host.leadsToFind store simulated path name <;> simp [readParams]
  have alone : Ordinary store [name] := List.forall_mem_singleton.mpr (ordinary name member)
  rw [getParams, if_pos allowed, single, Option.map_map]
  refine Option.map_congr fun value isValue => ?_
  have plain : ∀ param ∈ [(name, value)], IsPlain param :=
    alone.isPlain rfl (List.forall_mem_singleton.mpr (valueOf_cases isValue))
  exact (echoLine_result host (List.cons_ne_nil _ _) plain).trans (by simp [printed])

/-- The items of a list do not influence each other exactly if the list is validated as its items
are and no simulated file is missed. -/
theorem independent_iff (leads : host.leadsToFind path = true) (nonempty : names ≠ [])
    (ordinary : Ordinary store names)
    (succeed : ∀ name ∈ names, (getParams host store simulated path [name]).isSome) :
    Independent host store simulated path names ↔
      (simulated || host.validate names) = true ∧
        (simulated = false ∨ Undisturbed host.leadsToFind store path names) := by
  have singles := fun name member => getParams_single ordinary leads member (succeed name member)
  have found : ∀ name ∈ names, (valueOf store simulated name).isSome := fun name member => by
    simpa [singles name member] using succeed name member
  let meant := names.map fun name => (name, (valueOf store simulated name).getD [])
  have isMeant : (names.flatMap fun name =>
      (getParams host store simulated path [name]).getD []) = printed meant := by
    rw [printed, List.flatMap_map, List.flatMap_map]
    refine List.flatMap_congr fun name member => ?_
    obtain ⟨value, isValue⟩ := Option.isSome_iff_exists.mp (found name member)
    simp [singles name member, isValue]
  have meantNames : meant.map Prod.fst = names := by simp [meant, Function.comp_def]
  have meantPlain := ordinary.isPlain meantNames fun param among => by
    obtain ⟨name, member, rfl⟩ := List.mem_map.mp among
    obtain ⟨value, isValue⟩ := Option.isSome_iff_exists.mp (found name member)
    simpa [isValue] using valueOf_cases isValue
  rw [Independent, and_iff_left singles, isMeant, ← readParams_iff found]
  by_cases allowed : (simulated || host.validate names) = true
  · rw [getParams, if_pos allowed, and_iff_right allowed, Option.map_eq_some_iff]
    constructor
    · rintro ⟨read, isRead, same⟩
      obtain ⟨isNames, values⟩ := of_readParams isRead
      have readPlain := ordinary.isPlain isNames values
      have filled : read ≠ [] := fun empty => nonempty (by rw [← isNames, empty]; rfl)
      rw [echoLine_result host filled readPlain] at same
      rw [isRead, printed_inj (isNames.trans meantNames.symm) readPlain meantPlain same]
    · intro isRead
      exact ⟨meant, isRead, echoLine_result host (by simpa [meant] using nonempty) meantPlain⟩
  · simp [getParams, allowed]

end Independence

/-! ## A host -/

/-- `echo -e` for texts in which a backslash only stands before an `n`. -/
def breakLines : Text → Text
  | '\\' :: 'n' :: rest => '\n' :: breakLines rest
  | char :: rest => char :: breakLines rest
  | [] => []

theorem breakLines_append {front : Text} (noBackslash : '\\' ∉ front) (rest : Text) :
    breakLines (front ++ rest) = front ++ breakLines rest := by
  induction front with
  | nil => rfl
  | cons char front ih =>
    rw [List.mem_cons, not_or] at noBackslash
    rw [List.cons_append, breakLines, ih noBackslash.2, List.cons_append]
    exact fun _ isBackslash => absurd isBackslash.symm noBackslash.1

theorem breakLines_intercalate {lines : List Text} (nonempty : lines ≠ [])
    (noBackslash : ∀ line ∈ lines, '\\' ∉ line) :
    breakLines (List.intercalate ['\\', 'n'] lines) ++ ['\n'] = lines.flatMap (· ++ ['\n']) := by
  induction lines with
  | nil => exact absurd rfl nonempty
  | cons line lines ih =>
    rw [List.forall_mem_cons] at noBackslash
    cases lines with
    | nil =>
      have whole := breakLines_append noBackslash.1 []
      rw [List.append_nil, breakLines, List.append_nil] at whole
      simp [whole]
    | cons next lines =>
      rw [List.intercalate_cons_cons, List.append_assoc, breakLines_append noBackslash.1,
        List.flatMap_cons, ← ih (List.cons_ne_nil _ _) noBackslash.2]
      simp [breakLines]

def sampleHost : Host where
  leadsToFind path := path = "/usr/bin".toList
  validate _ := true
  tools := ⟨fun word => [word], breakLines, fun _ _ => none, fun _ _ => false⟩
  breaks _ := breakLines_intercalate

def sampleFiles : List (Text × Text) :=
  [("apos/aptype.conf", "AP1\n"), ("apos/me_name", "real\n"),
    ("apos/simulated_me_name", "simulated\n")].map fun pair => (pair.1.toList, pair.2.toList)

def sampleStore : Store where
  db := ["ap_type;apos/aptype.conf", "me_name;apos/me_name"].map String.toList
  files file := sampleFiles.lookup file
  once := by decide +kernel
  paths := by decide +kernel
  root := by decide +kernel

theorem independent_simulated_first :
    Independent sampleHost sampleStore true "/usr/bin".toList
      (["me_name", "ap_type"].map String.toList) :=
  (independent_iff (by decide +kernel) (by decide +kernel) (by decide +kernel)
    (by decide +kernel)).mpr ⟨rfl, .inr ⟨by decide +kernel, by decide +kernel, trivial⟩⟩

/-- After the first parameter the simulated file of the second one is not found. -/
theorem simulated_file_missed :
    ¬ Independent sampleHost sampleStore true "/usr/bin".toList
      (["ap_type", "me_name"].map String.toList) := by
  rintro ⟨whole, -⟩
  exact absurd whole (by decide +kernel)

end Apos.Parmtool
