import Apos.TextFiles
import Apos.PaddedTexts
import Apos.CNumerals

/-!
# The configuration file of the DRBD agent

`HA_AGENT_Config` keeps the parameters of the agent.  `readConfig` reads a file line by line
into a temporary record that starts with the compiled-in defaults: each line is searched for
the eight keys one after the other, and a key that is found takes the token behind the first
`=`, which `getToken` moves down in the line.  `initLog` then copies the temporary record.
-/

namespace Apos.DrbdAgent

open CText

/-! ## The object -/

structure AgentSettings where
  xtimes : UInt32
  ysecs : UInt32
  traceMask : UInt64
  rebootTmout : UInt32
  rebootCount : UInt32
  traceDir : List Char
  callbackTmout : UInt32
  drbdSupervisionIntvl : UInt32
  deriving DecidableEq, Repr

/-- The defaults, which `initConfig` gives to a new object and `readConfig` to its temporary
record. -/
def AgentSettings.initConfig : AgentSettings where
  xtimes := 3
  ysecs := 1000
  traceMask := 0x1
  rebootTmout := 3000
  rebootCount := 3
  traceDir := "/var/log/acs/tra/logging/".toList
  callbackTmout := 90000
  drbdSupervisionIntvl := 2000

/-- The keys, in the order in which a line is searched for them. -/
inductive ConfigKey where
  | xTimes
  | yMsecs
  | rebootTmout
  | rebootCount
  | callbackTmout
  | drbdSupervisionIntvl
  | traceCatgy
  | traceDir
  deriving DecidableEq, Repr

namespace ConfigKey

def name : ConfigKey → List Char
  | xTimes => "AGNT_X_TIMES".toList
  | yMsecs => "AGNT_Y_MSECS".toList
  | rebootTmout => "AGNT_REBOOT_TMOUT".toList
  | rebootCount => "AGNT_REBOOT_COUNT".toList
  | callbackTmout => "AGNT_CALLBACK_TMOUT".toList
  | drbdSupervisionIntvl => "AGNT_DRBD_SUPERVISION_INTVL".toList
  | traceCatgy => "AGNT_TRACE_CATGY".toList
  | traceDir => "AGNT_TRACE_DIR".toList

def marker (key : ConfigKey) : List Char :=
  key.name ++ ['=']

def all : List ConfigKey :=
  [xTimes, yMsecs, rebootTmout, rebootCount, callbackTmout, drbdSupervisionIntvl, traceCatgy,
    traceDir]

end ConfigKey

def atoiUnsigned (tmp : List Char) : UInt32 :=
  UInt32.ofInt (atoi tmp)

def AgentSettings.assign (config : AgentSettings) (tmp : List Char) :
    ConfigKey → AgentSettings
  | .xTimes => { config with xtimes := atoiUnsigned tmp }
  | .yMsecs => { config with ysecs := atoiUnsigned tmp }
  | .rebootTmout => { config with rebootTmout := atoiUnsigned tmp }
  | .rebootCount => { config with rebootCount := atoiUnsigned tmp }
  | .callbackTmout => { config with callbackTmout := atoiUnsigned tmp }
  | .drbdSupervisionIntvl => { config with drbdSupervisionIntvl := atoiUnsigned tmp }
  | .traceCatgy => { config with traceMask := UInt64.ofNat (strtoull16 tmp) }
  | .traceDir => { config with traceDir := tmp }

/-! ## Reading -/

/-- `getToken`: the token behind the first `tok`, and the line in which it has been moved down
over `tok` and cut. -/
def getToken (str : List Char) (tok : Char) : Option (List Char × List Char) :=
  match str.dropWhile fun symbol => decide (symbol ≠ tok) with
  | [] => none
  | _ :: p =>
    let token := p.takeWhile fun symbol => !CText.isSpace symbol
    some (token, (str.takeWhile fun symbol => decide (symbol ≠ tok)) ++ token)

def testKey (state : List Char × AgentSettings) (key : ConfigKey) : List Char × AgentSettings :=
  if key.marker <:+: state.1 then
    match getToken state.1 '=' with
    | none => state
    | some (tmp, ch) => (ch, state.2.assign tmp key)
  else state

/-- In the rest of a line `#` becomes the end of the line. -/
def truncateComment (ch : List Char) : List Char :=
  if '#' ∈ ch then (ch.takeWhile fun symbol => decide (symbol ≠ '#')) ++ ['\n'] else ch

/-- The line in the buffer from its first symbol other than space and tab. -/
def skipBlanks (buff : List Char) : List Char :=
  (CText.cString buff).dropWhile fun symbol => symbol = ' ' || symbol = '\t'

/-- One round of the loop of `readConfig`. -/
def readConfigLine (tmpConfig : AgentSettings) (buff : List Char) : AgentSettings :=
  let ch := skipBlanks buff
  if ch.head? = some '#' ∨ ch.head? = some '\n' then tmpConfig
  else (ConfigKey.all.foldl testKey (truncateComment ch, tmpConfig)).2

/-- `initLog`: the tracing subsystem is told about a change, and the temporary record is
copied. -/
def initLog (logtraceInit : List Char → UInt64 → Bool) (tmpConfig config : AgentSettings) :
    Option AgentSettings :=
  if (tmpConfig.traceDir ≠ config.traceDir ∨ tmpConfig.traceMask ≠ config.traceMask) ∧
      logtraceInit tmpConfig.traceDir tmpConfig.traceMask = false then none
  else some { config with
    xtimes := tmpConfig.xtimes
    ysecs := tmpConfig.ysecs
    traceMask := tmpConfig.traceMask
    rebootTmout := tmpConfig.rebootTmout
    rebootCount := tmpConfig.rebootCount
    traceDir := tmpConfig.traceDir
    callbackTmout := tmpConfig.callbackTmout }

/-- What `readConfig` meets: the file, if it can be opened, the tracing subsystem and whether
the file can be closed. -/
structure ConfigWorld where
  file : Option (List Char)
  logtraceInit : List Char → UInt64 → Bool
  closes : Bool

def readConfig (world : ConfigWorld) (config : AgentSettings) : Int × AgentSettings :=
  match world.file with
  | none => (-1, config)
  | some text =>
    let tmpConfig := (bufferedLines '\n' 99 text).foldl readConfigLine .initConfig
    match initLog world.logtraceInit tmpConfig config with
    | none => (-1, config)
    | some config => (if world.closes then 0 else -1, config)

/-! ## Fields -/

inductive ConfigValue where
  | number (value : UInt32)
  | mask (value : UInt64)
  | directory (value : List Char)
  deriving DecidableEq, Repr

def ConfigKey.parse : ConfigKey → List Char → ConfigValue
  | .traceCatgy, tmp => .mask (UInt64.ofNat (strtoull16 tmp))
  | .traceDir, tmp => .directory tmp
  | _, tmp => .number (atoiUnsigned tmp)

def AgentSettings.field (config : AgentSettings) : ConfigKey → ConfigValue
  | .xTimes => .number config.xtimes
  | .yMsecs => .number config.ysecs
  | .rebootTmout => .number config.rebootTmout
  | .rebootCount => .number config.rebootCount
  | .callbackTmout => .number config.callbackTmout
  | .drbdSupervisionIntvl => .number config.drbdSupervisionIntvl
  | .traceCatgy => .mask config.traceMask
  | .traceDir => .directory config.traceDir

theorem AgentSettings.field_assign (config : AgentSettings) (tmp : List Char)
    (key other : ConfigKey) :
    (config.assign tmp key).field other =
      if other = key then key.parse tmp else config.field other := by
  cases key <;> cases other <;> rfl

theorem field_of_initLog {logtraceInit : List Char → UInt64 → Bool}
    {tmpConfig config after : AgentSettings}
    (copied : initLog logtraceInit tmpConfig config = some after) (key : ConfigKey) :
    after.field key =
      if key = .drbdSupervisionIntvl then config.field key else tmpConfig.field key := by
  unfold initLog at copied
  split at copied
  · cases copied
  · obtain rfl := Option.some.inj copied
    cases key <;> rfl

/-! ## What a line is found to set -/

def foundIn : List ConfigKey → List Char → List (ConfigKey × List Char)
  | [], _ => []
  | key :: keys, ch =>
    if key.marker <:+: ch then
      match getToken ch '=' with
      | none => foundIn keys ch
      | some (tmp, rest) => (key, tmp) :: foundIn keys rest
    else foundIn keys ch

def Finds (buff : List Char) (key : ConfigKey) (tmp : List Char) : Prop :=
  let ch := skipBlanks buff
  ¬(ch.head? = some '#' ∨ ch.head? = some '\n') ∧
    (key, tmp) ∈ foundIn ConfigKey.all (truncateComment ch)

variable {keys : List ConfigKey} {key : ConfigKey}

theorem mem_keys_of_mem_foundIn {ch tmp : List Char} (found : (key, tmp) ∈ foundIn keys ch) :
    key ∈ keys := by
  induction keys generalizing ch with
  | nil => cases found
  | cons first keys ih =>
    rw [foundIn] at found
    split at found
    · split at found
      · exact List.mem_cons_of_mem _ (ih found)
      · rcases List.mem_cons.mp found with same | later
        · rw [(Prod.mk.inj same).1]
          exact List.mem_cons_self
        · exact List.mem_cons_of_mem _ (ih later)
    · exact List.mem_cons_of_mem _ (ih found)

theorem field_foldl_testKey (nodup : keys.Nodup) (ch : List Char) (config : AgentSettings)
    (key : ConfigKey) :
    (∀ tmp, (key, tmp) ∈ foundIn keys ch →
        (keys.foldl testKey (ch, config)).2.field key = key.parse tmp) ∧
      ((∀ tmp, (key, tmp) ∉ foundIn keys ch) →
        (keys.foldl testKey (ch, config)).2.field key = config.field key) := by
  induction keys generalizing ch config with
  | nil => exact ⟨fun _ found => absurd found List.not_mem_nil, fun _ => rfl⟩
  | cons first keys ih =>
    obtain ⟨notLater, nodup⟩ := List.nodup_cons.mp nodup
    rw [List.foldl_cons]
    by_cases occurs : first.marker <:+: ch
    · cases token : getToken ch '=' with
      | none => simpa only [foundIn, testKey, if_pos occurs, token] using ih nodup ch config
      | some pair =>
        obtain ⟨tmp, rest⟩ := pair
        obtain ⟨has, keeps⟩ := ih nodup rest (config.assign tmp first)
        simp only [foundIn, testKey, if_pos occurs, token, List.mem_cons, Prod.mk.injEq]
        constructor
        · rintro other (⟨rfl, rfl⟩ | later)
          · rw [keeps fun other member => notLater (mem_keys_of_mem_foundIn member),
              AgentSettings.field_assign, if_pos rfl]
          · exact has other later
        · intro absent
          have different : key ≠ first := fun same => absent tmp (.inl ⟨same, rfl⟩)
          rw [keeps fun other member => absent other (.inr member),
            AgentSettings.field_assign, if_neg different]
    · simpa only [foundIn, testKey, if_neg occurs] using ih nodup ch config

theorem nodup_all : ConfigKey.all.Nodup := by
  decide

theorem mem_all (key : ConfigKey) : key ∈ ConfigKey.all := by
  cases key <;> decide

theorem field_readConfigLine_of_finds {buff tmp : List Char} (found : Finds buff key tmp)
    (tmpConfig : AgentSettings) : (readConfigLine tmpConfig buff).field key = key.parse tmp := by
  obtain ⟨notSkipped, member⟩ := found
  simp only [readConfigLine, if_neg notSkipped]
  exact (field_foldl_testKey nodup_all _ tmpConfig key).1 tmp member

theorem field_readConfigLine_of_not_finds {buff : List Char} (absent : ∀ tmp, ¬Finds buff key tmp)
    (tmpConfig : AgentSettings) :
    (readConfigLine tmpConfig buff).field key = tmpConfig.field key := by
  simp only [readConfigLine]
  split
  · rfl
  · next notSkipped =>
      exact (field_foldl_testKey nodup_all _ tmpConfig key).2 fun tmp member =>
        absent tmp ⟨notSkipped, member⟩

/-! ## What the lines settle -/

def Settles (sets : List Char → ConfigKey → List Char → Prop) (lines : List (List Char))
    (key : ConfigKey) (value : ConfigValue) : Prop :=
  (∃ tmp, LastValue (fun line => sets line key) lines tmp ∧ value = key.parse tmp) ∨
    (∀ line ∈ lines, ∀ tmp, ¬sets line key tmp) ∧ value = AgentSettings.initConfig.field key

theorem settles_foldl_readConfigLine (lines : List (List Char)) (key : ConfigKey) :
    Settles Finds lines key ((lines.foldl readConfigLine .initConfig).field key) := by
  induction lines using List.reverseRecOn with
  | nil => exact .inr ⟨by simp, rfl⟩
  | append_singleton lines line ih =>
    rw [List.foldl_append, List.foldl_cons, List.foldl_nil]
    by_cases found : ∃ tmp, Finds line key tmp
    · obtain ⟨tmp, found⟩ := found
      refine .inl ⟨tmp, ⟨lines, line, [], rfl, found, by simp⟩, ?_⟩
      exact field_readConfigLine_of_finds found _
    · have absent : ∀ tmp, ¬Finds line key tmp := fun tmp finds => found ⟨tmp, finds⟩
      rw [field_readConfigLine_of_not_finds absent]
      rcases ih with ⟨tmp, ⟨before, item, after, rfl, has, none⟩, same⟩ | ⟨none, same⟩
      · refine .inl ⟨tmp, ⟨before, item, after ++ [line], by simp, has, ?_⟩, same⟩
        intro other member
        rcases List.mem_append.mp member with early | last
        · exact none other early
        · rw [List.mem_singleton.mp last]
          exact absent
      · refine .inr ⟨fun other member => ?_, same⟩
        rcases List.mem_append.mp member with early | last
        · exact none other early
        · rw [List.mem_singleton.mp last]
          exact absent

/-! ## The lines of a configuration file -/

/-- What may stand behind a value: white space and a comment. -/
def Trails (rest : List Char) : Prop :=
  ∃ space comment, rest = space ++ comment ∧ (∀ symbol ∈ space, CText.isSpace symbol = true) ∧
    (comment = [] ∨ ∃ text, comment = '#' :: text)

/-- `KEY=VALUE`, optionally followed by white space or a comment. -/
def Sets (line : List Char) (key : ConfigKey) (value : List Char) : Prop :=
  ∃ indent rest, line = indent ++ key.name ++ '=' :: (value ++ rest) ∧
    (∀ symbol ∈ indent, symbol = ' ' ∨ symbol = '\t') ∧
    (∀ symbol ∈ value, CText.isSpace symbol = false ∧ symbol ≠ '#' ∧ symbol ≠ '\x00') ∧ Trails rest

inductive ConfigLine (line : List Char) : Prop
  | blank (space : ∀ symbol ∈ line, CText.isSpace symbol = true)
  | comment (indent text : List Char) (shape : line = indent ++ '#' :: text)
      (blank : ∀ symbol ∈ indent, symbol = ' ' ∨ symbol = '\t')
  | setting (key : ConfigKey) (value : List Char) (sets : Sets line key value)

def Plain (line : List Char) : Prop :=
  ∀ key value, Sets line key value → ∀ other, other ≠ key → ¬other.marker <:+: value

theorem equals_not_mem_name (key : ConfigKey) : '=' ∉ key.name := by
  cases key <;> decide

variable {line : List Char}

theorem plain_of_count (once : line.count '=' ≤ 1) : Plain line := by
  rintro key value ⟨indent, rest, rfl, -, -, -⟩ other - occurs
  have inValue : '=' ∈ value := occurs.subset (by simp [ConfigKey.marker])
  have positive := List.count_pos_iff.mpr inValue
  simp only [List.count_append, List.count_cons_self] at once
  omega

variable {text : List Char}

theorem equals_not_mem_of_space (space : ∀ symbol ∈ text, CText.isSpace symbol = true) :
    '=' ∉ text := by
  intro member
  have isBlank := space '=' member
  revert isBlank
  decide

variable {other : ConfigKey}

theorem names_apart (different : other ≠ key) {start : List Char} (nonempty : start ≠ [])
    (ends : start <:+ key.name) : ¬start <+: other.name := by
  have checked : ∀ key ∈ ConfigKey.all, ∀ other ∈ ConfigKey.all, other ≠ key →
      ∀ start ∈ key.name.tails, start ≠ [] → ¬start <+: other.name := by
    decide +kernel
  exact checked key (mem_all key) other (mem_all other) different start
    ((List.mem_tails _ _).mpr ends) nonempty

theorem name_ne_nil (key : ConfigKey) : key.name ≠ [] := by
  cases key <;> decide

variable {value tail : List Char}

theorem not_marker_infix_setting (different : other ≠ key) (absent : ¬other.marker <:+: value)
    (inTail : '=' ∉ tail) : ¬other.marker <:+: key.name ++ '=' :: (value ++ tail) := by
  intro occurs
  rcases (marker_infix_cut (equals_not_mem_name other) (equals_not_mem_name key)).mp occurs with
    ends | later
  · exact names_apart different (name_ne_nil other) ends List.prefix_rfl
  · exact absent ((marker_infix_append inTail).mp later)

theorem not_marker_infix_moved (different : other ≠ key) (absent : ¬other.marker <:+: value) :
    ¬other.marker <:+: key.name ++ value := by
  intro occurs
  rcases marker_infix_joined (equals_not_mem_name key) occurs with later |
    ⟨start, nonempty, ends, begins⟩
  · exact absent later
  · exact names_apart different nonempty ends begins

theorem getToken_setting (key : ConfigKey) (solid : ∀ symbol ∈ value, CText.isSpace symbol = false)
    (space : ∀ symbol ∈ tail, CText.isSpace symbol = true) :
    getToken (key.name ++ '=' :: (value ++ tail)) '=' = some (value, key.name ++ value) := by
  have named := decide_ne_of_not_mem (equals_not_mem_name key)
  have token : (value ++ tail).takeWhile (fun symbol => !CText.isSpace symbol) = value := by
    rw [List.takeWhile_append_of_pos (by simpa using solid)]
    cases tail with
    | nil => simp
    | cons symbol tail => simp [space symbol List.mem_cons_self]
  unfold getToken
  rw [List.dropWhile_append_of_pos named, List.takeWhile_append_of_pos named]
  simp [token]

theorem foundIn_moved (plain : ∀ other, other ≠ key → ¬other.marker <:+: value)
    (absent : key ∉ keys) : foundIn keys (key.name ++ value) = [] := by
  induction keys with
  | nil => rfl
  | cons first keys ih =>
    rw [List.mem_cons, not_or] at absent
    have different : first ≠ key := fun same => absent.1 same.symm
    rw [foundIn, if_neg (not_marker_infix_moved different (plain first different)), ih absent.2]

theorem foundIn_setting (nodup : keys.Nodup)
    (plain : ∀ other, other ≠ key → ¬other.marker <:+: value)
    (solid : ∀ symbol ∈ value, CText.isSpace symbol = false)
    (space : ∀ symbol ∈ tail, CText.isSpace symbol = true) (member : key ∈ keys) :
    foundIn keys (key.name ++ '=' :: (value ++ tail)) = [(key, value)] := by
  induction keys with
  | nil => cases member
  | cons first keys ih =>
    obtain ⟨notLater, nodup⟩ := List.nodup_cons.mp nodup
    by_cases same : first = key
    · subst same
      have occurs : first.marker <:+: first.name ++ '=' :: (value ++ tail) :=
        ⟨[], value ++ tail, by simp [ConfigKey.marker]⟩
      rw [foundIn, if_pos occurs, getToken_setting first solid space]
      simp only [foundIn_moved plain notLater]
    · have later : key ∈ keys := (List.mem_cons.mp member).resolve_left fun eq => same eq.symm
      rw [foundIn, if_neg (not_marker_infix_setting same (plain first same)
        (equals_not_mem_of_space space)), ih nodup later]

theorem foundIn_of_not_mem (keys : List ConfigKey) {ch : List Char} (absent : '=' ∉ ch) :
    foundIn keys ch = [] := by
  induction keys with
  | nil => rfl
  | cons first keys ih =>
    have notFound : ¬first.marker <:+: ch := by
      intro occurs
      exact absent (occurs.subset (by simp [ConfigKey.marker]))
    rw [foundIn, if_neg notFound, ih]

theorem truncateComment_trails {front rest : List Char} (inFront : '#' ∉ front)
    (trails : Trails rest) :
    ∃ tail, truncateComment (front ++ CText.cString rest) = front ++ tail ∧
      ∀ symbol ∈ tail, CText.isSpace symbol = true := by
  obtain ⟨space, comment, rfl, isSpaces, ends⟩ := trails
  have notNul : '\x00' ∉ space := fun member => absurd (isSpaces _ member) (by decide)
  have inSpace : '#' ∉ space := fun member => absurd (isSpaces _ member) (by decide)
  have before : '#' ∉ front ++ space := by
    rw [List.mem_append, not_or]
    exact ⟨inFront, inSpace⟩
  rw [CText.cString, List.takeWhile_append_of_pos (decide_ne_of_not_mem notNul)]
  rcases ends with rfl | ⟨text, rfl⟩
  · refine ⟨space, ?_, isSpaces⟩
    rw [truncateComment, if_neg (by simp [inFront, inSpace])]
    simp
  · refine ⟨space ++ ['\n'], ?_, ?_⟩
    · rw [truncateComment, if_pos (by simp), ← List.append_assoc,
        List.takeWhile_append_of_pos (decide_ne_of_not_mem before)]
      simp
    · simpa [or_imp, forall_and] using ⟨isSpaces, by decide⟩

theorem name_symbols (key : ConfigKey) :
    (key.name.all fun symbol => symbol ≠ '\x00' && symbol ≠ '#') = true ∧
      key.name.head? = some 'A' := by
  cases key <;> decide

theorem skipBlanks_setting {indent : List Char} (key : ConfigKey) (rest : List Char)
    (blank : ∀ symbol ∈ indent, symbol = ' ' ∨ symbol = '\t') (inValue : '\x00' ∉ value) :
    skipBlanks (indent ++ key.name ++ '=' :: (value ++ rest)) =
      key.name ++ '=' :: value ++ CText.cString rest := by
  obtain ⟨symbols, first⟩ := name_symbols key
  rw [List.all_eq_true] at symbols
  simp only [Bool.and_eq_true, decide_eq_true_eq] at symbols
  have notNul : '\x00' ∉ indent ++ key.name ++ '=' :: value := by
    intro member
    simp only [List.mem_append, List.mem_cons] at member
    rcases member with (inIndent | inName) | same | behind
    · exact absurd (blank _ inIndent) (by decide)
    · exact (symbols _ inName).1 rfl
    · exact absurd same (by decide)
    · exact inValue behind
  have parts : indent ++ key.name ++ '=' :: (value ++ rest) =
      (indent ++ key.name ++ '=' :: value) ++ rest := by simp
  rw [skipBlanks, CText.cString, parts,
    List.takeWhile_append_of_pos (decide_ne_of_not_mem notNul)]
  simp only [List.append_assoc]
  rw [List.dropWhile_append_of_pos (by simpa using blank)]
  cases whole : key.name with
  | nil => exact absurd whole (name_ne_nil key)
  | cons symbol name =>
    rw [whole, List.head?_cons, Option.some.injEq] at first
    subst first
    rfl

theorem Sets.prepared (sets : Sets line key value) :
    (skipBlanks line).head? = some 'A' ∧
      ∃ tail, truncateComment (skipBlanks line) = key.name ++ '=' :: (value ++ tail) ∧
        ∀ symbol ∈ tail, CText.isSpace symbol = true := by
  obtain ⟨indent, rest, rfl, blank, solid, trails⟩ := sets
  obtain ⟨symbols, first⟩ := name_symbols key
  rw [List.all_eq_true] at symbols
  simp only [Bool.and_eq_true, decide_eq_true_eq] at symbols
  have inFront : '#' ∉ key.name ++ '=' :: value := by
    intro member
    simp only [List.mem_append, List.mem_cons] at member
    rcases member with inName | same | inValue
    · exact (symbols _ inName).2 rfl
    · exact absurd same (by decide)
    · exact (solid _ inValue).2.1 rfl
  rw [skipBlanks_setting key rest blank fun inValue => (solid _ inValue).2.2 rfl]
  refine ⟨?_, ?_⟩
  · rw [List.append_assoc, List.head?_append, first]
    rfl
  · obtain ⟨tail, shape, space⟩ := truncateComment_trails inFront trails
    exact ⟨tail, by simpa using shape, space⟩

theorem Sets.unique {other : List Char} (sets : Sets line key value)
    (otherSets : Sets line key other) : value = other := by
  obtain ⟨-, tail, shape, space⟩ := sets.prepared
  obtain ⟨-, otherTail, otherShape, otherSpace⟩ := otherSets.prepared
  obtain ⟨_, _, _, _, solid, _⟩ := sets
  obtain ⟨_, _, _, _, otherSolid, _⟩ := otherSets
  have token := getToken_setting key (fun symbol member => (solid symbol member).1) space
  have otherToken :=
    getToken_setting key (fun symbol member => (otherSolid symbol member).1) otherSpace
  rw [← shape] at token
  rw [← otherShape, token] at otherToken
  exact (Prod.mk.inj (Option.some.inj otherToken)).1

theorem finds_of_sets (sets : Sets line key value) (plain : Plain line) (other : ConfigKey)
    (tmp : List Char) : Finds line other tmp ↔ other = key ∧ tmp = value := by
  obtain ⟨first, tail, shape, space⟩ := sets.prepared
  have plainValue := plain key value sets
  obtain ⟨_, _, _, _, solid, _⟩ := sets
  simp only [Finds, first, shape]
  rw [foundIn_setting nodup_all plainValue (fun symbol member => (solid symbol member).1) space
    (mem_all key), List.mem_singleton, Prod.mk.injEq]
  exact and_iff_right (by decide)

theorem not_finds_of_not_mem (absent : '=' ∉ line) (key : ConfigKey) (tmp : List Char) :
    ¬Finds line key tmp := by
  have inSkipped : '=' ∉ skipBlanks line := fun member =>
    absent ((List.takeWhile_sublist _).mem ((List.dropWhile_sublist _).mem member))
  have inTruncated : '=' ∉ truncateComment (skipBlanks line) := by
    unfold truncateComment
    split
    · intro member
      rcases List.mem_append.mp member with early | last
      · exact inSkipped ((List.takeWhile_sublist _).mem early)
      · exact absurd last (by decide)
    · exact inSkipped
  rintro ⟨-, found⟩
  rw [foundIn_of_not_mem _ inTruncated] at found
  cases found

theorem not_finds_comment {indent : List Char}
    (blank : ∀ symbol ∈ indent, symbol = ' ' ∨ symbol = '\t') (key : ConfigKey) (tmp : List Char) :
    ¬Finds (indent ++ '#' :: text) key tmp := by
  have notNul : '\x00' ∉ indent := fun member => absurd (blank _ member) (by decide)
  have first : (skipBlanks (indent ++ '#' :: text)).head? = some '#' := by
    rw [skipBlanks, CText.cString, List.takeWhile_append_of_pos (decide_ne_of_not_mem notNul),
      List.dropWhile_append_of_pos (by simpa using blank)]
    rfl
  rintro ⟨notSkipped, -⟩
  exact notSkipped (.inl first)

theorem finds_iff_sets (form : ConfigLine line) (plain : Plain line) (key : ConfigKey)
    (tmp : List Char) : Finds line key tmp ↔ Sets line key tmp := by
  constructor
  · intro finds
    cases form with
    | blank space =>
      exact absurd finds (not_finds_of_not_mem (equals_not_mem_of_space space) key tmp)
    | comment indent text shape blank =>
      subst shape
      exact absurd finds (not_finds_comment blank key tmp)
    | setting other value sets =>
      obtain ⟨rfl, rfl⟩ := (finds_of_sets sets plain key tmp).mp finds
      exact sets
  · intro sets
    exact (finds_of_sets sets plain key tmp).mpr ⟨rfl, rfl⟩

/-! ## The object against the file -/

/-- What a text stands for in the field of a key: a number in decimal, a mask in hexadecimal, a
directory. -/
def ConfigKey.Means (key : ConfigKey) (text : List Char) : ConfigValue → Prop
  | .number value => key ≠ .traceCatgy ∧ key ≠ .traceDir ∧ IsInteger text value.toNat
  | .mask value => key = .traceCatgy ∧ IsHexadecimal text value.toNat
  | .directory value => key = .traceDir ∧ value = text

theorem ConfigKey.Means.eq_parse {meant : ConfigValue} (means : key.Means text meant) :
    meant = key.parse text := by
  cases meant with
  | number value =>
    obtain ⟨notMask, notDirectory, isInteger⟩ := means
    have same : atoiUnsigned text = value :=
      (isInteger.ofInt_atoi value.toNat_lt).trans UInt32.ofNat_toNat
    cases key with
    | traceCatgy => exact absurd rfl notMask
    | traceDir => exact absurd rfl notDirectory
    | _ => exact congrArg ConfigValue.number same.symm
  | mask value =>
    obtain ⟨rfl, isHexadecimal⟩ := means
    rw [parse, isHexadecimal.strtoull16_eq value.toNat_lt, UInt64.ofNat_toNat]
  | directory value =>
    obtain ⟨rfl, rfl⟩ := means
    rfl

/-- The value of the last line that sets the key, or the default. -/
def Configured (lines : List (List Char)) (key : ConfigKey) (value : ConfigValue) : Prop :=
  (∃ text, LastValue (fun line => Sets line key) lines text ∧ key.Means text value) ∨
    (∀ line ∈ lines, ∀ text, ¬Sets line key text) ∧ value = AgentSettings.initConfig.field key

theorem Sets.lastValue_unique {lines : List (List Char)} {other : List Char}
    (last : LastValue (fun line => Sets line key) lines value)
    (otherLast : LastValue (fun line => Sets line key) lines other) : value = other := by
  obtain ⟨line, -, has, otherHas⟩ := last.common otherLast
  exact has.unique otherHas

theorem configured_iff {lines : List (List Char)} {settled : ConfigValue}
    (settles : Settles Sets lines key settled) :
    Configured lines key settled ↔
      ∀ text, LastValue (fun line => Sets line key) lines text → ∃ meant, key.Means text meant := by
  constructor
  · rintro (⟨text, last, means⟩ | ⟨none, -⟩) other otherLast
    · rw [← Sets.lastValue_unique last otherLast]
      exact ⟨settled, means⟩
    · obtain ⟨line, member, has⟩ := otherLast.exists_mem
      exact absurd has (none line member other)
  · intro meaningful
    rcases settles with ⟨tmp, last, rfl⟩ | none
    · obtain ⟨meant, means⟩ := meaningful tmp last
      exact .inl ⟨tmp, last, means.eq_parse ▸ means⟩
    · exact .inr none

theorem settles_finds_iff_sets {lines : List (List Char)}
    (forms : ∀ line ∈ lines, ConfigLine line) (plain : ∀ line ∈ lines, Plain line)
    (key : ConfigKey) (value : ConfigValue) :
    Settles Finds lines key value ↔ Settles Sets lines key value := by
  have agree : ∀ line ∈ lines, ∀ tmp, Finds line key tmp ↔ Sets line key tmp :=
    fun line member tmp => finds_iff_sets (forms line member) (plain line member) key tmp
  unfold Settles
  refine or_congr ?_ (and_congr_left' ?_)
  · exact exists_congr fun tmp => and_congr_left' (lastValue_congr agree)
  · exact forall₂_congr fun line member => forall_congr' fun tmp =>
      not_congr (agree line member tmp)

/-- A configuration text: lines of the known forms that fit the buffer with their ends.  No value
has another key with a `=` in it. -/
structure ConfigText (text : List Char) : Prop where
  forms : ∀ line ∈ rawLines '\n' text, ConfigLine line
  short : ∀ line ∈ rawLines '\n' text, line.length ≤ 99
  plain : ∀ line ∈ rawLines '\n' text, Plain line

/-- Where `readConfig` succeeds, all fields but one have what the lines set last, and that one is
as before. -/
theorem field_readConfig (isConfig : ConfigText text) {world : ConfigWorld}
    (opened : world.file = some text) {config : AgentSettings}
    (succeeds : (readConfig world config).1 = 0) :
    ((readConfig world config).2.field .drbdSupervisionIntvl =
        config.field .drbdSupervisionIntvl) ∧
      ∀ key, key ≠ .drbdSupervisionIntvl →
        Settles Sets (rawLines '\n' text) key ((readConfig world config).2.field key) := by
  have received : bufferedLines '\n' 99 text = rawLines '\n' text :=
    bufferedLines_eq_rawLines (by decide) isConfig.short
  simp only [readConfig, opened, received] at succeeds ⊢
  cases copied : initLog world.logtraceInit
      ((rawLines '\n' text).foldl readConfigLine .initConfig) config with
  | none =>
    rw [copied] at succeeds
    cases succeeds
  | some after =>
    refine ⟨field_of_initLog copied _, fun key different => ?_⟩
    simp only [field_of_initLog copied key, if_neg different]
    exact (settles_finds_iff_sets isConfig.forms isConfig.plain key _).mp
      (settles_foldl_readConfigLine _ key)

def sampleWorld (text : String) : ConfigWorld :=
  ⟨some text.toList, fun _ _ => true, true⟩

theorem sets_sample (shape : line = key.name ++ '=' :: (value ++ ['\n']))
    (solid : (value.all fun symbol =>
      !CText.isSpace symbol && symbol ≠ '#' && symbol ≠ '\x00') = true) : Sets line key value := by
  refine ⟨[], ['\n'], by simpa using shape, by simp, fun symbol member => ?_, ?_⟩
  · have each := List.all_eq_true.mp solid symbol member
    simpa [and_assoc] using each
  · exact ⟨['\n'], [], rfl, by simp [CText.isSpace], .inl rfl⟩

theorem configText_sample (single : rawLines '\n' text = [line]) (sets : Sets line key value)
    (short : line.length ≤ 99) (once : line.count '=' ≤ 1) : ConfigText text := by
  constructor
  · simpa [single] using ConfigLine.setting key value sets
  · simpa [single] using short
  · simpa [single] using plain_of_count once

/-- The one line of a file sets no other key. -/
theorem Sets.same_key (sets : Sets line key value) (once : line.count '=' ≤ 1)
    {tmp : List Char} (otherSets : Sets line other tmp) : other = key ∧ tmp = value :=
  (finds_of_sets sets (plain_of_count once) other tmp).mp
    ((finds_of_sets otherSets (plain_of_count once) other tmp).mpr ⟨rfl, rfl⟩)

end Apos.DrbdAgent
