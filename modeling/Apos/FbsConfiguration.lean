import Apos.UserDbHandler
import Apos.PaddedTexts

/-!
# The two readers of the configuration file

The command that writes the user database and the NSS library that reads it both take the
path of their file from `fbs.conf`.  `TConfigFile` of the command keeps the first value of
a key and trims all white space.  `get_passwd_filepath` of the library keeps the last value
of `R_FILE`, skips spaces and tabs only and passes over a line that does not end with a new
line in its buffer.
-/

namespace Apos

/-! ## The reader of the command -/

namespace UserDb

/-- What a line of the configuration file is to `ParsingConfigFile`. -/
inductive ConfigLine where
  | blank
  | formatError
  | entry (strLeft strRight : Text)
  deriving DecidableEq, Repr

def configLine (pBuf : Text) : ConfigLine :=
  let strLine := trim (CText.cString pBuf)
  if strLine = [] then .blank
  else
    match strLine.dropWhile fun symbol => decide (symbol ≠ '=') with
    | [] => .formatError
    | _ :: right =>
      let left := strLine.takeWhile fun symbol => decide (symbol ≠ '=')
      if left = [] ∨ right = [] then .formatError else .entry (trim left) (trim right)

structure ConfigPaths where
  readPath : Text
  writePath : Text
  deriving DecidableEq, Repr

def configWFile : Text :=
  "W_FILE".toList

def configRFile : Text :=
  "R_FILE".toList

/-- The first value of a key stays. -/
def ConfigPaths.assign (paths : ConfigPaths) (strLeft strRight : Text) : ConfigPaths :=
  if strLeft = configWFile ∧ paths.writePath = [] then { paths with writePath := strRight }
  else if strLeft = configRFile ∧ paths.readPath = [] then { paths with readPath := strRight }
  else paths

/-- One round of the loop.  A format error ends it. -/
def parsingConfigLine (paths : ConfigPaths) (pBuf : Text) : Option ConfigPaths :=
  match configLine pBuf with
  | .blank => some paths
  | .formatError => none
  | .entry strLeft strRight => some (paths.assign strLeft strRight)

abbrev maxConfigLineBuffer : Nat := 2048

def parsingConfigFile (text : Text) : Option ConfigPaths := do
  let paths ← (bufferedLines '\n' (maxConfigLineBuffer - 1) text).foldlM parsingConfigLine ⟨[], []⟩
  if paths.writePath = [] ∨ paths.readPath = [] then none else some paths

theorem equals_not_trimmed : isTrimCharacter '=' = false := by
  decide

theorem configLine_of_cut {pBuf left right : Text}
    (line : CText.cString pBuf = left ++ '=' :: right) (absent : '=' ∉ left) :
    configLine pBuf =
      if trim left = [] ∨ trim right = [] then .formatError
      else .entry (trim left) (trim right) := by
  have stripped : trim (CText.cString pBuf) =
      left.dropWhile isTrimCharacter ++ '=' :: right.rdropWhile isTrimCharacter := by
    rw [line, trim_eq_strip, strip_cut equals_not_trimmed]
  have before : ∀ symbol ∈ left.dropWhile isTrimCharacter, decide (symbol ≠ '=') = true :=
    decide_ne_of_not_mem fun member => absent ((List.dropWhile_sublist _).mem member)
  have leftEmpty : left.dropWhile isTrimCharacter = [] ↔ trim left = [] := by
    rw [trim_eq_strip, strip_eq_nil_iff, List.dropWhile_eq_nil_iff]
  have rightEmpty : right.rdropWhile isTrimCharacter = [] ↔ trim right = [] := by
    rw [trim_eq_strip, strip_eq_nil_iff, List.rdropWhile_eq_nil_iff]
  have found : (left.dropWhile isTrimCharacter ++
      '=' :: right.rdropWhile isTrimCharacter).dropWhile (fun symbol => decide (symbol ≠ '=')) =
      '=' :: right.rdropWhile isTrimCharacter :=
    dropWhile_padded before (by simp)
  have cut : (left.dropWhile isTrimCharacter ++
      '=' :: right.rdropWhile isTrimCharacter).takeWhile (fun symbol => decide (symbol ≠ '=')) =
      left.dropWhile isTrimCharacter := by
    rw [List.takeWhile_append_of_pos before]
    simp
  have leftTrimmed : trim (left.dropWhile isTrimCharacter) = trim left := strip_dropWhile left
  have rightTrimmed : trim (right.rdropWhile isTrimCharacter) = trim right :=
    strip_rdropWhile right
  simp only [configLine, stripped, found, cut, leftEmpty, rightEmpty, leftTrimmed, rightTrimmed]
  rw [if_neg (by simp)]

theorem configLine_of_not_mem {pBuf : Text} (absent : '=' ∉ CText.cString pBuf) :
    configLine pBuf = .blank ∨ configLine pBuf = .formatError := by
  have missing :
      (trim (CText.cString pBuf)).dropWhile (fun symbol => decide (symbol ≠ '=')) = [] := by
    rw [List.dropWhile_eq_nil_iff]
    exact decide_ne_of_not_mem fun member => absent (mem_of_mem_strip member)
  unfold configLine
  simp only [missing]
  split
  · exact .inl rfl
  · exact .inr rfl

theorem configLine_eq_entry_iff {pBuf strLeft strRight : Text} :
    configLine pBuf = .entry strLeft strRight ↔
      Assigns isTrimCharacter '=' (CText.cString pBuf) strLeft strRight ∧
        strLeft ≠ [] ∧ strRight ≠ [] := by
  by_cases present : '=' ∈ CText.cString pBuf
  · obtain ⟨left, right, line, absent⟩ := List.eq_append_cons_of_mem present
    rw [configLine_of_cut line absent]
    constructor
    · intro entry
      split at entry
      · cases entry
      · next nonempty =>
          cases entry
          rw [not_or] at nonempty
          exact ⟨⟨left, right, line, absent, rfl, rfl⟩, nonempty⟩
    · rintro ⟨assigns, leftNonempty, rightNonempty⟩
      have own : Assigns isTrimCharacter '=' (CText.cString pBuf) (trim left) (trim right) :=
        ⟨left, right, line, absent, rfl, rfl⟩
      obtain ⟨rfl, rfl⟩ := own.unique assigns
      rw [if_neg (not_or.mpr ⟨leftNonempty, rightNonempty⟩)]
  · constructor
    · intro entry
      rcases configLine_of_not_mem present with other | other
      · rw [other] at entry
        cases entry
      · rw [other] at entry
        cases entry
    · rintro ⟨⟨left, right, line, -⟩, -⟩
      exact absurd (line ▸ by simp) present

theorem readPath_assign (paths : ConfigPaths) (strLeft strRight : Text) :
    (paths.assign strLeft strRight).readPath =
      if strLeft = configRFile ∧ paths.readPath = [] then strRight else paths.readPath := by
  unfold ConfigPaths.assign
  split
  · next write =>
      have other : strLeft ≠ configRFile := by
        rw [write.1]
        decide
      rw [if_neg fun both => other both.1]
  · split <;> rfl

theorem readPath_of_foldlM {lines : List Text} {paths result : ConfigPaths}
    (folded : lines.foldlM parsingConfigLine paths = some result) (set : paths.readPath ≠ []) :
    result.readPath = paths.readPath := by
  induction lines generalizing paths with
  | nil =>
    cases folded
    rfl
  | cons line lines ih =>
    obtain ⟨next, parsed, rest⟩ := Option.bind_eq_some_iff.mp folded
    have same : next.readPath = paths.readPath := by
      unfold parsingConfigLine at parsed
      split at parsed
      · cases parsed
        rfl
      · cases parsed
      · cases parsed
        rw [readPath_assign, if_neg fun both => set both.2]
    rw [← same] at set ⊢
    exact ih rest set

theorem readPath_eq_iff {lines : List Text} {paths result : ConfigPaths} {value : Text}
    (folded : lines.foldlM parsingConfigLine paths = some result) (unset : paths.readPath = [])
    (nonempty : value ≠ []) :
    result.readPath = value ↔
      FirstValue (fun line found => configLine line = .entry configRFile found) lines value := by
  induction lines generalizing paths with
  | nil =>
    cases folded
    constructor
    · intro same
      exact absurd (same.symm.trans unset) nonempty
    · rintro ⟨before, line, after, split, -⟩
      simp at split
  | cons line lines ih =>
    obtain ⟨next, parsed, rest⟩ := Option.bind_eq_some_iff.mp folded
    unfold parsingConfigLine at parsed
    by_cases own : ∃ found, configLine line = .entry configRFile found
    · obtain ⟨found, entry⟩ := own
      have foundNonempty : found ≠ [] := (configLine_eq_entry_iff.mp entry).2.2
      rw [entry] at parsed
      cases parsed
      have set : (paths.assign configRFile found).readPath = found := by
        rw [readPath_assign, if_pos ⟨rfl, unset⟩]
      rw [readPath_of_foldlM rest (by rwa [set]), set]
      constructor
      · rintro rfl
        exact ⟨[], line, lines, rfl, entry, by simp⟩
      · intro first
        have same := entry.symm.trans (first.head entry)
        cases same
        rfl
    · rw [not_exists] at own
      rw [firstValue_cons_of_not own]
      apply ih rest
      split at parsed
      · cases parsed
        exact unset
      · cases parsed
      · next strLeft strRight entry =>
          cases parsed
          rw [readPath_assign, if_neg]
          · exact unset
          · rintro ⟨rfl, -⟩
            exact own strRight entry

end UserDb

/-! ## The reader of the library -/

namespace NssFbs

open UserDb (Text)

def isBlank (symbol : Char) : Bool :=
  symbol == ' ' || symbol == '\t'

def skipBlanks (p : Text) : Text :=
  p.dropWhile isBlank

def passwdFileParamName : Text :=
  "R_FILE".toList

abbrev bufferSize : Nat := 1024

inductive Match where
  | noMatch
  | tooLong
  | path (value : Text)
  deriving DecidableEq, Repr

/-- What follows the `=`.  The last character is looked for from the new line backwards, but
not before the first one. -/
def paramValue (q : Text) : Match :=
  match skipBlanks q with
  | [] => .noMatch
  | first :: rest =>
    if first = '\n' then .noMatch
    else if '\n' ∈ rest then
      let value := first ::
        (rest.takeWhile fun symbol => decide (symbol ≠ '\n')).rdropWhile isBlank
      if bufferSize - 1 < value.length then .tooLong else .path value
    else .noMatch

def matchLine (linebuf : Text) : Match :=
  let p := skipBlanks (CText.cString linebuf)
  if p = [] ∨ p.head? = some '\n' then .noMatch
  else if passwdFileParamName <+: p then
    match skipBlanks (p.drop passwdFileParamName.length) with
    | '=' :: q => paramValue q
    | _ => .noMatch
  else .noMatch

/-- The loop over the lines: `retval` and `passwd_filepath`. -/
def scanConfig : List Text → Text → Int × Text
  | [], passwdFilepath => (0, passwdFilepath)
  | linebuf :: lines, passwdFilepath =>
    match matchLine linebuf with
    | .noMatch => scanConfig lines passwdFilepath
    | .tooLong => (-1, passwdFilepath)
    | .path value => scanConfig lines value

structure ConfigFile where
  text : Text
  readError : Bool
  deriving DecidableEq, Repr

/-- The return value and `passwd_filepath` afterwards.  There is no file when it cannot be
opened. -/
def getPasswdFilepath (file : Option ConfigFile) (forceRead : Bool) (passwdFilepath : Text) :
    Int × Text :=
  if passwdFilepath ≠ [] ∧ forceRead = false then (0, passwdFilepath)
  else
    match file with
    | none => (-1, passwdFilepath)
    | some file =>
      let scanned := scanConfig (bufferedLines '\n' (bufferSize - 1) file.text) passwdFilepath
      (if file.readError then -1 else scanned.1, scanned.2)

theorem equals_not_blank : isBlank '=' = false := by
  decide

theorem newLine_not_blank : isBlank '\n' = false := by
  decide

theorem bare_passwdFileParamName : Bare isBlank passwdFileParamName where
  head := by
    intro symbol member
    obtain rfl : 'R' = symbol := by simpa [passwdFileParamName] using member
    decide
  last := by
    intro symbol member
    obtain rfl : 'E' = symbol := by simpa [passwdFileParamName] using member
    decide

/-- A line that assigns `R_FILE`, with spaces and tabs only around the key and the value and
with its new line. -/
def AssignsPlainly (line value : Text) : Prop :=
  ∃ body, CText.cString line = body ++ ['\n'] ∧ '\n' ∉ body ∧ value ≠ [] ∧
    Assigns isBlank '=' body passwdFileParamName value

theorem paramValue_cut {text : Text} (absent : '\n' ∉ text) (after : Text) :
    paramValue (text ++ '\n' :: after) =
      if strip isBlank text = [] then .noMatch
      else if bufferSize - 1 < (strip isBlank text).length then .tooLong
      else .path (strip isBlank text) := by
  cases start : text.dropWhile isBlank with
  | nil =>
    have blank : ∀ symbol ∈ text, isBlank symbol = true := List.dropWhile_eq_nil_iff.mp start
    have skipped : skipBlanks (text ++ '\n' :: after) = '\n' :: after :=
      dropWhile_padded blank (by simp [newLine_not_blank])
    rw [if_pos (strip_eq_nil_iff.mpr blank), paramValue, skipped]
    rfl
  | cons first rest =>
    have bare : isBlank first = false := by
      apply head_dropWhile text first
      rw [start]
      rfl
    have inside : ∀ symbol ∈ first :: rest, symbol ≠ '\n' := by
      rintro symbol member rfl
      rw [← start] at member
      exact absent ((List.dropWhile_sublist _).mem member)
    have skipped : skipBlanks (text ++ '\n' :: after) = first :: (rest ++ '\n' :: after) := by
      rw [skipBlanks, List.dropWhile_append, start]
      rfl
    have cut : (rest ++ '\n' :: after).takeWhile (fun symbol => decide (symbol ≠ '\n')) =
        rest := by
      rw [List.takeWhile_append_of_pos fun symbol member =>
        decide_eq_true (inside symbol (List.mem_cons_of_mem _ member))]
      simp
    have value : strip isBlank text = first :: rest.rdropWhile isBlank := by
      rw [strip, start]
      exact rdropWhile_cut bare [] rest
    simp only [paramValue, skipped, cut, value]
    rw [if_neg (inside first List.mem_cons_self), if_pos (by simp), if_neg (List.cons_ne_nil _ _)]

theorem paramValue_of_not_mem {q : Text} (absent : '\n' ∉ q) : paramValue q = .noMatch := by
  unfold paramValue
  split
  · rfl
  · next first rest start =>
      have unended : '\n' ∉ rest := by
        intro member
        apply absent
        apply (List.dropWhile_sublist isBlank).mem
        rw [← skipBlanks, start]
        exact List.mem_cons_of_mem _ member
      rw [if_neg unended, ite_self]

theorem matchLine_cut {line left right : Text} (string : CText.cString line = left ++ '=' :: right)
    (key : strip isBlank left = passwdFileParamName) : matchLine line = paramValue right := by
  obtain ⟨lead, mid, leading, middle, leftParts⟩ := @exists_padded Char isBlank left
  rw [key] at leftParts
  have start : skipBlanks (CText.cString line) = passwdFileParamName ++ (mid ++ '=' :: right) := by
    have padded := @dropWhile_padded Char isBlank lead
      (passwdFileParamName ++ (mid ++ '=' :: right)) leading bare_passwdFileParamName.head
    rw [skipBlanks, string, leftParts]
    simpa using padded
  have equals : skipBlanks (mid ++ '=' :: right) = '=' :: right :=
    dropWhile_padded middle (by simp [equals_not_blank])
  simp only [matchLine, start, List.drop_left, equals]
  rw [if_neg (by simp [passwdFileParamName]), if_pos (List.prefix_append _ _)]

theorem matchLine_cases (line : Text) :
    matchLine line = .noMatch ∨
      ∃ left right, CText.cString line = left ++ '=' :: right ∧ '=' ∉ left ∧
        strip isBlank left = passwdFileParamName := by
  by_cases blank : skipBlanks (CText.cString line) = [] ∨
      (skipBlanks (CText.cString line)).head? = some '\n'
  · exact .inl (if_pos blank)
  by_cases key : passwdFileParamName <+: skipBlanks (CText.cString line)
  · obtain ⟨after, whole⟩ := key
    have matched : matchLine line = match skipBlanks after with
        | '=' :: q => paramValue q
        | _ => .noMatch := by
      simp only [matchLine]
      rw [if_neg blank, ← whole, if_pos (List.prefix_append _ _), List.drop_left]
    rw [matched]
    split
    · next q found =>
        have leading : ∀ symbol ∈ (CText.cString line).takeWhile isBlank, isBlank symbol = true :=
          fun _ => List.mem_takeWhile_imp
        have middle : ∀ symbol ∈ after.takeWhile isBlank, isBlank symbol = true :=
          fun _ => List.mem_takeWhile_imp
        refine .inr ⟨(CText.cString line).takeWhile isBlank ++ passwdFileParamName ++
          after.takeWhile isBlank, q, ?_, ?_, strip_padded bare_passwdFileParamName leading middle⟩
        · have whole' : CText.cString line = (CText.cString line).takeWhile isBlank ++
              skipBlanks (CText.cString line) := List.takeWhile_append_dropWhile.symm
          have after' : after = after.takeWhile isBlank ++ skipBlanks after :=
            List.takeWhile_append_dropWhile.symm
          rw [found] at after'
          rw [← whole, after'] at whole'
          simpa using whole'
        · intro member
          rw [List.mem_append, List.mem_append] at member
          rcases member with (front | name) | back
          · exact absurd (leading '=' front) (by decide)
          · exact absurd name (by decide)
          · exact absurd (middle '=' back) (by decide)
    · exact .inl rfl
  · refine .inl ?_
    simp only [matchLine]
    rw [if_neg blank, if_neg key]

theorem exists_cString_append (line : Text) : ∃ more, line = CText.cString line ++ more :=
  ⟨line.dropWhile fun symbol => decide (symbol ≠ '\x00'),
    List.takeWhile_append_dropWhile.symm⟩

theorem newLine_last {line before after : Text} (single : '\n' ∉ line.dropLast)
    (string : CText.cString line = before ++ '\n' :: after) : '\n' ∉ before ∧ after = [] := by
  obtain ⟨more, whole⟩ := exists_cString_append line
  rw [string, List.append_assoc, List.cons_append] at whole
  rw [whole, List.dropLast_append_of_ne_nil (List.cons_ne_nil _ _), List.mem_append, not_or]
    at single
  refine ⟨single.1, ?_⟩
  by_contra nonempty
  apply single.2
  rw [List.dropLast_cons_of_ne_nil (by simp [nonempty])]
  exact List.mem_cons_self

theorem matchLine_eq {line left text : Text}
    (string : CText.cString line = left ++ '=' :: text ++ ['\n'])
    (absent : '\n' ∉ text) (key : strip isBlank left = passwdFileParamName)
    (short : line.length < bufferSize) :
    matchLine line =
      if strip isBlank text = [] then .noMatch else .path (strip isBlank text) := by
  have fits : ¬bufferSize - 1 < (strip isBlank text).length := by
    obtain ⟨lead, tail, -, -, parts⟩ := @exists_padded Char isBlank text
    obtain ⟨more, whole⟩ := exists_cString_append line
    have part := congrArg List.length parts
    have all := congrArg List.length whole
    rw [string] at all
    simp only [List.length_append, List.length_cons] at part all
    omega
  rw [List.append_assoc, List.cons_append] at string
  rw [matchLine_cut string key, paramValue_cut absent, if_neg fits]

theorem matchLine_cases_of_short {line : Text} (single : '\n' ∉ line.dropLast)
    (short : line.length < bufferSize) :
    matchLine line = .noMatch ∨
      ∃ value, matchLine line = .path value ∧ AssignsPlainly line value := by
  rcases matchLine_cases line with none | ⟨left, right, string, absent, key⟩
  · exact .inl none
  by_cases ended : '\n' ∈ right
  · obtain ⟨text, after, rfl, unended⟩ := List.eq_append_cons_of_mem ended
    rw [← List.cons_append, ← List.append_assoc] at string
    obtain ⟨noNewLine, rfl⟩ := newLine_last single string
    rw [matchLine_eq string unended key short]
    split
    · exact .inl rfl
    · next nonempty =>
        exact .inr ⟨_, rfl, left ++ '=' :: text, string, noNewLine, nonempty, left, text, rfl,
          absent, key, rfl⟩
  · rw [matchLine_cut string key]
    exact .inl (paramValue_of_not_mem ended)

/-- In a buffer that ends at its first new line, the lines that match are the plain
assignments of `R_FILE`. -/
theorem matchLine_eq_path_iff {line value : Text} (single : '\n' ∉ line.dropLast)
    (short : line.length < bufferSize) :
    matchLine line = .path value ↔ AssignsPlainly line value := by
  constructor
  · intro matched
    rcases matchLine_cases_of_short single short with none | ⟨found, own, assigns⟩
    · rw [none] at matched
      cases matched
    · rw [own] at matched
      cases matched
      exact assigns
  · rintro ⟨body, string, noNewLine, nonempty, left, text, rfl, -, key, rfl⟩
    rw [matchLine_eq string _ key short, if_neg nonempty]
    intro member
    apply noNewLine
    rw [List.mem_append, List.mem_cons]
    exact .inr (.inr member)

theorem scanConfig_eq_iff {lines : List Text} {passwdFilepath value : Text}
    (short : ∀ line ∈ lines, matchLine line ≠ .tooLong) :
    (scanConfig lines passwdFilepath).2 = value ↔
      LastValue (fun line found => matchLine line = .path found) lines value ∨
        (passwdFilepath = value ∧ ∀ line ∈ lines, ∀ found, matchLine line ≠ .path found) := by
  induction lines generalizing passwdFilepath with
  | nil => simp [scanConfig, LastValue]
  | cons line lines ih =>
    have shortLater : ∀ other ∈ lines, matchLine other ≠ .tooLong :=
      fun other member => short other (List.mem_cons_of_mem _ member)
    rw [lastValue_cons, List.forall_mem_cons]
    cases matched : matchLine line with
    | noMatch => simp [scanConfig, matched, ih shortLater]
    | tooLong => exact absurd matched (short line List.mem_cons_self)
    | path found => simp [scanConfig, matched, ih shortLater]

def pieces (text : Text) : List Text :=
  bufferedLines '\n' (bufferSize - 1) text

theorem piece_of_mem_pieces {text piece : Text} (member : piece ∈ pieces text) :
    '\n' ∉ piece.dropLast ∧ piece.length < bufferSize := by
  obtain ⟨unread, rfl⟩ := exists_takeLine_of_mem_bufferedLines member
  exact ⟨stop_not_mem_dropLast_takeLine _ _,
    Nat.lt_of_le_of_lt (length_takeLine_le _ _) (by decide)⟩

theorem getPasswdFilepath_eq_iff {text value : Text} (nonempty : value ≠ []) :
    (getPasswdFilepath (some ⟨text, false⟩) false []).2 = value ↔
      LastValue AssignsPlainly (pieces text) value := by
  have matches_iff : ∀ piece ∈ pieces text, ∀ found,
      matchLine piece = .path found ↔ AssignsPlainly piece found := by
    intro piece member found
    obtain ⟨single, short⟩ := piece_of_mem_pieces member
    exact matchLine_eq_path_iff single short
  have notTooLong : ∀ piece ∈ pieces text, matchLine piece ≠ .tooLong := by
    intro piece member tooLong
    obtain ⟨single, short⟩ := piece_of_mem_pieces member
    rcases matchLine_cases_of_short single short with none | ⟨found, path, -⟩
    · rw [none] at tooLong
      cases tooLong
    · rw [path] at tooLong
      cases tooLong
  have scanned : (getPasswdFilepath (some ⟨text, false⟩) false []).2 =
      (scanConfig (pieces text) []).2 := rfl
  rw [scanned, scanConfig_eq_iff notTooLong, lastValue_congr matches_iff]
  exact or_iff_left fun unset => nonempty unset.1.symm

end NssFbs

/-! ## Agreement -/

namespace UserDb

/-- A line that assigns `R_FILE`, with any white space around the key and the value. -/
def AssignsLoosely (line value : Text) : Prop :=
  value ≠ [] ∧ Assigns isTrimCharacter '=' (CText.cString line) configRFile value

theorem readPath_of_parsingConfigFile {text value : Text} {paths : ConfigPaths}
    (accepted : parsingConfigFile text = some paths) (nonempty : value ≠ []) :
    paths.readPath = value ↔
      FirstValue AssignsLoosely (bufferedLines '\n' (maxConfigLineBuffer - 1) text) value := by
  obtain ⟨result, folded, checked⟩ := Option.bind_eq_some_iff.mp accepted
  split at checked
  · cases checked
  · cases checked
    rw [readPath_eq_iff folded rfl nonempty]
    apply firstValue_congr
    intro line _ found
    have key : configRFile ≠ [] := by decide
    rw [configLine_eq_entry_iff, AssignsLoosely, and_iff_right key, and_comm]

/-- On a text that the command accepts, the library stores the path that the command finds for
`R_FILE` exactly if the last plain assignment of `R_FILE` among the pieces that the library
reads has the value of the first assignment among the pieces that the command reads. -/
theorem readers_agree_iff {text : Text} {paths : ConfigPaths}
    (accepted : parsingConfigFile text = some paths) :
    (NssFbs.getPasswdFilepath (some ⟨text, false⟩) false []).2 = paths.readPath ↔
      ∃ value, FirstValue AssignsLoosely (bufferedLines '\n' (maxConfigLineBuffer - 1) text) value ∧
        LastValue NssFbs.AssignsPlainly (NssFbs.pieces text) value := by
  have nonempty : paths.readPath ≠ [] := by
    obtain ⟨result, -, checked⟩ := Option.bind_eq_some_iff.mp accepted
    split at checked
    · cases checked
    · next set =>
        cases checked
        exact fun empty => set (.inr empty)
  rw [NssFbs.getPasswdFilepath_eq_iff nonempty]
  constructor
  · intro last
    exact ⟨paths.readPath, (readPath_of_parsingConfigFile accepted nonempty).mp rfl, last⟩
  · rintro ⟨value, first, last⟩
    have valueNonempty : value ≠ [] := by
      obtain ⟨before, line, after, -, assigns, -⟩ := first
      exact assigns.1
    rwa [(readPath_of_parsingConfigFile accepted valueNonempty).mpr first]

/-- The usual configuration file is read alike. -/
theorem readers_agree_on_usual_file :
    parsingConfigFile "W_FILE=/w\nR_FILE = /r\n".toList = some ⟨"/r".toList, "/w".toList⟩ ∧
      ∃ value, FirstValue AssignsLoosely (bufferedLines '\n' (maxConfigLineBuffer - 1)
          "W_FILE=/w\nR_FILE = /r\n".toList) value ∧
        LastValue NssFbs.AssignsPlainly
          (NssFbs.pieces "W_FILE=/w\nR_FILE = /r\n".toList) value := by
  have accepted : parsingConfigFile "W_FILE=/w\nR_FILE = /r\n".toList =
      some ⟨"/r".toList, "/w".toList⟩ := by decide +kernel
  exact ⟨accepted, (readers_agree_iff accepted).mp (by decide +kernel)⟩

/-- A file with two values for `R_FILE`: the command takes the first and the library the
last. -/
theorem readers_differ_on_second_value :
    parsingConfigFile "W_FILE=/w\nR_FILE=/a\nR_FILE=/b\n".toList =
        some ⟨"/a".toList, "/w".toList⟩ ∧
      NssFbs.getPasswdFilepath (some ⟨"W_FILE=/w\nR_FILE=/a\nR_FILE=/b\n".toList, false⟩) false [] =
        (0, "/b".toList) := by
  constructor <;> decide +kernel

end UserDb

end Apos
