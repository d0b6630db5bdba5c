import Apos.NssFbsEnumeration
import Apos.UserDbDamage

/-!
# The writer and the reader of the user database

The command writes a record as seven fields with colons between them, whatever the fields
hold.  The NSS library leaves the parsing of a line to `fgetpwent_r`, which is documented for
lines of seven fields with decimal numbers.  The command and the library agree about the
database after an insertion exactly for records whose fields can stand in such a line and
whose name does not start with a sign that the library skips.
-/

namespace Apos.UserDb

open NssFbs (Passwd PasswdFormat lineBody hasUid isPlainName Answer Reader World Ready Sees)

/-! ## Lines of a passwd file -/

structure PasswdField (field : Text) : Prop where
  noColon : ':' ∉ field
  noNewLine : '\n' ∉ field
  noNull : '\x00' ∉ field

/-- A decimal number below `2 ^ 32`. -/
structure Decimal (field : Text) : Prop where
  nonempty : field ≠ []
  digits : ∀ symbol ∈ field, symbol.isDigit = true
  bound : Nat.ofDigitChars 10 field 0 < 2 ^ 32

def passwdTexts (pwd : Passwd) : List Text :=
  [pwd.pwName, pwd.pwPasswd, pwd.pwGecos, pwd.pwDir, pwd.pwShell]

def passwdFields (pwd : Passwd) (uid gid : Text) : List (Text × Char) :=
  [(pwd.pwName, ':'), (pwd.pwPasswd, ':'), (uid, ':'), (gid, ':'), (pwd.pwGecos, ':'),
    (pwd.pwDir, ':'), (pwd.pwShell, '\n')]

/-- The line, without its new line, has the seven fields of the entry. -/
structure HoldsEntry (body : Text) (pwd : Passwd) (uid gid : Text) : Prop where
  texts : ∀ field ∈ passwdTexts pwd, PasswdField field
  uidDecimal : Decimal uid
  gidDecimal : Decimal gid
  pwUid : pwd.pwUid = UInt32.ofNat (Nat.ofDigitChars 10 uid 0)
  pwGid : pwd.pwGid = UInt32.ofNat (Nat.ofDigitChars 10 gid 0)
  joined : body ++ ['\n'] = joinFields (passwdFields pwd uid gid)

def Blank (line : Text) : Prop :=
  ∀ symbol ∈ line, isTrimCharacter symbol = true

/-- `fgetpwent_r` reads lines of seven fields and skips blank lines. -/
structure Documented (format : PasswdFormat) : Prop where
  entry : ∀ {body pwd uid gid}, HoldsEntry body pwd uid gid → format.entry body = some pwd
  blank : ∀ {body}, Blank body → format.entry body = none

/-- Every line that is not blank has seven fields and is shorter than 2047 bytes. -/
def PasswdText (content : Text) : Prop :=
  ∀ line ∈ rawLines '\n' content, Blank line ∨
    (∃ pwd uid gid, HoldsEntry (lineBody line) pwd uid gid) ∧ (lineBody line).length < 2047

/-! ## The parser of the command -/

theorem Decimal.field {text : Text} (decimal : Decimal text) : PasswdField text := by
  constructor
  all_goals
    intro member
    cases decimal.digits _ member

theorem Decimal.trim {text : Text} (decimal : Decimal text) : trim text = text := by
  apply trim_eq_self
  · intro symbol head
    exact isTrimCharacter_of_isDigit (decimal.digits symbol (List.mem_of_head? head))
  · intro symbol last
    exact isTrimCharacter_of_isDigit (decimal.digits symbol (List.mem_of_getLast? last))

theorem Decimal.strtoul {text : Text} (decimal : Decimal text) :
    strtoul text = Nat.ofDigitChars 10 text 0 :=
  strtoul_digits decimal.nonempty decimal.digits (Nat.lt_trans decimal.bound (by decide))

theorem Decimal.readDigits {text : Text} (decimal : Decimal text) :
    CText.readDigits 10 0 text = Nat.ofDigitChars 10 text 0 := by
  have whole : text.takeWhile (CText.isDigitOf 10) = text :=
    List.takeWhile_eq_self_iff.mpr fun symbol member =>
      (CText.isDigitOf_ten symbol).trans (decimal.digits symbol member)
  rw [CText.readDigits_eq, whole, CText.addDigits_ten decimal.digits]

theorem decimal_toDigits (number : UInt32) : Decimal (Nat.toDigits 10 number.toNat) where
  nonempty := List.ne_nil_of_length_pos Nat.length_toDigits_pos
  digits := fun _ member => toDigits_isDigit member
  bound := by
    rw [Nat.ofDigitChars_ten_toDigits]
    exact number.toNat_lt

theorem eq_lineBody_or (line : Text) :
    line = lineBody line ∨ line = lineBody line ++ ['\n'] := by
  unfold lineBody
  split
  · next ended =>
      obtain ⟨front, rfl⟩ := List.getLast?_eq_some_iff.mp ended
      exact .inr (by simp)
  · exact .inl rfl

theorem trim_lineBody (line : Text) : trim line = trim (lineBody line) := by
  rcases eq_lineBody_or line with same | same
  · rw [← same]
  · conv_lhs => rw [same, trim_concat_newLine]

section Holds

variable {body : Text} {pwd : Passwd} {uid gid : Text}

def trimmedFields (pwd : Passwd) (uid gid : Text) : List (Text × Char) :=
  [(trimLeft pwd.pwName, ':'), (pwd.pwPasswd, ':'), (uid, ':'), (gid, ':'), (pwd.pwGecos, ':'),
    (pwd.pwDir, ':'), (trimRight pwd.pwShell, '\n')]

theorem mem_of_mem_trimRight {text : Text} {symbol : Char} (member : symbol ∈ trimRight text) :
    symbol ∈ text :=
  (List.rdropWhile_prefix ..).subset member

section Entry

variable (holds : HoldsEntry body pwd uid gid)

include holds

theorem HoldsEntry.fields : ∀ field ∈ passwdFields pwd uid gid, PasswdField field.1 := by
  have texts := holds.texts
  simp only [passwdTexts, List.forall_mem_cons] at texts
  obtain ⟨name, passwd, gecos, dir, shell, -⟩ := texts
  simp only [passwdFields, List.forall_mem_cons]
  exact ⟨name, passwd, holds.uidDecimal.field, holds.gidDecimal.field, gecos, dir, shell,
    List.forall_mem_nil _⟩

theorem HoldsEntry.separator : ∀ field ∈ passwdFields pwd uid gid, field.2 ∉ field.1 := by
  have fields := holds.fields
  simp only [passwdFields, List.forall_mem_cons] at fields ⊢
  obtain ⟨name, passwd, isUid, isGid, gecos, dir, shell, -⟩ := fields
  exact ⟨name.noColon, passwd.noColon, isUid.noColon, isGid.noColon, gecos.noColon, dir.noColon,
    shell.noNewLine, List.forall_mem_nil _⟩

theorem HoldsEntry.body_eq :
    body = pwd.pwName ++ ':' :: (pwd.pwPasswd ++ ':' :: (uid ++ ':' :: (gid ++ ':' ::
      (pwd.pwGecos ++ ':' :: (pwd.pwDir ++ ':' :: pwd.pwShell))))) := by
  refine List.append_cancel_right (holds.joined.trans ?_)
  simp [joinFields, passwdFields]

theorem HoldsEntry.not_mem {symbol : Char} (other : symbol ≠ ':')
    (absent : ∀ field ∈ passwdFields pwd uid gid, symbol ∉ field.1) : symbol ∉ body := by
  rw [holds.body_eq]
  simp only [passwdFields, List.forall_mem_cons] at absent
  simp [absent, other]

theorem HoldsEntry.no_null : '\x00' ∉ body :=
  holds.not_mem (by decide) fun field member => (holds.fields field member).noNull

theorem HoldsEntry.no_newLine : '\n' ∉ body :=
  holds.not_mem (by decide) fun field member => (holds.fields field member).noNewLine

theorem HoldsEntry.trim_body :
    trim body ++ ['\n'] = joinFields (trimmedFields pwd uid gid) := by
  have colon : isTrimCharacter ':' = false := by decide
  have cut : trim body = trimLeft pwd.pwName ++ ':' :: (pwd.pwPasswd ++ ':' :: (uid ++ ':' ::
      (gid ++ ':' :: (pwd.pwGecos ++ ':' :: (pwd.pwDir ++ ':' :: trimRight pwd.pwShell))))) := by
    have stripped : trim body = strip isTrimCharacter body := rfl
    rw [stripped, holds.body_eq, strip_cut colon, rdropWhile_cut colon, rdropWhile_cut colon,
      rdropWhile_cut colon, rdropWhile_cut colon, rdropWhile_cut colon]
    rfl
  simp [cut, joinFields, trimmedFields]

theorem HoldsEntry.own_separator : ∀ field ∈ trimmedFields pwd uid gid, field.2 ∉ field.1 := by
  have separator := holds.separator
  simp only [passwdFields, trimmedFields, List.forall_mem_cons] at separator ⊢
  obtain ⟨name, passwd, isUid, isGid, gecos, dir, shell, -⟩ := separator
  refine ⟨?_, passwd, isUid, isGid, gecos, dir, ?_, List.forall_mem_nil _⟩
  · exact fun member => name ((List.dropWhile_sublist _).subset member)
  · exact fun member => shell (mem_of_mem_trimRight member)

end Entry

theorem HoldsEntry.no_null_line {line : Text} (holds : HoldsEntry (lineBody line) pwd uid gid) :
    '\x00' ∉ line := by
  rcases eq_lineBody_or line with same | same
  · rw [same]
    exact holds.no_null
  · rw [same]
    simp [holds.no_null]

theorem HoldsEntry.parsed_uid {line : Text} (holds : HoldsEntry (lineBody line) pwd uid gid) :
    (parseLine line).uid = some pwd.pwUid := by
  have split : splitFields fieldSeparators (trim (lineBody line) ++ ['\n']) =
      some ((trimmedFields pwd uid gid).map Prod.fst) := by
    rw [holds.trim_body]
    exact splitFields_joinFields holds.own_separator
  have nonempty : trim (lineBody line) ≠ [] := by
    intro empty
    have joined := congrArg List.length holds.trim_body
    rw [empty] at joined
    simp [joinFields, trimmedFields] at joined
    omega
  have shell : ':' ∉ trimRight pwd.pwShell := by
    have field := holds.fields (pwd.pwShell, '\n') (by simp [passwdFields])
    exact fun member => field.noColon (mem_of_mem_trimRight member)
  rw [parseLine, CText.cString_eq_self holds.no_null_line, trim_lineBody, if_neg nonempty, split]
  simp only [trimmedFields, List.map_cons, List.map_nil, if_neg shell, ParsedLine.uid]
  rw [holds.uidDecimal.trim, holds.uidDecimal.strtoul, holds.pwUid]

end Holds

/-! ## The lines that an insertion keeps -/

variable {line : Text}

theorem Blank.no_null (blank : Blank line) : '\x00' ∉ line := by
  intro member
  cases blank _ member

theorem Blank.lineBody (blank : Blank line) : Blank (lineBody line) := by
  intro symbol member
  apply blank
  rcases eq_lineBody_or line with same | same
  · rwa [same]
  · rw [same]
    exact List.mem_append_left _ member

theorem Blank.parsed (blank : Blank line) : parseLine line = .empty := by
  have stripped : trim line = strip isTrimCharacter line := rfl
  rw [parseLine, CText.cString_eq_self blank.no_null, stripped,
    strip_eq_nil_iff.mpr blank, if_pos rfl]

theorem Blank.keptPart {line : Text} (blank : Blank line) (uid : UInt32) :
    keptPart uid line = line := by
  have other : (ParsedLine.empty).uid ≠ some uid := (Option.some_ne_none uid).symm
  rw [UserDb.keptPart, blank.parsed, if_neg other, CText.cString_eq_self blank.no_null]

def PasswdLine (line : Text) : Prop :=
  Blank line ∨
    (∃ pwd uid gid, HoldsEntry (lineBody line) pwd uid gid) ∧ (lineBody line).length < 2047

def isOther (uid : UInt32) (line : Text) : Bool :=
  decide ((parseLine line).uid ≠ some uid)

variable {uid : UInt32}

theorem keptText_append {rest : Text} (isLine : IsLine '\n' line)
    (ended : rest ≠ [] → Ended '\n' line) :
    keptText uid (line ++ rest) = keptText uid line ++ keptText uid rest := by
  have room : 0 < maxFileBuffer - 1 := by decide
  rw [keptText, bufferedLines_append room isLine ended, List.flatMap_append, keptText, keptText]

theorem keptText_line (isLine : IsLine '\n' line) (passwdLine : PasswdLine line) :
    keptText uid line = if isOther uid line then line else [] := by
  rcases passwdLine with blank | ⟨⟨pwd, uidText, gidText, holds⟩, short⟩
  · have other : isOther uid line = true := by
      rw [isOther, blank.parsed]
      rfl
    have room : 0 < maxFileBuffer - 1 := by decide
    have whole : (bufferedLines '\n' (maxFileBuffer - 1) line).flatten = line :=
      flatten_bufferedLines room line
    have blanks : ∀ piece ∈ bufferedLines '\n' (maxFileBuffer - 1) line, Blank piece := by
      intro piece isPiece symbol member
      apply blank
      rw [← whole]
      exact List.mem_flatten_of_mem isPiece member
    have pieces : (bufferedLines '\n' (maxFileBuffer - 1) line).map (keptPart uid) =
        (bufferedLines '\n' (maxFileBuffer - 1) line).map id :=
      List.map_congr_left fun piece isPiece => (blanks piece isPiece).keptPart uid
    rw [other, if_pos rfl, keptText, List.flatMap_def, pieces, List.map_id, whole]
  · have fits : line.length ≤ maxFileBuffer - 1 := by
      have atMost : line.length ≤ (lineBody line).length + 1 := by
        rcases eq_lineBody_or line with same | same
        · rw [← same]
          exact Nat.le_succ _
        · conv_lhs => rw [same]
          simp
      exact Nat.le_trans atMost short
    rw [keptText, bufferedLines_line isLine fits, List.flatMap_singleton, UserDb.keptPart,
      CText.cString_eq_self holds.no_null_line, isOther]
    by_cases same : (parseLine line).uid = some uid <;> simp [same]

variable {lines : List Text}

theorem keptText_flatten (lined : Lined '\n' lines)
    (passwdLines : ∀ line ∈ lines, PasswdLine line) :
    keptText uid lines.flatten = (lines.filter (isOther uid)).flatten := by
  induction lines with
  | nil => rfl
  | cons line lines ih =>
    have later := ih lined.2.2 fun other member =>
      passwdLines other (List.mem_cons_of_mem _ member)
    rw [List.flatten_cons, keptText_append lined.1 lined.ended, later,
      keptText_line lined.1 (passwdLines line List.mem_cons_self)]
    rw [List.filter_cons]
    split <;> rfl

theorem lineBody_close (line : Text) : lineBody (close '\n' line) = lineBody line := by
  unfold Apos.close
  split
  · rfl
  · next open_ => simp [lineBody, open_]

theorem lineEnded_flatten (lined : Lined '\n' lines) :
    lineEnded lines.flatten = (lines.map (close '\n')).flatten := by
  rw [lined.flatten_close, lineEnded]
  simp only [EndsLine, lined.lastEnded_iff]

def TsPassword.entry (pwd : TsPassword) : Passwd where
  pwName := pwd.strName
  pwPasswd := pwd.strPasswd
  pwUid := pwd.uId
  pwGid := pwd.uGid
  pwGecos := pwd.strGecos
  pwDir := pwd.strDir
  pwShell := pwd.strShell

def Delimited (pwd : TsPassword) : Prop :=
  ∀ field ∈ pwd.textFields, PasswdField field

variable {pwd : TsPassword}

theorem Delimited.holdsEntry (delimited : Delimited pwd) :
    HoldsEntry pwd.body pwd.entry (Nat.toDigits 10 pwd.uId.toNat)
      (Nat.toDigits 10 pwd.uGid.toNat) where
  texts := delimited
  uidDecimal := decimal_toDigits pwd.uId
  gidDecimal := decimal_toDigits pwd.uGid
  pwUid := by
    rw [Nat.ofDigitChars_ten_toDigits, UInt32.ofNat_toNat]
    rfl
  pwGid := by
    rw [Nat.ofDigitChars_ten_toDigits, UInt32.ofNat_toNat]
    rfl
  joined := by
    rw [← tuple_eq_body, tuple_eq_joinFields]
    rfl

theorem keptText_eq {content : Text} (passwdText : PasswdText content) (uid : UInt32) :
    keptText uid content = ((rawLines '\n' content).filter (isOther uid)).flatten := by
  have kept := @keptText_flatten uid _ (lined_rawLines content) passwdText
  rwa [flatten_rawLines] at kept

/-- The lines after the insertion of a record: those of other uids, closed, and its own. -/
theorem rawLines_insertion {content : Text} (passwdText : PasswdText content)
    (delimited : Delimited pwd) :
    rawLines '\n' (Call.text content (.insert pwd)) =
      ((rawLines '\n' content).filter (isOther pwd.uId)).map (close '\n') ++ [tuple pwd] := by
  have lined : Lined '\n' ((rawLines '\n' content).filter (isOther pwd.uId)) :=
    (lined_rawLines content).sublist List.filter_sublist
  have isLine : IsLine '\n' (tuple pwd) := by
    rw [tuple_eq_body]
    exact isLine_snoc delimited.holdsEntry.no_newLine
  have ended : ∀ line ∈ ((rawLines '\n' content).filter (isOther pwd.uId)).map (close '\n'),
      Ended '\n' line := by
    intro line member
    obtain ⟨other, -, rfl⟩ := List.mem_map.mp member
    exact ended_close other
  have text : Call.text content (.insert pwd) =
      (((rawLines '\n' content).filter (isOther pwd.uId)).map (close '\n') ++
        [tuple pwd]).flatten := by
    rw [Call.text, keptText_eq passwdText, lineEnded_flatten lined, List.flatten_concat]
  rw [text, rawLines_flatten (lined.close.concat ended isLine)]

/-! ## The entries that the library finds -/

section Format

variable {format : PasswdFormat} {content : Text} {pwd : TsPassword}

theorem Documented.entry_iff (documented : Documented format) {line : Text} {entry : Passwd}
    (passwdLine : PasswdLine line) :
    format.entry (lineBody line) = some entry ↔
      ∃ uid gid, HoldsEntry (lineBody line) entry uid gid := by
  constructor
  · intro parsed
    rcases passwdLine with blank | ⟨⟨other, uid, gid, holds⟩, -⟩
    · rw [documented.blank blank.lineBody] at parsed
      cases parsed
    · rw [documented.entry holds, Option.some.injEq] at parsed
      exact ⟨uid, gid, parsed ▸ holds⟩
  · rintro ⟨uid, gid, holds⟩
    exact documented.entry holds

theorem Documented.parsed_uid (documented : Documented format) {line : Text}
    (passwdLine : PasswdLine line) :
    (parseLine line).uid = (format.entry (lineBody line)).map Passwd.pwUid := by
  rcases passwdLine with blank | ⟨⟨entry, uid, gid, holds⟩, -⟩
  · rw [documented.blank blank.lineBody, blank.parsed]
    rfl
  · rw [documented.entry holds, holds.parsed_uid]
    rfl

theorem Documented.entries_others (documented : Documented format)
    (passwdText : PasswdText content) (uid : UInt32) :
    format.entries ((rawLines '\n' content).filter (isOther uid)) =
      (format.entries (rawLines '\n' content)).filter fun entry => entry.pwUid ≠ uid := by
  rw [PasswdFormat.entries, PasswdFormat.entries, List.filterMap_filter, List.filter_filterMap]
  apply List.filterMap_congr
  intro line member
  rw [isOther, documented.parsed_uid (passwdText line member)]
  cases format.entry (lineBody line) with
  | none => rfl
  | some entry =>
    by_cases same : entry.pwUid = uid
    · simp [Option.filter, same]
    · simp [Option.filter, same]

section Insertion

variable (documented : Documented format) (passwdText : PasswdText content)
  (delimited : Delimited pwd)

include documented passwdText delimited

theorem Documented.entries_insertion :
    format.entries (rawLines '\n' (Call.text content (.insert pwd))) =
      (format.entries (rawLines '\n' content)).filter (fun entry => entry.pwUid ≠ pwd.uId) ++
        [pwd.entry] := by
  have record : format.entry (lineBody (tuple pwd)) = some pwd.entry := by
    have body : lineBody (tuple pwd) = pwd.body := by simp [tuple_eq_body, lineBody]
    rw [body]
    exact documented.entry delimited.holdsEntry
  rw [rawLines_insertion passwdText delimited, ← documented.entries_others passwdText,
    PasswdFormat.entries, PasswdFormat.entries, List.filterMap_append, List.filterMap_map]
  simp only [Function.comp_def, lineBody_close, List.filterMap_cons, record, List.filterMap_nil]

theorem find_inserted (plain : isPlainName pwd.strName = true) :
    (format.entries (rawLines '\n' (Call.text content (.insert pwd)))).find? (hasUid pwd.uId) =
      some pwd.entry := by
  have others : ((format.entries (rawLines '\n' content)).filter
      fun entry => entry.pwUid ≠ pwd.uId).find? (hasUid pwd.uId) = none := by
    rw [List.find?_eq_none]
    intro entry member
    have other := (List.mem_filter.mp member).2
    simp_all [hasUid]
  have own : hasUid pwd.uId pwd.entry = true := by simp [hasUid, TsPassword.entry, plain]
  rw [documented.entries_insertion passwdText delimited, List.find?_append, others,
    List.find?_singleton, if_pos own]
  rfl

theorem find_other {uid : UInt32} (other : uid ≠ pwd.uId) :
    (format.entries (rawLines '\n' (Call.text content (.insert pwd)))).find? (hasUid uid) =
      (format.entries (rawLines '\n' content)).find? (hasUid uid) := by
  have own : ¬hasUid uid pwd.entry = true := by
    simp [hasUid, TsPassword.entry, other.symm]
  have same : (fun entry : Passwd =>
      decide (decide (entry.pwUid ≠ pwd.uId) = true ∧ hasUid uid entry = true)) = hasUid uid := by
    funext entry
    by_cases isUid : entry.pwUid = uid
    · simp [hasUid, isUid, other]
    · simp [hasUid, isUid]
  rw [documented.entries_insertion passwdText delimited, List.find?_append, List.find?_filter,
    List.find?_singleton, if_neg own, Option.or_none, same]

end Insertion

def Stored (content : Text) (pwd : TsPassword) : Prop :=
  ∃ before line after, rawLines '\n' content = before ++ line :: after ∧
    (∃ uid gid, HoldsEntry (lineBody line) pwd.entry uid gid) ∧
    isPlainName pwd.strName = true ∧
    ∀ other ∈ before, ∀ entry uid gid, HoldsEntry (lineBody other) entry uid gid →
      hasUid pwd.uId entry = false

theorem find_stored_iff (documented : Documented format) (passwdText : PasswdText content) :
    (format.entries (rawLines '\n' content)).find? (hasUid pwd.uId) = some pwd.entry ↔
      Stored content pwd := by
  have own : hasUid pwd.uId pwd.entry = isPlainName pwd.strName := by
    simp [hasUid, TsPassword.entry]
  rw [PasswdFormat.entries, List.find?_filterMap, Option.bind_eq_some_iff]
  constructor
  · rintro ⟨line, first, parsed⟩
    obtain ⟨isUid, before, after, split, earlier⟩ := List.find?_eq_some_iff_append.mp first
    have passwdLine : ∀ other ∈ before ++ line :: after, PasswdLine other :=
      fun other member => passwdText other (split ▸ member)
    refine ⟨before, line, after, split,
      (documented.entry_iff (passwdLine line (by simp))).mp parsed, ?_, ?_⟩
    · rw [parsed, Option.any_some, own] at isUid
      exact isUid
    · intro other member entry uid gid holds
      have notUid := earlier other member
      rw [documented.entry holds, Option.any_some, Bool.not_eq_true'] at notUid
      exact notUid
  · rintro ⟨before, line, after, split, ⟨uid, gid, holds⟩, plain, earlier⟩
    have parsed := documented.entry holds
    refine ⟨line, List.find?_eq_some_iff_append.mpr ⟨?_, before, after, split, ?_⟩, parsed⟩
    · rw [parsed, Option.any_some, own, plain]
    · intro other member
      rw [Bool.not_eq_true', ← Bool.not_eq_true, Option.any_eq_true]
      rintro ⟨entry, isEntry, isUid⟩
      have passwdLine : PasswdLine other := passwdText other (by simp [split, member])
      obtain ⟨uid, gid, otherHolds⟩ := (documented.entry_iff passwdLine).mp isEntry
      rw [earlier other member entry uid gid otherHolds] at isUid
      cases isUid

end Format

/-! ## A format that reads nothing else -/

instance : DecidablePred PasswdField := fun field =>
  decidable_of_iff (':' ∉ field ∧ '\n' ∉ field ∧ '\x00' ∉ field)
    ⟨fun ⟨noColon, noNewLine, noNull⟩ => ⟨noColon, noNewLine, noNull⟩,
      fun clean => ⟨clean.noColon, clean.noNewLine, clean.noNull⟩⟩

/-- Seven fields, none of which holds a null character. -/
def strictFields : PasswdFormat where
  entry body := (NssFbs.sevenFields.entry body).filter fun pwd =>
    decide (∀ field ∈ passwdTexts pwd, PasswdField field)
  size := NssFbs.sevenFields.size

theorem documented_strictFields : Documented strictFields where
  entry := by
    intro body pwd uid gid holds
    have split : splitFields fieldSeparators (body ++ ['\n']) =
        some ((passwdFields pwd uid gid).map Prod.fst) := by
      rw [holds.joined]
      exact splitFields_joinFields holds.separator
    have parsed : NssFbs.sevenFields.entry body = some pwd := by
      simp only [NssFbs.sevenFields, split, passwdFields, List.map_cons, List.map_nil]
      rw [holds.uidDecimal.readDigits, holds.gidDecimal.readDigits, ← holds.pwUid, ← holds.pwGid]
    simp only [strictFields, parsed, Option.filter, decide_eq_true_eq]
    exact if_pos holds.texts
  blank := by
    intro body blank
    have noColon : (body ++ ['\n']).dropWhile (fun symbol => decide (symbol ≠ ':')) = [] := by
      rw [List.dropWhile_eq_nil_iff]
      intro symbol member
      rw [decide_eq_true_eq]
      rintro rfl
      rcases List.mem_append.mp member with inside | last
      · cases blank _ inside
      · cases List.mem_singleton.mp last
    have split : splitFields fieldSeparators (body ++ ['\n']) = none := by
      rw [fieldSeparators, splitFields, noColon]
    simp [strictFields, NssFbs.sevenFields, split]

theorem delimited_of_strictFields (member : pwd.entry ∈ strictFields.entries lines) :
    Delimited pwd := by
  obtain ⟨line, -, parsed⟩ := List.mem_filterMap.mp member
  have clean := (Option.filter_eq_some_iff.mp parsed).2
  rwa [decide_eq_true_eq] at clean

/-! ## What a reader is answered -/

section Reader

variable {format : PasswdFormat} {reader : Reader} {world : World}

/-- With a large enough buffer, a lookup of the uid gives the answer. -/
def Answers (format : PasswdFormat) (reader : Reader) (world : World) (uid : UInt32)
    (answer : Answer) : Prop :=
  ∃ least, ∀ rounds buflen, least ≤ rounds → least ≤ buflen → ∃ reader' world',
    NssFbs.Gives format (NssFbs.getpwuid rounds uid buflen) reader world answer reader' world'

def answerOf : Option Passwd → Answer
  | some pwd => .found pwd
  | none => .notFound

theorem exists_fits (format : PasswdFormat) (lines : List Text) :
    ∃ least, ∀ buflen, least ≤ buflen → format.Fits lines buflen := by
  induction lines with
  | nil => exact ⟨0, fun _ _ _ none => by cases none⟩
  | cons line lines ih =>
    obtain ⟨least, fits⟩ := ih
    refine ⟨max (format.size (lineBody line)) least, fun buflen large => ?_⟩
    have both := Nat.max_le.mp large
    intro other member
    rcases List.mem_cons.mp member with rfl | later
    · exact both.1
    · exact fits buflen both.2 other later

theorem answers_iff {lines : List Text} (sees : Sees reader world lines) {uid : UInt32}
    {answer : Answer} :
    Answers format reader world uid answer ↔
      answer = answerOf ((format.entries lines).find? (hasUid uid)) := by
  obtain ⟨size, fits⟩ := exists_fits format lines
  have gives (rounds buflen : Nat) (enough : lines.length < rounds) (large : size ≤ buflen) :
      ∃ reader' world', NssFbs.Gives format (NssFbs.getpwuid rounds uid buflen) reader world
        (answerOf ((format.entries lines).find? (hasUid uid))) reader' world' := by
    obtain ⟨path, given⟩ := NssFbs.lookUp_gives format (hasUid uid) buflen sees enough
    rw [NssFbs.searchLines_of_fits format (hasUid uid) (fits buflen large)] at given
    exact ⟨_, _, given⟩
  constructor
  · rintro ⟨least, answers⟩
    obtain ⟨_, _, one⟩ := answers (least + lines.length + 1) (least + size) (by omega) (by omega)
    obtain ⟨_, _, other⟩ := gives (least + lines.length + 1) (least + size) (by omega) (by omega)
    exact (other.unique one).1
  · rintro rfl
    refine ⟨lines.length + 1 + size, fun rounds buflen enough large => ?_⟩
    exact gives rounds buflen (by omega) (by omega)

def replaced (world : World) (database : Text) : World :=
  { world with database }

structure ReaderAgrees (format : PasswdFormat) (reader : Reader) (world : World) (database : Text)
    (pwd : TsPassword) : Prop where
  inserted : Answers format reader (replaced world database) pwd.uId (.found pwd.entry)
  others : ∀ uid, uid ≠ pwd.uId → ∃ answer, Answers format reader world uid answer ∧
    Answers format reader (replaced world database) uid answer

theorem sees_replaced_of_open {database : Text} (ready : Ready reader world)
    (isOpen : reader.passwdStream = true) : Sees reader (replaced world database) world.lines :=
  ⟨fun _ => ready isOpen, fun closed => absurd closed (by simp [isOpen])⟩

theorem sees_replaced_of_closed {database : Text} (closed : reader.passwdStream = false) :
    Sees reader (replaced world database) (rawLines '\n' database) :=
  ⟨fun isOpen => absurd isOpen (by simp [closed]), fun _ => rfl⟩

theorem answerOf_eq_found_iff {entry : Option Passwd} {pwd : Passwd} :
    .found pwd = answerOf entry ↔ entry = some pwd := by
  cases entry with
  | none => exact ⟨nofun, nofun⟩
  | some other => simp [answerOf, Answer.found, eq_comm]

/-- A reader that opens the file for its lookup sees a record whose fields can stand in a
passwd line and whose name is plain.  A reader that has a stream open goes on with the file
before the insertion. -/
structure Visible (content : Text) (reader : Reader) (pwd : TsPassword) : Prop where
  opened : reader.passwdStream = true → Stored content pwd
  closed : reader.passwdStream = false → Delimited pwd ∧ isPlainName pwd.strName = true

theorem visible_of_agrees {pwd : TsPassword} (ready : Ready reader world)
    (passwdText : PasswdText world.database) {database : Text}
    (agrees : ReaderAgrees strictFields reader world database pwd) :
    Visible world.database reader pwd := by
  constructor
  · intro isOpen
    have found := (answers_iff (sees_replaced_of_open ready isOpen)).mp agrees.inserted
    exact (find_stored_iff documented_strictFields passwdText).mp (answerOf_eq_found_iff.mp found)
  · intro closed
    have found := answerOf_eq_found_iff.mp
      ((answers_iff (sees_replaced_of_closed closed)).mp agrees.inserted)
    have isUid := List.find?_some found
    exact ⟨delimited_of_strictFields (List.mem_of_find?_eq_some found),
      (Bool.and_eq_true_iff.mp isUid).2⟩

theorem agrees_of_visible {pwd : TsPassword} (ready : Ready reader world)
    (passwdText : PasswdText world.database) (documented : Documented format)
    (visible : Visible world.database reader pwd) :
    ReaderAgrees format reader world (Call.text world.database (.insert pwd)) pwd := by
  cases state : reader.passwdStream with
  | true =>
    have sees := @sees_replaced_of_open reader world
      (Call.text world.database (.insert pwd)) ready state
    refine ⟨(answers_iff sees).mpr ?_, fun uid _ => ⟨_, (answers_iff ready.sees).mpr rfl,
      (answers_iff sees).mpr rfl⟩⟩
    exact answerOf_eq_found_iff.mpr
      ((find_stored_iff documented passwdText).mpr (visible.opened state))
  | false =>
    obtain ⟨delimited, plain⟩ := visible.closed state
    have sees := @sees_replaced_of_closed reader world
      (Call.text world.database (.insert pwd)) state
    refine ⟨(answers_iff sees).mpr ?_, fun uid other => ⟨_, (answers_iff ready.sees).mpr rfl,
      (answers_iff sees).mpr ?_⟩⟩
    · exact answerOf_eq_found_iff.mpr (find_inserted documented passwdText delimited plain)
    · rw [find_other documented passwdText delimited other]
      rfl

end Reader

def readerPath (config : Text) : Text :=
  (NssFbs.getPasswdFilepath (some ⟨config, false⟩) false []).2

/-- After every insertion that succeeds, where the copy of the database lost nothing when it was
closed, every library that parses passwd lines as documented shows a reader the record, and for
the other uids what it showed before, exactly if the record is visible to that reader. -/
theorem insertion_shown_iff_visible {config : Text} {kept : StreamPair → DbFile → Nat}
    {paths : ConfigPaths} {session : Session} {disk : Disk} {rounds pid : Nat}
    {pwd : TsPassword} {exchanges : List (Exchange sessionOps)} {reader : Reader} {world : World}
    (configured : parsingConfigFile config = some paths)
    (sameFile : readerPath config = paths.writePath)
    (present : disk.files (readerPath config) = some world.database)
    (passwdText : PasswdText world.database) (ready : Ready reader world)
    (executes : (command rounds (.insert pwd)).Executes (newSession pid) exchanges
      (some ⟨true, true⟩) session)
    (allowed : (diskModel config kept).Allows disk exchanges)
    (intact : copiedText kept exchanges world.database = world.database) :
    ∃ database,
      ((diskModel config kept).final disk exchanges).files (readerPath config) = some database ∧
      ((∀ format, Documented format → ReaderAgrees format reader world database pwd) ↔
        Visible world.database reader pwd) := by
  obtain ⟨streams, outcome⟩ :=
    (command_onDisk rounds Call.noConfusion configured pid).elim executes allowed _ rfl
  rw [sameFile] at present ⊢
  rw [present, Option.getD_some, intact] at outcome
  have written : (streams .work).file.content = Call.text world.database (.insert pwd) :=
    outcome.change.content_of_flushed
  refine ⟨_, outcome.renamed rfl, ?_⟩
  rw [written]
  constructor
  · intro agrees
    exact visible_of_agrees ready passwdText (agrees strictFields documented_strictFields)
  · intro visible format documented
    exact agrees_of_visible ready passwdText documented visible

theorem someConfig_sameFile : readerPath someConfig = somePaths.writePath := by
  decide +kernel

theorem present_twoUsers :
    diskOfTwo.files (readerPath someConfig) = some NssFbs.twoUsers.database := by
  rw [someConfig_sameFile]
  rfl

theorem passwdLine_sample {line name uid : Text} (isName : PasswdField name)
    (isUid : Decimal uid) (short : line.length < 2047)
    (made : lineBody line = name ++ ":x:".toList ++ uid ++ ":1:::".toList) : PasswdLine line := by
  have body : (lineBody line).length ≤ line.length := by
    unfold NssFbs.lineBody
    split
    · simp
    · exact Nat.le_refl _
  have gid : Decimal "1".toList :=
    ⟨by decide, List.all_eq_true.mp (by decide), by decide⟩
  refine .inr ⟨⟨⟨name, "x".toList, UInt32.ofNat (Nat.ofDigitChars 10 uid 0),
    UInt32.ofNat (Nat.ofDigitChars 10 "1".toList 0), [], [], []⟩, uid, "1".toList,
    ⟨?_, isUid, gid, rfl, rfl, ?_⟩⟩, Nat.lt_of_le_of_lt body short⟩
  · intro field member
    simp only [passwdTexts, List.mem_cons, List.not_mem_nil, or_false] at member
    rcases member with rfl | rfl | rfl | rfl | rfl
    · exact isName
    all_goals decide
  · simp [made, passwdFields, joinFields]

theorem passwdText_twoUsers : PasswdText NssFbs.twoUsers.database := by
  have lines : rawLines '\n' NssFbs.twoUsers.database =
      ["ann:x:1:1:::\n".toList, "bob:x:2:1:::\n".toList] := by decide +kernel
  have decimal (digit : Char) (isDigit : digit.isDigit = true)
      (bound : Nat.ofDigitChars 10 [digit] 0 < 2 ^ 32) : Decimal [digit] :=
    ⟨List.cons_ne_nil _ _, fun _ member => List.mem_singleton.mp member ▸ isDigit, bound⟩
  intro line member
  rw [lines] at member
  simp only [List.mem_cons, List.not_mem_nil, or_false] at member
  rcases member with rfl | rfl
  · exact @passwdLine_sample _ "ann".toList ['1'] (by decide +kernel)
      (decimal '1' rfl (by decide +kernel)) (by decide +kernel) (by decide +kernel)
  · exact @passwdLine_sample _ "bob".toList ['2'] (by decide +kernel)
      (decimal '2' rfl (by decide +kernel)) (by decide +kernel) (by decide +kernel)

theorem insertion_of_cleo_shown :
    Visible twoUsers NssFbs.freshReader cleo ∧
      ∃ database, leftBy maxCpyBuffer (.insert cleo) = some database ∧
        ReaderAgrees strictFields NssFbs.freshReader NssFbs.twoUsers database cleo := by
  have delimited : Delimited cleo := by
    unfold Delimited
    decide +kernel
  have visible : Visible NssFbs.twoUsers.database NssFbs.freshReader cleo :=
    ⟨nofun, fun _ => ⟨delimited, by decide +kernel⟩⟩
  obtain ⟨session, executes⟩ :=
    @commandRun_executes maxCpyBuffer (.insert cleo) ⟨true, true⟩ (by decide +kernel)
  obtain ⟨database, left, agrees⟩ := insertion_shown_iff_visible someConfig_parsed
    someConfig_sameFile present_twoUsers passwdText_twoUsers NssFbs.ready_freshReader executes
    (commandRun_allowed maxCpyBuffer (.insert cleo)) (by decide +kernel)
  rw [someConfig_sameFile] at left
  exact ⟨visible, database, left, agrees.mpr visible strictFields documented_strictFields⟩

/-- A record whose last field holds a new line and the line of another user. -/
def twoInOne : TsPassword :=
  { cleo with strShell := "/bin/sh\nbill:x:6:1::/:/bin/sh".toList }

/-- The record is accepted, but a reader is not shown it. -/
theorem insertion_of_two_lines_not_shown :
    (∃ session, (command 6 (.insert twoInOne)).Executes (newSession 7)
      (commandRun maxCpyBuffer (.insert twoInOne)).1 (some ⟨true, true⟩) session) ∧
      (diskModel someConfig nothingKept).Allows diskOfTwo
        (commandRun maxCpyBuffer (.insert twoInOne)).1 ∧
      diskOfTwo.files (readerPath someConfig) = some NssFbs.twoUsers.database ∧
      PasswdText NssFbs.twoUsers.database ∧ Documented strictFields ∧
      ∃ database, leftBy maxCpyBuffer (.insert twoInOne) = some database ∧
        Answers strictFields NssFbs.freshReader (replaced NssFbs.twoUsers database) 3
          (.found ⟨"cleo".toList, "x".toList, 3, 1, [], [], "/bin/sh".toList⟩) ∧
        ¬ReaderAgrees strictFields NssFbs.freshReader NssFbs.twoUsers database twoInOne := by
  have left : leftBy maxCpyBuffer (.insert twoInOne) = some (twoUsers ++ tuple twoInOne) := by
    decide +kernel
  refine ⟨commandRun_executes (by decide +kernel), commandRun_allowed maxCpyBuffer _,
    present_twoUsers, passwdText_twoUsers, documented_strictFields, _, left, ?_, ?_⟩
  · rw [answers_iff (sees_replaced_of_closed rfl)]
    decide +kernel
  · intro agrees
    have visible := visible_of_agrees NssFbs.ready_freshReader passwdText_twoUsers agrees
    have shell := (visible.closed rfl).1 twoInOne.strShell (by decide +kernel)
    exact shell.noNewLine (by decide +kernel)

end Apos.UserDb
