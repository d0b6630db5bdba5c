import Mathlib.Algebra.Group.Int.Defs
import Apos.CNumerals
import Apos.PaddedTexts

/-!
# The LDAP section of the sssd configuration

`load_configuration` of `configuration_reader.cpp` reads nine attributes of the section
`[domain/LdapAuthenticationMethod]`.  It begins to read at the first line with the name of the
section and stops at the next line that mentions a domain; the headers of other sections do not
stop it.  This file compares the lines it reads with the lines of the section.
-/

namespace Apos.LdapCheck

abbrev Text := List Char

/-- `TlsMode_t`.  The cast of a number without an enumerator keeps the number. -/
inductive TlsMode where
  | startTls
  | ldaps
  | noTls
  | unnamed (value : Int)
  deriving DecidableEq, Repr

def TlsMode.ofInt (value : Int) : TlsMode :=
  if value = 0 then .startTls
  else if value = 1 then .ldaps
  else if value = 2 then .noTls
  else .unnamed value

/-- The attributes that are read, in the order in which the names are compared. -/
inductive Attribute where
  | ldapUri
  | ldapBindDn
  | ldapBindPassword
  | ldapTlsMode
  | ldapCaCertDirectory
  | ldapCaCertificate
  | ldapClientCertificate
  | ldapClientKey
  | ldapCipherFilter
  deriving DecidableEq, Repr

namespace Attribute

def all : List Attribute :=
  [ldapUri, ldapBindDn, ldapBindPassword, ldapTlsMode, ldapCaCertDirectory, ldapCaCertificate,
    ldapClientCertificate, ldapClientKey, ldapCipherFilter]

def name : Attribute → Text
  | ldapUri => "ldap_uri".toList
  | ldapBindDn => "ldap_default_bind_dn".toList
  | ldapBindPassword => "ldap_default_authtok".toList
  | ldapTlsMode => "tls_mode".toList
  | ldapCaCertDirectory => "ldap_tls_cacertdir".toList
  | ldapCaCertificate => "ldap_tls_cacert".toList
  | ldapClientCertificate => "ldap_tls_cert".toList
  | ldapClientKey => "ldap_tls_key".toList
  | ldapCipherFilter => "ldap_tls_cipher_suite".toList

def ofName (text : Text) : Option Attribute :=
  all.find? fun attr => text = attr.name

end Attribute

structure ConfigurationReader where
  ldapUri : Text
  bindDn : Text
  bindPassword : Text
  tlsMode : TlsMode
  caCertDir : Text
  caCertificate : Text
  clientCertificate : Text
  clientKey : Text
  cipherFilter : Text
  deriving DecidableEq, Repr

def ConfigurationReader.new : ConfigurationReader :=
  ⟨[], [], [], .ldaps, [], [], [], [], []⟩

/-- `std::stoi`, which throws when there is no number or when it is no `int`. -/
def stoi (text : Text) : Option Int :=
  (CText.scanDecimal text).bind fun scanned =>
    let (value, outOfRange) := scanned.toSigned
    if outOfRange ∨ value < -2 ^ 31 ∨ 2 ^ 31 ≤ value then none else some value

def ConfigurationReader.store (reader : ConfigurationReader) (value : Text) :
    Attribute → Option ConfigurationReader
  | .ldapUri => some { reader with ldapUri := value }
  | .ldapBindDn => some { reader with bindDn := value }
  | .ldapBindPassword => some { reader with bindPassword := value }
  | .ldapTlsMode => (stoi value).map fun number => { reader with tlsMode := .ofInt number }
  | .ldapCaCertDirectory => some { reader with caCertDir := value }
  | .ldapCaCertificate => some { reader with caCertificate := value }
  | .ldapClientCertificate => some { reader with clientCertificate := value }
  | .ldapClientKey => some { reader with clientKey := value }
  | .ldapCipherFilter => some { reader with cipherFilter := value }

def isBlank (symbol : Char) : Bool :=
  symbol = ' '

/-- The name before the first `=` without the blanks behind it, and the text after it without the
blanks before it. -/
def parseConfigurationItem (configurationItem : Text) : Option (Text × Text) :=
  (CText.cutAt '=' configurationItem).map fun (before, behind) =>
    (before.rdropWhile isBlank, behind.dropWhile isBlank)

/-- What a line of the LDAP domain does to the reader; none if `stoi` throws. -/
def readItem (reader : ConfigurationReader) (line : Text) : Option ConfigurationReader :=
  match parseConfigurationItem line with
  | none => some reader
  | some (itemName, itemValue) =>
    match Attribute.ofName itemName with
    | none => some reader
    | some attr => reader.store itemValue attr

def Skipped (line : Text) : Prop :=
  line = [] ∨ line.head? = some '#'

instance : DecidablePred Skipped :=
  fun _ => inferInstanceAs (Decidable (_ ∨ _))

def domainMark : Text :=
  "[domain/".toList

def ldapMark : Text :=
  "[domain/LdapAuthenticationMethod]".toList

def readLines (ldapDomainFound : Bool) (reader : ConfigurationReader) :
    List Text → Option ConfigurationReader
  | [] => some reader
  | line :: lines =>
    if Skipped line then readLines ldapDomainFound reader lines
    else if domainMark <:+: line ∧ ldapDomainFound then some reader
    else if domainMark <:+: line ∧ ¬ ldapDomainFound ∧ ldapMark <:+: line then
      readLines true reader lines
    else if ldapDomainFound then
      (readItem reader line).bind fun changed => readLines ldapDomainFound changed lines
    else readLines ldapDomainFound reader lines

/-- The lines that `getline` gives while the stream is good: the text behind the last new line is
one of them also when it is empty. -/
def getlines (text : Text) : List Text :=
  text.splitOn '\n'

/-- What the system says of the file: the mode of `stat`, and the text if it can be opened. -/
structure SssdFile where
  mode : Option Nat
  text : Option Text

def SssdFile.configurationFileExists (file : SssdFile) : Bool :=
  match file.mode with
  | none => false
  | some mode => mode &&& 0o100000 ≠ 0

/-- The result and the object after the call; none if an exception leaves it. -/
def loadConfiguration (file : SssdFile) (reader : ConfigurationReader) :
    Option (Int × ConfigurationReader) :=
  if file.configurationFileExists then
    match file.text with
    | none => some (-2, reader)
    | some text => (readLines false reader (getlines text)).map fun after => (0, after)
  else some (-1, reader)

/-! ## What a line sets -/

def Sets (attr : Attribute) (line value : Text) : Prop :=
  ∃ before behind, (∀ symbol ∈ before, isBlank symbol = true) ∧
    (∀ symbol ∈ behind, isBlank symbol = true) ∧
    (∀ symbol ∈ value.head?, isBlank symbol = false) ∧
    line = attr.name ++ before ++ '=' :: (behind ++ value)

variable (attr : Attribute)

theorem Attribute.equals_not_mem_name : '=' ∉ attr.name := by
  cases attr <;> decide +kernel

theorem Attribute.last_name : ∀ symbol ∈ attr.name.getLast?, isBlank symbol = false := by
  have solid : (attr.name.getLast?.all fun symbol => !isBlank symbol) = true := by
    cases attr <;> decide +kernel
  intro symbol member
  rw [Option.mem_def.mp member] at solid
  simpa using solid

variable {line value : Text}

theorem parseConfigurationItem_eq_some_iff {attr : Attribute} :
    parseConfigurationItem line = some (attr.name, value) ↔ Sets attr line value := by
  rw [parseConfigurationItem, Option.map_eq_some_iff]
  constructor
  · rintro ⟨⟨front, rest⟩, isCut, same⟩
    obtain ⟨isName, rfl⟩ := Prod.mk.inj same
    obtain ⟨rfl, -⟩ := CText.cutAt_eq_some_iff.mp isCut
    refine ⟨front.rtakeWhile isBlank, rest.takeWhile isBlank, fun _ => List.mem_rtakeWhile_imp,
      fun _ => List.mem_takeWhile_imp, head_dropWhile rest, ?_⟩
    rw [← isName, List.rdropWhile_append_rtakeWhile, List.takeWhile_append_dropWhile]
  · rintro ⟨before, behind, blankBefore, blankBehind, head, rfl⟩
    refine ⟨(attr.name ++ before, behind ++ value), CText.cutAt_eq_some_iff.mpr ⟨rfl, ?_⟩, ?_⟩
    · intro member
      rcases List.mem_append.mp member with inName | inBlanks
      · exact attr.equals_not_mem_name inName
      · exact absurd (blankBefore _ inBlanks) (by decide)
    · exact Prod.ext (rdropWhile_padded blankBefore attr.last_name)
        (dropWhile_padded blankBehind head)

theorem Sets.unique {attr : Attribute} {other : Text} (sets : Sets attr line value)
    (otherSets : Sets attr line other) : value = other := by
  have parsed := parseConfigurationItem_eq_some_iff.mpr sets
  rw [parseConfigurationItem_eq_some_iff.mpr otherSets] at parsed
  exact (Prod.mk.inj (Option.some.inj parsed)).2.symm

theorem Attribute.ofName_eq_some_iff {text : Text} {attr : Attribute} :
    ofName text = some attr ↔ text = attr.name := by
  constructor
  · intro found
    simpa using List.find?_some found
  · rintro rfl
    cases attr <;> decide +kernel

/-! ## What the reader stores -/

inductive Stored where
  | text (value : Text)
  | mode (value : TlsMode)
  deriving DecidableEq, Repr

def ConfigurationReader.stored (reader : ConfigurationReader) : Attribute → Stored
  | .ldapUri => .text reader.ldapUri
  | .ldapBindDn => .text reader.bindDn
  | .ldapBindPassword => .text reader.bindPassword
  | .ldapTlsMode => .mode reader.tlsMode
  | .ldapCaCertDirectory => .text reader.caCertDir
  | .ldapCaCertificate => .text reader.caCertificate
  | .ldapClientCertificate => .text reader.clientCertificate
  | .ldapClientKey => .text reader.clientKey
  | .ldapCipherFilter => .text reader.cipherFilter

/-- The value that a text stands for; none if the mode is no number. -/
def Attribute.reading : Attribute → Text → Option Stored
  | .ldapTlsMode, value => (stoi value).map fun number => .mode (.ofInt number)
  | _, value => some (.text value)

variable {reader after : ConfigurationReader}

theorem stored_store {attr : Attribute} (isStored : reader.store value attr = some after) :
    attr.reading value = some (after.stored attr) ∧
      ∀ other, other ≠ attr → after.stored other = reader.stored other := by
  cases attr with
  | ldapTlsMode =>
    obtain ⟨number, isNumber, rfl⟩ := Option.map_eq_some_iff.mp isStored
    refine ⟨by rw [Attribute.reading, isNumber]; rfl, fun other different => ?_⟩
    cases other <;> first | rfl | exact absurd rfl different
  | _ =>
    obtain rfl := Option.some.inj isStored
    refine ⟨rfl, fun other different => ?_⟩
    cases other <;> first | rfl | exact absurd rfl different

def Gives (attr : Attribute) (line : Text) (value : Option Stored) : Prop :=
  ∃ text, Sets attr line text ∧ attr.reading text = value

theorem Gives.unique (attr : Attribute) (line : Text) (value other : Option Stored)
    (gives : Gives attr line value) (otherGives : Gives attr line other) :
    value = other := by
  obtain ⟨text, sets, rfl⟩ := gives
  obtain ⟨otherText, otherSets, rfl⟩ := otherGives
  rw [sets.unique otherSets]

theorem stored_readItem (isRead : readItem reader line = some after) (attr : Attribute) :
    Gives attr line (some (after.stored attr)) ∨
      (∀ value, ¬ Gives attr line value) ∧
        after.stored attr = reader.stored attr := by
  have giving {value : Option Stored} (gives : Gives attr line value) :
      ∃ text, parseConfigurationItem line = some (attr.name, text) := by
    obtain ⟨text, sets, -⟩ := gives
    exact ⟨text, parseConfigurationItem_eq_some_iff.mpr sets⟩
  unfold readItem at isRead
  split at isRead
  · next noItem =>
      obtain rfl := Option.some.inj isRead
      refine .inr ⟨fun value gives => ?_, rfl⟩
      obtain ⟨text, parsed⟩ := giving gives
      rw [noItem] at parsed
      cases parsed
  · next itemName itemValue isItem =>
      split at isRead
      · next noAttribute =>
          obtain rfl := Option.some.inj isRead
          refine .inr ⟨fun value gives => ?_, rfl⟩
          obtain ⟨text, parsed⟩ := giving gives
          rw [isItem] at parsed
          obtain ⟨rfl, -⟩ := Prod.mk.inj (Option.some.inj parsed)
          rw [Attribute.ofName_eq_some_iff.mpr rfl] at noAttribute
          cases noAttribute
      · next changed found =>
          obtain rfl := Attribute.ofName_eq_some_iff.mp found
          obtain ⟨reads, keeps⟩ := stored_store isRead
          by_cases same : attr = changed
          · subst same
            exact .inl ⟨itemValue, parseConfigurationItem_eq_some_iff.mp isItem, reads⟩
          · refine .inr ⟨fun value gives => ?_, keeps attr same⟩
            obtain ⟨text, parsed⟩ := giving gives
            rw [isItem] at parsed
            obtain ⟨sameName, -⟩ := Prod.mk.inj (Option.some.inj parsed)
            rw [Attribute.ofName_eq_some_iff.mpr sameName] at found
            exact same (Option.some.inj found)

theorem latestValue_readItems {lines : List Text}
    (isRead : lines.foldlM readItem reader = some after) (attr : Attribute) :
    LatestValue (Gives attr) lines (some (reader.stored attr))
      (some (after.stored attr)) := by
  induction lines generalizing reader with
  | nil =>
    obtain rfl := Option.some.inj isRead
    exact .inr ⟨by simp, rfl⟩
  | cons line lines ih =>
    rw [List.foldlM_cons] at isRead
    obtain ⟨middle, first, rest⟩ := Option.bind_eq_some_iff.mp isRead
    rcases stored_readItem first attr with gives | ⟨without, same⟩
    · exact (ih rest).cons_of_holds gives
    · have latest := ih rest
      rw [same] at latest
      exact latest.cons_of_not without

/-! ## The lines that are read -/

def Mentions (mark line : Text) : Prop :=
  ¬ Skipped line ∧ mark <:+: line

instance (mark : Text) : DecidablePred (Mentions mark) :=
  fun _ => inferInstanceAs (Decidable (_ ∧ _))

/-- The lines behind the first line that mentions the LDAP domain, up to the next one that mentions
a domain. -/
def domainLines (ldapDomainFound : Bool) : List Text → List Text
  | [] => []
  | line :: lines =>
    if ldapDomainFound then
      if Mentions domainMark line then [] else line :: domainLines true lines
    else domainLines (Mentions ldapMark line) lines

theorem Attribute.head_name : ∃ first rest, attr.name = first :: rest ∧
    first ≠ '#' := by
  cases attr <;> exact ⟨_, _, rfl, by decide⟩

theorem not_skipped_of_sets {attr : Attribute} (sets : Sets attr line value) : ¬ Skipped line := by
  obtain ⟨before, behind, -, -, -, rfl⟩ := sets
  obtain ⟨first, rest, isName, noComment⟩ := attr.head_name
  rw [isName]
  simpa [Skipped] using noComment

theorem readItem_of_skipped (skipped : Skipped line) (reader : ConfigurationReader) :
    readItem reader line = some reader := by
  unfold readItem
  split
  · rfl
  · next itemName itemValue isItem =>
      split
      · rfl
      · next attr found =>
          obtain rfl := Attribute.ofName_eq_some_iff.mp found
          exact absurd skipped (not_skipped_of_sets (parseConfigurationItem_eq_some_iff.mp isItem))

theorem domainMark_infix_of_ldapMark (inLine : ldapMark <:+: line) : domainMark <:+: line := by
  have part : domainMark <:+: ldapMark := by decide +kernel
  exact part.trans inLine

theorem readLines_eq_foldlM (ldapDomainFound : Bool) (reader : ConfigurationReader)
    (lines : List Text) :
    readLines ldapDomainFound reader lines =
      (domainLines ldapDomainFound lines).foldlM readItem reader := by
  induction lines generalizing ldapDomainFound reader with
  | nil => rfl
  | cons line lines ih =>
    rw [readLines, domainLines]
    by_cases skipped : Skipped line
    · have unmentioned (mark : Text) : ¬ Mentions mark line := fun mentions => mentions.1 skipped
      rw [if_pos skipped, ih]
      cases ldapDomainFound with
      | false => simp [unmentioned]
      | true => simp [unmentioned, readItem_of_skipped skipped]
    · have mentions (mark : Text) : Mentions mark line ↔ mark <:+: line := by
        simp [Mentions, skipped]
      rw [if_neg skipped]
      cases ldapDomainFound with
      | false =>
        by_cases inLine : ldapMark <:+: line
        · simp [mentions, inLine, domainMark_infix_of_ldapMark inLine, ih]
        · simp [mentions, inLine, ih]
      | true =>
        by_cases inLine : domainMark <:+: line
        · simp [mentions, inLine]
        · simp [mentions, inLine, ih]

/-! ## The lines of the section -/

def headerName (line : Text) : Option Text :=
  match strip CText.isSpace line with
  | '[' :: rest => if rest.getLast? = some ']' then some rest.dropLast else none
  | _ => none

def ldapSection : Text :=
  "domain/LdapAuthenticationMethod".toList

def sectionLines (inside : Bool) : List Text → List Text
  | [] => []
  | line :: lines =>
    match headerName line with
    | some name => sectionLines (name = ldapSection) lines
    | none => if inside then line :: sectionLines true lines else sectionLines false lines

/-- An attribute is settled by the last line that sets it, and unset without one. -/
def Settles (lines : List Text) (attr : Attribute) (stored : Stored) : Prop :=
  LatestValue (Gives attr) lines (some (ConfigurationReader.new.stored attr)) (some stored)

theorem Settles.unique {lines : List Text} {attr : Attribute} {stored other : Stored}
    (settles : Settles lines attr stored) (otherSettles : Settles lines attr other) :
    stored = other :=
  Option.some.inj (LatestValue.unique (Gives.unique attr) settles otherSettles)

theorem settles_loadConfiguration {file : SssdFile} {text : Text} (opened : file.text = some text)
    (loaded : loadConfiguration file .new = some (0, reader)) (attr : Attribute) :
    Settles (domainLines false (getlines text)) attr (reader.stored attr) := by
  unfold loadConfiguration at loaded
  split at loaded
  · rw [opened] at loaded
    obtain ⟨after, isRead, same⟩ := Option.map_eq_some_iff.mp loaded
    obtain ⟨-, rfl⟩ := Prod.mk.inj same
    rw [readLines_eq_foldlM] at isRead
    exact latestValue_readItems isRead attr
  · cases loaded

/-- A file with one LDAP section: only its header mentions the LDAP domain up to it, no line in it
mentions a domain, and it ends with the file or at the header of another domain. -/
structure Delimited (lines before : List Text) (header : Text) (inside rest : List Text) :
    Prop where
  parts : lines = before ++ header :: (inside ++ rest)
  notBefore : ∀ line ∈ before, ¬ Mentions ldapMark line ∧ headerName line ≠ some ldapSection
  isHeader : headerName header = some ldapSection
  plain : ∀ line ∈ inside, ¬ Mentions domainMark line ∧ headerName line = none
  ended : ∀ line ∈ rest.head?, Mentions domainMark line ∧ headerName line ≠ none
  once : ∀ line ∈ rest, headerName line ≠ some ldapSection

theorem strip_of_headerName {name : Text} (isHeader : headerName line = some name) :
    strip CText.isSpace line = '[' :: (name ++ [']']) := by
  unfold headerName at isHeader
  split at isHeader
  · next rest stripped =>
      split at isHeader
      · next closed =>
          obtain rfl := Option.some.inj isHeader
          rw [stripped, List.dropLast_append_getLast? _ closed]
      · cases isHeader
  · cases isHeader

theorem mentions_ldapMark_of_headerName (isHeader : headerName line = some ldapSection) :
    Mentions ldapMark line := by
  obtain ⟨lead, tail, spaces, -, whole⟩ := @exists_padded Char CText.isSpace line
  rw [strip_of_headerName isHeader] at whole
  have isMark : '[' :: (ldapSection ++ [']']) = ldapMark := by decide +kernel
  constructor
  · rw [whole]
    cases lead with
    | nil => simp [Skipped]
    | cons first lead =>
      have isSpace := spaces first List.mem_cons_self
      rintro (empty | comment)
      · simp at empty
      · obtain rfl : first = '#' := by simpa using comment
        revert isSpace
        decide
  · rw [isMark] at whole
    exact ⟨lead, tail, whole.symm⟩

theorem sectionLines_before {before : List Text}
    (others : ∀ line ∈ before, headerName line ≠ some ldapSection) (lines : List Text) :
    sectionLines false (before ++ lines) = sectionLines false lines := by
  induction before with
  | nil => rfl
  | cons line before ih =>
    rw [List.forall_mem_cons] at others
    rw [List.cons_append, sectionLines]
    split
    · next name isHeader =>
        have different : name ≠ ldapSection := by
          rintro rfl
          exact others.1 isHeader
        simp [different, ih others.2]
    · simp [ih others.2]

theorem sectionLines_inside {inside : List Text} (plain : ∀ line ∈ inside, headerName line = none)
    (lines : List Text) :
    sectionLines true (inside ++ lines) = inside ++ sectionLines true lines := by
  induction inside with
  | nil => rfl
  | cons line inside ih =>
    rw [List.forall_mem_cons] at plain
    simp [sectionLines, plain.1, ih plain.2]

theorem domainLines_before {before : List Text}
    (others : ∀ line ∈ before, ¬ Mentions ldapMark line) (lines : List Text) :
    domainLines false (before ++ lines) = domainLines false lines := by
  induction before with
  | nil => rfl
  | cons line before ih =>
    rw [List.forall_mem_cons] at others
    simp [domainLines, others.1, ih others.2]

theorem domainLines_inside {inside : List Text}
    (plain : ∀ line ∈ inside, ¬ Mentions domainMark line) (lines : List Text) :
    domainLines true (inside ++ lines) = inside ++ domainLines true lines := by
  induction inside with
  | nil => rfl
  | cons line inside ih =>
    rw [List.forall_mem_cons] at plain
    simp [domainLines, plain.1, ih plain.2]

section OneSection

variable {lines before : List Text} {header : Text} {inside rest : List Text}

theorem Delimited.sectionLines_eq (delimited : Delimited lines before header inside rest) :
    sectionLines false lines = inside := by
  have none : sectionLines true rest = [] := by
    have later := delimited.once
    cases rest with
    | nil => rfl
    | cons line rest =>
      rw [List.forall_mem_cons] at later
      obtain ⟨name, isHeader⟩ := Option.ne_none_iff_exists'.mp (delimited.ended line rfl).2
      have different : name ≠ ldapSection := by
        rintro rfl
        exact later.1 isHeader
      have skips := sectionLines_before later.2 []
      rw [List.append_nil] at skips
      simpa [sectionLines, isHeader, different] using skips
  rw [delimited.parts, sectionLines_before fun line member => (delimited.notBefore line member).2]
  simp only [sectionLines, delimited.isHeader, decide_true]
  rw [sectionLines_inside fun line member => (delimited.plain line member).2, none,
    List.append_nil]

theorem Delimited.domainLines_eq (delimited : Delimited lines before header inside rest) :
    domainLines false lines = inside := by
  have none : domainLines true rest = [] := by
    cases rest with
    | nil => rfl
    | cons line rest => simp [domainLines, (delimited.ended line rfl).1]
  rw [delimited.parts, domainLines_before fun line member => (delimited.notBefore line member).1]
  simp only [domainLines, mentions_ldapMark_of_headerName delimited.isHeader, decide_true,
    Bool.false_eq_true, if_false]
  rw [domainLines_inside fun line member => (delimited.plain line member).1, none, List.append_nil]

end OneSection

/-- After the configuration has been loaded, each attribute is settled by the lines of the section
exactly when the lines that are read settle each attribute as those of the section do.  They are the
same lines when the section ends with the file or at another domain and no other line mentions a
domain. -/
theorem loadConfiguration_reads_section_iff {file : SssdFile} {text : Text}
    (opened : file.text = some text) {reader : ConfigurationReader}
    (loaded : loadConfiguration file .new = some (0, reader)) :
    ((∀ attr, Settles (sectionLines false (getlines text)) attr (reader.stored attr)) ↔
      ∀ attr stored, Settles (domainLines false (getlines text)) attr stored →
        Settles (sectionLines false (getlines text)) attr stored) ∧
    (∀ before header inside rest, Delimited (getlines text) before header inside rest →
      domainLines false (getlines text) = sectionLines false (getlines text)) := by
  have settles := settles_loadConfiguration opened loaded
  refine ⟨⟨fun agrees attr stored isSettled => ?_, fun alike attr => ?_⟩, ?_⟩
  · rw [isSettled.unique (settles attr)]
    exact agrees attr
  · exact alike attr _ (settles attr)
  · intro before header inside rest delimited
    rw [delimited.domainLines_eq, delimited.sectionLines_eq]

def regularFile (text : Text) : SssdFile :=
  ⟨some 0o100600, some text⟩

def sampleText : Text :=
  "[nss]\n[domain/LdapAuthenticationMethod]\nldap_uri = ldaps://a\n[domain/b]\ntls_mode=2".toList

/-- The text is read up to the other domain. -/
theorem loadConfiguration_reads_sample :
    loadConfiguration (regularFile sampleText) .new =
        some (0, { ConfigurationReader.new with ldapUri := "ldaps://a".toList }) ∧
      ∀ attr, Settles (sectionLines false (getlines sampleText)) attr
        ({ ConfigurationReader.new with ldapUri := "ldaps://a".toList }.stored attr) := by
  have lines : getlines sampleText = ["[nss]".toList] ++
      "[domain/LdapAuthenticationMethod]".toList :: (["ldap_uri = ldaps://a".toList] ++
        ["[domain/b]".toList, "tls_mode=2".toList]) := by
    decide +kernel
  have loaded : loadConfiguration (regularFile sampleText) .new =
      some (0, { ConfigurationReader.new with ldapUri := "ldaps://a".toList }) := by
    decide +kernel
  have delimited : Delimited (getlines sampleText) ["[nss]".toList]
      "[domain/LdapAuthenticationMethod]".toList ["ldap_uri = ldaps://a".toList]
      ["[domain/b]".toList, "tls_mode=2".toList] :=
    ⟨lines, by decide +kernel, by decide +kernel, by decide +kernel, by decide +kernel,
      by decide +kernel⟩
  obtain ⟨readsIff, same⟩ := loadConfiguration_reads_section_iff rfl loaded
  refine ⟨loaded, readsIff.mpr ?_⟩
  rw [same _ _ _ _ delimited]
  exact fun attr stored settles => settles

def strayText : Text :=
  "[domain/LdapAuthenticationMethod]\nldap_uri = ldaps://a\n[application/b]\nldap_uri = ldaps://b"
    |>.toList

/-- The address of the application is taken for that of the LDAP server. -/
theorem loadConfiguration_reads_other_section :
    ∃ reader, loadConfiguration (regularFile strayText) .new = some (0, reader) ∧
      ¬ ∀ attr, Settles (sectionLines false (getlines strayText)) attr (reader.stored attr) := by
  refine ⟨{ ConfigurationReader.new with ldapUri := "ldaps://b".toList }, by decide +kernel, ?_⟩
  intro agrees
  have lines : sectionLines false (getlines strayText) = ["ldap_uri = ldaps://a".toList] := by
    decide +kernel
  have sets : Sets .ldapUri "ldap_uri = ldaps://a".toList "ldaps://a".toList :=
    parseConfigurationItem_eq_some_iff.mp (by decide +kernel)
  have settles : Settles ["ldap_uri = ldaps://a".toList] .ldapUri (.text "ldaps://a".toList) :=
    .inl ⟨[], _, [], rfl, ⟨_, sets, rfl⟩, by simp⟩
  have wrong := agrees .ldapUri
  rw [lines] at wrong
  exact absurd (settles.unique wrong) (by decide +kernel)

end Apos.LdapCheck
