import Apos.NetdefAddresses

/-!
# The rules that netdef looks up

`netdef` reads cluster.conf through the numbered listings of `clusterconf`, in which it searches
for the name of a network and of which it prints single fields.  This file has the rules with their
listings and the searches.
-/

namespace Apos.Netdef

open LineEdit ClusterConf DrbdAgent

/-! ## Rules -/

structure Word where
  text : Text
  nonempty : text ≠ []
  solid : (text.all fun symbol => !CText.isSpace symbol) = true
  deriving DecidableEq

variable {symbol : Char}

theorem isSpace_of_isSeparator (separator : isSeparator symbol = true) :
    CText.isSpace symbol = true := by
  simp only [isSeparator, List.contains_iff_mem, List.mem_cons, List.not_mem_nil,
    or_false] at separator
  rcases separator with rfl | rfl | rfl <;> decide

theorem isSeparator_of_isSpace (noSpace : CText.isSpace symbol = false) :
    isSeparator symbol = false := by
  by_contra separator
  rw [isSpace_of_isSeparator (Bool.eq_true_of_not_eq_false separator)] at noSpace
  cases noSpace

theorem Word.isSpace (word : Word) (member : symbol ∈ word.text) :
    CText.isSpace symbol = false := by
  simpa using List.all_eq_true.mp word.solid symbol member

theorem Word.isWord (word : Word) : IsWord word.text where
  nonempty := word.nonempty
  unbroken _ member := isSeparator_of_isSpace (word.isSpace member)

/-- `network name id`. -/
structure NetworkRule where
  name : Word
  id : Word
  deriving DecidableEq

/-- `ip node interface network address`. -/
structure IpRule where
  node : Word
  interface : Word
  network : Word
  address : Word
  deriving DecidableEq

/-- `mip target name interface network address`. -/
structure MipRule where
  target : Word
  name : Word
  interface : Word
  network : Word
  address : Word
  deriving DecidableEq

/-- `route target network gateway address`, or another word in the place of `gateway`. -/
structure RouteRule where
  target : Word
  network : Word
  kind : Word
  address : Word
  deriving DecidableEq

def NetworkRule.fields (rule : NetworkRule) : List Word :=
  [rule.name, rule.id]

def IpRule.fields (rule : IpRule) : List Word :=
  [rule.node, rule.interface, rule.network, rule.address]

def MipRule.fields (rule : MipRule) : List Word :=
  [rule.target, rule.name, rule.interface, rule.network, rule.address]

def RouteRule.fields (rule : RouteRule) : List Word :=
  [rule.target, rule.network, rule.kind, rule.address]

/-- The rules of cluster.conf that `netdef` reads, each kind in the order of the file. -/
structure Config where
  networks : List NetworkRule
  ips : List IpRule
  mips : List MipRule
  routes : List RouteRule
  deriving DecidableEq

/-! ## Listings -/

def networkWord : Word :=
  ⟨"network".toList, by decide, by decide⟩

def ipWord : Word :=
  ⟨"ip".toList, by decide, by decide⟩

def mipWord : Word :=
  ⟨"mip".toList, by decide, by decide⟩

def routeWord : Word :=
  ⟨"route".toList, by decide, by decide⟩

def ruleLine (keyword : Word) (fields : List Word) : Text :=
  joined (keyword.text :: fields.map Word.text)

def header (keyword : Word) : Text :=
  keyword.text ++ " rules present are:".toList

/-- `clusterconf keyword -D`. -/
def display (keyword : Word) (rules : List (List Word)) : List Text :=
  if rules = [] then ["No ".toList ++ keyword.text ++ " rules present.".toList]
  else header keyword :: numberFrom 1 (rules.map (ruleLine keyword))

namespace Config

variable (config : Config)

def displayNetworks : List Text :=
  display networkWord (config.networks.map NetworkRule.fields)

def displayIps : List Text :=
  display ipWord (config.ips.map IpRule.fields)

def displayMips : List Text :=
  display mipWord (config.mips.map MipRule.fields)

def displayRoutes : List Text :=
  display routeWord (config.routes.map RouteRule.fields)

end Config

/-- `grep '^\s\s*[0-9][0-9]*\s\s*ip 1\s\s*'`. -/
def grepNodeOne (line : Text) : Bool :=
  let unpadded := line.dropWhile CText.isSpace
  let unnumbered := unpadded.dropWhile Char.isDigit
  let rule := unnumbered.dropWhile CText.isSpace
  unpadded.length < line.length && unnumbered.length < unpadded.length &&
    rule.length < unnumbered.length && "ip 1".toList.isPrefixOf rule &&
    (rule.drop 4).head?.any CText.isSpace

/-- `clusterconf ip -D | grep -w name | grep '...ip 1...' | awk '{ print $6 }'`, which is the
search for the address of either node. -/
def nodeIP (config : Config) (name : Text) : Text :=
  substitution ((config.displayIps.filter fun line =>
    foundBounded name line && grepNodeOne line).map (awkField · 6))

/-- `clusterconf mip -D | grep -w name | awk '{ print $7 }'`. -/
def mipIP (config : Config) (name : Text) : Text :=
  substitution ((config.displayMips.filter (foundBounded name)).map (awkField · 7))

/-- `clusterconf network -D | grep -w name | awk '{ print $4 }'`. -/
def networkId (config : Config) (name : Text) : Text :=
  substitution ((config.displayNetworks.filter (foundBounded name)).map (awkField · 4))

/-! ## Uniqueness -/

/-- The line has a word between white space that is accepted: `\s\s*(...)\s\s*`. -/
def hasBetweenSpaces (accept : Text → Bool) : Text → Bool
  | [] => false
  | symbol :: line =>
    let word := line.takeWhile fun symbol => !CText.isSpace symbol
    (CText.isSpace symbol && accept word && decide (word.length < line.length)) ||
      hasBetweenSpaces accept line

/-- `grep -Ev "\s\s*(...)\s\s*" | tail -n +2`. -/
def withoutNames (accept : Text → Bool) (lines : List Text) : List Text :=
  (lines.filter fun line => !hasBetweenSpaces accept line).drop 1

/-- The loop that looks for a text among lines that have been joined with `*`: the words between
the stars are expanded. -/
def isListed (shell : Shell) (text : Text) (lines : List Text) : Bool :=
  (((lines.flatMap (· ++ ['*'])).splitOn '*').dropLast.flatMap (expandWord shell.tools)).contains
    text

def isNetworkUnique (shell : Shell) (config : Config) (subnetId : Text) (ignored : Text → Bool) :
    Bool :=
  !isListed shell subnetId ((withoutNames ignored config.displayNetworks).map fun line =>
    awkPiece '/' (awkField line 4) 1)

def isIPUnique (shell : Shell) (config : Config) (ipAddress : Text) (ignored : Text → Bool) :
    Bool :=
  !isListed shell ipAddress ((withoutNames ignored config.displayIps).map (awkField · 6)) &&
    !isListed shell ipAddress ((withoutNames ignored config.displayRoutes).map (awkField · 6)) &&
    !isListed shell ipAddress ((withoutNames ignored config.displayMips).map (awkField · 7))

/-! ## Networks and their routes -/

/-- The networks that gateways are added to. -/
inductive SourceNetwork where
  | publicNetwork
  | vlan (tag : Nat)
  deriving DecidableEq, Repr

def SourceNetwork.name : SourceNetwork → Text
  | .publicNetwork => "public".toList
  | .vlan tag => "public_vlan".toList ++ Nat.toDigits 10 tag

/-- A name of the form `name_gw([0-9])([0-9])*`. -/
def isGatewayName (name text : Text) : Bool :=
  let start := name ++ "_gw".toList
  let number := text.drop start.length
  start.isPrefixOf text && !number.isEmpty && number.all Char.isDigit

/-! ## Lines of a listing -/

variable (keyword : Word)

theorem fields_ruleLine (rule : List Word) (number : Nat) :
    fields (numbered number (ruleLine keyword rule)) =
      Nat.toDigits 10 number :: keyword.text :: rule.map Word.text := by
  have areWords : ∀ word ∈ keyword.text :: rule.map Word.text, IsWord word := by
    rw [← List.map_cons]
    intro word member
    obtain ⟨field, -, rfl⟩ := List.mem_map.mp member
    exact field.isWord
  rw [numbered, fields_replicate, fields_append (by decide), (isWord_digits number).fields,
    ruleLine, fields_joined areWords]
  rfl

variable {lines : List Text}

theorem exists_mem_numberFrom {line : Text} (member : line ∈ lines) (start : Nat) :
    ∃ number, numbered number line ∈ numberFrom start lines := by
  induction lines generalizing start with
  | nil => cases member
  | cons first lines ih =>
    rcases List.mem_cons.mp member with rfl | later
    · exact ⟨start, List.mem_cons_self⟩
    · obtain ⟨number, inLines⟩ := ih later (start + 1)
      exact ⟨number, List.mem_cons_of_mem _ inLines⟩

theorem exists_mem_display {rule : List Word} {rules : List (List Word)} (member : rule ∈ rules) :
    ∃ number, numbered number (ruleLine keyword rule) ∈
      numberFrom 1 (rules.map (ruleLine keyword)) :=
  exists_mem_numberFrom (List.mem_map_of_mem member) 1

theorem display_of_mem {rule : List Word} {rules : List (List Word)} (member : rule ∈ rules) :
    display keyword rules = header keyword :: numberFrom 1 (rules.map (ruleLine keyword)) :=
  if_neg (List.ne_nil_of_mem member)

theorem substitution_eq_of_mem {text : Text} (member : text ∈ lines) (nonempty : text ≠ [])
    (solid : '\n' ∉ text) (single : '\n' ∉ substitution lines) : substitution lines = text := by
  obtain ⟨before, after, rfl⟩ := List.append_of_mem member
  obtain ⟨front, last, rfl⟩ := (List.eq_nil_or_concat' text).resolve_left nonempty
  have noBreak : decide (last = '\n') = false := by
    rw [decide_eq_false_iff_not]
    rintro rfl
    exact solid (by simp)
  have shape : substitution (before ++ (front ++ [last]) :: after) =
      (before.flatMap (· ++ ['\n']) ++ front) ++ last ::
        ('\n' :: after.flatMap (· ++ ['\n'])).rdropWhile (· = '\n') := by
    have cut := @rdropWhile_cut Char (fun symbol => decide (symbol = '\n')) last noBreak
      (before.flatMap (· ++ ['\n']) ++ front) ('\n' :: after.flatMap (· ++ ['\n']))
    rw [← cut, substitution]
    simp
  rw [shape] at single ⊢
  have noneBefore : before = [] := by
    cases before with
    | nil => rfl
    | cons line before => simp at single
  have noneAfter : ('\n' :: after.flatMap (· ++ ['\n'])).rdropWhile (· = '\n') = [] := by
    have start := List.rdropWhile_prefix (fun symbol => decide (symbol = '\n'))
      (l := '\n' :: after.flatMap (· ++ ['\n']))
    cases kept : ('\n' :: after.flatMap (· ++ ['\n'])).rdropWhile (· = '\n') with
    | nil => rfl
    | cons symbol rest =>
      rw [kept] at start single
      obtain ⟨rfl, -⟩ := List.cons_prefix_cons.mp start
      simp at single
  rw [noneBefore, noneAfter]
  rfl

/-! ## Searches -/

section BetweenSpaces

variable {accept : Text → Bool} {start stop : Char} {word : Text}

theorem hasBetweenSpaces_word (solid : ∀ symbol ∈ word, CText.isSpace symbol = false)
    (rest : Text) : hasBetweenSpaces accept (word ++ rest) = hasBetweenSpaces accept rest := by
  induction word with
  | nil => rfl
  | cons symbol word ih =>
    rw [List.forall_mem_cons] at solid
    rw [List.cons_append, hasBetweenSpaces, solid.1, ih solid.2, Bool.false_and, Bool.false_and,
      Bool.false_or]

theorem hasBetweenSpaces_cut (isStart : CText.isSpace start = true)
    (solid : ∀ symbol ∈ word, CText.isSpace symbol = false) (isStop : CText.isSpace stop = true)
    (rest : Text) :
    hasBetweenSpaces accept (start :: (word ++ stop :: rest)) =
      (accept word || hasBetweenSpaces accept (stop :: rest)) := by
  have taken : (word ++ stop :: rest).takeWhile (fun symbol => !CText.isSpace symbol) = word := by
    rw [List.takeWhile_append_of_pos fun symbol member => by rw [solid symbol member]; rfl,
      List.takeWhile_cons_of_neg (by rw [isStop]; exact Bool.false_ne_true), List.append_nil]
  have shorter : word.length < (word ++ stop :: rest).length := by simp
  rw [hasBetweenSpaces]
  simp only [taken, isStart, shorter, decide_true, Bool.true_and, Bool.and_true,
    hasBetweenSpaces_word solid]

theorem hasBetweenSpaces_end (solid : ∀ symbol ∈ word, CText.isSpace symbol = false) :
    hasBetweenSpaces accept (start :: word) = false := by
  have taken : word.takeWhile (fun symbol => !CText.isSpace symbol) = word :=
    List.takeWhile_eq_self_iff.mpr fun symbol member => by rw [solid symbol member]; rfl
  have none := @hasBetweenSpaces_word accept word solid []
  rw [List.append_nil] at none
  rw [hasBetweenSpaces]
  simp only [taken, Nat.lt_irrefl, decide_false, Bool.and_false, Bool.false_or, none,
    hasBetweenSpaces]

theorem hasBetweenSpaces_joined (isStart : CText.isSpace start = true) (words : List Word) :
    hasBetweenSpaces accept (start :: joined (words.map Word.text)) =
      words.dropLast.any fun word => accept word.text := by
  induction words generalizing start with
  | nil => exact hasBetweenSpaces_end (List.forall_mem_nil _)
  | cons first words ih =>
    have solid : ∀ symbol ∈ first.text, CText.isSpace symbol = false := fun _ => first.isSpace
    cases words with
    | nil =>
      rw [List.map_cons, List.map_nil, joined, List.intercalate_singleton]
      exact hasBetweenSpaces_end solid
    | cons second words =>
      have blank : CText.isSpace ' ' = true := by decide
      rw [List.map_cons, List.map_cons, joined, List.intercalate_cons_cons, List.append_assoc,
        List.singleton_append, hasBetweenSpaces_cut isStart solid blank,
        List.dropLast_cons_of_ne_nil (List.cons_ne_nil _ _), List.any_cons]
      exact congrArg (accept first.text || ·) (ih blank)

theorem hasBetweenSpaces_padded (notEmpty : accept [] = false) (noWord : accept word = false)
    (solid : ∀ symbol ∈ word, CText.isSpace symbol = false) (isStop : CText.isSpace stop = true)
    (count : Nat) (rest : Text) :
    hasBetweenSpaces accept (List.replicate count ' ' ++ (word ++ stop :: rest)) =
      hasBetweenSpaces accept (stop :: rest) := by
  have blank : CText.isSpace ' ' = true := by decide
  induction count with
  | zero => exact hasBetweenSpaces_word solid _
  | succ count ih =>
    cases count with
    | zero =>
      have cut := @hasBetweenSpaces_cut accept ' ' stop word blank solid isStop rest
      rw [noWord, Bool.false_or] at cut
      exact cut
    | succ count =>
      have cut := @hasBetweenSpaces_cut accept ' ' ' ' [] blank (List.forall_mem_nil _) blank
        (List.replicate count ' ' ++ (word ++ stop :: rest))
      rw [notEmpty, Bool.false_or] at cut
      exact cut.trans ih

theorem hasBetweenSpaces_ruleLine (notEmpty : accept [] = false) {number : Nat}
    (noNumber : accept (Nat.toDigits 10 number) = false) {keyword : Word}
    (noKeyword : accept keyword.text = false) (rule : List Word) :
    hasBetweenSpaces accept (numbered number (ruleLine keyword rule)) =
      rule.dropLast.any fun field => accept field.text := by
  have solid : ∀ symbol ∈ Nat.toDigits 10 number, CText.isSpace symbol = false :=
    fun _ member => CText.isSpace_of_isDigit (isDigit_of_mem_toDigits member)
  have tab : CText.isSpace '\t' = true := by decide
  rw [numbered, hasBetweenSpaces_padded notEmpty noNumber solid tab, ruleLine, ← List.map_cons,
    hasBetweenSpaces_joined tab]
  cases rule with
  | nil => rfl
  | cons first rule =>
    rw [List.dropLast_cons_of_ne_nil (List.cons_ne_nil _ _), List.any_cons, noKeyword,
      Bool.false_or]

theorem hasBetweenSpaces_header (noRules : accept "rules".toList = false)
    (noPresent : accept "present".toList = false) (keyword : Word) :
    hasBetweenSpaces accept (header keyword) = false := by
  have solid : ∀ symbol ∈ keyword.text, CText.isSpace symbol = false := fun _ => keyword.isSpace
  have words := @hasBetweenSpaces_joined accept ' ' (by decide)
    [⟨"rules".toList, by decide, by decide⟩, ⟨"present".toList, by decide, by decide⟩,
      ⟨"are:".toList, by decide, by decide⟩]
  simp only [List.dropLast, List.any_cons, List.any_nil, noRules, noPresent, Bool.or_false]
    at words
  rw [header, hasBetweenSpaces_word solid]
  exact words

theorem hasBetweenSpaces_noRules (noRules : accept "rules".toList = false) {keyword : Word}
    (noKeyword : accept keyword.text = false) :
    hasBetweenSpaces accept ("No ".toList ++ keyword.text ++ " rules present.".toList) = false := by
  have words := @hasBetweenSpaces_joined accept ' ' (by decide)
    [keyword, ⟨"rules".toList, by decide, by decide⟩, ⟨"present.".toList, by decide, by decide⟩]
  simp only [List.dropLast, List.any_cons, List.any_nil, noRules, noKeyword, Bool.or_false]
    at words
  have solid : ∀ symbol ∈ "No".toList, CText.isSpace symbol = false := by
    have none : ("No".toList.all fun symbol => CText.isSpace symbol == false) = true := by decide
    exact fun symbol member => beq_iff_eq.mp (List.all_eq_true.mp none symbol member)
  have whole : "No ".toList ++ keyword.text ++ " rules present.".toList = "No".toList ++
      ' ' :: joined ([keyword, ⟨"rules".toList, by decide, by decide⟩,
        ⟨"present.".toList, by decide, by decide⟩].map Word.text) := by
    simp [joined, List.intercalate_cons_cons]
  rw [whole, hasBetweenSpaces_word solid, words]

end BetweenSpaces

theorem isListed_of_mem (shell : Shell) {text : Text} (member : text ∈ lines) (noStar : '*' ∉ text)
    (literal : isLiteral text = true) : isListed shell text lines = true := by
  have among : text ∈ ((lines.flatMap (· ++ ['*'])).splitOn '*').dropLast := by
    induction lines with
    | nil => cases member
    | cons line lines ih =>
      have split : ((line :: lines).flatMap (· ++ ['*'])).splitOn '*' =
          line.splitOn '*' ++ (lines.flatMap (· ++ ['*'])).splitOn '*' := by
        rw [List.flatMap_cons, List.append_assoc, List.singleton_append]
        exact List.splitOnP_append_cons line _ (by simp)
      rw [split, List.dropLast_append_of_ne_nil (List.splitOn_ne_nil _ _), List.mem_append]
      rcases List.mem_cons.mp member with rfl | later
      · exact .inl (by rw [splitOn_of_not_mem noStar]; exact List.mem_singleton_self _)
      · exact .inr (ih later)
  rw [isListed, List.contains_iff_mem, List.mem_flatMap]
  refine ⟨text, among, ?_⟩
  rw [expandWord_literal shell.tools literal]
  exact List.mem_singleton_self text

end Apos.Netdef
