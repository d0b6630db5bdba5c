import Mathlib.Data.List.Nodup
import Apos.DrbdAgentMips

/-!
# When the agent gets the movable addresses that are meant

The searches of `info_mip` find the rules that are meant, and sometimes others.  All that one
search finds is echoed on one line, so another rule shows in the interface that the agent reads,
unless it contributes no word.  This file states when the output is the one from which the agent
reads the rules that are meant.
-/

namespace Apos.DrbdAgent

open LineEdit ClusterConf

/-! ## The lines that are printed and those that are meant -/

theorem linesOf_inj {words others : List (List Text)}
    (areWords : ∀ line ∈ words, ∀ word ∈ line, IsWord word)
    (areOthers : ∀ line ∈ others, ∀ word ∈ line, IsWord word)
    (same : linesOf words = linesOf others) : words = others := by
  have noNewline : ∀ {line : List Text}, (∀ word ∈ line, IsWord word) → '\n' ∉ joined line :=
    fun isLine => not_mem_joined (by decide) fun word member newline =>
      absurd ((isLine word member).unbroken _ newline) (by decide)
  induction words generalizing others with
  | nil =>
    cases others with
    | nil => rfl
    | cons line others => simp [linesOf] at same
  | cons line words ih =>
    cases others with
    | nil => simp [linesOf] at same
    | cons other others =>
      simp only [linesOf, List.flatMap_cons, List.append_assoc, List.singleton_append] at same
      have lineWords := areWords line List.mem_cons_self
      have otherWords := areOthers other List.mem_cons_self
      obtain ⟨sameLine, sameRest⟩ :=
        cut_unique same (noNewline lineWords) (noNewline otherWords)
      rw [joined_inj lineWords otherWords sameLine,
        ih (fun line member => areWords line (List.mem_cons_of_mem _ member))
          (fun line member => areOthers line (List.mem_cons_of_mem _ member)) sameRest]

section Meant

variable {rules : List MipRule}

theorem MipTable.nodup (table : MipTable rules) : rules.Nodup :=
  List.Nodup.of_map _ table.distinct

variable {rule : MipRule}

theorem MipTable.eq_of_name (table : MipTable rules) {other : MipRule} (member : rule ∈ rules)
    (otherMember : other ∈ rules) (sameName : rule.name = other.name) : rule = other :=
  List.inj_on_of_nodup_map table.distinct member otherMember sameName

variable {isMeant : MipRule → Bool} {name : Text}

theorem MipTable.find?_eq_some (table : MipTable rules)
    (named : ∀ rule, isMeant rule = true → rule.name = name) (member : rule ∈ rules)
    (holds : isMeant rule = true) : rules.find? isMeant = some rule := by
  cases first : rules.find? isMeant with
  | none => exact absurd holds (List.find?_eq_none.mp first rule member)
  | some other =>
    have otherHolds := List.find?_some first
    rw [table.eq_of_name member (List.mem_of_find?_eq_some first)
      ((named rule holds).trans (named other otherHolds).symm)]

theorem flatMap_eq_iff {α β : Type} {items : List α} {contribution : α → List β}
    (nodup : items.Nodup) {item : α} (member : item ∈ items) :
    items.flatMap contribution = contribution item ↔
      ∀ other ∈ items, other ≠ item → contribution other = [] := by
  obtain ⟨before, behind, rfl⟩ := List.append_of_mem member
  rw [List.nodup_append, List.nodup_cons] at nodup
  obtain ⟨-, ⟨notBehind, -⟩, apart⟩ := nodup
  rw [List.flatMap_append, List.flatMap_cons]
  constructor
  · intro same other inItems different
    have lengths := congrArg List.length same
    simp only [List.length_append] at lengths
    have noneBefore : before.flatMap contribution = [] := List.length_eq_zero_iff.mp (by omega)
    have noneBehind : behind.flatMap contribution = [] := List.length_eq_zero_iff.mp (by omega)
    rw [List.flatMap_eq_nil_iff] at noneBefore noneBehind
    rcases List.mem_append.mp inItems with early | late
    · exact noneBefore other early
    · exact noneBehind other ((List.mem_cons.mp late).resolve_left different)
  · intro silent
    have noneBefore : before.flatMap contribution = [] := by
      rw [List.flatMap_eq_nil_iff]
      exact fun other early => silent other (by simp [early])
        (apart other early item List.mem_cons_self)
    have noneBehind : behind.flatMap contribution = [] := by
      rw [List.flatMap_eq_nil_iff]
      refine fun other late => silent other (by simp [late]) ?_
      rintro rfl
      exact notBehind late
    rw [noneBefore, noneBehind, List.nil_append, List.append_nil]

def MipRule.entryWords (rule : MipRule) : List Text :=
  [rule.address, rule.device]

variable {grep : Text → Bool}

/-- One of the first three lines is the one that is meant if and only if the other rules that
its search finds contribute nothing. -/
theorem words_found_iff (table : MipTable rules) (member : rule ∈ rules)
    (isFound : grep rule.text = true) (isV4 : ':' ∉ rule.address) :
    (found grep rules).flatMap MipRule.shown = rule.entryWords ↔
      ∀ other ∈ rules, grep other.text = true → other ≠ rule → other.shown = [] := by
  have shown : rule.shown = rule.entryWords :=
    MipRule.shown_of_not_mem (table.wellFormed rule member) isV4
  have nodup : (found grep rules).Nodup := table.nodup.filter _
  rw [← shown, flatMap_eq_iff nodup (mem_found.mpr ⟨member, isFound⟩)]
  constructor
  · exact fun silent other inRules otherFound => silent other (mem_found.mpr ⟨inRules, otherFound⟩)
  · intro silent other inFound
    obtain ⟨inRules, otherFound⟩ := mem_found.mp inFound
    exact silent other inRules otherFound

theorem wordsV6_iff (table : MipTable rules) (member : rule ∈ rules)
    (isFound : grepNbiV6 rule.text = true) :
    wordsV6 rules = rule.entryWords ↔
      ∀ other ∈ rules, grepNbiV6 other.text = true → other = rule := by
  have inFound : rule ∈ found grepNbiV6 rules := mem_found.mpr ⟨member, isFound⟩
  have nodup : (found grepNbiV6 rules).Nodup := table.nodup.filter _
  constructor
  · intro same other inRules otherFound
    have lengths := congrArg List.length same
    simp only [wordsV6, MipRule.entryWords, List.length_append, List.length_map, List.length_cons,
      List.length_nil] at lengths
    obtain ⟨only, isOnly⟩ := List.length_eq_one_iff.mp
      (show (found grepNbiV6 rules).length = 1 by omega)
    have otherIn : other ∈ found grepNbiV6 rules := mem_found.mpr ⟨inRules, otherFound⟩
    rw [isOnly, List.mem_singleton] at inFound otherIn
    rw [inFound, otherIn]
  · intro alone
    have equal : found grepNbiV6 rules =
        List.replicate (found grepNbiV6 rules).length rule := by
      apply List.eq_replicate_of_mem
      intro other otherIn
      obtain ⟨inRules, otherFound⟩ := mem_found.mp otherIn
      exact alone other inRules otherFound
    have atMostOne : (found grepNbiV6 rules).length ≤ 1 := by
      rwa [equal, List.nodup_replicate] at nodup
    have atLeastOne := List.length_pos_of_mem inFound
    have isOnly : found grepNbiV6 rules = [rule] := by
      rw [equal, Nat.le_antisymm atMostOne atLeastOne]
      rfl
    simp [wordsV6, isOnly, MipRule.entryWords]

/-- No search is disturbed by a rule that is not meant: what the first three find besides is
echoed as nothing, and the last one finds nothing besides. -/
structure Undisturbed (rules : List MipRule) : Prop where
  primaryA : ∀ rule ∈ rules, grepText primaryScA rule.text = true → rule.name ≠ primaryScA →
    rule.shown = []
  primaryB : ∀ rule ∈ rules, grepText primaryScB rule.text = true → rule.name ≠ primaryScB →
    rule.shown = []
  nbi : ∀ rule ∈ rules, grepNbi rule.text = true → rule.isNbi = false →
    rule.shown = [] ∧ ∃ other ∈ rules, other.isNbi = true
  nbiV6 : ∀ rule ∈ rules, grepNbiV6 rule.text = true → rule.isNbiV6 = true

theorem found_primary_iff (table : MipTable rules) (member : rule ∈ rules)
    (isNamed : rule.name = name) (isV4 : ':' ∉ rule.address) :
    (found (grepText name) rules).flatMap MipRule.shown = rule.entryWords ↔
      ∀ other ∈ rules, grepText name other.text = true → other.name ≠ name →
        other.shown = [] := by
  rw [words_found_iff table member (grepText_of_name isNamed) isV4]
  refine forall₂_congr fun other inRules => imp_congr_right fun _ => ?_
  have different : other ≠ rule ↔ other.name ≠ name := by
    rw [← isNamed]
    exact ⟨fun other_ne same => other_ne (table.eq_of_name inRules member same),
      fun name_ne same => name_ne (congrArg MipRule.name same)⟩
  rw [different]

theorem isNbi_iff (rule : MipRule) :
    rule.isNbi = true ↔
      rule.name = "nbi".toList ∧ rule.network = "public".toList ∧ ':' ∉ rule.address := by
  simp only [MipRule.isNbi, Bool.and_eq_true, decide_eq_true_eq, and_assoc, Bool.not_eq_true',
    ← Bool.not_eq_true, List.contains_iff_mem]

theorem found_meant_iff (table : MipTable rules)
    (named : ∀ rule, isMeant rule = true → rule.name = name)
    (finds : ∀ rule, isMeant rule = true → grep rule.text = true) (line : List Text) :
    (if found grep rules = [] then [] else [line]) =
        (rules.find? isMeant).toList.map MipRule.entryWords ↔
      (∀ rule ∈ rules, isMeant rule = true → line = rule.entryWords) ∧
        ∀ rule ∈ rules, grep rule.text = true → ∃ other ∈ rules, isMeant other = true := by
  by_cases present : ∃ rule ∈ rules, isMeant rule = true
  · obtain ⟨rule, member, meant⟩ := present
    rw [table.find?_eq_some named member meant,
      if_neg (List.ne_nil_of_mem (mem_found.mpr ⟨member, finds rule meant⟩))]
    simp only [Option.toList_some, List.map_cons, List.map_nil, List.cons.injEq, and_true]
    constructor
    · intro same
      refine ⟨fun other inRules otherMeant => ?_, fun _ _ _ => ⟨rule, member, meant⟩⟩
      rw [table.eq_of_name inRules member ((named other otherMeant).trans (named rule meant).symm)]
      exact same
    · rintro ⟨isLine, -⟩
      exact isLine rule member meant
  · have notFirst : rules.find? isMeant = none := by
      rw [List.find?_eq_none]
      exact fun rule member meant => present ⟨rule, member, meant⟩
    rw [notFirst]
    constructor
    · intro notPrinted
      refine ⟨fun rule member meant => absurd ⟨rule, member, meant⟩ present, ?_⟩
      intro rule member isFound
      rw [if_neg (List.ne_nil_of_mem (mem_found.mpr ⟨member, isFound⟩))] at notPrinted
      cases notPrinted
    · rintro ⟨-, meant⟩
      have nothing : found grep rules = [] := by
        rw [List.eq_nil_iff_forall_not_mem]
        intro rule inFound
        obtain ⟨member, isFound⟩ := mem_found.mp inFound
        exact present (meant rule member isFound)
      rw [if_pos nothing]
      rfl

theorem found_nbi_iff (table : MipTable rules) :
    (if found grepNbi rules = [] then [] else [(found grepNbi rules).flatMap MipRule.shown]) =
        (rules.find? MipRule.isNbi).toList.map MipRule.entryWords ↔
      ∀ rule ∈ rules, grepNbi rule.text = true → rule.isNbi = false →
        rule.shown = [] ∧ ∃ other ∈ rules, other.isNbi = true := by
  have named (rule : MipRule) (isNbi : rule.isNbi = true) : rule.name = "nbi".toList :=
    ((isNbi_iff rule).mp isNbi).1
  have silentIff {rule : MipRule} (member : rule ∈ rules) (isNbi : rule.isNbi = true) :=
    words_found_iff table member (grepNbi_of_isNbi isNbi) ((isNbi_iff rule).mp isNbi).2.2
  rw [found_meant_iff table named fun rule => grepNbi_of_isNbi]
  constructor
  · rintro ⟨isLine, meant⟩ rule member isFound notNbi
    obtain ⟨other, inRules, isNbi⟩ := meant rule member isFound
    refine ⟨?_, other, inRules, isNbi⟩
    apply (silentIff inRules isNbi).mp (isLine other inRules isNbi) rule member isFound
    rintro rfl
    simp [isNbi] at notNbi
  · intro silent
    refine ⟨fun rule member isNbi => ?_, fun rule member isFound => ?_⟩
    · rw [silentIff member isNbi]
      intro other inRules otherFound different
      refine (silent other inRules otherFound ?_).1
      rw [Bool.eq_false_iff]
      intro otherNbi
      exact different (table.eq_of_name inRules member
        ((named other otherNbi).trans (named rule isNbi).symm))
    · by_cases isNbi : rule.isNbi = true
      · exact ⟨rule, member, isNbi⟩
      · exact (silent rule member isFound (by simpa using isNbi)).2

theorem found_nbiV6_iff (table : MipTable rules) :
    (if found grepNbiV6 rules = [] then [] else [wordsV6 rules]) =
        (rules.find? MipRule.isNbiV6).toList.map MipRule.entryWords ↔
      ∀ rule ∈ rules, grepNbiV6 rule.text = true → rule.isNbiV6 = true := by
  have named : ∀ rule : MipRule, rule.isNbiV6 = true → rule.name = "nbi_v6".toList := by
    intro rule isNbiV6
    simp only [MipRule.isNbiV6, Bool.and_eq_true, decide_eq_true_eq] at isNbiV6
    exact isNbiV6.1
  have aloneIff {rule : MipRule} (member : rule ∈ rules) (isNbiV6 : rule.isNbiV6 = true) :=
    wordsV6_iff table member (grepNbiV6_of_isNbiV6 isNbiV6)
  rw [found_meant_iff table named fun rule => grepNbiV6_of_isNbiV6]
  constructor
  · rintro ⟨isLine, meant⟩ rule member isFound
    obtain ⟨other, inRules, isNbiV6⟩ := meant rule member isFound
    have same := (aloneIff inRules isNbiV6).mp (isLine other inRules isNbiV6) rule member isFound
    rwa [same]
  · intro only
    refine ⟨fun rule member isNbiV6 => ?_, fun rule member isFound =>
      ⟨rule, member, only rule member isFound⟩⟩
    rw [aloneIff member isNbiV6]
    intro other inRules otherFound
    exact table.eq_of_name inRules member
      ((named other (only other inRules otherFound)).trans (named rule isNbiV6).symm)

theorem length_toList_find?_le (isFound : ∀ rule, isMeant rule = true → grep rule.text = true)
    (line : List Text) :
    ((rules.find? isMeant).toList.map MipRule.entryWords).length ≤
      (if found grep rules = [] then [] else [line]).length := by
  cases first : rules.find? isMeant with
  | none => exact Nat.zero_le _
  | some rule =>
    have member := mem_found.mpr
      ⟨List.mem_of_find?_eq_some first, isFound rule (List.find?_some first)⟩
    rw [if_neg (List.ne_nil_of_mem member)]
    exact Nat.le_refl _

theorem append_eq_append_iff_of_le {α : Type} {first second meantFirst meantSecond : List α}
    (firstLe : meantFirst.length ≤ first.length) (secondLe : meantSecond.length ≤ second.length) :
    first ++ second = meantFirst ++ meantSecond ↔ first = meantFirst ∧ second = meantSecond := by
  constructor
  · intro same
    have lengths := congrArg List.length same
    simp only [List.length_append] at lengths
    exact List.append_inj same (by omega)
  · rintro ⟨rfl, rfl⟩
    rfl

theorem printedWords_eq_iff (table : MipTable rules) :
    printedWords rules = (meantRules rules).map MipRule.entryWords ↔ Undisturbed rules := by
  obtain ⟨first, inFirst, isFirst, firstV4⟩ := table.primaryA
  obtain ⟨second, inSecond, isSecond, secondV4⟩ := table.primaryB
  have findFirst : (rules.find? fun rule => decide (rule.name = primaryScA)) = some first :=
    table.find?_eq_some (fun rule isNamed => of_decide_eq_true isNamed) inFirst
      (decide_eq_true isFirst)
  have findSecond : (rules.find? fun rule => decide (rule.name = primaryScB)) = some second :=
    table.find?_eq_some (fun rule isNamed => of_decide_eq_true isNamed) inSecond
      (decide_eq_true isSecond)
  rw [meantRules, findFirst, findSecond]
  simp only [printedWords, Option.toList_some, List.map_append, List.map_cons,
    List.cons_append, List.nil_append, List.cons.injEq]
  rw [append_eq_append_iff_of_le
      (length_toList_find?_le (fun rule => grepNbi_of_isNbi) _)
      (length_toList_find?_le (fun rule => grepNbiV6_of_isNbiV6) _),
    found_primary_iff table inFirst isFirst firstV4,
    found_primary_iff table inSecond isSecond secondV4, found_nbi_iff table,
    found_nbiV6_iff table]
  constructor
  all_goals
    rintro ⟨primaryA, primaryB, nbi, nbiV6⟩
    exact ⟨primaryA, primaryB, nbi, nbiV6⟩

theorem mem_rules_of_mem_meantRules (meant : rule ∈ meantRules rules) : rule ∈ rules := by
  simp only [meantRules, List.mem_append, Option.mem_toList] at meant
  rcases meant with found | found | found | found <;> exact List.mem_of_find?_eq_some found

theorem meantRules_ne_nil (table : MipTable rules) : meantRules rules ≠ [] := by
  obtain ⟨rule, member, isNamed, -⟩ := table.primaryA
  rw [meantRules, table.find?_eq_some (fun other named => of_decide_eq_true named) member
    (decide_eq_true isNamed)]
  simp

theorem cleanEntry (table : MipTable rules) (meant : rule ∈ meantRules rules) :
    CleanEntry rule.entry := by
  have wellFormed := table.wellFormed rule (mem_rules_of_mem_meantRules meant)
  have unbroken := wellFormed.isWord_address.unbroken
  have unbrokenDevice := wellFormed.isWord_device.unbroken
  refine ⟨fun blank => absurd (unbroken _ blank) (by decide),
    ⟨fun newline => absurd (unbroken _ newline) (by decide),
      fun newline => absurd (unbrokenDevice _ newline) (by decide)⟩, ?_, ?_⟩
  · exact wellFormed.short rule.address (by simp [MipRule.words])
  · exact Nat.lt_of_le_of_lt (List.takeWhile_sublist _).length_le
      (wellFormed.short rule.interface (by simp [MipRule.words]))

theorem renderMips_entries (meant : List MipRule) :
    renderMips (meant.map MipRule.entry) = linesOf (meant.map MipRule.entryWords) := by
  simp [renderMips, linesOf, List.flatMap_map, MipRule.entry, MipRule.entryWords, joined,
    List.intercalate_cons_cons]

theorem echoed_printedWords (table : MipTable rules)
    (plain : ∀ rule ∈ rules, rule.isPlain = true) {line : List Text}
    (printed : line ∈ printedWords rules) {word : Text} (inLine : word ∈ line) :
    MipRule.Echoed word := by
  have inShown : ∀ {grep}, word ∈ (found grep rules).flatMap MipRule.shown →
      MipRule.Echoed word := by
    intro grep member
    obtain ⟨rule, isFound, inShown⟩ := List.mem_flatMap.mp member
    have inRules := (mem_found.mp isFound).1
    exact MipRule.echoed_shown (table.wellFormed rule inRules) (plain rule inRules) word inShown
  simp only [printedWords, List.mem_cons, List.mem_append] at printed
  rcases printed with rfl | rfl | isNbi | isNbiV6
  · exact inShown inLine
  · exact inShown inLine
  · split at isNbi
    · cases isNbi
    · rw [List.mem_singleton.mp isNbi] at inLine
      exact inShown inLine
  · split at isNbiV6
    · cases isNbiV6
    · rw [List.mem_singleton.mp isNbiV6, wordsV6, List.mem_append, List.mem_map,
        List.mem_map] at inLine
      rcases inLine with ⟨rule, isFound, rfl⟩ | ⟨rule, isFound, rfl⟩
      · exact MipRule.echoed_address (table.wellFormed rule (mem_found.mp isFound).1)
      · have inRules := (mem_found.mp isFound).1
        exact MipRule.echoed_device (table.wellFormed rule inRules) (plain rule inRules)

theorem cString_linesOf {words : List (List Text)}
    (noNul : ∀ line ∈ words, ∀ word ∈ line, '\x00' ∉ word) :
    CText.cString (linesOf words) = linesOf words := by
  refine CText.cString_eq_self fun member => ?_
  obtain ⟨line, inWords, inLine⟩ := List.mem_flatMap.mp member
  rcases List.mem_append.mp inLine with inJoined | newline
  · exact not_mem_joined (by decide) (noNul line inWords) inJoined
  · exact absurd newline (by decide)

/-- The agent gets the rules that are meant if and only if `info_mip` prints their lines.  With
interfaces that have no wildcard, backslash or `#`, it does so if and only if no search is
disturbed by another rule. -/
theorem mips_arrive_iff {tools : Tools}
    (leavesPlain : ∀ text, '\\' ∉ text → tools.interpret text = text)
    (table : MipTable rules) :
    (MipsArrive tools rules ↔ (infoMip tools rules).map CText.cString =
      some (renderMips ((meantRules rules).map MipRule.entry))) ∧
    ((∀ rule ∈ rules, rule.isPlain = true) → (MipsArrive tools rules ↔ Undisturbed rules)) := by
  have clean : ∀ entry ∈ (meantRules rules).map MipRule.entry, CleanEntry entry := by
    intro entry member
    obtain ⟨rule, meant, rfl⟩ := List.mem_map.mp member
    exact cleanEntry table meant
  have arriveIff : MipsArrive tools rules ↔ (infoMip tools rules).map CText.cString =
      some (renderMips ((meantRules rules).map MipRule.entry)) := by
    have readIff := readMips_eq_some_iff (by simpa using meantRules_ne_nil table) clean
      (infoMip tools rules)
    rwa [List.length_map] at readIff
  refine ⟨arriveIff, fun plain => ?_⟩
  have echoed : ∀ line ∈ printedWords rules, ∀ word ∈ line, MipRule.Echoed word :=
    fun line printed word inLine => echoed_printedWords table plain printed inLine
  have meantWords : ∀ line ∈ (meantRules rules).map MipRule.entryWords, ∀ word ∈ line,
      IsWord word := by
    intro line member word inLine
    obtain ⟨rule, meant, rfl⟩ := List.mem_map.mp member
    have wellFormed := table.wellFormed rule (mem_rules_of_mem_meantRules meant)
    rw [MipRule.entryWords, List.mem_cons, List.mem_singleton] at inLine
    rcases inLine with rfl | rfl
    · exact wellFormed.isWord_address
    · exact wellFormed.isWord_device
  rw [arriveIff, infoMip_eq leavesPlain table plain, Option.map_some, Option.some.injEq,
    cString_linesOf fun line printed word inLine => (echoed line printed word inLine).noNul,
    renderMips_entries, ← printedWords_eq_iff table]
  constructor
  · exact linesOf_inj (fun line printed word inLine => (echoed line printed word inLine).isWord)
      meantWords
  · exact congrArg linesOf

end Meant

/-! ## Sample tables -/

def sampleTools : Tools :=
  ⟨fun word => [word], id, fun _ _ => none, fun _ _ => false⟩

def MipRule.check (rule : MipRule) : Bool :=
  (rule.words.all fun word => !word.isEmpty && decide (word.length < 256) &&
      word.all fun char => !isSeparator char && char ≠ '\x00') &&
    !rule.device.isEmpty && rule.address.all isAddressChar

theorem MipRule.wellFormed_of_check {rule : MipRule} (checked : rule.check = true) :
    rule.WellFormed := by
  simp only [check, Bool.and_eq_true, List.all_eq_true, Bool.not_eq_true', decide_eq_true_eq,
    List.isEmpty_eq_false_iff] at checked
  obtain ⟨⟨each, device⟩, address⟩ := checked
  refine ⟨fun word member => ⟨(each word member).1.1, fun char inWord => ?_⟩,
    fun word member => (each word member).1.2, fun word member nul => ?_, device, address⟩
  · exact ((each word member).2 char inWord).1
  · exact ((each word member).2 _ nul).2 rfl

def primaryRules : List MipRule :=
  [⟨"control".toList, primaryScA, "eth0:1".toList, "internal".toList, "169.254.208.1".toList⟩,
    ⟨"control".toList, primaryScB, "eth1:1".toList, "internal".toList, "169.254.208.2".toList⟩,
    ⟨"control".toList, "nbi".toList, "bond1:1".toList, "public".toList, "10.35.1.20".toList⟩]

def backupRule : MipRule :=
  ⟨"control".toList, "primary_sc-a_backup".toList, "eth2:1".toList, "internal".toList,
    "169.254.208.9".toList⟩

theorem mipTable_sample {rules : List MipRule} (isPrimary : primaryRules ⊆ rules)
    (distinct : (rules.map MipRule.name).Nodup) (checked : rules.all MipRule.check = true) :
    MipTable rules where
  distinct := distinct
  wellFormed rule member := MipRule.wellFormed_of_check (List.all_eq_true.mp checked rule member)
  primaryA := ⟨_, isPrimary (List.mem_cons_self), rfl, by decide +kernel⟩
  primaryB := ⟨_, isPrimary (List.mem_cons_of_mem _ List.mem_cons_self), rfl, by decide +kernel⟩
  nbi := ⟨_, isPrimary (List.mem_cons_of_mem _ (List.mem_cons_of_mem _ List.mem_cons_self)),
    .inl (by decide +kernel)⟩

/-- With the three rules alone the agent gets their addresses. -/
theorem primary_rules_arrive :
    MipTable primaryRules ∧ MipsArrive sampleTools primaryRules := by
  have table : MipTable primaryRules :=
    mipTable_sample (List.Subset.refl _) (by decide +kernel) (by decide +kernel)
  refine ⟨table, ((mips_arrive_iff (fun _ _ => rfl) table).2 (by decide +kernel)).mpr ?_⟩
  constructor <;> decide +kernel

/-- The further rule is echoed on the line of the first one: the agent gets its address as a
part of an interface. -/
theorem backup_rule_in_interface :
    MipTable (backupRule :: primaryRules) ∧
      (readMips (infoMip sampleTools (backupRule :: primaryRules)) .fresh).map MipInfo.entries =
        some [("169.254.208.9".toList, "eth2 169.254.208.1 eth0".toList),
          ("169.254.208.2".toList, "eth1".toList), ("10.35.1.20".toList, "bond1".toList)] ∧
      ¬MipsArrive sampleTools (backupRule :: primaryRules) := by
  refine ⟨mipTable_sample (List.subset_cons_self _ _) (by decide +kernel) (by decide +kernel),
    by decide +kernel, ?_⟩
  unfold MipsArrive
  decide +kernel

end Apos.DrbdAgent
