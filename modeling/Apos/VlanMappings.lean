import Apos.NetdefAddresses

/-!
# Names of VLANs in the mapping file

`vlandef` writes a line with the name, the interface and the tag of a VLAN to the mapping file.  It
compares a name with the first field of the lines, while `netdef` looks for the name as a word of
`grep` anywhere in a line.  A hyphen is part of a name for `vlandef` and separates words for
`grep`.
-/

namespace Apos.VlanMapping

open LineEdit ClusterConf DrbdAgent

/-! ## The file -/

def vlanMaxLen : Nat := 32

def tagMinSize : Int := 1

def tagMaxSize : Int := 4094

def isNameSymbol (symbol : Char) : Bool :=
  isWordChar symbol || symbol == '-'

/-- The checks of a name in `check_args`. -/
def isVlanName (name : Text) : Bool :=
  name.length ≤ vlanMaxLen && name.head?.any Char.isAlphanum && name.all isNameSymbol

/-- The checks of a tag in `check_vlantag_params`.  The number wraps around in `[[ -gt ]]`. -/
def isVlanTag (tag : Text) : Bool :=
  let number : Int := (CText.numberOf 10 tag : Int).bmod (2 ^ 64)
  (tag.head?.any fun symbol => decide (symbol ≠ '0')) && tag.all Char.isDigit &&
    (tagMinSize ≤ number && number ≤ tagMaxSize)

/-- A name that `check_args` accepts. -/
abbrev VlanName : Type :=
  {name : Text // isVlanName name = true}

structure Mapping where
  name : VlanName
  interface : Text
  tag : Text
  isInterface : interface ≠ [] ∧ interface.all Char.isAlphanum = true
  isTag : isVlanTag tag = true

/-- The line that `add_mapping` writes, `echo -e "$1\t\t$2"`. -/
def mappingLine (name adapter : Text) : Text :=
  name ++ '\t' :: ([] ++ '\t' :: adapter)

def Mapping.line (mapping : Mapping) : Text :=
  mappingLine mapping.name.val (mapping.interface ++ '.' :: mapping.tag)

/-- A place of a text that is a word of `grep -w`. -/
def isWordAt (word line : Text) (start : Nat) : Bool :=
  word.isPrefixOf (line.drop start) && !(line.take start).getLast?.any isWordChar &&
    !(line.drop (start + word.length)).head?.any isWordChar

/-- `grep -w` for a name, which has no special characters. -/
def hasWord (word line : Text) : Bool :=
  (List.range (line.length + 1)).any (isWordAt word line)

/-- `retrieve_VLAN_tag` on a native node, which fails if it prints nothing. -/
def retrieveVlanTag (lines : List Text) (vlanName : Text) : Text :=
  substitution ((lines.filter (hasWord vlanName)).map fun line => awkPiece '.' (awkField line 2) 2)

/-- `is_defined`: the first field of `echo $line`. -/
def isDefined (tools : Tools) (lines : List Text) (param : Text) : Bool :=
  lines.any fun line => awkPiece ' ' (echo tools (unquoted tools line)) 1 == param

/-! ## Lines -/

namespace Mapping

variable (mapping : Mapping)

theorem name_head : ∃ first rest, mapping.name.val = first :: rest ∧ first.isAlphanum = true := by
  have isName := mapping.name.property
  simp only [isVlanName, Bool.and_eq_true] at isName
  cases shape : mapping.name.val with
  | nil => simp [shape] at isName
  | cons first rest => exact ⟨first, rest, rfl, by simpa [shape] using isName.1.2⟩

theorem name_symbols : mapping.name.val.all isNameSymbol = true := by
  have isName := mapping.name.property
  rw [isVlanName, Bool.and_eq_true] at isName
  exact isName.2

theorem tag_digits : mapping.tag ≠ [] ∧ mapping.tag.all Char.isDigit = true := by
  have isTag := mapping.isTag
  simp only [isVlanTag, Bool.and_eq_true] at isTag
  exact ⟨fun empty => by simp [empty] at isTag, isTag.1.2⟩

theorem isWord_tag : IsWord mapping.tag where
  nonempty := mapping.tag_digits.1
  unbroken _ := contains_eq_false mapping.tag_digits.2 (by decide)

def adapter : Text :=
  mapping.interface ++ '.' :: mapping.tag

theorem adapter_symbols :
    (mapping.adapter.all fun symbol => symbol.isAlphanum || symbol == '.') = true := by
  simp only [adapter, List.all_append, List.all_cons, List.all_eq_true, Bool.and_eq_true]
  refine ⟨fun symbol member => ?_, by decide, fun symbol member => ?_⟩
  · rw [List.all_eq_true.mp mapping.isInterface.2 symbol member, Bool.true_or]
  · rw [Char.isAlphanum, List.all_eq_true.mp mapping.tag_digits.2 symbol member, Bool.or_true,
      Bool.true_or]

theorem fields_line : fields mapping.line = [mapping.name.val, mapping.adapter] := by
  obtain ⟨first, rest, shape, -⟩ := mapping.name_head
  have isName : IsWord mapping.name.val :=
    ⟨by simp [shape], fun _ => contains_eq_false mapping.name_symbols (by decide)⟩
  have isAdapter : IsWord mapping.adapter :=
    ⟨by simp [adapter], fun _ => contains_eq_false mapping.adapter_symbols (by decide)⟩
  rw [line, mappingLine, fields_append (by decide), fields_append (by decide), fields_nil,
    isName.fields]
  exact congrArg _ isAdapter.fields

theorem tag_of_line : awkPiece '.' (awkField mapping.line 2) 2 = mapping.tag := by
  have noDot : '.' ∉ mapping.interface := fun member =>
    absurd (List.all_eq_true.mp mapping.isInterface.2 '.' member) (by decide)
  have noOtherDot : '.' ∉ mapping.tag := fun member =>
    absurd (List.all_eq_true.mp mapping.tag_digits.2 '.' member) (by decide)
  have second : awkField mapping.line 2 = mapping.adapter := by
    rw [awkField, mapping.fields_line]
    rfl
  rw [second, awkPiece, adapter, splitOn_cut noDot, splitOn_of_not_mem noOtherDot]
  rfl

theorem name_of_line (tools : Tools) :
    awkPiece ' ' (echo tools (unquoted tools mapping.line)) 1 = mapping.name.val := by
  obtain ⟨first, rest, shape, isAlphanum⟩ := mapping.name_head
  have noOption : isEchoOption mapping.name.val = false := by
    refine isEchoOption_of_head fun minus => ?_
    rw [shape, List.head?_cons, Option.some.injEq] at minus
    exact absurd isAlphanum (by rw [minus]; decide)
  have noBlank : ' ' ∉ mapping.name.val := fun member =>
    absurd (List.all_eq_true.mp mapping.name_symbols ' ' member) (by decide)
  have plainName : expandWord tools mapping.name.val = [mapping.name.val] :=
    expandWord_of_plain tools fun _ => contains_eq_false mapping.name_symbols (by decide)
  have plainAdapter : expandWord tools mapping.adapter = [mapping.adapter] :=
    expandWord_of_plain tools fun _ => contains_eq_false mapping.adapter_symbols (by decide)
  have words : unquoted tools mapping.line = [mapping.name.val, mapping.adapter] := by
    rw [unquoted, mapping.fields_line, List.flatMap_cons, List.flatMap_singleton, plainName,
      plainAdapter, List.singleton_append]
  have printed : echo tools [mapping.name.val, mapping.adapter] =
      mapping.name.val ++ ' ' :: mapping.adapter := by
    simp [echo, noOption, joined]
  rw [words, printed, awkPiece_one_cut noBlank]

theorem hasWord_line : hasWord mapping.name.val mapping.line = true := by
  refine List.any_eq_true.mpr ⟨0, List.mem_range.mpr (Nat.succ_pos _), ?_⟩
  simp [isWordAt, line, mappingLine, isWordChar]

end Mapping

/-! ## Agreement -/

section Agreement

variable (tools : Tools) (mappings : List Mapping) (name : VlanName)

def found : List Mapping :=
  mappings.filter fun mapping => hasWord name.val mapping.line

theorem retrieveVlanTag_eq :
    retrieveVlanTag (mappings.map Mapping.line) name.val =
      substitution ((found mappings name).map Mapping.tag) := by
  rw [retrieveVlanTag, List.filter_map, List.map_map]
  exact congrArg substitution (List.map_congr_left fun mapping _ => mapping.tag_of_line)

theorem isDefined_iff :
    isDefined tools (mappings.map Mapping.line) name.val = true ↔
      ∃ mapping ∈ mappings, mapping.name = name := by
  simp [isDefined, Mapping.name_of_line, Subtype.ext_iff]

theorem retrieveVlanTag_eq_nil_iff :
    retrieveVlanTag (mappings.map Mapping.line) name.val = [] ↔ found mappings name = [] := by
  rw [retrieveVlanTag_eq, substitution_map_eq_nil_iff]
  intro mapping _
  obtain ⟨nonempty, isDigit⟩ := mapping.tag_digits
  obtain ⟨first, rest, shape⟩ := List.exists_cons_of_ne_nil nonempty
  refine ⟨first, by simp [shape], ?_⟩
  rintro rfl
  exact absurd (List.all_eq_true.mp isDigit '\n' (by simp [shape])) (by decide)

theorem fields_retrieveVlanTag :
    fields (retrieveVlanTag (mappings.map Mapping.line) name.val) =
      (found mappings name).map Mapping.tag := by
  have alone : ((found mappings name).map Mapping.tag).flatMap fields =
      ((found mappings name).map Mapping.tag).flatMap ([·]) := by
    refine List.flatMap_congr fun tag member => IsWord.fields ?_
    obtain ⟨mapping, -, rfl⟩ := List.mem_map.mp member
    exact mapping.isWord_tag
  rw [retrieveVlanTag_eq, fields_substitution, alone, List.flatMap_singleton']

end Agreement

theorem found_eq_of_mem {mappings : List Mapping} (distinct : (mappings.map Mapping.name).Nodup)
    {name : VlanName} (only : ∀ mapping ∈ mappings, hasWord name.val mapping.line = true →
      mapping.name = name) {mapping : Mapping} (member : mapping ∈ found mappings name) :
    found mappings name = [mapping] := by
  have names : (found mappings name).map Mapping.name =
      List.replicate (found mappings name).length name := by
    rw [List.map_eq_replicate_iff]
    intro other isFound
    obtain ⟨inFile, isWord⟩ := List.mem_filter.mp isFound
    exact only other inFile isWord
  have few : ((found mappings name).map Mapping.name).Nodup :=
    distinct.sublist (List.filter_sublist.map Mapping.name)
  rw [names, List.nodup_replicate] at few
  obtain ⟨other, isOne⟩ := List.length_eq_one_iff.mp
    (Nat.le_antisymm few (List.length_pos_of_mem member))
  rw [isOne, List.mem_singleton] at member
  rw [isOne, member]

/-- `netdef` finds a VLAN exactly if `vlandef` has defined it, with its tag, if and only if the
lines that have the name as a word are lines of this name. -/
theorem retrieveVlanTag_agrees_iff (tools : Tools) {mappings : List Mapping}
    (distinct : (mappings.map Mapping.name).Nodup) (name : VlanName) :
    ((retrieveVlanTag (mappings.map Mapping.line) name.val ≠ [] ↔
          isDefined tools (mappings.map Mapping.line) name.val = true) ∧
        ∀ mapping ∈ mappings, mapping.name = name →
          retrieveVlanTag (mappings.map Mapping.line) name.val = mapping.tag) ↔
      ∀ mapping ∈ mappings, hasWord name.val mapping.line = true → mapping.name = name := by
  have named {mapping : Mapping} (member : mapping ∈ mappings) (isNamed : mapping.name = name) :
      mapping ∈ found mappings name :=
    List.mem_filter.mpr ⟨member, by rw [← isNamed]; exact mapping.hasWord_line⟩
  rw [isDefined_iff, Ne, retrieveVlanTag_eq_nil_iff]
  constructor
  · rintro ⟨agrees, tags⟩ mapping member isWord
    have isFound : mapping ∈ found mappings name := List.mem_filter.mpr ⟨member, isWord⟩
    obtain ⟨defined, inFile, isNamed⟩ := agrees.mp (List.ne_nil_of_mem isFound)
    have words := fields_retrieveVlanTag mappings name
    rw [tags defined inFile isNamed, defined.isWord_tag.fields] at words
    obtain ⟨only, isOnly⟩ := List.length_eq_one_iff.mp
      ((List.length_map Mapping.tag).symm.trans (congrArg List.length words.symm))
    have same := named inFile isNamed
    rw [isOnly, List.mem_singleton] at same isFound
    rw [isFound, ← same, isNamed]
  · intro only
    refine ⟨⟨fun some => ?_, ?_⟩, fun mapping member isNamed => ?_⟩
    · obtain ⟨mapping, isFound⟩ := List.exists_mem_of_ne_nil _ some
      obtain ⟨member, isWord⟩ := List.mem_filter.mp isFound
      exact ⟨mapping, member, only mapping member isWord⟩
    · rintro ⟨mapping, member, isNamed⟩
      exact List.ne_nil_of_mem (named member isNamed)
    · rw [retrieveVlanTag_eq, found_eq_of_mem distinct only (named member isNamed)]
      refine Netdef.substitution_singleton fun inside => ?_
      exact absurd (List.all_eq_true.mp mapping.tag_digits.2 _ inside) (by decide)

def sampleFile (name : VlanName) : List Mapping :=
  [⟨name, "eth1".toList, "20".toList, by decide, by decide⟩]

theorem retrieveVlanTag_agrees_sample :
    (retrieveVlanTag ((sampleFile ⟨"om".toList, by decide⟩).map Mapping.line) "om".toList ≠ [] ↔
        isDefined ⟨fun word => [word], id, fun _ _ => none, fun _ _ => false⟩
          ((sampleFile ⟨"om".toList, by decide⟩).map Mapping.line) "om".toList = true) ∧
      ∀ mapping ∈ sampleFile ⟨"om".toList, by decide⟩, mapping.name = ⟨"om".toList, by decide⟩ →
        retrieveVlanTag ((sampleFile ⟨"om".toList, by decide⟩).map Mapping.line) "om".toList =
          mapping.tag :=
  (retrieveVlanTag_agrees_iff _ (by simp [sampleFile]) ⟨"om".toList, by decide⟩).mpr
    fun mapping member _ => by rw [List.mem_singleton.mp member]

/-- `netdef` finds the VLAN `om` in the line of `om-backup`. -/
theorem retrieveVlanTag_hyphen :
    isVlanName "om".toList = true ∧
      ((sampleFile ⟨"om-backup".toList, by decide⟩).map Mapping.name).Nodup ∧
      retrieveVlanTag ((sampleFile ⟨"om-backup".toList, by decide⟩).map Mapping.line)
        "om".toList = "20".toList ∧
      isDefined ⟨fun word => [word], id, fun _ _ => none, fun _ _ => false⟩
        ((sampleFile ⟨"om-backup".toList, by decide⟩).map Mapping.line) "om".toList = false :=
  ⟨by decide, by simp [sampleFile], by decide +kernel, by decide +kernel⟩

end Apos.VlanMapping
