import Apos.CTexts

/-!
# The arguments of `immset` and `immget`

An argument of `immset` is an attribute, an equals sign, a value, a colon and the name of an
object, and an argument of `immget` is an attribute, a colon and the name of an object.  Both
commands check the equals signs and the number of parts between colons.  `immset` takes an argument
apart at its last colon, and what is before that at its last equals sign.
-/

namespace Apos.Imm

open CText

abbrev Text := List Char

/-- The number of parts that `strtok` finds between colons. -/
def numOfTokens (arg : Text) : Nat :=
  ((arg.splitOnP (· = ':')).filter (· ≠ [])).length

/-- `ImmSet::isValidArgument`. -/
def isValidSetArgument (arg : Text) : Bool :=
  if "==".toList <:+: arg then false
  else
    match cutAt '=' arg with
    | none => false
    | some (_, behindAttr) =>
      match cutAt '=' behindAttr with
      | none => false
      | some _ => decide (numOfTokens arg ≤ 2)

/-- `ImmGet::isValidArgument`. -/
def isValidGetArgument (arg : Text) : Bool :=
  match cutAt '=' arg with
  | none => false
  | some (_, behind) =>
    if (cutAt '=' behind).isNone || (cutAt ',' behind).isSome then decide (numOfTokens arg ≤ 2)
    else false

structure RdnAttrStT where
  objName : Text
  attrName : Text
  deriving DecidableEq, Repr

structure Globals where
  objNameVect : List Text
  attrNameVect : List Text
  attrValVect : List Text
  mAttrName : Text
  mAttrValue : Text
  deriving DecidableEq, Repr

/-- `ImmSet::getAttrAndDN`: whether both separators are found, and what it stores. -/
def getAttrAndDN (arg : Text) (rdnAttr : RdnAttrStT) (globals : Globals) :
    Bool × RdnAttrStT × Globals :=
  match cutAtLast ':' arg with
  | none => (false, rdnAttr, globals)
  | some (attr, obj) =>
    let rdnAttr := ⟨obj, attr⟩
    let globals := { globals with objNameVect := globals.objNameVect ++ [obj] }
    match cutAtLast '=' attr with
    | none => (false, rdnAttr, globals)
    | some (name, value) =>
      (true, rdnAttr,
        { globals with
          mAttrName := name
          attrNameVect := globals.attrNameVect ++ [name]
          mAttrValue := value })

def setArgument (name value dn : Text) : Text :=
  name ++ '=' :: (value ++ ':' :: dn)

def Yields (arg name value dn : Text) : Prop :=
  ∀ rdnAttr globals, ∃ rdnAttr' globals', getAttrAndDN arg rdnAttr globals =
      (true, rdnAttr', globals') ∧
    globals'.mAttrName = name ∧ globals'.mAttrValue = value ∧ rdnAttr'.objName = dn

theorem yields_iff {arg name value dn : Text} :
    Yields arg name value dn ↔
      ∃ attr, cutAtLast ':' arg = some (attr, dn) ∧ cutAtLast '=' attr = some (name, value) := by
  constructor
  · intro yields
    obtain ⟨rdnAttr, globals, result, rfl, rfl, rfl⟩ := yields ⟨[], []⟩ ⟨[], [], [], [], []⟩
    rw [getAttrAndDN] at result
    split at result
    · cases result
    · next attr obj found =>
        simp only at result
        split at result
        · cases result
        · next name value foundValue =>
            cases result
            exact ⟨attr, found, foundValue⟩
  · rintro ⟨attr, found, foundValue⟩ rdnAttr globals
    simp only [getAttrAndDN, found, foundValue]
    exact ⟨_, _, rfl, rfl, rfl, rfl⟩

/-- An argument, also one that is accepted, is taken apart as it was put together exactly when its
object name has no colon and its value no equals sign. -/
theorem getAttrAndDN_inverts_setArgument_iff (name value dn : Text) :
    Yields (setArgument name value dn) name value dn ↔ ':' ∉ dn ∧ '=' ∉ value := by
  rw [yields_iff]
  constructor
  · rintro ⟨attr, found, foundValue⟩
    exact ⟨(cutAtLast_eq_some_iff.mp found).2, (cutAtLast_eq_some_iff.mp foundValue).2⟩
  · rintro ⟨noColonInName, noEqualsInValue⟩
    refine ⟨name ++ '=' :: value, ?_, ?_⟩
    · exact cutAtLast_eq_some_iff.mpr ⟨by simp [setArgument], noColonInName⟩
    · exact cutAtLast_eq_some_iff.mpr ⟨rfl, noEqualsInValue⟩

/-- An accepted argument with an equals sign in its value. -/
theorem getAttrAndDN_splits_inside_value :
    ('=' ∉ "key".toList ∧ ':' ∉ "key".toList ∧
        isValidSetArgument (setArgument "key".toList "a=b".toList "id=1".toList) = true ∧
          (setArgument "key".toList "a=b".toList "id=1".toList).length < 1024) ∧
      ¬ Yields (setArgument "key".toList "a=b".toList "id=1".toList) "key".toList "a=b".toList
        "id=1".toList := by
  refine ⟨by decide +kernel, ?_⟩
  rw [yields_iff]
  rintro ⟨attr, -, foundValue⟩
  exact (cutAtLast_eq_some_iff.mp foundValue).2 (by decide)

end Apos.Imm
