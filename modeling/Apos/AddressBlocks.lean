import Mathlib.Data.Set.Basic

/-!
# Blocks of addresses

An address is a word of bits of a fixed width.  A block is the set of the addresses that agree on
a number of first bits.  A mask has ones on the first bits: masking clears the bits behind them and
filling sets them.
-/

namespace Apos

def block (width : Nat) (word : List Bool) (fixed : Nat) : Set (List Bool) :=
  {other | other.length = width ∧ other.take fixed = word.take fixed}

theorem self_mem_block {width : Nat} {word : List Bool} (wide : word.length = width)
    (fixed : Nat) : word ∈ block width word fixed :=
  ⟨wide, rfl⟩

/-- A block lies in another one if and only if it fixes at least as many bits and agrees on the
first of them. -/
theorem block_subset_iff {width : Nat} {word other : List Bool} {fixed fewer : Nat}
    (wide : word.length = width) (within : fewer ≤ width) :
    block width word fixed ⊆ block width other fewer ↔
      fewer ≤ fixed ∧ word.take fewer = other.take fewer := by
  constructor
  · intro contained
    have agree : word.take fewer = other.take fewer := (contained (self_mem_block wide fixed)).2
    refine ⟨?_, agree⟩
    by_contra larger
    rw [Nat.not_le] at larger
    have inside : fixed < word.length := by omega
    have flipped : word.set fixed (!word[fixed]) ∈ block width word fixed :=
      ⟨by rw [List.length_set, wide], by rw [List.take_set_of_le (Nat.le_refl fixed)]⟩
    have same := (contained flipped).2
    rw [← agree] at same
    have bit := congrArg (fun bits => bits[fixed]?) same
    simp [larger, inside] at bit
  · rintro ⟨atMost, agree⟩ member ⟨memberWide, start⟩
    refine ⟨memberWide, ?_⟩
    have shorter := congrArg (List.take fewer) start
    rw [List.take_take, List.take_take, Nat.min_eq_left atMost] at shorter
    rw [shorter, agree]

def maskBits (width fixed : Nat) : List Bool :=
  List.replicate fixed true ++ List.replicate (width - fixed) false

theorem zipWith_and_maskBits {width fixed : Nat} {word : List Bool} (wide : word.length = width)
    (within : fixed ≤ width) :
    List.zipWith and word (maskBits width fixed) =
      word.take fixed ++ List.replicate (width - fixed) false := by
  apply List.ext_getElem
  · simp [maskBits, wide, within]
  · intro index _ _
    simp only [maskBits, List.getElem_zipWith, List.getElem_append, List.length_replicate,
      List.getElem_replicate, List.length_take, List.getElem_take]
    split <;> split <;> first | rfl | (simp; done) | omega

theorem zipWith_or_maskBits {width fixed : Nat} {word : List Bool} (wide : word.length = width)
    (within : fixed ≤ width) :
    List.zipWith or word ((maskBits width fixed).map not) =
      word.take fixed ++ List.replicate (width - fixed) true := by
  apply List.ext_getElem
  · simp [maskBits, wide, within]
  · intro index _ _
    simp only [maskBits, List.getElem_zipWith, List.getElem_append, List.length_replicate,
      List.getElem_replicate, List.length_take, List.getElem_take, List.map_append,
      List.map_replicate]
    split <;> split <;> first | rfl | (simp; done) | omega

end Apos
