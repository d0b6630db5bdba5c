import Mathlib.Algebra.BigOperators.Group.List.Basic
import Mathlib.Algebra.GroupWithZero.Nat

/-!
# Sums with an end-around carry

The one's-complement sum of 16-bit words adds each carry out of the high bit at the low end.  It is
the remainder of the ordinary sum by 65535, with 65535 in the place of zero unless all of the words
are zero.
-/

namespace Apos

def carryAdd (sum word : Nat) : Nat :=
  (sum + word) % 65536 + (sum + word) / 65536

def onesSum (words : List Nat) : Nat :=
  words.foldl carryAdd 0

theorem foldl_carryAdd {words : List Nat} (small : ∀ word ∈ words, word < 65536) {start : Nat}
    (within : start < 65536) :
    words.foldl carryAdd start < 65536 ∧
      words.foldl carryAdd start % 65535 = (start + words.sum) % 65535 ∧
      (0 < start + words.sum → 0 < words.foldl carryAdd start) := by
  induction words generalizing start with
  | nil => simpa using within
  | cons word words ih =>
    have wordSmall := small word List.mem_cons_self
    have next : carryAdd start word < 65536 := by
      unfold carryAdd
      omega
    have later := ih (fun other member => small other (List.mem_cons_of_mem _ member)) next
    rw [List.foldl_cons, List.sum_cons]
    unfold carryAdd at later ⊢
    omega

theorem onesSum_eq {words : List Nat} (small : ∀ word ∈ words, word < 65536)
    (positive : 0 < words.sum) (divides : words.sum % 65535 = 0) : onesSum words = 65535 := by
  have folded := foldl_carryAdd small (show 0 < 65536 by decide)
  rw [Nat.zero_add] at folded
  unfold onesSum
  omega

end Apos
