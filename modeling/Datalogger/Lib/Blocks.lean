import Mathlib.Data.List.Basic

/-!
# A stream cut into blocks of `n`

A producer that fills one block of `n` elements after another has, after the
stream `xs`, a block still being filled (`openBlock`) and, once `n` elements have
arrived, a last block that is complete (`lastBlock`). Both are functions of the
stream alone. The four `snoc` lemmas say what one more element does: it either
extends the open block or completes it.
-/

namespace Datalogger.Lib

variable {α : Type}

/-- The elements since the last block boundary. -/
def openBlock (n : Nat) (xs : List α) : List α :=
  xs.drop (xs.length / n * n)

/-- The `n` elements before the last block boundary. -/
def lastBlock (n : Nat) (xs : List α) : List α :=
  (xs.take (xs.length / n * n)).drop (xs.length / n * n - n)

theorem openBlock_nil (n : Nat) : openBlock n ([] : List α) = [] := by
  simp [openBlock]

theorem length_openBlock (n : Nat) (xs : List α) :
    (openBlock n xs).length = xs.length % n := by
  have hdiv := Nat.div_add_mod' xs.length n
  rw [openBlock, List.length_drop]
  omega

theorem length_openBlock_lt {n : Nat} (hn : 0 < n) (xs : List α) :
    (openBlock n xs).length < n := by
  rw [length_openBlock]
  exact Nat.mod_lt _ hn

/-- One more element inside the open block leaves the last boundary where it is. -/
theorem boundary_snoc_lt {n : Nat} {xs : List α} (x : α)
    (h : (openBlock n xs).length + 1 < n) :
    (xs ++ [x]).length / n * n = xs.length / n * n := by
  rw [length_openBlock] at h
  have hdiv := Nat.div_add_mod' xs.length n
  have hq : (xs ++ [x]).length / n = xs.length / n := by
    rw [List.length_append, List.length_singleton]
    refine Nat.div_eq_of_lt_le (by omega) ?_
    rw [Nat.add_mul, Nat.one_mul]
    omega
  rw [hq]

/-- The element that completes the open block moves the boundary to the end. -/
theorem boundary_snoc_eq {n : Nat} {xs : List α} (x : α)
    (h : (openBlock n xs).length + 1 = n) :
    (xs ++ [x]).length / n * n = xs.length + 1 := by
  rw [length_openBlock] at h
  have hdiv := Nat.div_add_mod' xs.length n
  have hq : (xs ++ [x]).length / n = xs.length / n + 1 := by
    rw [List.length_append, List.length_singleton]
    refine Nat.div_eq_of_lt_le ?_ ?_
    · rw [Nat.add_mul, Nat.one_mul]
      omega
    · rw [Nat.add_mul, Nat.add_mul, Nat.one_mul]
      omega
  rw [hq, Nat.add_mul, Nat.one_mul]
  omega

theorem openBlock_snoc_lt {n : Nat} {xs : List α} (x : α)
    (h : (openBlock n xs).length + 1 < n) :
    openBlock n (xs ++ [x]) = openBlock n xs ++ [x] := by
  have hle : xs.length / n * n ≤ xs.length := Nat.div_mul_le_self _ _
  rw [openBlock, boundary_snoc_lt x h, List.drop_append_of_le_length hle, openBlock]

theorem openBlock_snoc_eq {n : Nat} {xs : List α} (x : α)
    (h : (openBlock n xs).length + 1 = n) : openBlock n (xs ++ [x]) = [] := by
  rw [openBlock, boundary_snoc_eq x h]
  simp

theorem lastBlock_snoc_lt {n : Nat} {xs : List α} (x : α)
    (h : (openBlock n xs).length + 1 < n) : lastBlock n (xs ++ [x]) = lastBlock n xs := by
  have hle : xs.length / n * n ≤ xs.length := Nat.div_mul_le_self _ _
  rw [lastBlock, boundary_snoc_lt x h, List.take_append_of_le_length hle, lastBlock]

theorem lastBlock_snoc_eq {n : Nat} {xs : List α} (x : α)
    (h : (openBlock n xs).length + 1 = n) :
    lastBlock n (xs ++ [x]) = openBlock n xs ++ [x] := by
  have hle : xs.length / n * n ≤ xs.length := Nat.div_mul_le_self _ _
  have hstart : xs.length + 1 - n = xs.length / n * n := by
    have hdiv := Nat.div_add_mod' xs.length n
    rw [length_openBlock] at h
    omega
  rw [lastBlock, boundary_snoc_eq x h, hstart,
    List.take_of_length_le (by simp), List.drop_append_of_le_length hle, openBlock]

end Datalogger.Lib
