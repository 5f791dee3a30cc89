import Mathlib.Tactic.Ring

/-!
# Integers in memory

A little-endian machine stores an integer of `k` bytes lowest byte first. `leBytes k n`
are these bytes and `leValue` reads them back (`leValue_leBytes`). A structure in
memory is the concatenation of such blocks, and a field is found again by dropping the
blocks in front of it.
-/

namespace Datalogger.Lib

/-- The `k` low bytes of `n`, lowest first. -/
def leBytes : Nat → Nat → List UInt8
  | 0, _ => []
  | k + 1, n => UInt8.ofNat n :: leBytes k (n / 256)

/-- The integer that bytes stand for, lowest first. -/
def leValue : List UInt8 → Nat
  | [] => 0
  | b :: bytes => b.toNat + 256 * leValue bytes

@[simp] theorem length_leBytes (k : Nat) : ∀ n, (leBytes k n).length = k := by
  induction k with
  | zero => intro n; rfl
  | succ k ih => intro n; rw [leBytes, List.length_cons, ih]

/-- Reading back keeps the low bytes. -/
theorem leValue_leBytes (k : Nat) : ∀ n, leValue (leBytes k n) = n % 256 ^ k := by
  induction k with
  | zero => intro n; rw [pow_zero, Nat.mod_one]; rfl
  | succ k ih =>
    intro n
    have hbyte : (UInt8.ofNat n).toNat = n % 256 := UInt8.toNat_ofNat
    rw [leBytes, leValue, ih, hbyte, pow_succ', Nat.mod_mul]

/-- An integer that fits is read back whole. -/
theorem leValue_leBytes_of_lt {k n : Nat} (h : n < 256 ^ k) : leValue (leBytes k n) = n := by
  rw [leValue_leBytes, Nat.mod_eq_of_lt h]

/-- The bytes behind an offset, one by one. -/
theorem getD_of_drop {bytes field : List UInt8} {off : Nat} (h : bytes.drop off = field) (i : Nat) :
    bytes.getD (off + i) 0 = field.getD i 0 := by
  subst h
  rw [List.getD_eq_getElem?_getD, List.getD_eq_getElem?_getD, List.getElem?_drop]

end Datalogger.Lib
