import Mathlib.Data.Nat.ModEq

/-!
# One's complement sums

In one's complement arithmetic with the digits `0 .. m` a carry out of the top is added
back in at the bottom (`ocAdd`). A sum then depends on nothing but the ordinary sum of its
terms: it is that sum modulo `m`, with `m` in place of `0` unless every term is `0`
(`ocSum_eq_residue`). So terms may be added in any order, partial sums may be folded at any
time, and a sum may be folded once from a wide accumulator.
-/

namespace Datalogger.Lib

variable {m : Nat}

/-- Addition with end-around carry. -/
def ocAdd (m a b : Nat) : Nat := if a + b ≤ m then a + b else a + b - m

/-- The one's complement sum. -/
def ocSum (m : Nat) (ws : List Nat) : Nat := ws.foldl (ocAdd m) 0

/-- The digit that stands for an ordinary sum. -/
def residue (m s : Nat) : Nat := if s = 0 then 0 else (s - 1) % m + 1

@[simp] theorem residue_zero : residue m 0 = 0 := if_pos rfl

theorem residue_of_pos {s : Nat} (h : 0 < s) : residue m s = (s - 1) % m + 1 :=
  if_neg (Nat.pos_iff_ne_zero.mp h)

theorem residue_eq_zero_iff {s : Nat} : residue m s = 0 ↔ s = 0 := by
  unfold residue
  split
  next h => exact ⟨fun _ => h, fun _ => rfl⟩
  next h => exact ⟨fun h0 => absurd h0 (Nat.succ_ne_zero _), fun h0 => absurd h0 h⟩

theorem residue_le (hm : 0 < m) (s : Nat) : residue m s ≤ m := by
  unfold residue
  split
  next => exact Nat.zero_le m
  next => exact Nat.mod_lt _ hm

theorem residue_mod (s : Nat) : residue m s % m = s % m := by
  rcases Nat.eq_zero_or_pos s with rfl | hpos
  · rw [residue_zero]
  · rw [residue_of_pos hpos, Nat.mod_add_mod, Nat.sub_add_cancel hpos]

/-- A digit is known by its remainder, and by whether it is `0`. -/
theorem residue_unique {r s : Nat} (hle : r ≤ m) (hmod : r % m = s % m)
    (hzero : r = 0 ↔ s = 0) : r = residue m s := by
  rcases Nat.eq_zero_or_pos s with rfl | hpos
  · rw [residue_zero]
    exact hzero.mpr rfl
  · have hrpos : 0 < r := Nat.pos_of_ne_zero fun h => absurd (hzero.mp h) (by omega)
    rw [residue_of_pos hpos]
    have hpred : (r - 1) % m = (s - 1) % m := by
      have hcong : Nat.ModEq m (r - 1 + 1) (s - 1 + 1) := by
        rw [Nat.sub_add_cancel hrpos, Nat.sub_add_cancel hpos]
        exact hmod
      exact hcong.add_right_cancel' 1
    rw [← hpred, Nat.mod_eq_of_lt (by omega)]
    omega

/-- A digit stands for itself. -/
theorem residue_of_le {r : Nat} (h : r ≤ m) : residue m r = r :=
  (residue_unique h rfl Iff.rfl).symm

/-- Folding a part of a sum does not change the sum. -/
theorem residue_add (a b : Nat) : residue m (residue m a + b) = residue m (a + b) := by
  rcases Nat.eq_zero_or_pos m with rfl | hm
  · unfold residue
    simp only [Nat.mod_zero]
    split
    next h => rw [h]
    next h =>
      rw [Nat.sub_add_cancel (Nat.pos_of_ne_zero h)]
  · refine residue_unique (residue_le hm _) ?_ ?_
    · rw [residue_mod, Nat.add_mod, residue_mod, ← Nat.add_mod]
    · have hza : residue m a = 0 ↔ a = 0 := residue_eq_zero_iff
      rw [residue_eq_zero_iff]
      omega

/-- Two sums have the same digit if they agree modulo `m`, and about being `0`. -/
theorem residue_congr {s t : Nat} (hm : 0 < m) (hmod : s % m = t % m) (hzero : s = 0 ↔ t = 0) :
    residue m s = residue m t :=
  residue_unique (residue_le hm s) ((residue_mod s).trans hmod) (residue_eq_zero_iff.trans hzero)

theorem ocAdd_eq_residue {a b : Nat} (ha : a ≤ m) (hb : b ≤ m) :
    ocAdd m a b = residue m (a + b) := by
  unfold ocAdd
  split
  next h => exact (residue_of_le h).symm
  next h =>
    refine residue_unique (by omega) ?_ (by omega)
    exact (Nat.mod_eq_sub_mod (by omega)).symm

/-- **A one's complement sum is the digit of the ordinary sum.** -/
theorem ocSum_eq_residue {ws : List Nat} (h : ∀ w ∈ ws, w ≤ m) : ocSum m ws = residue m ws.sum := by
  have hfold : ∀ (ws : List Nat) (a : Nat), (∀ w ∈ ws, w ≤ m) → a ≤ m →
      ws.foldl (ocAdd m) a = residue m (a + ws.sum) := by
    intro ws
    induction ws with
    | nil =>
      intro a _ ha
      exact (residue_of_le ha).symm
    | cons w ws ih =>
      intro a hws ha
      have hw : w ≤ m := hws w (List.mem_cons_self ..)
      have hadd := ocAdd_eq_residue ha hw
      have hle : ocAdd m a w ≤ m := by
        rcases Nat.eq_zero_or_pos m with rfl | hm
        · unfold ocAdd
          split <;> omega
        · rw [hadd]
          exact residue_le hm _
      rw [List.foldl_cons, ih _ (fun v hv => hws v (List.mem_cons_of_mem w hv)) hle, hadd,
        residue_add, List.sum_cons, Nat.add_assoc]
  rw [ocSum, hfold ws 0 h (Nat.zero_le m), Nat.zero_add]

/-! ## Complements -/

/-- With the complement of its digit added, a sum is all ones. -/
theorem residue_add_complement (hm : 0 < m) (s : Nat) : residue m (s + (m - residue m s)) = m := by
  have hle := residue_le hm s
  rw [← residue_add, Nat.add_sub_cancel' hle]
  exact residue_of_le (Nat.le_refl m)

/-- A sum is all ones if and only if it is a multiple of `m`, and not `0`. -/
theorem residue_eq_self_iff (hm : 0 < m) {s : Nat} : residue m s = m ↔ s % m = 0 ∧ 0 < s := by
  constructor
  · intro h
    have hmod := residue_mod (m := m) s
    rw [h, Nat.mod_self] at hmod
    refine ⟨hmod.symm, Nat.pos_of_ne_zero fun hs => ?_⟩
    rw [hs, residue_zero] at h
    omega
  · rintro ⟨hmod, hpos⟩
    refine (residue_unique (Nat.le_refl m) ?_ (by omega)).symm
    rw [Nat.mod_self, hmod]

end Datalogger.Lib
