/-!
# Serial numbers

Counters that only grow, kept in 32 bits: the number of a position is its distance from
a base, and after `2 ^ 32` steps the numbers come round. Two positions that are close
enough to one another can be compared by their numbers alone, by the number of steps from
the one to the other; positions that are a turn apart cannot be told apart.
-/

namespace Datalogger.Lib

/-- The number of the position `n` when position 0 has the number `base`. -/
def serial (base : UInt32) (n : Nat) : UInt32 := base + UInt32.ofNat n

/-- The steps from the number `a` on to the number `b`. -/
def serialDist (a b : UInt32) : Nat := (b - a).toNat

/-- `x` comes after `a` by at most `window` steps. -/
def SerialAfter (window : Nat) (a x : UInt32) : Prop := 0 < serialDist a x ∧ serialDist a x ≤ window

instance (window : Nat) (a x : UInt32) : Decidable (SerialAfter window a x) :=
  inferInstanceAs (Decidable (_ ∧ _))

variable {base : UInt32} {l m n : Nat}

theorem toNat_serial (base : UInt32) (n : Nat) :
    (serial base n).toNat = (base.toNat + n) % 4294967296 := by
  unfold serial
  rw [UInt32.toNat_add, UInt32.toNat_ofNat']
  omega

theorem serialDist_eq (a b : UInt32) :
    serialDist a b = (4294967296 - a.toNat + b.toNat) % 4294967296 := UInt32.toNat_sub b a

@[simp] theorem serial_zero (base : UInt32) : serial base 0 = base := by
  apply UInt32.toNat.inj
  have := base.toNat_lt
  rw [toNat_serial]
  omega

/-- Steps from a position add up. -/
theorem serial_add (base : UInt32) (m n : Nat) :
    serial base m + UInt32.ofNat n = serial base (m + n) := by
  apply UInt32.toNat.inj
  rw [UInt32.toNat_add, toNat_serial, toNat_serial, UInt32.toNat_ofNat']
  omega

theorem serial_succ (base : UInt32) (n : Nat) : serial base n + 1 = serial base (n + 1) :=
  serial_add base n 1

/-- One step back. -/
theorem serial_pred (base : UInt32) (n : Nat) : serial base (n + 1) - 1 = serial base n := by
  rw [← serial_succ, UInt32.add_sub_cancel]

/-- A number counted from another position of the circle. -/
theorem serial_serial (base : UInt32) (m n : Nat) :
    serial (serial base m) n = serial base (m + n) :=
  serial_add base m n

/-- A number counted from one step before. -/
theorem serial_base_pred (base : UInt32) (n : Nat) : serial (base - 1) (n + 1) = serial base n := by
  have hbase : serial (base - 1) 1 = base := UInt32.sub_add_cancel base 1
  rw [Nat.add_comm, ← serial_serial, hbase]

/-- Every number is that many steps from every other. -/
theorem serial_serialDist (a b : UInt32) : serial a (serialDist a b) = b := by
  apply UInt32.toNat.inj
  have := a.toNat_lt
  have := b.toNat_lt
  rw [toNat_serial, serialDist_eq]
  omega

/-- The steps between two positions less than a turn apart. -/
theorem serialDist_serial (hle : m ≤ n) (hturn : n - m < 4294967296) :
    serialDist (serial base m) (serial base n) = n - m := by
  have := base.toNat_lt
  rw [serialDist_eq, toNat_serial, toNat_serial]
  omega

/-- The steps from a position back to an earlier one go almost round. -/
theorem serialDist_serial_back (hlt : n < m) (hturn : m - n < 4294967296) :
    serialDist (serial base m) (serial base n) = 4294967296 - (m - n) := by
  have := base.toNat_lt
  rw [serialDist_eq, toNat_serial, toNat_serial]
  omega

/-- The numbers of two positions differ by the steps between them. -/
theorem serial_sub (base : UInt32) (hle : m ≤ n) :
    serial base n - serial base m = UInt32.ofNat (n - m) := by
  apply UInt32.toNat.inj
  have := base.toNat_lt
  rw [UInt32.toNat_sub, toNat_serial, toNat_serial, UInt32.toNat_ofNat']
  omega

/-- Close positions with the same number are one. -/
theorem serial_inj (hmn : n - m < 4294967296) (hnm : m - n < 4294967296)
    (h : serial base m = serial base n) : m = n := by
  have hnat := congrArg UInt32.toNat h
  rw [toNat_serial, toNat_serial] at hnat
  omega

/-- Whether a close position comes after another one. -/
theorem serialAfter_serial_iff {window : Nat} (hwindow : window < 4294967296)
    (hahead : m ≤ n + window) (hback : n + window < m + 4294967296) :
    SerialAfter window (serial base n) (serial base m) ↔ n < m := by
  unfold SerialAfter
  by_cases h : n ≤ m
  · rw [serialDist_serial h (by omega)]
    omega
  · rw [serialDist_serial_back (by omega) (by omega)]
    omega

/-- The numbers from one position on to another. -/
theorem serialDist_le_iff (hle : m ≤ n) (hturn : n - m < 4294967296) (x : UInt32) :
    serialDist (serial base m) x ≤ serialDist (serial base m) (serial base n)
      ↔ ∃ k, m ≤ k ∧ k ≤ n ∧ x = serial base k := by
  rw [serialDist_serial hle hturn]
  constructor
  · intro h
    refine ⟨m + serialDist (serial base m) x, Nat.le_add_right _ _, by omega, ?_⟩
    rw [← serial_serial, serial_serialDist]
  · rintro ⟨k, hk, hkn, rfl⟩
    rw [serialDist_serial hk (by omega)]
    omega

end Datalogger.Lib
