/-!
# The C `int`

`int` is `Int32` and the unsigned 32-bit types are `UInt32`. These lemmas say in
the integers what a conversion or a sum of the two does, with the wrap-around
spelled out, so that a proof about a C expression is linear arithmetic from here
on.
-/

namespace Datalogger.Lib

theorem int32_bounds (x : Int32) : -2147483648 ≤ x.toInt ∧ x.toInt < 2147483648 :=
  ⟨x.le_toInt, x.toInt_lt⟩

/-- A small unsigned value keeps its value as an `int`. -/
theorem toInt32_of_lt {x : UInt32} (h : x.toNat < 2147483648) : x.toInt32.toInt = x.toNat := by
  show x.toBitVec.toInt = x.toBitVec.toNat
  rw [BitVec.toInt_eq_toNat_cond, if_pos]
  show 2 * x.toNat < 4294967296
  omega

/-- A large unsigned value becomes a negative `int`. -/
theorem toInt32_of_le {x : UInt32} (h : 2147483648 ≤ x.toNat) :
    x.toInt32.toInt = x.toNat - 4294967296 := by
  show x.toBitVec.toInt = _
  rw [BitVec.toInt_eq_toNat_cond, if_neg]
  · rfl
  · show ¬ 2 * x.toNat < 4294967296
    omega

/-- The unsigned value of an `int` is its residue. -/
theorem toUInt32_emod (x : Int32) : (x.toUInt32.toNat : Int) = x.toInt % 4294967296 := by
  have hlt : x.toBitVec.toNat < 4294967296 := x.toBitVec.isLt
  show (x.toBitVec.toNat : Int) = x.toBitVec.toInt % 4294967296
  rw [BitVec.toInt_eq_toNat_cond]
  split <;> omega

/-- An `int` that is not negative keeps its value as an unsigned one. -/
theorem toUInt32_of_nonneg {x : Int32} (h : 0 ≤ x.toInt) : (x.toUInt32.toNat : Int) = x.toInt := by
  have hx := int32_bounds x
  rw [toUInt32_emod, Int.emod_eq_of_lt h (by omega)]

/-- A sum that fits in `int`. -/
theorem int32_add_of_bounds {a b : Int32} (hle : -2147483648 ≤ a.toInt + b.toInt)
    (hlt : a.toInt + b.toInt < 2147483648) : (a + b).toInt = a.toInt + b.toInt := by
  rw [Int32.toInt_add, Int.bmod_eq_of_le] <;> omega

/-- A sum that overflows upwards wraps to a negative `int`. -/
theorem int32_add_of_overflow {a b : Int32} (h : 2147483648 ≤ a.toInt + b.toInt) :
    (a + b).toInt = a.toInt + b.toInt - 4294967296 := by
  have ha := int32_bounds a
  have hb := int32_bounds b
  rw [Int32.toInt_add, Int.bmod_def, if_neg] <;> omega

/-- Counting a positive `int` down does not wrap. -/
theorem int32_pred {a : Int32} (h : 0 < a.toInt) : (a - 1).toInt = a.toInt - 1 := by
  have ha := int32_bounds a
  have hone : (1 : Int32).toInt = 1 := by decide
  rw [Int32.toInt_sub, Int.bmod_eq_of_le] <;> omega

/-- A number in range is the value of an `int`. -/
theorem exists_int32 {v : Int} (hle : -2147483648 ≤ v) (hlt : v < 2147483648) :
    ∃ x : Int32, x.toInt = v := ⟨Int32.ofInt v, Int32.toInt_ofInt_of_le hle hlt⟩

/-! ## Checked arithmetic -/

/-- A result of `int` arithmetic; outside the range C leaves it undefined. -/
def checkedInt (v : Int) : Option Int32 :=
  if -2147483648 ≤ v ∧ v < 2147483648 then some (Int32.ofInt v) else none

/-- `a * b`. -/
def checkedMul (a b : Int32) : Option Int32 := checkedInt (a.toInt * b.toInt)

/-- `a + b`. -/
def checkedAdd (a b : Int32) : Option Int32 := checkedInt (a.toInt + b.toInt)

/-- `a - b`. -/
def checkedSub (a b : Int32) : Option Int32 := checkedInt (a.toInt - b.toInt)

/-- `a / b`, which truncates and is undefined for `b = 0`. -/
def checkedDiv (a b : Int32) : Option Int32 :=
  if b.toInt = 0 then none else checkedInt (a.toInt.tdiv b.toInt)

theorem checkedInt_eq_some_iff {v : Int} {x : Int32} : checkedInt v = some x ↔ x.toInt = v := by
  have hx := int32_bounds x
  unfold checkedInt
  by_cases hv : -2147483648 ≤ v ∧ v < 2147483648
  · rw [if_pos hv, Option.some.injEq]
    have hval : (Int32.ofInt v).toInt = v := Int32.toInt_ofInt_of_le hv.1 hv.2
    constructor
    · rintro rfl
      exact hval
    · intro h
      exact Int32.toInt.inj (hval.trans h.symm)
  · rw [if_neg hv]
    exact iff_of_false (fun h => absurd h.symm (Option.some_ne_none x)) fun h => hv (h ▸ hx)

theorem checkedMul_eq_some_iff {a b x : Int32} :
    checkedMul a b = some x ↔ x.toInt = a.toInt * b.toInt := checkedInt_eq_some_iff

theorem checkedAdd_eq_some_iff {a b x : Int32} :
    checkedAdd a b = some x ↔ x.toInt = a.toInt + b.toInt := checkedInt_eq_some_iff

theorem checkedSub_eq_some_iff {a b x : Int32} :
    checkedSub a b = some x ↔ x.toInt = a.toInt - b.toInt := checkedInt_eq_some_iff

theorem checkedDiv_eq_some_iff {a b x : Int32} :
    checkedDiv a b = some x ↔ b.toInt ≠ 0 ∧ x.toInt = a.toInt.tdiv b.toInt := by
  unfold checkedDiv
  by_cases hb : b.toInt = 0
  · rw [if_pos hb]
    exact iff_of_false (fun h => absurd h.symm (Option.some_ne_none x)) fun h => h.1 hb
  · rw [if_neg hb, checkedInt_eq_some_iff]
    exact ⟨fun h => ⟨hb, h⟩, And.right⟩

end Datalogger.Lib
