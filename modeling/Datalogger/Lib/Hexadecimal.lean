import Mathlib.Data.List.Induction
import Mathlib.Data.Nat.Log
import Mathlib.Tactic.Ring
import Datalogger.Lib.Numerals

/-!
# Hexadecimal numerals

`%X` without a width: the digits of a number from the first one that is not 0, in upper
case. A text of such digits is determined by its length and its value
(`eq_of_digitsValue_eq`), so texts that are glued together can be told apart by these two
(`digitsValue_append`).
-/

namespace Datalogger.Lib

/-- `%X` of a natural number. -/
def hexadecimal (n : Nat) : List UInt8 := (Nat.toDigits 16 n).map fun c => c.toUpper.toNat.toUInt8

/-- The digits `%X` prints. -/
def UpperHex (c : UInt8) : Prop := (48 ≤ c ∧ c ≤ 57) ∨ (65 ≤ c ∧ c ≤ 70)

instance (c : UInt8) : Decidable (UpperHex c) := inferInstanceAs (Decidable (_ ∨ _))

theorem upperHex_digitChar {d : Nat} (h : d < 16) :
    UpperHex d.digitChar.toUpper.toNat.toUInt8 ∧
      digitValue d.digitChar.toUpper.toNat.toUInt8 = d := by
  have hall : ∀ d : Fin 16, UpperHex d.val.digitChar.toUpper.toNat.toUInt8 ∧
      digitValue d.val.digitChar.toUpper.toNat.toUInt8 = d.val := by decide
  exact hall ⟨d, h⟩

theorem hexadecimal_eq (n : Nat) :
    hexadecimal n = (if n < 16 then [] else hexadecimal (n / 16))
      ++ [(n % 16).digitChar.toUpper.toNat.toUInt8] := by
  unfold hexadecimal
  rw [Nat.toDigits_eq_if (by decide)]
  by_cases h : n < 16
  · rw [if_pos h, if_pos h, Nat.mod_eq_of_lt h]
    rfl
  · rw [if_neg h, if_neg h, List.map_append]
    rfl

/-- Reading back what was printed. -/
theorem digitsValue_hexadecimal (n : Nat) : digitsValue 16 (hexadecimal n) = n := by
  induction n using Nat.strongRecOn with
  | _ n ih =>
    rw [hexadecimal_eq, digitsValue_snoc, (upperHex_digitChar (Nat.mod_lt n (by decide))).2]
    by_cases h : n < 16
    · rw [if_pos h]
      show 0 * 16 + n % 16 = n
      omega
    · rw [if_neg h, ih (n / 16) (by omega)]
      omega

theorem upperHex_of_mem {n : Nat} {c : UInt8} (h : c ∈ hexadecimal n) : UpperHex c := by
  induction n using Nat.strongRecOn with
  | _ n ih =>
    rw [hexadecimal_eq] at h
    rcases List.mem_append.mp h with hrest | hlast
    · by_cases hn : n < 16
      · rw [if_pos hn] at hrest
        cases hrest
      · rw [if_neg hn] at hrest
        exact ih (n / 16) (by omega) hrest
    · obtain rfl := List.mem_singleton.mp hlast
      exact (upperHex_digitChar (Nat.mod_lt n (by decide))).1

/-- The number of digits. -/
theorem length_hexadecimal (n : Nat) : (hexadecimal n).length = Nat.log 16 n + 1 := by
  induction n using Nat.strongRecOn with
  | _ n ih =>
    rw [hexadecimal_eq, List.length_append, List.length_singleton]
    by_cases h : n < 16
    · rw [if_pos h, Nat.log_of_lt h]
      rfl
    · have hlog : Nat.log 16 n = Nat.log 16 (n / 16) + 1 :=
        Nat.log_of_one_lt_of_le (by decide) (Nat.not_lt.mp h)
      rw [if_neg h, ih (n / 16) (by omega), hlog]

/-- A 32-bit number has eight digits at most. -/
theorem length_hexadecimal_le (x : UInt32) : (hexadecimal x.toNat).length ≤ 8 := by
  have hlt : x.toNat < 16 ^ 8 := x.toNat_lt
  have hlog := Nat.log_lt_of_lt_pow' (by decide) hlt
  rw [length_hexadecimal]
  omega

/-- The value of two texts glued together. -/
theorem digitsValue_append (base : Nat) (s t : List UInt8) :
    digitsValue base (s ++ t) = digitsValue base s * base ^ t.length + digitsValue base t := by
  induction t using List.reverseRecOn with
  | nil => simp [digitsValue]
  | append_singleton t c ih =>
    rw [← List.append_assoc, digitsValue_snoc, digitsValue_snoc, ih, List.length_append,
      List.length_singleton, Nat.pow_succ]
    ring

theorem digitValue_upperHex {c : UInt8} (h : UpperHex c) : digitValue c < 16 := by
  have hall : ∀ m ∈ List.range 256, UpperHex (UInt8.ofNat m) → digitValue (UInt8.ofNat m) < 16 := by
    decide +kernel
  exact forall_byte (P := fun c => UpperHex c → digitValue c < 16) hall c h

/-- A digit is the one of its value. -/
theorem upperHex_eq {c : UInt8} (h : UpperHex c) :
    c = (digitValue c).digitChar.toUpper.toNat.toUInt8 := by
  have hall : ∀ m ∈ List.range 256, UpperHex (UInt8.ofNat m) →
      UInt8.ofNat m = (digitValue (UInt8.ofNat m)).digitChar.toUpper.toNat.toUInt8 := by
    decide +kernel
  exact forall_byte
    (P := fun c => UpperHex c → c = (digitValue c).digitChar.toUpper.toNat.toUInt8) hall c h

/-- **A text of digits is determined by its length and its value.** -/
theorem eq_of_digitsValue_eq {s t : List UInt8} (hs : ∀ c ∈ s, UpperHex c)
    (ht : ∀ c ∈ t, UpperHex c) (hlen : s.length = t.length)
    (h : digitsValue 16 s = digitsValue 16 t) : s = t := by
  induction s using List.reverseRecOn generalizing t with
  | nil => exact (List.eq_nil_of_length_eq_zero hlen.symm).symm
  | append_singleton s c ih =>
    rcases List.eq_nil_or_concat t with rfl | ⟨t, d, rfl⟩
    · simp at hlen
    · rw [List.concat_eq_append] at ht hlen h ⊢
      have hc := hs c (by simp)
      have hd := ht d (by simp)
      have hltc := digitValue_upperHex hc
      have hltd := digitValue_upperHex hd
      rw [digitsValue_snoc, digitsValue_snoc] at h
      have hlast : digitValue c = digitValue d := by omega
      have hrest : s = t := by
        refine ih (fun a ha => hs a (by simp [ha])) (fun a ha => ht a (by simp [ha])) ?_ (by omega)
        simpa using hlen
      rw [hrest, upperHex_eq hc, hlast, ← upperHex_eq hd]

end Datalogger.Lib
