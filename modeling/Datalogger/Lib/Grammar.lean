import Mathlib

/-!
# Grammars over classes of symbols

A scanner's grammar is a language built from classes of symbols by union,
concatenation and repetition; these are the operations of `Language`. The lemmas
below take a word apart at its front, the way a scanner reads it: what a word that
starts with a symbol must be to lie in a concatenation that starts with a class, or
with a repeated class. With them a proof about a scanner is an induction on the
word, and the question whether a given word lies in a given language is a
computation of `simp`.
-/

namespace Datalogger.Lib

open scoped Computability

variable {α : Type} {P : α → Bool} {l m : Language α} {c : α} {w : List α}

/-- The words of one symbol, of the class `P`. -/
def oneOf (P : α → Bool) : Language α := {w | ∃ c, P c = true ∧ w = [c]}

/-- One or more words of `l`. -/
def plus (l : Language α) : Language α := l * l∗

/-- `simp` writes a union as a supremum. -/
@[simp] theorem mem_sup : w ∈ l ⊔ m ↔ w ∈ l ∨ w ∈ m := Iff.rfl

theorem mem_oneOf : w ∈ oneOf P ↔ ∃ c, P c = true ∧ w = [c] := Iff.rfl

@[simp] theorem nil_notMem_oneOf : [] ∉ oneOf P := by
  rintro ⟨c, -, hc⟩
  cases hc

@[simp] theorem cons_mem_oneOf : c :: w ∈ oneOf P ↔ P c = true ∧ w = [] := by
  rw [mem_oneOf]
  constructor
  · rintro ⟨d, hd, hw⟩
    obtain ⟨rfl, rfl⟩ := List.cons.inj hw
    exact ⟨hd, rfl⟩
  · rintro ⟨hc, rfl⟩
    exact ⟨c, hc, rfl⟩

/-! ## One class in front -/

@[simp] theorem nil_notMem_oneOf_mul : [] ∉ oneOf P * l := by
  intro h
  obtain ⟨u, hu, v, -, huv⟩ := Language.mem_mul.mp h
  obtain ⟨rfl, -⟩ := List.append_eq_nil_iff.mp huv
  exact nil_notMem_oneOf hu

@[simp] theorem cons_mem_oneOf_mul : c :: w ∈ oneOf P * l ↔ P c = true ∧ w ∈ l := by
  rw [Language.mem_mul]
  constructor
  · rintro ⟨u, ⟨d, hd, rfl⟩, v, hv, huv⟩
    obtain ⟨rfl, rfl⟩ := List.cons.inj huv
    exact ⟨hd, hv⟩
  · rintro ⟨hc, hw⟩
    exact ⟨[c], ⟨c, hc, rfl⟩, w, hw, rfl⟩

/-! ## A repeated class in front -/

/-- A repetition is empty or goes round once more. -/
theorem mem_kstar_mul : w ∈ m∗ * l ↔ w ∈ l ∨ w ∈ m * (m∗ * l) := by
  conv_lhs => rw [← Language.one_add_self_mul_kstar_eq_kstar, add_mul, one_mul, mul_assoc]
  exact Language.mem_add _ _ _

@[simp] theorem nil_mem_kstar_oneOf_mul : [] ∈ (oneOf P)∗ * l ↔ [] ∈ l := by
  rw [mem_kstar_mul]
  simp

@[simp] theorem cons_mem_kstar_oneOf_mul :
    c :: w ∈ (oneOf P)∗ * l ↔ c :: w ∈ l ∨ P c = true ∧ w ∈ (oneOf P)∗ * l := by
  rw [mem_kstar_mul, cons_mem_oneOf_mul]

@[simp] theorem cons_mem_kstar_oneOf : c :: w ∈ (oneOf P)∗ ↔ P c = true ∧ w ∈ (oneOf P)∗ := by
  have h := cons_mem_kstar_oneOf_mul (P := P) (l := 1) (c := c) (w := w)
  rw [mul_one, Language.mem_one] at h
  simpa using h

/-- The words of symbols of a class. -/
theorem mem_kstar_oneOf : w ∈ (oneOf P)∗ ↔ ∀ c ∈ w, P c = true := by
  induction w with
  | nil => simp [Language.nil_mem_kstar]
  | cons c w ih => simp [ih]

/-- The non-empty words of symbols of a class. -/
theorem mem_plus_oneOf : w ∈ plus (oneOf P) ↔ w ≠ [] ∧ ∀ c ∈ w, P c = true := by
  unfold plus
  cases w with
  | nil => simp
  | cons c w => simp [mem_kstar_oneOf]

/-! ## Anything behind -/

@[simp] theorem mem_top : w ∈ (⊤ : Language α) := Set.mem_univ w

/-- A word of the language starts with one. -/
theorem le_mul_top (l : Language α) : l ≤ l * ⊤ := by
  intro w hw
  have happend := Language.append_mem_mul hw (mem_top (w := []))
  rwa [List.append_nil] at happend

end Datalogger.Lib
