import Datalogger.Lib.Numerals

/-!
# Searching strings

`strstr` and `strchr` of `<string.h>`, on strings without their terminators, and `atoi`.
A string is found at its first occurrence, and `FirstAt` says what that is;
`strstr_eq_some_iff` is all a caller has to know.
-/

namespace Datalogger.Lib

/-- `strstr`: the rest of `s` from the first occurrence of `needle` on. -/
def strstr (needle : List UInt8) : List UInt8 → Option (List UInt8)
  | [] => if needle = [] then some [] else none
  | c :: s => if needle.isPrefixOf (c :: s) then some (c :: s) else strstr needle s

/-- `strchr(s, c) - s` for a `c` other than the terminator. -/
def strchr (c : UInt8) (s : List UInt8) : Option Nat :=
  if c ∈ s then some (s.takeWhile fun b => b ≠ c).length else none

/-- `needle` occurs in `s` behind `before` and nowhere earlier. -/
def FirstAt (needle s before : List UInt8) : Prop :=
  (∃ rest, s = before ++ (needle ++ rest)) ∧ ∀ k < before.length, ¬ needle <+: s.drop k

theorem firstAt_nil {needle s : List UInt8} : FirstAt needle s [] ↔ needle <+: s := by
  constructor
  · intro ⟨⟨rest, hs⟩, _⟩
    exact ⟨rest, hs.symm⟩
  · intro ⟨rest, hs⟩
    exact ⟨⟨rest, hs.symm⟩, fun k hk => by cases hk⟩

theorem firstAt_cons {needle s before : List UInt8} {c b : UInt8} :
    FirstAt needle (c :: s) (b :: before) ↔
      b = c ∧ ¬ needle <+: c :: s ∧ FirstAt needle s before := by
  constructor
  · intro ⟨⟨rest, hs⟩, hfirst⟩
    obtain ⟨rfl, htail⟩ := List.cons.inj hs
    exact ⟨rfl, hfirst 0 (Nat.zero_lt_succ _), ⟨rest, htail⟩,
      fun k hk => hfirst (k + 1) (Nat.succ_lt_succ hk)⟩
  · intro ⟨hb, hhere, ⟨rest, hs⟩, hfirst⟩
    subst hb hs
    refine ⟨⟨rest, rfl⟩, fun k hk => ?_⟩
    cases k with
    | zero => exact hhere
    | succ k => exact hfirst k (Nat.lt_of_succ_lt_succ hk)

/-- **`strstr` finds the first occurrence.** -/
theorem strstr_eq_some_iff {needle : List UInt8} :
    ∀ {s found : List UInt8},
      strstr needle s = some found ↔ ∃ before, FirstAt needle s before ∧ s = before ++ found := by
  intro s
  induction s with
  | nil =>
    intro found
    rw [strstr]
    constructor
    · intro h
      split at h
      next hne =>
        obtain rfl := Option.some.inj h
        exact ⟨[], firstAt_nil.mpr (hne ▸ List.prefix_refl []), rfl⟩
      next => cases h
    · intro ⟨before, hfirst, hs⟩
      obtain ⟨rfl, rfl⟩ := List.append_eq_nil_iff.mp hs.symm
      rw [firstAt_nil, List.prefix_nil] at hfirst
      rw [if_pos hfirst]
  | cons c s ih =>
    intro found
    rw [strstr]
    by_cases hhere : needle.isPrefixOf (c :: s) = true
    · have hpre : needle <+: c :: s := List.isPrefixOf_iff_prefix.mp hhere
      rw [if_pos hhere]
      constructor
      · intro h
        exact ⟨[], firstAt_nil.mpr hpre, Option.some.inj h⟩
      · intro ⟨before, hfirst, hs⟩
        cases before with
        | nil => rw [hs]; rfl
        | cons b before => exact absurd hpre (firstAt_cons.mp hfirst).2.1
    · have hpre : ¬ needle <+: c :: s := fun h => hhere (List.isPrefixOf_iff_prefix.mpr h)
      rw [if_neg hhere, ih]
      constructor
      · intro ⟨before, hfirst, hs⟩
        exact ⟨c :: before, firstAt_cons.mpr ⟨rfl, hpre, hfirst⟩, congrArg (c :: ·) hs⟩
      · intro ⟨before, hfirst, hs⟩
        cases before with
        | nil => exact absurd (firstAt_nil.mp hfirst) hpre
        | cons b before =>
          obtain ⟨-, -, hrest⟩ := firstAt_cons.mp hfirst
          exact ⟨before, hrest, (List.cons.inj hs).2⟩

/-- **`strstr` fails** exactly if there is no occurrence. -/
theorem strstr_eq_none_iff {needle : List UInt8} :
    ∀ {s : List UInt8}, strstr needle s = none ↔ ¬ needle <:+: s := by
  intro s
  induction s with
  | nil =>
    rw [strstr, List.infix_nil]
    by_cases hne : needle = []
    · simp [hne]
    · simp [hne]
  | cons c s ih =>
    rw [strstr, List.infix_cons_iff, not_or, ← List.isPrefixOf_iff_prefix]
    by_cases hhere : needle.isPrefixOf (c :: s) = true
    · simp [hhere]
    · simp [hhere, ih]

/-- `strchr` measures the text in front of the first `c`. -/
theorem strchr_eq_some_iff {c : UInt8} {s : List UInt8} {n : Nat} :
    strchr c s = some n ↔ ∃ v rest, s = v ++ c :: rest ∧ c ∉ v ∧ v.length = n := by
  have hsplit : ∀ v rest : List UInt8, c ∉ v →
      (v ++ c :: rest).takeWhile (fun b => b ≠ c) = v := by
    intro v rest hv
    have hall : ∀ b ∈ v, decide (b ≠ c) = true := fun b hb => decide_eq_true fun h => hv (h ▸ hb)
    rw [List.takeWhile_append_of_pos hall, List.takeWhile_cons, if_neg (by simp), List.append_nil]
  unfold strchr
  constructor
  · intro h
    split at h
    next hmem =>
      obtain ⟨v, rest, rfl, hv⟩ := List.eq_append_cons_of_mem hmem
      rw [hsplit v rest hv] at h
      exact ⟨v, rest, rfl, hv, Option.some.inj h⟩
    next => cases h
  · intro ⟨v, rest, hs, hv, hn⟩
    subst hs hn
    rw [if_pos (by simp), hsplit v rest hv]

/-- `atoi` of a text whose number fits in `long`. -/
def atoi (s : List UInt8) : Int32 :=
  let s := skipSpaces s
  if s.head? = some 45 then clampLong (-(leadingValue 10 s.tail))
  else if s.head? = some 43 then clampLong (leadingValue 10 s.tail)
  else clampLong (leadingValue 10 s)

/-- `atoi` of digits is their value. -/
theorem toInt_atoi_digits {s : List UInt8} (hdigits : ∀ c ∈ s, isDigit c)
    (h : digitsValue 10 s ≤ 2147483647) : (atoi s).toInt = digitsValue 10 s := by
  have hdigit : ∀ c : UInt8, isDigit c →
      isSpace c = false ∧ c ≠ 45 ∧ c ≠ 43 ∧ digitValue c < 10 := by
    have hall : ∀ m ∈ List.range 256, isDigit (UInt8.ofNat m) →
        isSpace (UInt8.ofNat m) = false ∧ UInt8.ofNat m ≠ 45 ∧ UInt8.ofNat m ≠ 43 ∧
          digitValue (UInt8.ofNat m) < 10 := by decide +kernel
    exact forall_byte hall
  have hvalue : leadingValue 10 s = digitsValue 10 s :=
    leadingValue_of_digits fun c hc => (hdigit c (hdigits c hc)).2.2.2
  have hskip : skipSpaces s = s := by
    refine List.dropWhile_eq_self_iff.mpr fun hne => ?_
    rw [(hdigit _ (hdigits _ (List.getElem_mem hne))).1]
    exact Bool.false_ne_true
  have hhead : s.head? ≠ some 45 ∧ s.head? ≠ some 43 := by
    cases s with
    | nil => simp
    | cons c s =>
      obtain ⟨-, hminus, hplus, -⟩ := hdigit c (hdigits c List.mem_cons_self)
      simp [hminus, hplus]
  have hread : atoi s = clampLong (digitsValue 10 s) := by
    unfold atoi
    simp only [hskip, hhead.1, hhead.2, if_false, hvalue]
  rw [hread, toInt_clampLong]
  omega

/-- **`atoi` reads decimals back.** -/
theorem toInt_atoi_decimal {n : Nat} (h : n ≤ 2147483647) : (atoi (decimal n)).toInt = n := by
  have hdigits : ∀ c ∈ decimal n, isDigit c := by
    intro c hc
    simpa [isDigit] using digit_of_mem_decimal hc
  rw [toInt_atoi_digits hdigits (by rw [digitsValue_decimal]; exact h), digitsValue_decimal]

end Datalogger.Lib
