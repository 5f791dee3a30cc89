import Mathlib.Data.Nat.Notation
import Datalogger.Lib.CString
import Datalogger.Lib.CInt

/-!
# Numerals

Reading and printing integers as C does: `strtol` with base 0 and a 32-bit `long`,
and the `%d` of `snprintf`.

`strtol` takes the longest digit string of its base and saturates. With base 0 the
base is 16 behind a `0x`, 8 behind any other leading zero and 10 otherwise, so a
numeral with a leading zero is read in base eight; `leadingValue_octal` says exactly
when that gives the decimal value all the same. White space behind the digits ends them
(`strtol_append_spaces`).
-/

namespace Datalogger.Lib

/-- The value of a letter or digit as a digit, above every base for other bytes. -/
def digitValue (c : UInt8) : Nat :=
  if 48 ≤ c ∧ c ≤ 57 then c.toNat - 48
  else if 65 ≤ c ∧ c ≤ 90 then c.toNat - 55
  else if 97 ≤ c ∧ c ≤ 122 then c.toNat - 87
  else 36

/-- The value of a digit string. -/
def digitsValue (base : Nat) (s : List UInt8) : Nat :=
  s.foldl (fun acc c => acc * base + digitValue c) 0

/-- The value of the longest digit string at the start. -/
def leadingValue (base : Nat) (s : List UInt8) : Nat :=
  digitsValue base (s.takeWhile (fun c => digitValue c < base))

/-- The text starts with `0x` and a hexadecimal digit. -/
def hexPrefixed : List UInt8 → Bool
  | z :: x :: d :: _ => z = 48 && (x = 120 || x = 88) && digitValue d < 16
  | _ => false

/-- The magnitude `strtol` reads with base 0. -/
def strtolMagnitude (s : List UInt8) : Nat :=
  if hexPrefixed s then leadingValue 16 (s.drop 2)
  else if s.head? = some 48 then leadingValue 8 s
  else leadingValue 10 s

/-- Saturation to `LONG_MIN` and `LONG_MAX`. -/
def clampLong (v : Int) : Int32 :=
  if v < -2147483648 then Int32.minValue
  else if 2147483647 < v then Int32.maxValue
  else Int32.ofInt v

/-- `(int)strtol(s, NULL, 0)`. -/
def strtol (s : List UInt8) : Int32 :=
  let s := skipSpaces s
  if s.head? = some 45 then clampLong (-(strtolMagnitude s.tail))
  else if s.head? = some 43 then clampLong (strtolMagnitude s.tail)
  else clampLong (strtolMagnitude s)

/-- The value fits in `int`. -/
def InIntRange (v : Int) : Prop := -2147483648 ≤ v ∧ v ≤ 2147483647

instance (v : Int) : Decidable (InIntRange v) := inferInstanceAs (Decidable (_ ∧ _))

theorem toInt_clampLong (v : Int) :
    (clampLong v).toInt = max (-2147483648) (min v 2147483647) := by
  unfold clampLong
  by_cases hlow : v < -2147483648
  · rw [if_pos hlow]
    have hmin : Int32.minValue.toInt = -2147483648 := by decide
    omega
  · rw [if_neg hlow]
    by_cases hhigh : 2147483647 < v
    · rw [if_pos hhigh]
      have hmax : Int32.maxValue.toInt = 2147483647 := by decide
      omega
    · rw [if_neg hhigh, Int32.toInt_ofInt_of_le (by omega) (by omega)]
      omega

/-! ## Digit strings -/

theorem digitsValue_snoc (base : Nat) (s : List UInt8) (c : UInt8) :
    digitsValue base (s ++ [c]) = digitsValue base s * base + digitValue c := by
  simp [digitsValue]

theorem leadingValue_of_digits {base : Nat} {s : List UInt8}
    (h : ∀ c ∈ s, digitValue c < base) : leadingValue base s = digitsValue base s := by
  unfold leadingValue
  rw [List.takeWhile_eq_self_iff.mpr]
  intro c hc
  simpa using h c hc

/-- The value only grows with the digits. -/
theorem le_foldl_digits (base : Nat) (hbase : 1 ≤ base) :
    ∀ (s : List UInt8) (b : Nat), b ≤ s.foldl (fun acc c => acc * base + digitValue c) b := by
  intro s
  induction s with
  | nil => intro b; exact Nat.le_refl b
  | cons c s ih =>
    intro b
    rw [List.foldl_cons]
    have hstep : b * 1 ≤ b * base := Nat.mul_le_mul_left b hbase
    have hrest := ih (b * base + digitValue c)
    omega

/-- An octal reading that is `k` behind stays at least `k` behind the decimal one. -/
theorem octal_add_le_decimal (k : Nat) :
    ∀ (s : List UInt8) (a b : Nat), a + k ≤ b →
      (s.takeWhile (fun c => digitValue c < 8)).foldl (fun acc c => acc * 8 + digitValue c) a + k
        ≤ s.foldl (fun acc c => acc * 10 + digitValue c) b := by
  intro s
  induction s with
  | nil => intro a b hab; exact hab
  | cons c s ih =>
    intro a b hab
    by_cases hc : digitValue c < 8
    · rw [List.takeWhile_cons, if_pos (by simpa using hc), List.foldl_cons, List.foldl_cons]
      exact ih _ _ (by omega)
    · rw [List.takeWhile_cons, if_neg (by simpa using hc), List.foldl_nil]
      exact Nat.le_trans hab (le_foldl_digits 10 (by decide) (c :: s) b)

theorem leadingValue_octal_le (s : List UInt8) : leadingValue 8 s ≤ digitsValue 10 s :=
  octal_add_le_decimal 0 s 0 0 (Nat.le_refl 0)

/-- **Base eight against base ten.** The octal reading of a digit string is its
decimal value exactly when that value is a single octal digit. -/
theorem leadingValue_octal (s : List UInt8) :
    leadingValue 8 s = digitsValue 10 s ↔ digitsValue 10 s < 8 := by
  induction s with
  | nil => simp [leadingValue, digitsValue]
  | cons c s ih =>
    by_cases hzero : digitValue c = 0
    · -- a leading zero changes neither value
      have hdec : digitsValue 10 (c :: s) = digitsValue 10 s := by simp [digitsValue, hzero]
      have hoct : leadingValue 8 (c :: s) = leadingValue 8 s := by
        simp [leadingValue, digitsValue, hzero]
      rw [hdec, hoct]
      exact ih
    · by_cases hc : digitValue c < 8
      · cases s with
        | nil => simp [leadingValue, digitsValue, hc]
        | cons d s =>
          have hge : 10 ≤ digitsValue 10 (c :: d :: s) := by
            have := le_foldl_digits 10 (by decide) (d :: s) (digitValue c)
            have := le_foldl_digits 10 (by decide) s (digitValue c * 10 + digitValue d)
            show 10 ≤ List.foldl _ (0 * 10 + digitValue c) (d :: s)
            rw [List.foldl_cons]
            simp only [Nat.zero_mul, Nat.zero_add]
            omega
          have hlt : leadingValue 8 (c :: d :: s) < digitsValue 10 (c :: d :: s) := by
            unfold leadingValue digitsValue
            rw [List.takeWhile_cons, if_pos (by simpa using hc), List.foldl_cons, List.foldl_cons]
            by_cases hd : digitValue d < 8
            · rw [List.takeWhile_cons, if_pos (by simpa using hd), List.foldl_cons,
                List.foldl_cons]
              exact octal_add_le_decimal 1 s _ _ (by omega)
            · rw [List.takeWhile_cons, if_neg (by simpa using hd), List.foldl_nil,
                List.foldl_cons]
              refine Nat.lt_of_lt_of_le ?_ (le_foldl_digits 10 (by decide) s _)
              omega
          omega
      · have hoct : leadingValue 8 (c :: s) = 0 := by
          unfold leadingValue
          rw [List.takeWhile_cons, if_neg (by simpa using hc)]
          rfl
        have hge : 8 ≤ digitsValue 10 (c :: s) := by
          have := le_foldl_digits 10 (by decide) s (0 * 10 + digitValue c)
          show 8 ≤ List.foldl _ (0 * 10 + digitValue c) s
          omega
        omega

/-! ## White space behind a numeral -/

/-- White space is no digit of any base, and no part of a prefix. -/
theorem isSpace_notDigit {c : UInt8} (h : isSpace c) :
    digitValue c = 36 ∧ c ≠ 45 ∧ c ≠ 43 ∧ c ≠ 48 ∧ c ≠ 120 ∧ c ≠ 88 := by
  have hall : ∀ n ∈ List.range 256, isSpace (UInt8.ofNat n) →
      digitValue (UInt8.ofNat n) = 36 ∧ UInt8.ofNat n ≠ 45 ∧ UInt8.ofNat n ≠ 43 ∧
        UInt8.ofNat n ≠ 48 ∧ UInt8.ofNat n ≠ 120 ∧ UInt8.ofNat n ≠ 88 := by decide +kernel
  exact forall_byte (P := fun c => isSpace c → digitValue c = 36 ∧ c ≠ 45 ∧ c ≠ 43 ∧ c ≠ 48 ∧
    c ≠ 120 ∧ c ≠ 88) hall c h

section Trailing

variable {sp : List UInt8} (hsp : ∀ c ∈ sp, isSpace c)
include hsp

/-- The byte at the front of white space. -/
theorem head?_spaces {c : UInt8} (hc : ¬ isSpace c) : sp.head? ≠ some c :=
  fun h => hc (hsp c (List.mem_of_head? h))

theorem leadingValue_append_spaces {base : Nat} (hbase : base ≤ 36) (s : List UInt8) :
    leadingValue base (s ++ sp) = leadingValue base s := by
  have hnone : sp.takeWhile (fun c => digitValue c < base) = [] := by
    cases sp with
    | nil => rfl
    | cons c rest =>
      have hc := (isSpace_notDigit (hsp c (by simp))).1
      rw [List.takeWhile_cons, if_neg (by rw [decide_eq_true_iff]; omega)]
  unfold leadingValue
  rw [List.takeWhile_append, hnone, List.append_nil]
  split
  next hall => rw [List.IsPrefix.eq_of_length (List.takeWhile_prefix _) hall]
  next => rfl

theorem hexPrefixed_append_spaces (s : List UInt8) : hexPrefixed (s ++ sp) = hexPrefixed s := by
  match s, sp, hsp with
  | s, [], _ => rw [List.append_nil]
  | [], a :: rest, hsp =>
    -- the zero of a prefix is no white space
    obtain ⟨-, -, -, hzero, -, -⟩ := isSpace_notDigit (hsp a (by simp))
    match rest with
    | [] => rfl
    | [_] => rfl
    | _ :: _ :: _ => simp [hexPrefixed, hzero]
  | [_], a :: rest, hsp =>
    obtain ⟨-, -, -, -, hx, hX⟩ := isSpace_notDigit (hsp a (by simp))
    match rest with
    | [] => rfl
    | _ :: _ => simp [hexPrefixed, hx, hX]
  | [_, _], a :: rest, hsp =>
    have ha := (isSpace_notDigit (hsp a (by simp))).1
    simp [hexPrefixed, ha]
  | _ :: _ :: _ :: _, _ :: _, _ => rfl

theorem strtolMagnitude_append_spaces (s : List UInt8) :
    strtolMagnitude (s ++ sp) = strtolMagnitude s := by
  have hhead : (s ++ sp).head? = some 48 ↔ s.head? = some 48 := by
    cases s with
    | nil => exact iff_of_false (head?_spaces hsp (by decide)) nofun
    | cons c s => rfl
  unfold strtolMagnitude
  simp only [hexPrefixed_append_spaces hsp, hhead,
    leadingValue_append_spaces hsp (show 8 ≤ 36 by decide),
    leadingValue_append_spaces hsp (show 10 ≤ 36 by decide)]
  split
  next hhex =>
    obtain ⟨z, x, d, rest, rfl⟩ : ∃ z x d rest, s = z :: x :: d :: rest := by
      match s, hhex with
      | z :: x :: d :: rest, _ => exact ⟨z, x, d, rest, rfl⟩
    exact leadingValue_append_spaces hsp (by decide) (d :: rest)
  next => rfl

/-- **`strtol` stops in front of white space.** -/
theorem strtol_append_spaces (s : List UInt8) : strtol (s ++ sp) = strtol s := by
  have hskip : skipSpaces (s ++ sp) = skipSpaces s ++ sp ∨
      skipSpaces (s ++ sp) = [] ∧ skipSpaces s = [] := by
    unfold skipSpaces
    rw [List.dropWhile_append]
    split
    next hempty =>
      refine Or.inr ⟨?_, List.isEmpty_iff.mp hempty⟩
      exact List.dropWhile_eq_nil_iff.mpr hsp
    next => exact Or.inl rfl
  rcases hskip with hskip | ⟨hleft, hright⟩
  · simp only [strtol, hskip]
    cases hs : skipSpaces s with
    | nil =>
      have hminus : sp.head? ≠ some 45 := head?_spaces hsp (by decide)
      have hplus : sp.head? ≠ some 43 := head?_spaces hsp (by decide)
      have hmag := strtolMagnitude_append_spaces hsp []
      rw [List.nil_append] at hmag ⊢
      rw [if_neg hminus, if_neg hplus, hmag]
      rfl
    | cons c rest =>
      have hall := strtolMagnitude_append_spaces hsp (c :: rest)
      have htail := strtolMagnitude_append_spaces hsp rest
      simp only [List.cons_append, List.head?_cons, List.tail_cons] at hall ⊢
      rw [hall, htail]
      rfl
  · simp only [strtol, hleft, hright]

end Trailing

/-! ## Printing -/

/-- `%u` of a natural number. -/
def decimal (n : Nat) : List UInt8 := (Nat.toDigits 10 n).map (fun c => c.toNat.toUInt8)

/-- `%d`. -/
def decimalInt (v : Int) : List UInt8 :=
  if v < 0 then 45 :: decimal v.natAbs else decimal v.natAbs

theorem digitValue_digitChar {d : Nat} (h : d < 10) :
    digitValue d.digitChar.toNat.toUInt8 = d := by
  have hall : ∀ d : Fin 10, digitValue d.val.digitChar.toNat.toUInt8 = d.val := by decide
  exact hall ⟨d, h⟩

theorem decimal_eq (n : Nat) :
    decimal n = (if n < 10 then [] else decimal (n / 10)) ++
      [(n % 10).digitChar.toNat.toUInt8] := by
  unfold decimal
  rw [Nat.toDigits_eq_if (by decide)]
  by_cases h : n < 10
  · rw [if_pos h, if_pos h, Nat.mod_eq_of_lt h]
    rfl
  · rw [if_neg h, if_neg h, List.map_append]
    rfl

/-- Reading back what was printed. -/
theorem digitsValue_decimal (n : Nat) : digitsValue 10 (decimal n) = n := by
  induction n using Nat.strongRecOn with
  | _ n ih =>
    rw [decimal_eq, digitsValue_snoc, digitValue_digitChar (Nat.mod_lt n (by decide))]
    by_cases h : n < 10
    · rw [if_pos h]
      show 0 * 10 + n % 10 = n
      omega
    · rw [if_neg h, ih (n / 10) (by omega)]
      omega

theorem digit_of_mem_decimal {n : Nat} {c : UInt8} (h : c ∈ decimal n) : 48 ≤ c ∧ c ≤ 57 := by
  have hall : ∀ d : Fin 10, (48 : UInt8) ≤ d.val.digitChar.toNat.toUInt8 ∧
      d.val.digitChar.toNat.toUInt8 ≤ (57 : UInt8) := by decide
  induction n using Nat.strongRecOn with
  | _ n ih =>
    rw [decimal_eq] at h
    rcases List.mem_append.mp h with hrest | hlast
    · by_cases hn : n < 10
      · rw [if_pos hn] at hrest
        cases hrest
      · rw [if_neg hn] at hrest
        exact ih (n / 10) (by omega) hrest
    · obtain rfl := List.mem_singleton.mp hlast
      exact hall ⟨n % 10, Nat.mod_lt n (by decide)⟩

theorem decimal_ne_nil (n : Nat) : decimal n ≠ [] := by
  rw [decimal_eq]
  exact List.append_ne_nil_of_right_ne_nil _ (List.cons_ne_nil _ _)

/-- No leading zero. -/
theorem head?_decimal {n : Nat} (h : 0 < n) : (decimal n).head? ≠ some 48 := by
  induction n using Nat.strongRecOn with
  | _ n ih =>
    rw [decimal_eq]
    by_cases hn : n < 10
    · rw [if_pos hn]
      intro hhead
      have hdigit := digitValue_digitChar (Nat.mod_lt n (by decide : 10 > 0))
      rw [Option.some.inj hhead, show digitValue 48 = 0 from rfl] at hdigit
      omega
    · obtain ⟨c, rest, hrest⟩ := List.exists_cons_of_ne_nil (decimal_ne_nil (n / 10))
      have hih := ih (n / 10) (by omega) (by omega)
      rw [hrest] at hih
      rw [if_neg hn, hrest]
      exact hih

theorem decimal_injective {m n : Nat} (h : decimal m = decimal n) : m = n := by
  rw [← digitsValue_decimal m, h, digitsValue_decimal]

/-- **`%d` tells the value.** -/
theorem decimalInt_injective {v w : Int} (h : decimalInt v = decimalInt w) : v = w := by
  have hsign : ∀ (n : Nat) (t : List UInt8), 45 :: t ≠ decimal n := by
    intro n t heq
    have hmem : (45 : UInt8) ∈ decimal n := heq ▸ List.mem_cons_self ..
    exact absurd (digit_of_mem_decimal hmem).1 (by decide)
  unfold decimalInt at h
  by_cases hv : v < 0
  · rw [if_pos hv] at h
    by_cases hw : w < 0
    · rw [if_pos hw] at h
      have := decimal_injective (List.cons.inj h).2
      omega
    · rw [if_neg hw] at h
      exact absurd h (hsign _ _)
  · rw [if_neg hv] at h
    by_cases hw : w < 0
    · rw [if_pos hw] at h
      exact absurd h.symm (hsign _ _)
    · rw [if_neg hw] at h
      have := decimal_injective h
      omega

/-- A number is printed with digits and a minus sign. -/
theorem le_of_mem_decimalInt {v : Int} {c : UInt8} (h : c ∈ decimalInt v) : 45 ≤ c := by
  have hdec : c ∈ decimal v.natAbs → 45 ≤ c := fun hmem =>
    UInt8.le_trans (by decide) (digit_of_mem_decimal hmem).1
  unfold decimalInt at h
  by_cases hv : v < 0
  · rw [if_pos hv] at h
    rcases List.mem_cons.mp h with rfl | hmem
    · decide
    · exact hdec hmem
  · rw [if_neg hv] at h
    exact hdec h

theorem zero_notMem_decimalInt (v : Int) : 0 ∉ decimalInt v :=
  fun h => absurd (le_of_mem_decimalInt h) (by decide)

/-- An `int` prints in at most eleven bytes. -/
theorem length_decimalInt_le (v : Int32) : (decimalInt v.toInt).length ≤ 11 := by
  have hbound := int32_bounds v
  have hten : (decimal v.toInt.natAbs).length ≤ 10 := by
    unfold decimal
    rw [List.length_map, Nat.length_toDigits_le_iff (by decide) (by decide)]
    omega
  unfold decimalInt
  by_cases hv : v.toInt < 0
  · rw [if_pos hv, List.length_cons]
    omega
  · rw [if_neg hv]
    omega

end Datalogger.Lib
