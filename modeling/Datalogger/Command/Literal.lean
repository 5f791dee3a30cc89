import Datalogger.Command.Machine

/-!
# The values of the assignment grammar

`parse_assignment.rl` names three kinds of value: an integer, a hexadecimal number and
a string in quotes. `Literal` is one of them, with the proof that it is spelled as the
grammar asks, and `Literal.value` is what it says: decimal digits in base ten,
hexadecimal digits in base sixteen, the bytes between the quotes.

`Literal.stored` is what `parse_assignment` makes of it: the string as written, and for
a number what `strtol` reads. The two differ, because `strtol` takes a leading zero for
octal and saturates; `Literal.Exact` says when they agree (`Literal.stored_eq_value_iff`).
-/

namespace Datalogger

open Lib (cstr setZeros strtol isSpace isAlpha isDigit isXdigit forall_byte digitValue digitsValue
  InIntRange strtolMagnitude clampLong decimalInt)

/-- What a value says. -/
inductive Value where
  | int (v : Int)
  | str (s : List UInt8)
  deriving DecidableEq

/-- How GET prints a value: the integer in decimal, or the string. -/
def Value.text : Value → List UInt8
  | .int v => decimalInt v
  | .str s => s

/-- The optional sign of an integer. -/
inductive Sign where
  | none
  | plus
  | minus
  deriving DecidableEq, Repr

def Sign.text : Sign → List UInt8
  | .none => []
  | .plus => [43]
  | .minus => [45]

/-- The signed number. -/
def Sign.apply (n : Nat) : Sign → Int
  | .minus => -n
  | _ => n

/-- A value of the grammar. -/
inductive Literal where
  | integer (sign : Sign) (digits : List UInt8) (nonempty : digits ≠ [])
      (digit : ∀ c ∈ digits, isDigit c)
  | hexadecimal (digits : List UInt8) (nonempty : digits ≠ [])
      (xdigit : ∀ c ∈ digits, isXdigit c)
  | string (opening closing : UInt8) (body : List UInt8)
    (quoted : isQuote opening ∧ isQuote closing)
      (nonempty : body ≠ []) (strByte : ∀ c ∈ body, isStrByte c)

/-- How the value is written. -/
def Literal.text : Literal → List UInt8
  | .integer sign digits _ _ => sign.text ++ digits
  | .hexadecimal digits _ _ => 48 :: 120 :: digits
  | .string opening closing body _ _ _ => opening :: (body ++ [closing])

/-- What it says. -/
def Literal.value : Literal → Value
  | .integer sign digits _ _ => .int (sign.apply (digitsValue 10 digits))
  | .hexadecimal digits _ _ => .int (digitsValue 16 digits)
  | .string _ _ body _ _ _ => .str body

/-- What `parse_assignment` makes of it. -/
def Literal.stored : Literal → Value
  | .string _ _ body _ _ _ => .str body
  | l => .int (strtol l.text).toInt

/-- The numbers that `strtol` with base 0 reads as they are meant: they fit in `int`,
and a decimal one has no leading zero or is a single octal digit behind its zeros. -/
def Literal.Exact : Literal → Prop
  | .integer sign digits _ _ =>
    InIntRange (sign.apply (digitsValue 10 digits)) ∧
      (digits.head? ≠ some 48 ∨ digitsValue 10 digits < 8)
  | .hexadecimal digits _ _ => InIntRange (digitsValue 16 digits)
  | .string .. => True

/-! ## What `strtol` makes of a number -/

theorem digitValue_of_isDigit {c : UInt8} (h : isDigit c) : digitValue c < 10 := by
  have hall : ∀ n ∈ List.range 256, isDigit (UInt8.ofNat n) → digitValue (UInt8.ofNat n) < 10 := by
    decide +kernel
  exact forall_byte (P := fun c => isDigit c → digitValue c < 10) hall c h

theorem digitValue_of_isXdigit {c : UInt8} (h : isXdigit c) : digitValue c < 16 := by
  have hall : ∀ n ∈ List.range 256, isXdigit (UInt8.ofNat n) →
      digitValue (UInt8.ofNat n) < 16 := by decide +kernel
  exact forall_byte (P := fun c => isXdigit c → digitValue c < 16) hall c h

/-- A digit is none of the bytes `strtol` looks for around a number. -/
theorem isDigit_plain {c : UInt8} (h : isDigit c) :
    isSpace c = false ∧ c ≠ 45 ∧ c ≠ 43 ∧ c ≠ 120 ∧ c ≠ 88 := by
  have hall : ∀ n ∈ List.range 256, isDigit (UInt8.ofNat n) →
      isSpace (UInt8.ofNat n) = false ∧ UInt8.ofNat n ≠ 45 ∧ UInt8.ofNat n ≠ 43 ∧
        UInt8.ofNat n ≠ 120 ∧ UInt8.ofNat n ≠ 88 := by decide +kernel
  exact forall_byte
    (P := fun c => isDigit c → isSpace c = false ∧ c ≠ 45 ∧ c ≠ 43 ∧ c ≠ 120 ∧ c ≠ 88) hall c h

/-- The magnitude of a digit string: octal behind a leading zero. -/
theorem strtolMagnitude_digits {digits : List UInt8} (h : ∀ c ∈ digits, isDigit c) :
    strtolMagnitude digits
      = if digits.head? = some 48 then Lib.leadingValue 8 digits else digitsValue 10 digits := by
  have hhex : Lib.hexPrefixed digits = false := by
    match digits, h with
    | [], _ => rfl
    | [_], _ => rfl
    | [_, _], _ => rfl
    | z :: x :: d :: rest, h =>
      obtain ⟨-, -, -, hx, hX⟩ := isDigit_plain (h x (by simp))
      simp [Lib.hexPrefixed, hx, hX]
  unfold strtolMagnitude
  rw [if_neg (by rw [hhex]; exact Bool.false_ne_true)]
  -- a leading zero makes `strtol` read octal, any other digit decimal
  by_cases hzero : digits.head? = some 48
  · rw [if_pos hzero, if_pos hzero]
  · rw [if_neg hzero, if_neg hzero]
    exact Lib.leadingValue_of_digits fun c hc => digitValue_of_isDigit (h c hc)

/-- **The exact numbers.** The saturated reading of a decimal number is the number
exactly when it is in range and without a misleading zero. -/
theorem clampLong_magnitude_iff (sign : Sign) {digits : List UInt8}
    (h : ∀ c ∈ digits, isDigit c) :
    (clampLong (sign.apply (strtolMagnitude digits))).toInt = sign.apply (digitsValue 10 digits) ↔
      InIntRange (sign.apply (digitsValue 10 digits)) ∧
        (digits.head? ≠ some 48 ∨ digitsValue 10 digits < 8) := by
  have hoct := Lib.leadingValue_octal digits
  have hle := Lib.leadingValue_octal_le digits
  have hclamp := Lib.toInt_clampLong (sign.apply (strtolMagnitude digits))
  have hmag := strtolMagnitude_digits h
  by_cases hzero : digits.head? = some 48
  · rw [if_pos hzero] at hmag
    rw [hclamp, hmag]
    have hiff : (digits.head? ≠ some 48 ∨ digitsValue 10 digits < 8) ↔
        Lib.leadingValue 8 digits = digitsValue 10 digits := by
      rw [hoct]
      exact ⟨fun hor => hor.resolve_left fun hne => hne hzero, Or.inr⟩
    rw [hiff]
    unfold InIntRange
    cases sign <;> simp only [Sign.apply] <;> omega
  · rw [if_neg hzero] at hmag
    rw [hclamp, hmag]
    have hhead : digits.head? ≠ some 48 ∨ digitsValue 10 digits < 8 := Or.inl hzero
    unfold InIntRange
    cases sign <;> simp only [Sign.apply, hhead, and_true] <;> omega

theorem strtol_integer (sign : Sign) {digits : List UInt8} (hne : digits ≠ [])
    (h : ∀ c ∈ digits, isDigit c) :
    strtol (sign.text ++ digits) = clampLong (sign.apply (strtolMagnitude digits)) := by
  obtain ⟨d, rest, rfl⟩ := List.exists_cons_of_ne_nil hne
  obtain ⟨hspace, hminus, hplus, -, -⟩ := isDigit_plain (h d (by simp))
  cases sign with
  | none =>
    have hskip : Lib.skipSpaces (Sign.none.text ++ d :: rest) = d :: rest := by
      simp [Sign.text, Lib.skipSpaces, hspace]
    simp only [strtol, hskip]
    rw [if_neg (by simpa using hminus), if_neg (by simpa using hplus)]
    rfl
  | plus => rfl
  | minus => rfl

theorem strtol_hexadecimal {digits : List UInt8} (hne : digits ≠ [])
    (h : ∀ c ∈ digits, isXdigit c) :
    strtol (48 :: 120 :: digits) = clampLong (digitsValue 16 digits) := by
  obtain ⟨d, rest, rfl⟩ := List.exists_cons_of_ne_nil hne
  have hd := digitValue_of_isXdigit (h d (by simp))
  have hhex : Lib.hexPrefixed (48 :: 120 :: d :: rest) = true := by simp [Lib.hexPrefixed, hd]
  have hmag : strtolMagnitude (48 :: 120 :: d :: rest) = digitsValue 16 (d :: rest) := by
    unfold strtolMagnitude
    rw [if_pos hhex]
    exact Lib.leadingValue_of_digits fun c hc => digitValue_of_isXdigit (h c hc)
  rw [← hmag]
  rfl

/-- **What is stored is what was written** exactly for the exact values. -/
theorem Literal.stored_eq_value_iff (l : Literal) : l.stored = l.value ↔ l.Exact := by
  cases l with
  | integer sign digits hne hdigit =>
    show Value.int (strtol (sign.text ++ digits)).toInt = Value.int _ ↔ _
    rw [strtol_integer sign hne hdigit, Value.int.injEq]
    exact clampLong_magnitude_iff sign hdigit
  | hexadecimal digits hne hxdigit =>
    show Value.int (strtol (48 :: 120 :: digits)).toInt = Value.int _ ↔ InIntRange _
    rw [strtol_hexadecimal hne hxdigit, Value.int.injEq, Lib.toInt_clampLong]
    unfold InIntRange
    omega
  | string opening closing body _ _ _ =>
    exact ⟨fun _ => trivial, fun _ => rfl⟩

/-- A stored value and the written one print alike only if they are the same. -/
theorem Literal.text_stored_eq_iff (l : Literal) : l.stored.text = l.value.text ↔ l.Exact := by
  rw [← l.stored_eq_value_iff]
  constructor
  · intro h
    cases l with
    | integer sign digits _ _ => exact congrArg Value.int (Lib.decimalInt_injective h)
    | hexadecimal digits _ _ => exact congrArg Value.int (Lib.decimalInt_injective h)
    | string _ _ body _ _ _ => rfl
  · intro h
    rw [h]

end Datalogger
