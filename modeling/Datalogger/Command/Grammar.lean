import Datalogger.Lib.Grammar
import Datalogger.Command.Assigned

/-!
# What `parse_assignment` accepts

The languages below are the machines of `parse_assignment.rl`, under its names. The
function does not ask whether the machine reached a final state: it succeeds when an
action has recorded a type, and the actions that do are run on the first byte of a
number (`$EndIntHex` is embedded in every transition of it) and on the closing quote
of a string. Nothing behind that byte takes the type back, so a call succeeds on
every text that starts with an assignment as far as there (`parseAssignment_ret`):
`A=12abc`, `A=+` and `A='b'c` are accepted with the others. `parsesExactly_iff` says
on which texts the answer is nevertheless the one of the grammar.

`remaining q` is what has still to come for a type to be recorded when the scanner is
in state `q`; `cons_mem_remaining` checks it against the machine one byte at a time.
-/

namespace Datalogger

open Lib (ascii isSpace isAlpha isDigit isXdigit forall_byte oneOf plus)
open scoped Computability

namespace Grammar

/-! ## The machines of `parse_assignment.rl` -/

/-- `identifier = alpha+`. -/
def identifier : Language UInt8 := plus (oneOf isAlpha)

/-- `space*`. -/
def spaces : Language UInt8 := (oneOf isSpace)∗

/-- `equals = '='`. -/
def equals : Language UInt8 := oneOf fun c => c = 61

/-- `integer = ('+'|'-')?[0-9]+`. -/
def integer : Language UInt8 := plus (oneOf isDigit) + oneOf isSign * plus (oneOf isDigit)

/-- `hexadecimal = '0x'xdigit+`. -/
def hexadecimal : Language UInt8 :=
  (oneOf fun c => c = 48) * ((oneOf fun c => c = 120) * plus (oneOf isXdigit))

/-- `quote = ('\'' | '\"')`. -/
def quote : Language UInt8 := oneOf isQuote

/-- `string = quote ((alnum|space)+) quote`. -/
def string : Language UInt8 := quote * (plus (oneOf isStrByte) * quote)

/-- `value = (integer | hexadecimal) | string`. -/
def value : Language UInt8 := integer + hexadecimal + string

/-- A value behind `identifier space* equals space*`. -/
def assigned (v : Language UInt8) : Language UInt8 :=
  identifier * (spaces * (equals * (spaces * v)))

/-- `assignment := identifier . space* . equals . space* . value`. -/
def assignment : Language UInt8 := assigned value

/-! ## The texts that are accepted -/

/-- What a type is recorded on: the first byte of a number, or a whole string. -/
def typed : Language UInt8 := (oneOf isSign + oneOf isDigit) + string

/-- A text that starts like an assignment, up to the place where a type is recorded. -/
def started : Language UInt8 := assigned (typed * ⊤)

/-- What has to follow in state `cs` for a type to be recorded. -/
def remaining : Nat → Language UInt8
  | 1 => started
  | 2 => (oneOf isAlpha)∗ * (spaces * (equals * (spaces * (typed * ⊤))))
  | 3 => spaces * (equals * (spaces * (typed * ⊤)))
  | 4 => spaces * (typed * ⊤)
  | 5 => plus (oneOf isStrByte) * (quote * ⊤)
  | 6 => (oneOf isStrByte)∗ * (quote * ⊤)
  | _ => 0

/-- The classes of bytes the machine tells apart. -/
theorem classes_disjoint (c : UInt8) :
    (isSpace c = true → isAlpha c = false ∧ c ≠ 61 ∧ isQuote c = false ∧ isSign c = false ∧
      isDigit c = false) ∧
    (isQuote c = true → isSign c = false ∧ isDigit c = false ∧ isStrByte c = false) := by
  have hall : ∀ n ∈ List.range 256,
      (isSpace (UInt8.ofNat n) = true → isAlpha (UInt8.ofNat n) = false ∧ UInt8.ofNat n ≠ 61 ∧
        isQuote (UInt8.ofNat n) = false ∧ isSign (UInt8.ofNat n) = false ∧
        isDigit (UInt8.ofNat n) = false) ∧
      (isQuote (UInt8.ofNat n) = true → isSign (UInt8.ofNat n) = false ∧
        isDigit (UInt8.ofNat n) = false ∧ isStrByte (UInt8.ofNat n) = false) := by decide +kernel
  exact forall_byte (P := fun c =>
    (isSpace c = true → isAlpha c = false ∧ c ≠ 61 ∧ isQuote c = false ∧ isSign c = false ∧
      isDigit c = false) ∧
    (isQuote c = true → isSign c = false ∧ isDigit c = false ∧ isStrByte c = false)) hall c

/-- The actions that record a type. -/
def Records (acts : List Nat) : Prop := 3 ∈ acts ∨ 5 ∈ acts

instance (acts : List Nat) : Decidable (Records acts) := inferInstanceAs (Decidable (_ ∨ _))

theorem typed_mul_top :
    typed * ⊤ = oneOf isSign * ⊤ + oneOf isDigit * ⊤ + quote * remaining 5 := by
  have hstring : string * ⊤ = quote * remaining 5 := by
    rw [string, remaining, mul_assoc, mul_assoc]
  rw [typed, add_mul, add_mul, hstring]

/-- The first byte of a text on which a type is recorded. -/
theorem cons_mem_typed_mul (c : UInt8) (w : List UInt8) :
    c :: w ∈ typed * ⊤ ↔
      isSign c = true ∨ isDigit c = true ∨ isQuote c = true ∧ w ∈ remaining 5 := by
  rw [typed_mul_top, Language.mem_add, Language.mem_add, or_assoc]
  simp [quote]

theorem nil_notMem_typed_mul : [] ∉ typed * ⊤ := by
  rw [typed_mul_top, Language.mem_add, Language.mem_add]
  simp [quote]

/-- **One byte of what remains.** -/
theorem cons_mem_remaining {cs : Nat} (h : cs ∈ List.range' 1 6) (c : UInt8) (w : List UInt8) :
    c :: w ∈ remaining cs ↔
      Records (machineNext cs c).2 ∨ w ∈ remaining (machineNext cs c).1 := by
  obtain ⟨hspace, hquote⟩ := classes_disjoint c
  have hcs : cs = 1 ∨ cs = 2 ∨ cs = 3 ∨ cs = 4 ∨ cs = 5 ∨ cs = 6 := by
    have h := List.mem_range'_1.mp h
    omega
  rcases hcs with rfl | rfl | rfl | rfl | rfl | rfl
  · by_cases hc : isAlpha c
    · simp [remaining, started, assigned, identifier, plus, machineNext, Records, hc, mul_assoc]
    · simp [remaining, started, assigned, identifier, plus, machineNext, Records, hc, mul_assoc]
  · by_cases hs : isSpace c
    · simp [remaining, spaces, equals, machineNext, Records, hs, hspace hs]
    · by_cases he : c = 61
      · subst he
        simp [remaining, spaces, equals, machineNext, Records, isSpace, isAlpha]
      · by_cases hc : isAlpha c <;>
          simp [remaining, spaces, equals, machineNext, Records, hs, he, hc]
  · by_cases hs : isSpace c
    · simp [remaining, spaces, equals, machineNext, Records, hs, hspace hs]
    · by_cases he : c = 61
      · subst he
        simp [remaining, spaces, equals, machineNext, Records, isSpace]
      · simp [remaining, spaces, equals, machineNext, Records, hs, he]
  · have hvalue : c :: w ∈ remaining 4 ↔
        (isSign c = true ∨ isDigit c = true ∨ isQuote c = true ∧ w ∈ remaining 5) ∨
          isSpace c = true ∧ w ∈ remaining 4 := by
      rw [← cons_mem_typed_mul]
      exact Lib.cons_mem_kstar_oneOf_mul
    rw [hvalue]
    by_cases hs : isSpace c
    · simp [machineNext, Records, hs, hspace hs]
    · by_cases hq : isQuote c
      · simp [machineNext, Records, hs, hq, hquote hq]
      · by_cases hg : isSign c
        · simp [machineNext, Records, hs, hq, hg]
        · by_cases hz : c = 48
          · subst hz
            simp [machineNext, Records, isSpace, isQuote, isSign, isDigit]
          · by_cases hd : isDigit c <;> simp [machineNext, Records, remaining, hs, hq, hg, hz, hd]
  · by_cases hb : isStrByte c <;> simp [remaining, plus, quote, mul_assoc, machineNext, Records, hb]
  · by_cases hb : isStrByte c
    · have hq : isQuote c = false := by
        cases hq : isQuote c with
        | false => rfl
        | true => exact absurd hb (by simp [hquote hq])
      simp [remaining, quote, machineNext, Records, hb, hq]
    · by_cases hq : isQuote c <;> simp [remaining, quote, machineNext, Records, hb, hq]

/-- Until a type is recorded the machine stays in front of the value. -/
theorem records_or_le {cs : Nat} (h : cs ∈ List.range' 1 6) (c : UInt8) :
    Records (machineNext cs c).2 ∨ (machineNext cs c).1 ≤ 6 := by
  have hall : ∀ cs ∈ List.range' 1 6, ∀ n ∈ List.range 256,
      Records (machineNext cs (UInt8.ofNat n)).2 ∨ (machineNext cs (UInt8.ofNat n)).1 ≤ 6 := by
    decide +kernel
  exact forall_byte (P := fun c => Records (machineNext cs c).2 ∨ (machineNext cs c).1 ≤ 6)
    (hall cs h) c

theorem nil_notMem_remaining (cs : Nat) : [] ∉ remaining cs := by
  match cs with
  | 0 | 1 | 5 | _ + 7 =>
    simp [remaining, started, assigned, identifier, plus, mul_assoc, Language.notMem_zero]
  | 2 | 3 => simp [remaining, spaces, equals]
  | 4 => simp [remaining, spaces, nil_notMem_typed_mul]
  | 6 => simp [remaining, quote]

end Grammar

/-! ## The scanner and what remains -/

open Grammar

/-- An action records a type or leaves the one there is. -/
theorem foldl_act_type_ne_none (p : Nat) (acts : List Nat) :
    ∀ s : Scan, (acts.foldl (Scan.act p) s).type ≠ .none ↔ s.type ≠ .none ∨ Records acts := by
  induction acts with
  | nil =>
    intro s
    simp [Records]
  | cons act acts ih =>
    intro s
    have hact : (s.act p act).type ≠ .none ↔ s.type ≠ .none ∨ act = 3 ∨ act = 5 := by
      match act with
      | 0 | 1 | 2 | 3 | 4 | 5 => simp [Scan.act]
      | _ + 6 => simp [Scan.act]
    rw [List.foldl_cons, ih, hact]
    unfold Records
    rw [List.mem_cons, List.mem_cons, eq_comm (a := act), eq_comm (a := act)]
    tauto

theorem foldl_act_cs (p : Nat) (acts : List Nat) :
    ∀ s : Scan, (acts.foldl (Scan.act p) s).cs = s.cs := by
  induction acts with
  | nil =>
    intro s
    rfl
  | cons act acts ih =>
    intro s
    have hact : (s.act p act).cs = s.cs := by
      match act with
      | 0 | 1 | 2 | 3 | 4 | 5 => rfl
      | _ + 6 => rfl
    rw [List.foldl_cons, ih, hact]

/-- A recorded type stays recorded. -/
theorem scanExec_type_ne_none (text : List UInt8) :
    ∀ {s : Scan} {p : Nat}, s.type ≠ .none → (scanExec s p text).type ≠ .none := by
  induction text with
  | nil =>
    intro s p h
    exact h
  | cons c text ih =>
    intro s p h
    rw [scanExec]
    split
    · exact h
    · exact ih ((foldl_act_type_ne_none p _ _).mpr (Or.inl h))

/-- **A type is recorded** exactly when what remains comes. -/
theorem scanExec_type_iff (text : List UInt8) :
    ∀ {s : Scan} {p : Nat}, s.cs ≤ 6 → s.type = .none →
      ((scanExec s p text).type ≠ .none ↔ text ∈ remaining s.cs) := by
  induction text with
  | nil =>
    intro s p _ htype
    exact iff_of_false (fun h => h htype) (nil_notMem_remaining s.cs)
  | cons c text ih =>
    intro s p hcs htype
    rw [scanExec]
    by_cases hzero : s.cs = 0
    · rw [if_pos hzero, hzero]
      exact iff_of_false (fun h => h htype) (Language.notMem_zero _)
    · have hmem : s.cs ∈ List.range' 1 6 := List.mem_range'_1.mpr (by omega)
      have hmem' : s.cs ∈ List.range' 1 12 := List.mem_range'_1.mpr (by omega)
      rw [if_neg hzero, Scan.step_eq hmem', cons_mem_remaining hmem]
      have hstep := foldl_act_type_ne_none p (machineNext s.cs c).2
        { s with cs := (machineNext s.cs c).1 }
      have hcs' := foldl_act_cs p (machineNext s.cs c).2 { s with cs := (machineNext s.cs c).1 }
      by_cases hrec : Records (machineNext s.cs c).2
      · exact iff_of_true (scanExec_type_ne_none text (hstep.mpr (Or.inr hrec))) (Or.inl hrec)
      · have hle := (records_or_le hmem c).resolve_left hrec
        have hnone : ((machineNext s.cs c).2.foldl (Scan.act p)
            { s with cs := (machineNext s.cs c).1 }).type = .none := by
          by_contra hne
          exact (hstep.mp hne).elim (fun h => h htype) hrec
        rw [ih (by rw [hcs']; exact hle) hnone, hcs']
        exact (or_iff_right hrec).symm

/-- **What `parse_assignment` returns**: 0 on the texts that start like an assignment as
far as a value, −1 on all others. -/
theorem parseAssignment_ret (w : List UInt8) :
    ∃ a, parseAssignment w = some a ∧ (w ∈ started ∧ a.ret = 0 ∨ w ∉ started ∧ a.ret = -1) := by
  obtain ⟨a, ha, -⟩ := parseAssignment_safe w
  refine ⟨a, ha, ?_⟩
  have htype : (scanExec scanInit 0 w).type ≠ .none ↔ w ∈ started :=
    scanExec_type_iff w (by decide) rfl
  rcases (parseAssignment_reports ha).ret with ⟨hret, hne⟩ | ⟨hret, hnone⟩
  · exact Or.inl ⟨htype.mp hne, hret⟩
  · exact Or.inr ⟨fun h => htype.mpr h hnone, hret⟩

/-! ## The grammar and the values of `Literal` -/

theorem mem_integer_iff (w : List UInt8) : w ∈ integer ↔
    ∃ (sign : Sign) (digits : List UInt8), digits ≠ [] ∧ (∀ c ∈ digits, isDigit c) ∧
      sign.text ++ digits = w := by
  rw [integer, Language.mem_add, Lib.mem_plus_oneOf]
  constructor
  · intro h
    rcases h with ⟨hne, hdigit⟩ | h
    · exact ⟨.none, w, hne, hdigit, rfl⟩
    · obtain ⟨_, ⟨c, hsign, rfl⟩, digits, hdigits, rfl⟩ := Language.mem_mul.mp h
      obtain ⟨hne, hdigit⟩ := Lib.mem_plus_oneOf.mp hdigits
      have hc : c = 43 ∨ c = 45 := by simpa [isSign] using hsign
      rcases hc with rfl | rfl
      · exact ⟨.plus, digits, hne, hdigit, rfl⟩
      · exact ⟨.minus, digits, hne, hdigit, rfl⟩
  · intro ⟨sign, digits, hne, hdigit, hw⟩
    subst hw
    cases sign with
    | none => exact Or.inl ⟨hne, hdigit⟩
    | plus | minus =>
      right
      simp only [Sign.text, List.singleton_append, Lib.cons_mem_oneOf_mul, Lib.mem_plus_oneOf]
      exact ⟨rfl, hne, hdigit⟩

theorem mem_hexadecimal_iff (w : List UInt8) : w ∈ hexadecimal ↔
    ∃ digits : List UInt8, digits ≠ [] ∧ (∀ c ∈ digits, isXdigit c) ∧ 48 :: 120 :: digits = w := by
  match w with
  | [] => simp [hexadecimal]
  | [z] => simp [hexadecimal]
  | z :: x :: digits =>
    simp only [hexadecimal, Lib.cons_mem_oneOf_mul, Lib.mem_plus_oneOf, decide_eq_true_eq]
    constructor
    · intro h
      obtain ⟨hz, hx, hne, hxdigit⟩ := h
      exact ⟨digits, hne, hxdigit, by rw [hz, hx]⟩
    · intro h
      obtain ⟨ds, hne, hxdigit, hw⟩ := h
      obtain ⟨rfl, htail⟩ := List.cons.inj hw
      obtain ⟨rfl, rfl⟩ := List.cons.inj htail
      exact ⟨rfl, rfl, hne, hxdigit⟩

theorem mem_string_iff (w : List UInt8) : w ∈ string ↔
    ∃ (opening closing : UInt8) (body : List UInt8), (isQuote opening ∧ isQuote closing) ∧
      body ≠ [] ∧ (∀ c ∈ body, isStrByte c) ∧ opening :: (body ++ [closing]) = w := by
  constructor
  · intro h
    obtain ⟨_, ⟨opening, hopening, rfl⟩, _, hrest, rfl⟩ := Language.mem_mul.mp h
    obtain ⟨body, hbody, _, ⟨closing, hclosing, rfl⟩, rfl⟩ := Language.mem_mul.mp hrest
    obtain ⟨hne, hstr⟩ := Lib.mem_plus_oneOf.mp hbody
    exact ⟨opening, closing, body, ⟨hopening, hclosing⟩, hne, hstr, rfl⟩
  · intro ⟨opening, closing, body, ⟨hopening, hclosing⟩, hne, hstr, hw⟩
    subst hw
    rw [string, quote, Lib.cons_mem_oneOf_mul]
    exact ⟨hopening, Language.append_mem_mul (Lib.mem_plus_oneOf.mpr ⟨hne, hstr⟩)
      ⟨closing, hclosing, rfl⟩⟩

/-- **A value is a literal.** -/
theorem mem_value_iff (w : List UInt8) : w ∈ value ↔ ∃ l : Literal, l.text = w := by
  rw [value, Language.mem_add, Language.mem_add, mem_integer_iff, mem_hexadecimal_iff,
    mem_string_iff]
  constructor
  · intro h
    rcases h with (⟨sign, digits, hne, hdigit, hw⟩ | ⟨digits, hne, hxdigit, hw⟩) |
      ⟨opening, closing, body, hquoted, hne, hstr, hw⟩
    · exact ⟨.integer sign digits hne hdigit, hw⟩
    · exact ⟨.hexadecimal digits hne hxdigit, hw⟩
    · exact ⟨.string opening closing body hquoted hne hstr, hw⟩
  · intro ⟨l, hw⟩
    cases l with
    | integer sign digits hne hdigit => exact Or.inl (Or.inl ⟨sign, digits, hne, hdigit, hw⟩)
    | hexadecimal digits hne hxdigit => exact Or.inl (Or.inr ⟨digits, hne, hxdigit, hw⟩)
    | string opening closing body hquoted hne hstr =>
      exact Or.inr ⟨opening, closing, body, hquoted, hne, hstr, hw⟩

/-- **The assignments.** -/
theorem mem_assignment_iff (w : List UInt8) :
    w ∈ assignment ↔ ∃ x : AssignmentText, x.text = w := by
  unfold assignment assigned
  constructor
  · intro h
    obtain ⟨name, hname, _, hspaces, rfl⟩ := Language.mem_mul.mp h
    obtain ⟨before, hbefore, _, hequals, rfl⟩ := Language.mem_mul.mp hspaces
    obtain ⟨_, ⟨c, hc, rfl⟩, _, htail, rfl⟩ := Language.mem_mul.mp hequals
    obtain ⟨after, hafter, _, hvalue, rfl⟩ := Language.mem_mul.mp htail
    obtain ⟨l, rfl⟩ := (mem_value_iff _).mp hvalue
    obtain rfl : c = 61 := of_decide_eq_true hc
    obtain ⟨hne, halpha⟩ := Lib.mem_plus_oneOf.mp hname
    exact ⟨⟨name, before, after, l, hne, halpha, Lib.mem_kstar_oneOf.mp hbefore,
      Lib.mem_kstar_oneOf.mp hafter⟩, rfl⟩
  · intro h
    obtain ⟨⟨name, before, after, l, hne, halpha, hbefore, hafter⟩, rfl⟩ := h
    refine Language.append_mem_mul (Lib.mem_plus_oneOf.mpr ⟨hne, halpha⟩)
      (Language.append_mem_mul (Lib.mem_kstar_oneOf.mpr hbefore) ?_)
    exact Lib.cons_mem_oneOf_mul.mpr ⟨rfl, Language.append_mem_mul (Lib.mem_kstar_oneOf.mpr hafter)
      ((mem_value_iff _).mpr ⟨l, rfl⟩)⟩

theorem value_le_typed : value ≤ typed * ⊤ := by
  have hdigits : plus (oneOf isDigit) ≤ oneOf isDigit * ⊤ := mul_le_mul' le_rfl le_top
  have hzero : (oneOf fun c => c = 48) ≤ oneOf isDigit := by
    intro w ⟨c, hc, hw⟩
    obtain rfl : c = 48 := of_decide_eq_true hc
    exact ⟨48, rfl, hw⟩
  have hinteger : integer ≤ oneOf isSign * ⊤ + oneOf isDigit * ⊤ := by
    rw [integer, add_comm]
    exact add_le_add (mul_le_mul' le_rfl le_top) hdigits
  have hhexadecimal : hexadecimal ≤ oneOf isSign * ⊤ + oneOf isDigit * ⊤ :=
    (mul_le_mul' hzero le_top).trans (le_add_of_nonneg_left bot_le)
  have hnumber : integer + hexadecimal ≤ (oneOf isSign + oneOf isDigit) * ⊤ := by
    rw [add_mul]
    exact add_le hinteger hhexadecimal
  rw [value, typed, add_mul]
  exact add_le_add hnumber (Lib.le_mul_top string)

/-- An assignment starts like one. -/
theorem assignment_le_started : assignment ≤ started := by
  unfold assignment started assigned
  gcongr
  exact value_le_typed

/-! ## Where the grammar and the answer agree -/

/-- The call answers as the grammar says. -/
def ParsesExactly (w : List UInt8) : Prop :=
  ∃ a, parseAssignment w = some a ∧
    (w ∈ assignment ∧ a.ret = 0 ∨ w ∉ assignment ∧ a.ret = -1)

/-- **Exactly its grammar.** The answer is the one of the grammar on an assignment and on
a text that does not start like one. -/
theorem parsesExactly_iff (w : List UInt8) :
    ParsesExactly w ↔ w ∈ assignment ∨ w ∉ started := by
  obtain ⟨a, ha, hret⟩ := parseAssignment_ret w
  have hne : (0 : Int32) ≠ -1 := by decide
  constructor
  · intro ⟨a', ha', hexact⟩
    obtain rfl : a' = a := Option.some.inj (ha'.symm.trans ha)
    rcases hret with ⟨hstart, hzero⟩ | ⟨hstart, -⟩
    · rcases hexact with ⟨hmem, -⟩ | ⟨-, hminus⟩
      · exact Or.inl hmem
      · exact absurd (hzero.symm.trans hminus) hne
    · exact Or.inr hstart
  · intro h
    refine ⟨a, ha, ?_⟩
    rcases hret with ⟨hstart, hzero⟩ | ⟨hstart, hminus⟩
    · exact Or.inl ⟨h.resolve_right fun hn => hn hstart, hzero⟩
    · exact Or.inr ⟨fun hmem => hstart (assignment_le_started hmem), hminus⟩

/-- `A=12abc` is no assignment, and is accepted. -/
theorem not_parsesExactly_trailing : ¬ ParsesExactly (ascii "A=12abc") := by
  have hret : (parseAssignment (ascii "A=12abc")).map Assignment.ret = some 0 := by decide
  have hmem : [65, 61, 49, 50, 97, 98, 99] ∉ assignment := by
    simp [assignment, assigned, value, integer, hexadecimal, string, identifier, spaces, equals,
      quote, plus, mul_assoc, isAlpha, isSpace, isDigit, isSign, isQuote]
  intro ⟨a, ha, hexact⟩
  rw [ha, Option.map_some, Option.some.injEq] at hret
  rcases hexact with ⟨hassign, -⟩ | ⟨-, hminus⟩
  · exact hmem hassign
  · exact absurd (hret.symm.trans hminus) (by decide)

end Datalogger
