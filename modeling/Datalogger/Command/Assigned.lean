import Datalogger.Command.Literal

/-!
# Parsing an assignment

`parse_assignment` on a text of its grammar, `identifier space* '=' space* value`
(`AssignmentText`). The scanner is followed along the text block by block: a lemma says
what one run over a block of the same kind of bytes does. What comes out is the
identifier and the value as it is stored (`parseAssignment_assigned`), which is the
value that was written unless it is a number that `strtol` reads differently
(`parseAssignment_computes_iff`).
-/

namespace Datalogger

open Lib (cstr setZeros strtol isSpace isAlpha isDigit isXdigit forall_byte digitsValue InIntRange)

/-- A text of the assignment grammar. -/
structure AssignmentText where
  name : List UInt8
  before : List UInt8
  after : List UInt8
  literal : Literal
  nonempty : name ≠ []
  alpha : ∀ c ∈ name, isAlpha c
  before_space : ∀ c ∈ before, isSpace c
  after_space : ∀ c ∈ after, isSpace c

/-- How it is written. -/
def AssignmentText.text (x : AssignmentText) : List UInt8 :=
  x.name ++ (x.before ++ 61 :: (x.after ++ x.literal.text))

/-- The offset of the value. -/
def AssignmentText.valueOffset (x : AssignmentText) : Nat :=
  x.name.length + x.before.length + 1 + x.after.length

/-- No white space at all. -/
theorem isSpace_of_mem_nil : ∀ c ∈ ([] : List UInt8), isSpace c := nofun

/-! ## Blocks of bytes -/

theorem isSpace_next {c : UInt8} (h : isSpace c) :
    machineNext 2 c = (3, [1]) ∧ machineNext 3 c = (3, []) ∧ machineNext 4 c = (4, []) := by
  simp [machineNext, h]

theorem isAlpha_next {c : UInt8} (h : isAlpha c) :
    machineNext 1 c = (2, [0]) ∧ machineNext 2 c = (2, []) := by
  have hall : ∀ n ∈ List.range 256, isAlpha (UInt8.ofNat n) →
      machineNext 1 (UInt8.ofNat n) = (2, [0]) ∧ machineNext 2 (UInt8.ofNat n) = (2, []) := by
    decide +kernel
  exact forall_byte
    (P := fun c => isAlpha c → machineNext 1 c = (2, [0]) ∧ machineNext 2 c = (2, [])) hall c h

/-- Where a number stands after its first byte: behind a sign, inside, or behind a
zero that may begin `0x`. -/
def NumberStates : List Nat := [7, 10, 11]

theorem isDigit_next {c : UInt8} (h : isDigit c) :
    ((machineNext 4 c).1 ∈ NumberStates ∧ (machineNext 4 c).2 = [2, 3]) ∧
      ∀ cs ∈ NumberStates, machineNext cs c = (10, [3]) := by
  have hall : ∀ n ∈ List.range 256, isDigit (UInt8.ofNat n) →
      ((machineNext 4 (UInt8.ofNat n)).1 ∈ NumberStates ∧
        (machineNext 4 (UInt8.ofNat n)).2 = [2, 3]) ∧
      ∀ cs ∈ NumberStates, machineNext cs (UInt8.ofNat n) = (10, [3]) := by decide +kernel
  exact forall_byte (P := fun c => isDigit c →
    ((machineNext 4 c).1 ∈ NumberStates ∧ (machineNext 4 c).2 = [2, 3]) ∧
      ∀ cs ∈ NumberStates, machineNext cs c = (10, [3])) hall c h

theorem isXdigit_next {c : UInt8} (h : isXdigit c) :
    ∀ cs ∈ [8, 12], machineNext cs c = (12, [3]) := by
  have hall : ∀ n ∈ List.range 256, isXdigit (UInt8.ofNat n) →
      ∀ cs ∈ [8, 12], machineNext cs (UInt8.ofNat n) = (12, [3]) := by decide +kernel
  exact forall_byte
    (P := fun c => isXdigit c → ∀ cs ∈ [8, 12], machineNext cs c = (12, [3])) hall c h

theorem isStrByte_next {c : UInt8} (h : isStrByte c) :
    c ≠ 0 ∧ machineNext 5 c = (6, [4]) ∧ machineNext 6 c = (6, []) := by
  have hall : ∀ n ∈ List.range 256, isStrByte (UInt8.ofNat n) → UInt8.ofNat n ≠ 0 ∧
      machineNext 5 (UInt8.ofNat n) = (6, [4]) ∧ machineNext 6 (UInt8.ofNat n) = (6, []) := by
    decide +kernel
  exact forall_byte (P := fun c => isStrByte c →
    c ≠ 0 ∧ machineNext 5 c = (6, [4]) ∧ machineNext 6 c = (6, [])) hall c h

theorem isQuote_next {c : UInt8} (h : isQuote c) :
    machineNext 4 c = (5, []) ∧ machineNext 6 c = (9, [5]) := by
  have hall : ∀ n ∈ List.range 256, isQuote (UInt8.ofNat n) →
      machineNext 4 (UInt8.ofNat n) = (5, []) ∧ machineNext 6 (UInt8.ofNat n) = (9, [5]) := by
    decide +kernel
  exact forall_byte
    (P := fun c => isQuote c → machineNext 4 c = (5, []) ∧ machineNext 6 c = (9, [5])) hall c h

theorem scanExec_append :
    ∀ (xs ys : List UInt8) (s : Scan) (p : Nat),
      scanExec s p (xs ++ ys) = scanExec (scanExec s p xs) (p + xs.length) ys := by
  intro xs
  induction xs with
  | nil => intro ys s p; rfl
  | cons c xs ih =>
    intro ys s p
    rw [List.cons_append, scanExec, scanExec]
    by_cases hcs : s.cs = 0
    · rw [if_pos hcs, if_pos hcs]
      cases ys with
      | nil => rfl
      | cons y ys => rw [scanExec, if_pos hcs]
    · rw [if_neg hcs, if_neg hcs, ih, List.length_cons, Nat.add_assoc, Nat.add_comm 1]

/-- A block of bytes that leaves the state and runs no action. -/
theorem scanExec_stay {P : UInt8 → Prop} {s : Scan} (hmem : s.cs ∈ List.range' 1 12)
    (hP : ∀ c, P c → machineNext s.cs c = (s.cs, [])) :
    ∀ (xs : List UInt8) (p : Nat), (∀ c ∈ xs, P c) → scanExec s p xs = s := by
  intro xs
  induction xs with
  | nil => intro p _; rfl
  | cons c xs ih =>
    intro p h
    rw [scanExec_next rfl hmem (hP c (h c (by simp)))]
    exact ih (p + 1) fun d hd => h d (by simp [hd])

/-- The scanner is reading a number that starts at `v`, behind the name from `n` to `e`. -/
structure ReadsInt (n e v : Nat) (s : Scan) : Prop where
  name : s.name = some n
  nameEnd : s.nameEnd = some e
  valueStart : s.valueStart = some v
  type : s.type = .int

/-- A block of digits that stays among the states `S` and runs the number action. -/
theorem scanExec_digits {S : List Nat} {t : Nat} {P : UInt8 → Prop} {n e v : Nat}
    (hS : ∀ cs ∈ S, cs ∈ List.range' 1 12) (ht : t ∈ S)
    (hP : ∀ c, P c → ∀ cs ∈ S, machineNext cs c = (t, [3])) :
    ∀ (xs : List UInt8) (s : Scan) (p : Nat), s.cs ∈ S → ReadsInt n e v s → (∀ c ∈ xs, P c) →
      ReadsInt n e v (scanExec s p xs) ∧ (scanExec s p xs).cs ∈ S := by
  intro xs
  induction xs with
  | nil => intro s p hcs h _; exact ⟨h, hcs⟩
  | cons c xs ih =>
    intro s p hcs h hxs
    rw [scanExec_next rfl (hS _ hcs) (hP c (hxs c (by simp)) _ hcs)]
    exact ih _ _ ht ⟨h.name, h.nameEnd, h.valueStart, rfl⟩ fun d hd => hxs d (by simp [hd])

/-- The states behind the first byte of a number, and behind a string. -/
def ValueStates : List Nat := [7, 8, 9, 10, 11, 12]

theorem isSpace_ends {c : UInt8} (h : isSpace c) :
    ∀ cs ∈ ValueStates, machineNext cs c = (0, []) := by
  have hall : ∀ n ∈ List.range 256, isSpace (UInt8.ofNat n) →
      ∀ cs ∈ ValueStates, machineNext cs (UInt8.ofNat n) = (0, []) := by decide +kernel
  exact forall_byte
    (P := fun c => isSpace c → ∀ cs ∈ ValueStates, machineNext cs c = (0, [])) hall c h

/-- White space behind a value stops the scanner, and changes nothing else. -/
theorem scanExec_behind {s : Scan} (hs : s.cs ∈ ValueStates) {behind : List UInt8}
    (h : ∀ c ∈ behind, isSpace c) (p : Nat) :
    ∃ cs, scanExec s p behind = { s with cs := cs } := by
  have hstates : ∀ cs ∈ ValueStates, cs ∈ List.range' 1 12 := by decide
  cases behind with
  | nil => exact ⟨s.cs, rfl⟩
  | cons c rest =>
    rw [scanExec_next rfl (hstates _ hs) (isSpace_ends (h c (by simp)) _ hs)]
    refine ⟨0, ?_⟩
    cases rest with
    | nil => rfl
    | cons d rest => exact if_pos rfl

theorem ReadsInt.behind {n e v : Nat} {s : Scan} (h : ReadsInt n e v s)
    (hs : s.cs ∈ ValueStates) {behind : List UInt8} (hbehind : ∀ c ∈ behind, isSpace c) (p : Nat) :
    ReadsInt n e v (scanExec s p behind) := by
  obtain ⟨cs, hcs⟩ := scanExec_behind hs hbehind p
  rw [hcs]
  exact ⟨h.name, h.nameEnd, h.valueStart, h.type⟩

/-- The scanner inside the name. -/
def scanWord : Scan := { scanInit with cs := 2, nameStart := some 0 }

/-- The scanner behind `name=`. -/
def scanAssigned (e : Nat) : Scan :=
  { scanInit with cs := 4, name := some 0, nameStart := some 0, nameEnd := some e }

theorem scanExec_word {name : List UInt8} (hne : name ≠ []) (h : ∀ c ∈ name, isAlpha c)
    (rest : List UInt8) :
    scanExec scanInit 0 (name ++ rest) = scanExec scanWord name.length rest := by
  obtain ⟨c, cs, rfl⟩ := List.exists_cons_of_ne_nil hne
  have hstay : ∀ p, scanExec scanWord p cs = scanWord := fun p =>
    scanExec_stay (P := fun c => isAlpha c) (by decide) (fun d hd => (isAlpha_next hd).2) cs p
      fun d hd => h d (by simp [hd])
  -- the first letter enters state 2, the others stay there
  rw [List.cons_append, scanExec_next (s := scanInit) (t := 2) rfl (by decide)
    (isAlpha_next (h c (by simp))).1, scanExec_append]
  show scanExec (scanExec scanWord (0 + 1) cs) (0 + 1 + cs.length) rest = _
  rw [hstay, List.length_cons, Nat.zero_add, Nat.add_comm 1]

/-- White space stays where it is, around the `=`. -/
theorem scanExec_spaces {s : Scan} (hs : s.cs = 3 ∨ s.cs = 4) {xs : List UInt8}
    (h : ∀ c ∈ xs, isSpace c) (p : Nat) (rest : List UInt8) :
    scanExec s p (xs ++ rest) = scanExec s (p + xs.length) rest := by
  rw [scanExec_append]
  congr 1
  rcases hs with hcs | hcs
  · exact scanExec_stay (P := fun c => isSpace c) (by rw [hcs]; decide)
      (fun d hd => by rw [hcs]; exact (isSpace_next hd).2.1) xs p h
  · exact scanExec_stay (P := fun c => isSpace c) (by rw [hcs]; decide)
      (fun d hd => by rw [hcs]; exact (isSpace_next hd).2.2) xs p h

/-- The name, the `=` and the white space around it. -/
theorem scanExec_assigned (x : AssignmentText) (rest : List UInt8) :
    scanExec scanInit 0 (x.name ++ (x.before ++ 61 :: (x.after ++ rest)))
      = scanExec (scanAssigned x.name.length) x.valueOffset rest := by
  obtain ⟨name, before, after, literal, hne, halpha, hbefore, hafter⟩ := x
  rw [scanExec_word hne halpha]
  -- the first byte behind the name ends it, white space or `=`
  have hequals : scanExec scanWord name.length (before ++ 61 :: (after ++ rest))
      = scanExec (scanAssigned name.length) (name.length + before.length + 1) (after ++ rest) := by
    cases before with
    | nil =>
      exact scanExec_next (q := 2) (t := 4) rfl (by decide)
        (show machineNext 2 61 = (4, [1]) by decide) _ _
    | cons b bs =>
      rw [List.cons_append, scanExec_next (q := 2) rfl (by decide)
        (isSpace_next (hbefore b (by simp))).1, scanExec_spaces (Or.inl rfl) fun c hc =>
          hbefore c (by simp [hc]), scanExec_next (q := 3) (t := 4) rfl (by decide)
        (show machineNext 3 61 = (4, []) by decide)]
      have hlen : name.length + 1 + bs.length + 1 = name.length + (b :: bs).length + 1 := by
        rw [List.length_cons]
        omega
      rw [hlen]
      rfl
  rw [hequals, scanExec_spaces (Or.inr rfl) hafter]
  rfl

/-! ## The value -/

/-- An integer is read to its end. -/
theorem scanExec_integer (sign : Sign) {digits : List UInt8} (hne : digits ≠ [])
    (h : ∀ c ∈ digits, isDigit c) (e v : Nat) :
    ReadsInt 0 e v (scanExec (scanAssigned e) v (sign.text ++ digits)) ∧
      (scanExec (scanAssigned e) v (sign.text ++ digits)).cs ∈ NumberStates := by
  have hfour : (4 : Nat) ∈ List.range' 1 12 := by decide
  -- whatever the number starts with, it goes on as a block of digits
  have hstart : ∀ (c : UInt8) (t : Nat) (rest : List UInt8), machineNext 4 c = (t, [2, 3]) →
      t ∈ NumberStates → (∀ d ∈ rest, isDigit d) →
      ReadsInt 0 e v (scanExec (scanAssigned e) v (c :: rest)) ∧
        (scanExec (scanAssigned e) v (c :: rest)).cs ∈ NumberStates := by
    intro c t rest hnext ht hrest
    rw [scanExec_next rfl hfour hnext]
    exact scanExec_digits (S := NumberStates) (t := 10) (by decide) (by decide)
      (fun c hc cs hcs => (isDigit_next hc).2 cs hcs) rest _ _ ht ⟨rfl, rfl, rfl, rfl⟩ hrest
  cases sign with
  | plus => exact hstart 43 7 digits (by decide) (by decide) h
  | minus => exact hstart 45 7 digits (by decide) (by decide) h
  | none =>
    obtain ⟨d, ds, rfl⟩ := List.exists_cons_of_ne_nil hne
    obtain ⟨⟨hstate, hacts⟩, -⟩ := isDigit_next (h d (by simp))
    exact hstart d (machineNext 4 d).1 ds (Prod.ext rfl hacts) hstate
      fun c hc => h c (by simp [hc])

/-- A hexadecimal number is read to its end. -/
theorem scanExec_hexadecimal {digits : List UInt8} (h : ∀ c ∈ digits, isXdigit c) (e v : Nat) :
    ReadsInt 0 e v (scanExec (scanAssigned e) v (48 :: 120 :: digits)) ∧
      (scanExec (scanAssigned e) v (48 :: 120 :: digits)).cs ∈ [8, 12] := by
  -- a zero may be a number of its own; the `x` behind it settles that
  rw [scanExec_next (q := 4) (t := 11) rfl (by decide) (show _ = (11, [2, 3]) by decide),
    scanExec_next (q := 11) (t := 8) rfl (by decide) (show _ = (8, [3]) by decide)]
  have hstate : (8 : Nat) ∈ [8, 12] := by decide
  exact scanExec_digits (S := [8, 12]) (t := 12) (by decide) (by decide)
    (fun c hc cs hcs => isXdigit_next hc cs hcs) digits _ _ hstate ⟨rfl, rfl, rfl, rfl⟩ h

/-- A string is read to its closing quote. -/
theorem scanExec_string {opening closing : UInt8} {body : List UInt8}
    (hquoted : isQuote opening ∧ isQuote closing) (hne : body ≠ [])
    (h : ∀ c ∈ body, isStrByte c) (e v : Nat) :
    scanExec (scanAssigned e) v (opening :: (body ++ [closing]))
      = { scanAssigned e with
          cs := 9, valueStart := some (v + 1), valueEnd := some (v + 1 + body.length)
          type := .str, string := some (v + 1) } := by
  obtain ⟨b, bs, rfl⟩ := List.exists_cons_of_ne_nil hne
  have hstay : ∀ s : Scan, s.cs = 6 → ∀ p, scanExec s p bs = s := by
    intro s hs p
    refine scanExec_stay (P := fun c => isStrByte c) (by rw [hs]; decide) (fun d hd => ?_) bs p
      fun d hd => h d (by simp [hd])
    rw [hs]
    exact (isStrByte_next hd).2.2
  -- the opening quote, the first byte, the other bytes, the closing quote
  rw [scanExec_next (q := 4) rfl (by decide) (isQuote_next hquoted.1).1, List.cons_append,
    scanExec_next (q := 5) rfl (by decide) (isStrByte_next (h b (by simp))).2.1, scanExec_append,
    hstay _ rfl, scanExec_next (q := 6) rfl (by decide) (isQuote_next hquoted.2).2]
  have hend : v + 1 + 1 + bs.length = v + 1 + (b :: bs).length := by
    rw [List.length_cons]
    omega
  rw [hend]
  rfl

/-- What a successful call hands to its caller: the name, and a value of the type it
reports. -/
def Assignment.Yields (start : List UInt8) (a : Assignment) (name : List UInt8) : Value → Prop
  | .int v => a.ret = 0 ∧ a.name = some 0 ∧ a.textAt start 0 = name ∧ a.type = .int ∧
      ∃ i, a.integer = some i ∧ i.toInt = v
  | .str s => a.ret = 0 ∧ a.name = some 0 ∧ a.textAt start 0 = name ∧ a.type = .str ∧
      ∃ o, a.string = some o ∧ a.textAt start o = s

theorem zero_notMem_of_isAlpha {name : List UInt8} (h : ∀ c ∈ name, isAlpha c) : 0 ∉ name :=
  fun hmem => absurd (h 0 hmem) (by decide)

/-- A value is written without a null byte. -/
theorem Literal.zero_notMem_text (l : Literal) : 0 ∉ l.text := by
  cases l with
  | integer sign digits _ hdigit =>
    intro hmem
    rcases List.mem_append.mp hmem with hsign | hdig
    · cases sign <;> simp [Sign.text] at hsign
    · exact absurd (hdigit 0 hdig) (by decide)
  | hexadecimal digits _ hxdigit =>
    intro hmem
    have hdig : 0 ∈ digits := by simpa [Literal.text] using hmem
    exact absurd (hxdigit 0 hdig) (by decide)
  | string opening closing body hquoted _ hbody =>
    intro hmem
    have hquote : ¬ isQuote 0 := by decide
    rcases List.mem_cons.mp hmem with hopen | hrest
    · exact hquote (hopen ▸ hquoted.1)
    · rcases List.mem_append.mp hrest with hin | hclose
      · exact (isStrByte_next (hbody 0 hin)).1 rfl
      · exact hquote (List.mem_singleton.mp hclose ▸ hquoted.2)

theorem Assignment.Yields.common {start name : List UInt8} {a : Assignment} {v : Value}
    (h : a.Yields start name v) : a.ret = 0 ∧ a.name = some 0 ∧ a.textAt start 0 = name := by
  cases v with
  | int v => exact ⟨h.1, h.2.1, h.2.2.1⟩
  | str s => exact ⟨h.1, h.2.1, h.2.2.1⟩

/-- A call hands over one value. -/
theorem Assignment.Yields.unique {start name : List UInt8} {a : Assignment} {v w : Value}
    (hv : a.Yields start name v) (hw : a.Yields start name w) : v = w := by
  cases v with
  | int v =>
    obtain ⟨-, -, -, htype, i, hi, rfl⟩ := hv
    cases w with
    | int w =>
      obtain ⟨-, -, -, -, j, hj, rfl⟩ := hw
      rw [Option.some.inj (hi.symm.trans hj)]
    | str t => exact absurd (htype.symm.trans hw.2.2.2.1) nofun
  | str s =>
    obtain ⟨-, -, -, htype, o, ho, rfl⟩ := hv
    cases w with
    | int w => exact absurd (htype.symm.trans hw.2.2.2.1) nofun
    | str t =>
      obtain ⟨-, -, -, -, o', ho', rfl⟩ := hw
      rw [Option.some.inj (ho.symm.trans ho')]

/-- The byte behind the name. -/
theorem AssignmentText.exists_behind_name (x : AssignmentText) :
    ∃ c rest, x.text = x.name ++ c :: rest := by
  unfold AssignmentText.text
  cases x.before with
  | nil => exact ⟨61, _, rfl⟩
  | cons b bs => exact ⟨b, _, rfl⟩

/-- The name in memory, with its null byte and perhaps another one behind it. -/
theorem AssignmentText.cstr_name (x : AssignmentText) (behind : List UInt8) {more : List Nat}
    (hmore : ∀ o ∈ more, x.name.length < o) :
    cstr ((setZeros (x.text ++ behind) (x.name.length :: more)).drop 0) = x.name := by
  obtain ⟨c, rest, htext⟩ := x.exists_behind_name
  obtain ⟨rest', hset⟩ := Lib.setZeros_word x.name c (rest ++ behind) hmore
  rw [List.drop_zero, htext, List.append_assoc, List.cons_append, hset]
  exact Lib.cstr_append_zero (zero_notMem_of_isAlpha x.alpha) rest'

theorem AssignmentText.drop_valueOffset (x : AssignmentText) (behind : List UInt8) :
    (x.text ++ behind).drop x.valueOffset = x.literal.text ++ behind := by
  have hsplit : x.text = (x.name ++ (x.before ++ 61 :: x.after)) ++ x.literal.text := by
    simp [AssignmentText.text]
  have hlen : (x.name ++ (x.before ++ 61 :: x.after)).length = x.valueOffset := by
    simp [AssignmentText.valueOffset]
    omega
  rw [hsplit, ← hlen, List.append_assoc, List.drop_left]

theorem AssignmentText.name_lt_valueOffset (x : AssignmentText) :
    x.name.length < x.valueOffset := by
  unfold AssignmentText.valueOffset
  omega

/-- White space holds no null byte. -/
theorem zero_notMem_of_isSpace {sp : List UInt8} (h : ∀ c ∈ sp, isSpace c) : 0 ∉ sp :=
  fun hmem => absurd (h 0 hmem) (by decide)

/-- The scan of an assignment goes on behind its value. -/
theorem scanExec_padded (x : AssignmentText) (behind : List UInt8) :
    scanExec scanInit 0 (x.text ++ behind)
      = scanExec (scanExec (scanAssigned x.name.length) x.valueOffset x.literal.text)
          (x.valueOffset + x.literal.text.length) behind := by
  rw [← scanExec_append, ← scanExec_assigned x]
  simp only [AssignmentText.text, List.append_assoc, List.cons_append]

section Padded

variable (x : AssignmentText) {behind : List UInt8} (hbehind : ∀ c ∈ behind, isSpace c)
include hbehind

/-- A number, once its end is reached, is handed to `strtol`. -/
theorem parseValue_readsInt {s : Scan} (hs : scanExec scanInit 0 (x.text ++ behind) = s)
    (h : ReadsInt 0 x.name.length x.valueOffset s) :
    ∃ a, parseAssignment (x.text ++ behind) = some a ∧
      a.Yields (x.text ++ behind) x.name (.int (strtol x.literal.text).toInt) := by
  have hnul : 0 ∉ x.literal.text ++ behind := by
    rw [List.mem_append, not_or]
    exact ⟨x.literal.zero_notMem_text, zero_notMem_of_isSpace hbehind⟩
  have hread : cstr ((setZeros (x.text ++ behind) [x.name.length]).drop x.valueOffset)
      = x.literal.text ++ behind := by
    rw [Lib.drop_setZeros (by simpa using x.name_lt_valueOffset), x.drop_valueOffset]
    exact Lib.cstr_of_notMem hnul
  refine ⟨⟨0, s.name, .int, s.string, some (strtol x.literal.text), [x.name.length]⟩, ?_, rfl,
    h.name,
    x.cstr_name behind nofun, rfl, strtol x.literal.text, rfl, rfl⟩
  simp only [parseAssignment, hs, Scan.nameNulls, h.name, h.nameEnd, parseValue, h.type,
    h.valueStart, Option.map_some, hread, Lib.strtol_append_spaces hbehind]

/-- **An assignment is parsed**: the identifier, and the value as it is stored. White space
behind the value, which the grammar does not have, is not looked at. -/
theorem parseAssignment_padded :
    ∃ a, parseAssignment (x.text ++ behind) = some a ∧
      a.Yields (x.text ++ behind) x.name x.literal.stored := by
  have hscan := scanExec_padded x behind
  cases hl : x.literal with
  | integer sign digits hdne hdigit =>
    obtain ⟨hread, hstate⟩ := scanExec_integer sign hdne hdigit x.name.length x.valueOffset
    have hvalue : ∀ cs ∈ NumberStates, cs ∈ ValueStates := by decide
    have hend := hread.behind (hvalue _ hstate) hbehind (x.valueOffset + x.literal.text.length)
    rw [show sign.text ++ digits = x.literal.text by rw [hl]; rfl, ← hscan] at hend
    have hparse := parseValue_readsInt x hbehind rfl hend
    rw [hl] at hparse
    exact hparse
  | hexadecimal digits hdne hxdigit =>
    obtain ⟨hread, hstate⟩ := scanExec_hexadecimal hxdigit x.name.length x.valueOffset
    have hvalue : ∀ cs ∈ [8, 12], cs ∈ ValueStates := by decide
    have hend := hread.behind (hvalue _ hstate) hbehind (x.valueOffset + x.literal.text.length)
    rw [show 48 :: 120 :: digits = x.literal.text by rw [hl]; rfl, ← hscan] at hend
    have hparse := parseValue_readsInt x hbehind rfl hend
    rw [hl] at hparse
    exact hparse
  | string opening closing body hquoted hbne hbody =>
    have hnul : 0 ∉ body := fun hmem => (isStrByte_next (hbody 0 hmem)).1 rfl
    have hlt := x.name_lt_valueOffset
    have hstr := scanExec_string hquoted hbne hbody x.name.length x.valueOffset
    have htext : x.literal.text = opening :: (body ++ [closing]) := by rw [hl]; rfl
    rw [← htext] at hstr
    rw [hstr] at hscan
    obtain ⟨cs, hcs⟩ := scanExec_behind (s := { scanAssigned x.name.length with
        cs := 9, valueStart := some (x.valueOffset + 1)
        valueEnd := some (x.valueOffset + 1 + body.length)
        type := .str, string := some (x.valueOffset + 1) })
      (by show 9 ∈ ValueStates; decide) hbehind (x.valueOffset + x.literal.text.length)
    rw [hcs] at hscan
    -- the string, in front of it everything up to the opening quote, behind it the closing one
    have hsplit : x.text ++ behind
        = (x.name ++ (x.before ++ 61 :: (x.after ++ [opening]))) ++ body ++ closing :: behind := by
      unfold AssignmentText.text
      rw [hl]
      simp [Literal.text]
    have hbefore : (x.name ++ (x.before ++ 61 :: (x.after ++ [opening]))).length
        = x.valueOffset + 1 := by
      simp [AssignmentText.valueOffset]
      omega
    have hstop : (x.name ++ (x.before ++ 61 :: (x.after ++ [opening])) ++ body).length
        = x.valueOffset + 1 + body.length := by
      rw [List.length_append, hbefore]
    have hdrop := Lib.drop_setZeros_run (x.name ++ (x.before ++ 61 :: (x.after ++ [opening]))) body
      closing behind (e := x.name.length) (by omega)
    rw [← hsplit, hstop, hbefore] at hdrop
    refine ⟨⟨0, some 0, .str, some (x.valueOffset + 1), none,
      [x.name.length, x.valueOffset + 1 + body.length]⟩, ?_, rfl, rfl, ?_, rfl,
      x.valueOffset + 1, rfl, ?_⟩
    · unfold parseAssignment
      rw [hscan]
      rfl
    · refine x.cstr_name behind fun o ho => ?_
      obtain rfl := List.mem_singleton.mp ho
      omega
    · show cstr ((setZeros (x.text ++ behind) _).drop _) = body
      rw [hdrop]
      exact Lib.cstr_append_zero hnul behind

end Padded

/-- An assignment with nothing behind it. -/
theorem parseAssignment_assigned (x : AssignmentText) :
    ∃ a, parseAssignment x.text = some a ∧ a.Yields x.text x.name x.literal.stored := by
  have hparse := parseAssignment_padded x isSpace_of_mem_nil
  rw [List.append_nil] at hparse
  exact hparse

/-! ## What was written -/

/-- The value is a string, or a number that fits in `int`. -/
def Literal.InRange : Literal → Prop
  | .integer sign digits _ _ => InIntRange (sign.apply (digitsValue 10 digits))
  | .hexadecimal digits _ _ => InIntRange (digitsValue 16 digits)
  | .string .. => True

/-- A decimal number of eight or more that is written with a leading zero. -/
def Literal.LeadingZero : Literal → Prop
  | .integer _ digits _ _ => digits.head? = some 48 ∧ 8 ≤ digitsValue 10 digits
  | _ => False

theorem Literal.exact_iff (l : Literal) : l.Exact ↔ l.InRange ∧ ¬ l.LeadingZero := by
  cases l with
  | integer sign digits _ _ =>
    unfold Literal.Exact Literal.InRange Literal.LeadingZero
    rw [not_and_or, Nat.not_le]
  | hexadecimal digits _ _ => exact ⟨fun h => ⟨h, id⟩, And.left⟩
  | string => exact ⟨fun h => ⟨h, id⟩, And.left⟩

/-- The call hands over the identifier, and the value that was written if it is in range. -/
def Computes (x : AssignmentText) : Prop :=
  ∃ a, parseAssignment x.text = some a ∧ a.name = some 0 ∧ a.textAt x.text 0 = x.name ∧
    (x.literal.InRange → a.Yields x.text x.name x.literal.value)

/-- **The value that was written.** `parse_assignment` computes it for every assignment
but those of a decimal number in range with a misleading zero. -/
theorem parseAssignment_computes_iff (x : AssignmentText) :
    Computes x ↔ ¬ (x.literal.InRange ∧ x.literal.LeadingZero) := by
  obtain ⟨a, ha, hyields⟩ := parseAssignment_assigned x
  obtain ⟨-, hname, htext⟩ := hyields.common
  constructor
  · intro h hzero
    obtain ⟨a', ha', -, -, hvalue⟩ := h
    obtain rfl : a' = a := Option.some.inj (ha'.symm.trans ha)
    have hexact := x.literal.stored_eq_value_iff.mp (hyields.unique (hvalue hzero.1))
    exact (x.literal.exact_iff.mp hexact).2 hzero.2
  · intro h
    refine ⟨a, ha, hname, htext, fun hrange => ?_⟩
    have hexact := x.literal.exact_iff.mpr ⟨hrange, fun hzero => h ⟨hrange, hzero⟩⟩
    rw [← x.literal.stored_eq_value_iff.mpr hexact]
    exact hyields

/-- The number ten, written with a leading zero. -/
def leadingZeroTen : AssignmentText :=
  { name := [65], before := [], after := [], literal := .integer .none [48, 49, 48] (by decide)
      (Lib.forall_mem_of_all (by decide)), nonempty := by decide
    alpha := Lib.forall_mem_of_all (by decide), before_space := isSpace_of_mem_nil
    after_space := isSpace_of_mem_nil }

/-- `A=010` is taken for eight. -/
theorem not_computes_leadingZero : leadingZeroTen.text = [65, 61, 48, 49, 48] ∧
    ¬ Computes leadingZeroTen := by
  have hrange : leadingZeroTen.literal.InRange := by
    show InIntRange 10
    decide
  have hread : (parseAssignment leadingZeroTen.text).map Assignment.integer = some (some 8) := by
    decide +kernel
  refine ⟨rfl, fun h => ?_⟩
  obtain ⟨a, ha, -, -, hvalue⟩ := h
  obtain ⟨-, -, -, -, i, hi, hten⟩ := hvalue hrange
  rw [ha, Option.map_some, hi, Option.some.injEq, Option.some.injEq] at hread
  rw [hread] at hten
  exact absurd hten (by decide)

end Datalogger
