import Datalogger.Command.ParseAssignment

/-!
# The assignment machine, read back from its tables

`machineNext` is the machine the tables of `parse_assignment.c` encode, one line for
each state; `assignmentNext_eq` checks the two searches and six tables against it for
every state and byte. It moves in ten ways (`Move`), and what is preserved along a text
is preserved by each.

`ScanInv` is what holds of the scanner's variables at every byte, on any text: it never
follows a null pointer, and every byte it overwrites lies inside the string.
-/

namespace Datalogger

open Lib (cstr setZeros strtol isSpace isAlpha isDigit isXdigit forall_byte)

/-! ## The transitions -/

/-- The bytes of a string value. -/
def isStrByte (c : UInt8) : Bool := isSpace c || isDigit c || isAlpha c

/-- Either quote opens or closes a string. -/
def isQuote (c : UInt8) : Bool := c = 34 || c = 39

/-- `+` or `-`. -/
def isSign (c : UInt8) : Bool := c = 43 || c = 45

/-- The machine the tables encode. -/
def machineNext : Nat → UInt8 → Nat × List Nat
  | 1, c => if isAlpha c then (2, [0]) else (0, [])
  | 2, c =>
    if isSpace c then (3, [1]) else if c = 61 then (4, [1])
    else if isAlpha c then (2, []) else (0, [])
  | 3, c => if isSpace c then (3, []) else if c = 61 then (4, []) else (0, [])
  | 4, c =>
    if isSpace c then (4, []) else if isQuote c then (5, [])
    else if isSign c then (7, [2, 3]) else if c = 48 then (11, [2, 3])
    else if isDigit c then (10, [2, 3]) else (0, [])
  | 5, c => if isStrByte c then (6, [4]) else (0, [])
  | 6, c => if isStrByte c then (6, []) else if isQuote c then (9, [5]) else (0, [])
  | 7, c => if isDigit c then (10, [3]) else (0, [])
  | 8, c => if isXdigit c then (12, [3]) else (0, [])
  | 10, c => if isDigit c then (10, [3]) else (0, [])
  | 11, c => if c = 120 then (8, [3]) else if isDigit c then (10, [3]) else (0, [])
  | 12, c => if isXdigit c then (12, [3]) else (0, [])
  | _, _ => (0, [])

/-- **The tables encode the machine.** -/
theorem assignmentNext_eq {cs : Nat} (h : cs ∈ List.range' 1 12) (c : UInt8) :
    assignmentNext cs c = machineNext cs c := by
  have hall : ∀ cs ∈ List.range' 1 12, ∀ n ∈ List.range 256,
      assignmentNext cs (UInt8.ofNat n) = machineNext cs (UInt8.ofNat n) := by decide +kernel
  exact forall_byte (P := fun c => assignmentNext cs c = machineNext cs c) (hall cs h) c

/-! ## Its moves -/

/-- What ends an identifier: white space or `=`. -/
def endsName (c : UInt8) : Bool := isSpace c || c = 61

/-- One byte `c` in state `cs`: the state it leads to and the actions it runs. -/
inductive Move : Nat → UInt8 → Nat × List Nat → Prop where
  | fail {cs : Nat} {c : UInt8} : Move cs c (0, [])
  | beginName {c : UInt8} (h : isAlpha c) : Move 1 c (2, [0])
  | goOnName {c : UInt8} (h : isAlpha c) : Move 2 c (2, [])
  | endName {c : UInt8} {t : Nat} (h : endsName c) (ht : 3 ≤ t ∧ t ≤ 4) : Move 2 c (t, [1])
  | beforeValue {cs : Nat} {c : UInt8} {t : Nat} (hcs : 3 ≤ cs ∧ cs ≤ 4) (ht : 3 ≤ t ∧ t ≤ 5) :
      Move cs c (t, [])
  | beginNumber {c : UInt8} {t : Nat} (ht : 7 ≤ t ∧ t ≤ 12) : Move 4 c (t, [2, 3])
  | goOnNumber {cs : Nat} {c : UInt8} {t : Nat} (hcs : 7 ≤ cs) (ht : 7 ≤ t ∧ t ≤ 12) :
      Move cs c (t, [3])
  | beginString {c : UInt8} (h : isStrByte c) : Move 5 c (6, [4])
  | goOnString {c : UInt8} (h : isStrByte c) : Move 6 c (6, [])
  | endString {c : UInt8} : Move 6 c (9, [5])

/-- A state of a number: the bytes of one class go on with it. -/
theorem move_number {P : Prop} [Decidable P] {cs t : Nat} {c : UInt8} {m : Nat × List Nat}
    (hcs : 7 ≤ cs) (ht : 7 ≤ t ∧ t ≤ 12) (hm : Move cs c m) :
    Move cs c (if P then (t, [3]) else m) := by
  split
  next => exact .goOnNumber hcs ht
  next => exact hm

/-- A move leads to a state of the machine. -/
theorem Move.state_le {cs : Nat} {c : UInt8} {m : Nat × List Nat} (h : Move cs c m) : m.1 ≤ 12 := by
  cases h with
  | fail | beginName | goOnName | beginString | goOnString | endString => decide
  | endName _ ht | beforeValue _ ht | beginNumber ht | goOnNumber _ ht =>
    exact ht.2.trans (by decide)

/-- **The machine makes these moves.** -/
theorem machineNext_move {cs : Nat} (h : cs ∈ List.range' 1 12) (c : UInt8) :
    Move cs c (machineNext cs c) := by
  have hcs : cs = 1 ∨ cs = 2 ∨ cs = 3 ∨ cs = 4 ∨ cs = 5 ∨ cs = 6 ∨ cs = 7 ∨ cs = 8 ∨ cs = 9 ∨
      cs = 10 ∨ cs = 11 ∨ cs = 12 := by
    have h := List.mem_range'_1.mp h
    omega
  rcases hcs with rfl | rfl | rfl | rfl | rfl | rfl | rfl | rfl | rfl | rfl | rfl | rfl
  · simp only [machineNext]
    split
    next hc => exact .beginName hc
    next => exact .fail
  · simp only [machineNext]
    split
    next hs => exact .endName (by simp [endsName, hs]) (by decide)
    next =>
      split
      next he => exact .endName (by simp [endsName, he]) (by decide)
      next =>
        split
        next hc => exact .goOnName hc
        next => exact .fail
  · simp only [machineNext]
    split
    next => exact .beforeValue (by decide) (by decide)
    next =>
      split
      next => exact .beforeValue (by decide) (by decide)
      next => exact .fail
  · simp only [machineNext]
    split
    next => exact .beforeValue (by decide) (by decide)
    next =>
      split
      next => exact .beforeValue (by decide) (by decide)
      next =>
        -- a sign, a zero or another digit
        split
        next => exact .beginNumber (by decide)
        next =>
          split
          next => exact .beginNumber (by decide)
          next =>
            split
            next => exact .beginNumber (by decide)
            next => exact .fail
  · simp only [machineNext]
    split
    next hb => exact .beginString hb
    next => exact .fail
  · simp only [machineNext]
    split
    next hb => exact .goOnString hb
    next =>
      split
      next => exact .endString
      next => exact .fail
  · exact move_number (by decide) (by decide) .fail
  · exact move_number (by decide) (by decide) .fail
  · exact .fail
  · exact move_number (by decide) (by decide) .fail
  · exact move_number (by decide) (by decide) (move_number (by decide) (by decide) .fail)
  · exact move_number (by decide) (by decide) .fail

/-- What one byte can do, for the invariant: fail, stay among the bytes it is in, pass
to the blanks around `=`, begin or end the name, or touch the value. -/
def IsMove (cs : Nat) (m : Nat × List Nat) : Prop :=
  m = (0, []) ∨
  m = (cs, []) ∨
  (m.2 = [] ∧ 3 ≤ cs ∧ 3 ≤ m.1 ∧ m.1 ≤ 5) ∨
  m = (2, [0]) ∨
  (m.2 = [1] ∧ cs = 2 ∧ 3 ≤ m.1 ∧ m.1 ≤ 5) ∨
  ((m.2 = [2, 3] ∨ m.2 = [4]) ∧ 3 ≤ cs ∧ 6 ≤ m.1 ∧ m.1 ≤ 12) ∨
  ((m.2 = [3] ∨ m.2 = [5]) ∧ 6 ≤ cs ∧ 6 ≤ m.1 ∧ m.1 ≤ 12)

instance (cs : Nat) (m : Nat × List Nat) : Decidable (IsMove cs m) :=
  inferInstanceAs (Decidable (_ ∨ _))

theorem Move.isMove {cs : Nat} {c : UInt8} {m : Nat × List Nat} (h : Move cs c m) :
    IsMove cs m := by
  unfold IsMove
  cases h with
  | fail => exact Or.inl rfl
  | goOnName | goOnString => exact Or.inr (Or.inl rfl)
  | beforeValue hcs ht => exact Or.inr (Or.inr (Or.inl ⟨rfl, hcs.1, ht⟩))
  | beginName => exact Or.inr (Or.inr (Or.inr (Or.inl rfl)))
  | endName _ ht =>
    exact Or.inr (Or.inr (Or.inr (Or.inr (Or.inl ⟨rfl, rfl, ht.1, Nat.le_succ_of_le ht.2⟩))))
  | beginNumber ht =>
    have hvalue : 6 ≤ _ ∧ _ ≤ 12 := ⟨Nat.le_of_succ_le ht.1, ht.2⟩
    exact Or.inr (Or.inr (Or.inr (Or.inr (Or.inr (Or.inl ⟨Or.inl rfl, by decide, hvalue⟩)))))
  | goOnNumber hcs ht =>
    have hvalue : 6 ≤ _ ∧ _ ≤ 12 := ⟨Nat.le_of_succ_le ht.1, ht.2⟩
    exact Or.inr (Or.inr (Or.inr (Or.inr (Or.inr (Or.inr
      ⟨Or.inl rfl, Nat.le_of_succ_le hcs, hvalue⟩)))))
  | beginString | endString => decide

theorem machineNext_isMove {cs : Nat} (h : cs ∈ List.range' 1 12) (c : UInt8) :
    IsMove cs (machineNext cs c) := (machineNext_move h c).isMove

/-- A step, in terms of the machine. -/
theorem Scan.step_eq {s : Scan} (h : s.cs ∈ List.range' 1 12) (p : Nat) (c : UInt8) :
    s.step p c
      = (machineNext s.cs c).2.foldl (Scan.act p) { s with cs := (machineNext s.cs c).1 } := by
  unfold Scan.step
  rw [assignmentNext_eq h]

/-- The scanner on its next byte. -/
theorem scanExec_next {s : Scan} {q t : Nat} {acts : List Nat} {c : UInt8} (hcs : s.cs = q)
    (hmem : q ∈ List.range' 1 12) (hnext : machineNext q c = (t, acts)) (p : Nat)
    (rest : List UInt8) :
    scanExec s p (c :: rest)
      = scanExec (acts.foldl (Scan.act p) { s with cs := t }) (p + 1) rest := by
  subst hcs
  have hpos := (List.mem_range'_1.mp hmem).1
  rw [scanExec, if_neg (by omega), Scan.step_eq hmem, hnext]

/-! ## The scanner's invariant -/

/-- What holds of the variables when the scanner stands at offset `p`: a pointer the
code will follow has been set, and what it will overwrite lies before `p`. -/
structure ScanInv (p : Nat) (s : Scan) : Prop where
  cs_le : s.cs ≤ 12
  nameStart : s.cs = 2 → s.nameStart.isSome
  name : 3 ≤ s.cs → s.name.isSome
  nameEnd : s.name.isSome → ∃ e, s.nameEnd = some e ∧ e < p
  valueStart : 6 ≤ s.cs → s.valueStart.isSome
  intValue : s.type = .int → s.name.isSome ∧ s.valueStart.isSome
  strValue : s.type = .str → s.name.isSome ∧ s.string.isSome ∧ ∃ e, s.valueEnd = some e ∧ e < p

theorem ScanInv.mono {p q : Nat} {s : Scan} (h : ScanInv p s) (hpq : p ≤ q) : ScanInv q s where
  cs_le := h.cs_le
  nameStart := h.nameStart
  name := h.name
  nameEnd := fun hn => by
    obtain ⟨e, he, hlt⟩ := h.nameEnd hn
    exact ⟨e, he, by omega⟩
  valueStart := h.valueStart
  intValue := h.intValue
  strValue := fun ht => by
    obtain ⟨hn, hs, e, he, hlt⟩ := h.strValue ht
    exact ⟨hn, hs, e, he, by omega⟩

theorem scanInit_inv : ScanInv 0 scanInit := by
  refine ⟨?_, ?_, ?_, ?_, ?_, ?_, ?_⟩ <;> decide

/-- A move that sets no variable only has to say which state it enters. -/
theorem ScanInv.enter {p : Nat} {s : Scan} (h : ScanInv p s) {t : Nat} (ht : t ≤ 12)
    (hnameStart : t = 2 → s.nameStart.isSome) (hname : 3 ≤ t → s.name.isSome)
    (hvalueStart : 6 ≤ t → s.valueStart.isSome) : ScanInv p { s with cs := t } :=
  ⟨ht, hnameStart, hname, h.nameEnd, hvalueStart, h.intValue, h.strValue⟩

/-- **One byte keeps the invariant.** -/
theorem ScanInv.move {p : Nat} {s : Scan} (h : ScanInv p s) {m : Nat × List Nat}
    (hm : IsMove s.cs m) : ScanInv (p + 1) (m.2.foldl (Scan.act p) { s with cs := m.1 }) := by
  obtain ⟨t, acts⟩ := m
  have hnext := h.mono (Nat.le_succ p)
  -- one case for each kind of move, in the order of `IsMove`
  rcases hm with hfail | hstay | ⟨hacts, hcs, ht3, ht5⟩ | hbegin | ⟨hacts, hcs, ht3, ht5⟩ |
    ⟨hacts, hcs, ht6, ht⟩ | ⟨hacts, hcs, ht6, ht⟩
  · obtain ⟨rfl, rfl⟩ := Prod.mk.inj hfail
    exact hnext.enter (by omega) (by omega) (by omega) (by omega)
  · obtain ⟨rfl, rfl⟩ := Prod.mk.inj hstay
    exact hnext
  · obtain rfl : acts = [] := hacts
    have ht3 : 3 ≤ t := ht3
    have ht5 : t ≤ 5 := ht5
    exact hnext.enter (by omega) (by omega) (fun _ => h.name hcs) (by omega)
  · obtain ⟨rfl, rfl⟩ := Prod.mk.inj hbegin
    have hset : ScanInv (p + 1) { s with nameStart := some p } :=
      ⟨hnext.cs_le, fun _ => rfl, hnext.name, hnext.nameEnd, hnext.valueStart, hnext.intValue,
        hnext.strValue⟩
    exact hset.enter (t := 2) (by decide) (fun _ => rfl) (by omega) (by omega)
  · obtain rfl : acts = [1] := hacts
    have ht3 : 3 ≤ t := ht3
    have ht5 : t ≤ 5 := ht5
    have hname : s.nameStart.isSome := h.nameStart hcs
    exact ⟨by show t ≤ 12; omega, fun _ => hname, fun _ => hname,
      fun _ => ⟨p, rfl, Nat.lt_succ_self p⟩, fun hc => by have hc : 6 ≤ t := hc; omega,
      fun hty => ⟨hname, (hnext.intValue hty).2⟩, fun hty => ⟨hname, (hnext.strValue hty).2⟩⟩
  · have ht6 : 6 ≤ t := ht6
    have hname : s.name.isSome := h.name hcs
    -- both actions start the value here, `[2, 3]` an integer and `[4]` a string
    rcases hacts with hacts | hacts
    · obtain rfl : acts = [2, 3] := hacts
      exact ⟨ht, fun hc => by have hc : t = 2 := hc; omega, fun _ => hname, hnext.nameEnd,
        fun _ => rfl, fun _ => ⟨hname, rfl⟩, nofun⟩
    · obtain rfl : acts = [4] := hacts
      exact ⟨ht, fun hc => by have hc : t = 2 := hc; omega, fun _ => hname, hnext.nameEnd,
        fun _ => rfl, fun _ => ⟨hname, rfl⟩, hnext.strValue⟩
  · have ht6 : 6 ≤ t := ht6
    have hname : s.name.isSome := h.name (by omega)
    have hvalue : s.valueStart.isSome := h.valueStart hcs
    -- the value goes on or ends here
    rcases hacts with hacts | hacts
    · obtain rfl : acts = [3] := hacts
      exact ⟨ht, fun hc => by have hc : t = 2 := hc; omega, fun _ => hname, hnext.nameEnd,
        fun _ => hvalue, fun _ => ⟨hname, hvalue⟩, nofun⟩
    · obtain rfl : acts = [5] := hacts
      exact ⟨ht, fun hc => by have hc : t = 2 := hc; omega, fun _ => hname, hnext.nameEnd,
        fun _ => hvalue, nofun, fun _ => ⟨hname, hvalue, p, rfl, Nat.lt_succ_self p⟩⟩

/-- The scanner keeps its invariant over any text. -/
theorem scanExec_inv :
    ∀ (text : List UInt8) {p : Nat} {s : Scan}, ScanInv p s →
      ScanInv (p + text.length) (scanExec s p text) := by
  intro text
  induction text with
  | nil => intro p s h; exact h
  | cons c text ih =>
    intro p s h
    rw [scanExec, List.length_cons]
    -- state 0 is the error state, in which the loop is left
    by_cases hcs : s.cs = 0
    · rw [if_pos hcs]
      exact h.mono (by omega)
    · rw [if_neg hcs]
      have hle := h.cs_le
      have hmem : s.cs ∈ List.range' 1 12 := List.mem_range'_1.mpr (by omega)
      have hstep : ScanInv (p + 1) (s.step p c) := by
        rw [Scan.step_eq hmem]
        exact h.move (machineNext_isMove hmem c)
      have hrest := ih hstep
      rw [Nat.add_assoc, Nat.add_comm 1] at hrest
      exact hrest

/-- What the caller of `parse_assignment` sees of the scanner's variables. -/
structure ReportsScan (s : Scan) (a : Assignment) : Prop where
  name : a.name = s.name
  type : a.type = s.type
  string : a.string = s.string
  ret : a.ret = 0 ∧ s.type ≠ .none ∨ a.ret = -1 ∧ s.type = .none
  nulls : ∃ nulls, s.nameNulls = some nulls ∧
    (s.type ≠ .str ∧ a.nulls = nulls ∨
      ∃ e, s.type = .str ∧ s.valueEnd = some e ∧ a.nulls = nulls ++ [e])

theorem parseAssignment_reports {start : List UInt8} {a : Assignment}
    (h : parseAssignment start = some a) : ReportsScan (scanExec scanInit 0 start) a := by
  unfold parseAssignment at h
  generalize scanExec scanInit 0 start = s at h
  cases hnulls : s.nameNulls with
  | none => simp [hnulls] at h
  | some nulls =>
    simp only [hnulls] at h
    unfold parseValue at h
    cases htype : s.type with
    | none =>
      simp only [htype, Option.some.injEq] at h
      subst h
      exact ⟨rfl, htype.symm, rfl, Or.inr ⟨rfl, htype⟩,
        nulls, hnulls, Or.inl ⟨by rw [htype]; nofun, rfl⟩⟩
    | int =>
      simp only [htype, Option.map_eq_some_iff] at h
      obtain ⟨v, -, rfl⟩ := h
      exact ⟨rfl, htype.symm, rfl, Or.inl ⟨rfl, by rw [htype]; nofun⟩,
        nulls, hnulls, Or.inl ⟨by rw [htype]; nofun, rfl⟩⟩
    | str =>
      simp only [htype, Option.map_eq_some_iff] at h
      obtain ⟨e, he, rfl⟩ := h
      exact ⟨rfl, htype.symm, rfl, Or.inl ⟨rfl, by rw [htype]; nofun⟩,
        nulls, hnulls, Or.inr ⟨e, htype, he, rfl⟩⟩

/-- What `parse_assignment` returns on any string, and that it overwrites nothing
outside it. -/
structure ParseSafe (start : List UInt8) (a : Assignment) : Prop where
  nulls : ∀ o ∈ a.nulls, o < start.length
  ret : a.ret = 0 ∨ a.ret = -1
  value : a.ret = 0 → a.name.isSome ∧
    ((a.type = .int ∧ a.integer.isSome) ∨ (a.type = .str ∧ a.string.isSome))

/-- **`parse_assignment` is safe**: on every string it returns, without following a null
pointer. -/
theorem parseAssignment_safe (start : List UInt8) :
    ∃ a, parseAssignment start = some a ∧ ParseSafe start a := by
  have hinv : ScanInv start.length (scanExec scanInit 0 start) := by
    have h := scanExec_inv start scanInit_inv
    rw [Nat.zero_add] at h
    exact h
  unfold parseAssignment
  generalize scanExec scanInit 0 start = s at hinv
  -- `name_end` is set whenever `*name` is, and to an offset inside the text
  have hnulls : ∃ nulls, s.nameNulls = some nulls ∧ ∀ o ∈ nulls, o < start.length := by
    unfold Scan.nameNulls
    cases hname : s.name with
    | none => exact ⟨[], rfl, by simp⟩
    | some n =>
      obtain ⟨e, he, hlt⟩ := hinv.nameEnd (by rw [hname]; rfl)
      rw [he]
      refine ⟨[e], rfl, fun o ho => ?_⟩
      obtain rfl := List.mem_singleton.mp ho
      exact hlt
  obtain ⟨nulls, hsome, hlt⟩ := hnulls
  simp only [hsome]
  unfold parseValue
  cases htype : s.type with
  | none =>
    have hne : ¬ (-1 : Int32) = 0 := by decide
    exact ⟨_, rfl, hlt, Or.inr rfl, fun h0 => absurd h0 hne⟩
  | int =>
    obtain ⟨hname, hvalue⟩ := hinv.intValue htype
    obtain ⟨v, hv⟩ := Option.isSome_iff_exists.mp hvalue
    rw [hv]
    exact ⟨_, rfl, hlt, Or.inl rfl, fun _ => ⟨hname, Or.inl ⟨rfl, rfl⟩⟩⟩
  | str =>
    obtain ⟨hname, hstring, e, he, helt⟩ := hinv.strValue htype
    rw [he]
    refine ⟨_, rfl, ?_, Or.inl rfl, fun _ => ⟨hname, Or.inr ⟨rfl, hstring⟩⟩⟩
    intro o ho
    rcases List.mem_append.mp ho with hold | hlast
    · exact hlt o hold
    · obtain rfl := List.mem_singleton.mp hlast
      exact helt

end Datalogger
