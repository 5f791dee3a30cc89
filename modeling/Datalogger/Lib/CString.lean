import Mathlib.Data.List.TakeWhile

/-!
# C strings

A C string is the bytes of a memory from a pointer up to the first null byte.
`cstr` cuts a memory there; what comes out is a list without a null byte, and the
functions of `<string.h>` and `<ctype.h>` are defined on such lists, reading the
end of the list as the terminator.

`CharArray n` is a `char[n]` that holds a null-terminated string: the text, with the
proof that it and its terminator fit. The bytes behind the terminator are left out,
as no string function reads them.

Mirroring notes:
- `char` is unsigned on the target, and bytes from 128 on are no white space in the
  C locale either way.
-/

namespace Datalogger.Lib

/-- The bytes of a string literal. -/
def ascii (s : String) : List UInt8 := s.toList.map (fun c => c.toNat.toUInt8)

/-- A fact about every byte may be checked byte by byte. -/
theorem forall_byte {P : UInt8 → Prop} (h : ∀ n ∈ List.range 256, P (UInt8.ofNat n)) (c : UInt8) :
    P c := by
  have hc := h c.toNat (List.mem_range.mpr c.toNat_lt)
  rw [UInt8.ofNat_toNat] at hc
  exact hc

/-- A fact about the bytes of a text may be checked along the text. -/
theorem forall_mem_of_all {P : UInt8 → Prop} [DecidablePred P] {s : List UInt8}
    (h : s.all (fun c => decide (P c)) = true) : ∀ c ∈ s, P c :=
  fun c hc => of_decide_eq_true (List.all_eq_true.mp h c hc)

/-- The C string at the start of a memory. -/
def cstr (mem : List UInt8) : List UInt8 := mem.takeWhile (· ≠ 0)

theorem zero_notMem_cstr (mem : List UInt8) : 0 ∉ cstr mem := by
  intro h
  have hne := List.mem_takeWhile_imp h
  simp at hne

theorem cstr_of_notMem {s : List UInt8} (h : 0 ∉ s) : cstr s = s := by
  refine List.takeWhile_eq_self_iff.mpr fun c hc => ?_
  have hne : c ≠ 0 := fun h0 => h (h0 ▸ hc)
  simpa using hne

/-- The string goes on behind bytes that are not null. -/
theorem cstr_append {w : List UInt8} (h : 0 ∉ w) (s : List UInt8) :
    cstr (w ++ s) = w ++ cstr s := by
  refine List.takeWhile_append_of_pos fun x hx => ?_
  have hne : x ≠ 0 := fun h0 => h (h0 ▸ hx)
  exact decide_eq_true hne

/-- The terminator ends the string. -/
theorem cstr_append_zero {s : List UInt8} (h : 0 ∉ s) (t : List UInt8) :
    cstr (s ++ 0 :: t) = s := by
  induction s with
  | nil => simp [cstr]
  | cons c s ih =>
    have hc : c ≠ 0 := fun h0 => h (by simp [h0])
    have hs : 0 ∉ s := fun hmem => h (by simp [hmem])
    show List.takeWhile _ (c :: (s ++ 0 :: t)) = c :: s
    rw [List.takeWhile_cons, if_pos (by simpa using hc)]
    exact congrArg (c :: ·) (ih hs)

/-- A second terminator, behind the first or in place of it, changes nothing. -/
theorem cstr_append_zero' (s t : List UInt8) : cstr (s ++ 0 :: t) = cstr s := by
  induction s with
  | nil => simp [cstr]
  | cons c s ih =>
    show List.takeWhile _ (c :: (s ++ 0 :: t)) = List.takeWhile _ (c :: s)
    rw [List.takeWhile_cons, List.takeWhile_cons]
    by_cases hc : decide (c ≠ 0) = true
    · rw [if_pos hc, if_pos hc]
      exact congrArg (c :: ·) ih
    · rw [if_neg hc, if_neg hc]

/-- `isspace` in the C locale: the blank and the five control characters. -/
def isSpace (c : UInt8) : Bool := c = 32 || (9 ≤ c && c ≤ 13)

/-- `isalpha`. -/
def isAlpha (c : UInt8) : Bool := (65 ≤ c && c ≤ 90) || (97 ≤ c && c ≤ 122)

/-- `isdigit`. -/
def isDigit (c : UInt8) : Bool := 48 ≤ c && c ≤ 57

/-- `isxdigit`. -/
def isXdigit (c : UInt8) : Bool := isDigit c || (65 ≤ c && c ≤ 70) || (97 ≤ c && c ≤ 102)

/-- `while (isspace(*ptr)) ptr++;`: the terminator is no white space. -/
def skipSpaces (s : List UInt8) : List UInt8 := s.dropWhile isSpace

/-- A letter is no white space. -/
theorem isSpace_of_isAlpha {c : UInt8} (h : isAlpha c) : isSpace c = false := by
  have hall : ∀ n ∈ List.range 256, isAlpha (UInt8.ofNat n) → isSpace (UInt8.ofNat n) = false := by
    decide +kernel
  exact forall_byte (P := fun c => isAlpha c → isSpace c = false) hall c h

/-- Nothing is skipped in front of a word. -/
theorem skipSpaces_word {w : List UInt8} (hne : w ≠ []) (h : ∀ c ∈ w, isAlpha c)
    (rest : List UInt8) : skipSpaces (w ++ rest) = w ++ rest := by
  obtain ⟨c, cs, rfl⟩ := List.exists_cons_of_ne_nil hne
  have hc := isSpace_of_isAlpha (h c (by simp))
  rw [List.cons_append, skipSpaces, List.dropWhile_cons,
    if_neg (by rw [hc]; exact Bool.false_ne_true)]

/-- White space is. -/
theorem skipSpaces_spaces_word {sp w : List UInt8} (hsp : ∀ c ∈ sp, isSpace c) (hne : w ≠ [])
    (h : ∀ c ∈ w, isAlpha c) (rest : List UInt8) : skipSpaces (sp ++ (w ++ rest)) = w ++ rest := by
  rw [skipSpaces, List.dropWhile_append_of_pos hsp]
  exact skipSpaces_word hne h rest

theorem skipSpaces_suffix (s : List UInt8) : skipSpaces s <:+ s := List.dropWhile_suffix isSpace

/-- `strncmp`: the difference of the first bytes that differ among the first `n`. -/
def strncmp : List UInt8 → List UInt8 → Nat → Int
  | _, _, 0 => 0
  | [], [], _ + 1 => 0
  | [], b :: _, _ + 1 => -b.toNat
  | a :: _, [], _ + 1 => a.toNat
  | a :: as, b :: bs, n + 1 => if a = b then strncmp as bs n else a.toNat - b.toNat

theorem strncmp_comm_eq_zero :
    ∀ (s t : List UInt8) (n : Nat), strncmp s t n = 0 ↔ strncmp t s n = 0
  | _, _, 0 => by simp [strncmp]
  | [], [], n + 1 => Iff.rfl
  | [], b :: t, n + 1 => by simp [strncmp]
  | a :: s, [], n + 1 => by simp [strncmp]
  | a :: s, b :: t, n + 1 => by
    by_cases hab : a = b
    · subst hab
      simp only [strncmp, if_true]
      exact strncmp_comm_eq_zero s t n
    · have hne : a.toNat ≠ b.toNat := fun h => hab (UInt8.toNat_inj.mp h)
      have hba : ¬ b = a := fun h => hab h.symm
      simp only [strncmp, if_neg hab, if_neg hba]
      omega

/-- **`strncmp` over the length of a name** asks whether the name is a prefix. -/
theorem strncmp_eq_zero_iff :
    ∀ {s name : List UInt8}, 0 ∉ name → (strncmp s name name.length = 0 ↔ name <+: s)
  | s, [], _ => by simp [strncmp]
  | [], b :: name, h => by
    have hb : b ≠ 0 := fun h0 => h (by simp [h0])
    have hpos : b.toNat ≠ 0 := fun h0 => hb (UInt8.toNat_inj.mp h0)
    have hcmp : strncmp [] (b :: name) (b :: name).length = -b.toNat := rfl
    rw [hcmp, List.prefix_nil]
    constructor
    · intro h0
      omega
    · intro h0
      cases h0
  | a :: s, b :: name, h => by
    have hname : 0 ∉ name := fun hmem => h (by simp [hmem])
    rw [List.length_cons, strncmp, List.cons_prefix_cons]
    by_cases hab : a = b
    · rw [if_pos hab, strncmp_eq_zero_iff hname]
      exact ⟨fun hpre => ⟨hab.symm, hpre⟩, fun hpre => hpre.2⟩
    · have hne : a.toNat ≠ b.toNat := fun h => hab (UInt8.toNat_inj.mp h)
      rw [if_neg hab]
      constructor
      · intro h0
        omega
      · intro hpre
        exact absurd hpre.1.symm hab

/-- `*(mem + o) = '\0'` at each of the offsets. -/
def setZeros (mem : List UInt8) (offs : List Nat) : List UInt8 :=
  offs.foldl (fun m o => m.set o 0) mem

@[simp] theorem length_setZeros (mem : List UInt8) (offs : List Nat) :
    (setZeros mem offs).length = mem.length := by
  induction offs generalizing mem with
  | nil => rfl
  | cons o offs ih => rw [setZeros, List.foldl_cons, ← setZeros, ih, List.length_set]

/-- Memory behind the offsets is left as it is. -/
theorem drop_setZeros {mem : List UInt8} {offs : List Nat} {n : Nat}
    (h : ∀ o ∈ offs, o < n) : (setZeros mem offs).drop n = mem.drop n := by
  induction offs generalizing mem with
  | nil => rfl
  | cons o offs ih =>
    rw [setZeros, List.foldl_cons, ← setZeros, ih fun o' ho' => h o' (by simp [ho'])]
    exact List.drop_set_of_lt (h o (by simp))

/-- So is memory in front of them. -/
theorem take_setZeros {mem : List UInt8} {offs : List Nat} {n : Nat}
    (h : ∀ o ∈ offs, n ≤ o) : (setZeros mem offs).take n = mem.take n := by
  induction offs generalizing mem with
  | nil => rfl
  | cons o offs ih =>
    rw [setZeros, List.foldl_cons, ← setZeros, ih fun o' ho' => h o' (by simp [ho'])]
    exact List.take_set_of_le (h o (by simp))

/-- A null byte behind a word ends it, whatever is overwritten behind it. -/
theorem setZeros_word (word : List UInt8) (c : UInt8) (rest : List UInt8) {more : List Nat}
    (hmore : ∀ o ∈ more, word.length < o) :
    ∃ rest', setZeros (word ++ c :: rest) (word.length :: more) = word ++ 0 :: rest' := by
  have hset : setZeros (word ++ c :: rest) (word.length :: more)
      = setZeros (word ++ 0 :: rest) more := by
    simp [setZeros]
  have htake : (setZeros (word ++ 0 :: rest) more).take (word.length + 1)
      = (word ++ 0 :: rest).take (word.length + 1) := take_setZeros hmore
  have hword : (word ++ 0 :: rest).take (word.length + 1) = word ++ [0] := by
    rw [List.take_append, List.take_of_length_le (Nat.le_succ _), Nat.add_sub_cancel_left]
    rfl
  have hsplit := List.take_append_drop (word.length + 1) (setZeros (word ++ 0 :: rest) more)
  rw [htake, hword, List.append_assoc] at hsplit
  exact ⟨_, hset.trans hsplit.symm⟩

/-- A null byte behind a run in the memory ends it, when the other one lies in front. -/
theorem drop_setZeros_run (before run : List UInt8) (c : UInt8) (rest : List UInt8) {e : Nat}
    (he : e < before.length) :
    (setZeros (before ++ run ++ c :: rest) [e, (before ++ run).length]).drop before.length
      = run ++ 0 :: rest := by
  have hlen : (before ++ run).length = before.length + run.length := List.length_append
  show (((before ++ run ++ c :: rest).set e 0).set (before ++ run).length 0).drop before.length = _
  rw [List.drop_set, if_neg (by omega), List.drop_set_of_lt he, List.append_assoc, List.drop_left,
    hlen, Nat.add_sub_cancel_left, List.set_append_right _ _ (Nat.le_refl _), Nat.sub_self]
  rfl

/-- Every byte of the memory: null at the offsets, and what it was elsewhere. -/
theorem getElem?_setZeros {mem : List UInt8} {offs : List Nat} (h : ∀ o ∈ offs, o < mem.length)
    (i : Nat) : (setZeros mem offs)[i]? = if i ∈ offs then some 0 else mem[i]? := by
  induction offs generalizing mem with
  | nil => rfl
  | cons o offs ih =>
    have hlen : ∀ o' ∈ offs, o' < (mem.set o 0).length := by
      intro o' ho'
      rw [List.length_set]
      exact h o' (by simp [ho'])
    rw [setZeros, List.foldl_cons, ← setZeros, ih hlen]
    by_cases hi : i ∈ offs
    · rw [if_pos hi, if_pos (by simp [hi])]
    · by_cases ho : i = o
      · subst ho
        rw [if_neg hi, if_pos (by simp), List.getElem?_set_self (h i (by simp))]
      · have hne : i ∉ o :: offs := by simp [hi, ho]
        rw [if_neg hi, if_neg hne, List.getElem?_set_ne fun h0 => ho h0.symm]

/-- A string in a memory is made of the bytes that were there before the null bytes were
written. -/
theorem mem_of_mem_cstr_drop_setZeros {mem : List UInt8} {offs : List Nat} {n : Nat} {c : UInt8}
    (h : c ∈ cstr ((setZeros mem offs).drop n)) : c ∈ mem := by
  have hne : c ≠ 0 := fun h0 => zero_notMem_cstr _ (h0 ▸ h)
  have hmem : c ∈ setZeros mem offs :=
    List.mem_of_mem_drop ((List.takeWhile_sublist _).subset h)
  clear h
  induction offs generalizing mem with
  | nil => exact hmem
  | cons o offs ih =>
    rw [setZeros, List.foldl_cons, ← setZeros] at hmem
    exact (List.mem_or_eq_of_mem_set (ih hmem)).resolve_right hne

/-- A `char[n]` holding a null-terminated string. -/
structure CharArray (n : Nat) where
  text : List UInt8
  fits : text.length < n
  nulFree : 0 ∉ text
  deriving DecidableEq

/-- `strcpy` into a `char[n]` of a string that fits. -/
def CharArray.strcpy {n : Nat} (s : List UInt8) (h : (cstr s).length < n) : CharArray n :=
  { text := cstr s, fits := h, nulFree := zero_notMem_cstr s }

@[ext] theorem CharArray.ext {n : Nat} {a b : CharArray n} (h : a.text = b.text) : a = b := by
  cases a
  cases b
  obtain rfl := h
  rfl

end Datalogger.Lib
