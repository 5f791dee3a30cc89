import Datalogger.Lib.CString

/-!
# Writes into a caller's array

A function that is given a `char *out` reports the writes it makes, as blocks at
offsets from `out`, and its caller applies them to the array it passed. A block, or
the part of one, that falls behind the end of the array hits memory outside it and
leaves the array as it is; `Write.Inside` is the bound that rules this out.

`Leaves size ws s` is the effect that matters to a reader of the array: whatever it
held, after the writes it starts with `s` and a null byte.
-/

namespace Datalogger.Lib

/-- A block of bytes written at an offset. -/
structure Write where
  off : Nat
  bytes : List UInt8
  deriving DecidableEq, Repr

/-- The block lies inside an array of this size. -/
def Write.Inside (size : Nat) (w : Write) : Prop := w.off + w.bytes.length ≤ size

instance (size : Nat) (w : Write) : Decidable (w.Inside size) := inferInstanceAs (Decidable (_ ≤ _))

/-- The array after one write. -/
def Write.apply (mem : List UInt8) (w : Write) : List UInt8 :=
  (mem.take w.off ++ w.bytes ++ mem.drop (w.off + w.bytes.length)).take mem.length

/-- The array after the writes, in order. -/
def applyWrites (mem : List UInt8) (ws : List Write) : List UInt8 := ws.foldl Write.apply mem

/-! ## The string functions -/

/-- `strcpy(out + off, s)`. -/
def strcpyTo (off : Nat) (s : List UInt8) : Write := ⟨off, s ++ [0]⟩

/-- `strncpy(out + off, s, n)`: padded with null bytes, and without one if `s` does not
leave room for it. -/
def strncpyTo (off : Nat) (s : List UInt8) (n : Nat) : Write :=
  ⟨off, (s ++ List.replicate (n - s.length) 0).take n⟩

/-- `snprintf(out + off, size, …)` of the formatted text. The `int` is converted to
`size_t`, so a negative one is larger than any text. -/
def snprintfTo (off : Nat) (size : Int) (text : List UInt8) : List Write :=
  if size = 0 then []
  else if size < 0 then [⟨off, text ++ [0]⟩]
  else [⟨off, text.take (size.toNat - 1) ++ [0]⟩]

/-- `snprintf` of a text that fits. -/
theorem snprintfTo_of_lt {off : Nat} {size : Int} {text : List UInt8}
    (h : (text.length : Int) < size) : snprintfTo off size text = [strcpyTo off text] := by
  unfold snprintfTo
  rw [if_neg (by omega), if_neg (by omega), List.take_of_length_le (by omega)]
  rfl

/-! ## What the array holds afterwards -/

@[simp] theorem Write.length_apply (mem : List UInt8) (w : Write) :
    (w.apply mem).length = mem.length := by
  unfold Write.apply
  simp only [List.length_take, List.length_append, List.length_drop]
  omega

@[simp] theorem length_applyWrites (mem : List UInt8) (ws : List Write) :
    (applyWrites mem ws).length = mem.length := by
  induction ws generalizing mem with
  | nil => rfl
  | cons w ws ih => rw [applyWrites, List.foldl_cons, ← applyWrites, ih, Write.length_apply]

theorem applyWrites_snoc (mem : List UInt8) (ws : List Write) (w : Write) :
    applyWrites mem (ws ++ [w]) = w.apply (applyWrites mem ws) := by
  simp [applyWrites]

/-- A write behind the array leaves it alone. -/
theorem Write.apply_outside {mem : List UInt8} {w : Write} (h : mem.length ≤ w.off) :
    w.apply mem = mem := by
  unfold Write.apply
  rw [List.take_of_length_le h, List.append_assoc, List.take_left]

/-- After the writes an array of this size starts with `s` and a terminator. -/
def Leaves (size : Nat) (ws : List Write) (s : List UInt8) : Prop :=
  ∀ out : List UInt8, out.length = size → ∃ rest, applyWrites out ws = s ++ 0 :: rest

/-- One block that ends in a string and its terminator. -/
theorem leaves_strcpyTo {size : Nat} {s : List UInt8} (h : s.length < size) :
    Leaves size [strcpyTo 0 s] s := by
  intro out hout
  -- what is left of the old contents stands behind the terminator
  refine ⟨(out.drop (s.length + 1)).take (size - (s.length + 1)), ?_⟩
  show (out.take 0 ++ (s ++ [0]) ++ out.drop (0 + (s ++ [(0 : UInt8)]).length)).take out.length = _
  rw [List.take_zero, List.nil_append, Nat.zero_add, List.take_append,
    List.take_of_length_le (by simp; omega)]
  simp [hout]

/-- `strncpy` of the first `n` characters of a longer string copies these alone. -/
theorem strncpyTo_of_le {s : List UInt8} {n : Nat} (h : n ≤ s.length) (off : Nat) :
    strncpyTo off s n = ⟨off, s.take n⟩ := by
  unfold strncpyTo
  rw [List.take_append_of_le_length h]

/-- A text copied without its terminator, and the terminator behind it. -/
theorem leaves_terminated {size : Nat} {s : List UInt8} (h : s.length < size) :
    Leaves size [⟨0, s⟩, ⟨s.length, [0]⟩] s := by
  intro out hout
  refine ⟨out.drop (s.length + 1), ?_⟩
  have hcopy : Write.apply out ⟨0, s⟩ = s ++ out.drop s.length := by
    simp only [Write.apply, List.take_zero, List.nil_append, Nat.zero_add]
    refine List.take_of_length_le ?_
    rw [List.length_append, List.length_drop]
    omega
  show Write.apply (Write.apply out ⟨0, s⟩) ⟨s.length, [0]⟩ = _
  rw [hcopy]
  simp only [Write.apply, List.take_left, List.length_singleton]
  have hdrop : (s ++ out.drop s.length).drop (s.length + 1) = out.drop (s.length + 1) := by
    rw [List.drop_length_add_append, List.drop_drop]
  rw [hdrop, List.append_assoc, List.singleton_append]
  refine List.take_of_length_le ?_
  simp only [List.length_append, List.length_cons, List.length_drop]
  omega

/-- A string written over the terminator of the last one extends it. -/
theorem Leaves.extend {size : Nat} {ws : List Write} {s t : List UInt8} (h : Leaves size ws s)
    (hfits : s.length + t.length < size) : Leaves size (ws ++ [strcpyTo s.length t]) (s ++ t) := by
  intro out hout
  obtain ⟨rest, hrest⟩ := h out hout
  have hlen : (s ++ 0 :: rest).length = size := by
    rw [← hrest, length_applyWrites, hout]
  rw [applyWrites_snoc, hrest]
  refine ⟨((s ++ 0 :: rest).drop (s.length + (t ++ [0]).length)).take
    (size - (s ++ (t ++ [0])).length), ?_⟩
  show ((s ++ 0 :: rest).take s.length ++ (t ++ [0]) ++ _).take (s ++ 0 :: rest).length = _
  rw [List.take_left, hlen, List.take_append, List.take_of_length_le (by simp; omega)]
  simp [strcpyTo]

/-- A write behind the array does not matter. -/
theorem Leaves.outside {size : Nat} {ws : List Write} {s : List UInt8} (h : Leaves size ws s)
    {w : Write} (hw : size ≤ w.off) : Leaves size (ws ++ [w]) s := by
  intro out hout
  obtain ⟨rest, hrest⟩ := h out hout
  refine ⟨rest, ?_⟩
  rw [applyWrites_snoc, Write.apply_outside (by rw [length_applyWrites, hout]; exact hw), hrest]

/-- `snprintf` from the start of an array, given its size. -/
theorem leaves_snprintf {size : Nat} (hsize : 0 < size) (t : List UInt8) :
    Leaves size (snprintfTo 0 size t) (t.take (size - 1)) := by
  unfold snprintfTo
  rw [if_neg (by omega), if_neg (by omega), Int.toNat_natCast]
  exact leaves_strcpyTo (by rw [List.length_take]; omega)

/-- `snprintf` at the end of a text, given the space left in the array, extends what fits
of it; given less than none, it writes behind the array. -/
theorem Leaves.snprintf {size : Nat} (hsize : 0 < size) {ws : List Write} {s : List UInt8}
    (h : Leaves size ws (s.take (size - 1))) (t : List UInt8) :
    Leaves size (ws ++ snprintfTo s.length (size - s.length) t) ((s ++ t).take (size - 1)) := by
  unfold snprintfTo
  by_cases hroom : s.length < size
  · have htake : s.take (size - 1) = s := List.take_of_length_le (by omega)
    have hrem : ((size : Int) - s.length).toNat - 1 = size - 1 - s.length := by omega
    rw [if_neg (by omega), if_neg (by omega), hrem, List.take_append, htake]
    rw [htake] at h
    exact h.extend (by rw [List.length_take]; omega)
  · -- nothing more fits
    rw [List.take_append_of_le_length (by omega)]
    by_cases hfull : s.length = size
    · rw [if_pos (by omega), List.append_nil]
      exact h
    · rw [if_neg (by omega), if_pos (by omega)]
      exact h.outside (by show size ≤ s.length; omega)

/-- Padding behind the terminator: `strncpy` of a string with room to spare. -/
theorem leaves_strncpyTo {size : Nat} {s : List UInt8} (h : s.length < size) :
    Leaves size [strncpyTo 0 s size] s := by
  intro out hout
  refine ⟨List.replicate (size - s.length - 1) 0, ?_⟩
  have hpad : size - s.length = size - s.length - 1 + 1 := by omega
  show (out.take 0 ++ (s ++ List.replicate (size - s.length) 0).take size ++ _).take out.length = _
  have hlen : (s ++ List.replicate (size - s.length) 0).length = size := by
    rw [List.length_append, List.length_replicate]
    omega
  rw [List.take_zero, List.nil_append, List.take_of_length_le (Nat.le_of_eq hlen), hout,
    List.take_append_of_le_length (Nat.le_of_eq hlen.symm),
      List.take_of_length_le (Nat.le_of_eq hlen),
    hpad, List.replicate_succ]
  simp

/-- What `strlen` and `send` make of the array: undefined without a terminator. -/
def readString (mem : List UInt8) : Option (List UInt8) := if 0 ∈ mem then some (cstr mem) else none

theorem Leaves.zero_mem {size : Nat} {ws : List Write} {s out : List UInt8}
    (h : Leaves size ws s) (hout : out.length = size) : 0 ∈ applyWrites out ws := by
  obtain ⟨rest, hrest⟩ := h out hout
  rw [hrest]
  simp

/-- **The array reads back as `s`**, whatever it held before. -/
theorem Leaves.readString_eq {size : Nat} {ws : List Write} {s out : List UInt8}
    (h : Leaves size ws s) (hs : 0 ∉ s) (hout : out.length = size) :
    readString (applyWrites out ws) = some s := by
  unfold readString
  rw [if_pos (h.zero_mem hout)]
  obtain ⟨rest, hrest⟩ := h out hout
  rw [hrest, cstr_append_zero hs]

/-! ## Fields -/

/-- The bytes of a `char[n]` as its initialiser leaves it. -/
def CharArray.image {n : Nat} (a : CharArray n) : List UInt8 :=
  a.text ++ List.replicate (n - a.text.length) 0

@[simp] theorem CharArray.length_image {n : Nat} (a : CharArray n) : a.image.length = n := by
  have hfits := a.fits
  rw [image, List.length_append, List.length_replicate]
  omega

/-- The initialiser terminates the string. -/
theorem CharArray.readString_image {n : Nat} (a : CharArray n) :
    readString a.image = some a.text := by
  have hfits := a.fits
  have hpad : n - a.text.length = n - a.text.length - 1 + 1 := by omega
  rw [image, hpad, List.replicate_succ, readString, if_pos (by simp), cstr_append_zero a.nulFree]

end Datalogger.Lib
