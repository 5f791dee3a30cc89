import Datalogger.Lib.CString
import Datalogger.Lib.Pieces

/-!
# `strtok`

`strtok` splits a string in place: it skips delimiters, takes the run behind them as a
token, puts a null byte over the delimiter that ends it and remembers the place behind.
`strtok_cases` relates one call to the pieces of the string: the token is the first of
them, and the string at the place remembered holds the others. What the caller writes into
the token lies in front of that place and changes nothing for the calls to come.

Mirroring notes:
- The pointer `strtok` keeps between calls is the argument `pos`.
- A result `none` is a read past the end of the memory, `some none` the null pointer.
-/

namespace Datalogger.Lib

/-- A token: where it starts, the pointer kept for the next call, and the memory. -/
structure Token where
  start : Nat
  saved : Nat
  mem : List UInt8
  deriving DecidableEq, Repr

/-- One call of `strtok`. -/
def strtok (delim : UInt8 → Bool) (mem : List UInt8) (pos : Nat) : Option (Option Token) :=
  let start := pos + ((mem.drop pos).takeWhile delim).length
  let stop := start + ((mem.drop start).takeWhile fun c => c ≠ 0 && !delim c).length
  match mem[stop]? with
  | none => none
  | some c =>
    if stop = start then some none
    else if c = 0 then some (some ⟨start, stop, mem⟩)
    else some (some ⟨start, stop + 1, mem.set stop 0⟩)

/-- The place where one call stops reading: it looks at the bytes from `pos` to here, and
if it writes it writes here. -/
def strtokStop (delim : UInt8 → Bool) (mem : List UInt8) (pos : Nat) : Nat :=
  let start := pos + ((mem.drop pos).takeWhile delim).length
  start + ((mem.drop start).takeWhile fun c => c ≠ 0 && !delim c).length

/-- A call that comes back has stopped inside the memory. -/
theorem strtokStop_lt {delim : UInt8 → Bool} {mem : List UInt8} {pos : Nat}
    (h : strtok delim mem pos ≠ none) : strtokStop delim mem pos < mem.length := by
  by_contra hge
  apply h
  unfold strtok
  simp only
  split
  · rfl
  · next c hc => exact absurd (List.getElem?_eq_some_iff.mp hc).1 hge

/-- The memory left to the next call. -/
def Token.rest (t : Token) : List UInt8 := t.mem.drop t.saved

/-- The memory at the token. -/
def Token.text (t : Token) : List UInt8 := t.mem.drop t.start

/-- What one call does with a terminated string at `pos`. -/
structure TokenSpec (delim : UInt8 → Bool) (mem : List UInt8) (pos : Nat) (t : Token) : Prop where
  pieces : pieces delim (cstr (mem.drop pos)) = cstr t.text :: pieces delim (cstr t.rest)
  terminated : 0 ∈ t.rest
  inside : t.start + (cstr t.text).length ≤ t.saved
  progress : pos < t.saved
  length : t.mem.length = mem.length

/-! ## Strings in front of a byte -/

/-- The longest prefix, and the byte that ends it. -/
theorem exists_takeWhile {p : UInt8 → Bool} {s : List UInt8} (h : ∃ x ∈ s, p x = false) :
    ∃ w c rest, s = w ++ c :: rest ∧ (∀ x ∈ w, p x = true) ∧ p c = false ∧ s.takeWhile p = w := by
  induction s with
  | nil =>
    obtain ⟨x, hx, -⟩ := h
    cases hx
  | cons a s ih =>
    by_cases ha : p a = true
    · have hs : ∃ x ∈ s, p x = false := by
        obtain ⟨x, hx, hpx⟩ := h
        rcases List.mem_cons.mp hx with rfl | hx
        · rw [ha] at hpx
          cases hpx
        · exact ⟨x, hx, hpx⟩
      obtain ⟨w, c, rest, rfl, hw, hc, htake⟩ := ih hs
      refine ⟨a :: w, c, rest, rfl, ?_, hc, ?_⟩
      · intro x hx
        rcases List.mem_cons.mp hx with rfl | hx
        · exact ha
        · exact hw x hx
      · rw [List.takeWhile_cons, if_pos ha, htake]
    · refine ⟨[], a, s, rfl, by simp, eq_false_of_ne_true ha, ?_⟩
      rw [List.takeWhile_cons, if_neg ha]

theorem cstr_zero (s : List UInt8) : cstr (0 :: s) = [] := cstr_append_zero (s := []) (by simp) s

/-! ## One call -/

/-- The memory around a token: `before`, delimiters, the run and the byte behind it. -/
theorem drop_token (before ds w rest : List UInt8) (c : UInt8) :
    (before ++ (ds ++ (w ++ c :: rest))).drop before.length = ds ++ (w ++ c :: rest) ∧
    (before ++ (ds ++ (w ++ c :: rest))).drop (before.length + ds.length) = w ++ c :: rest ∧
    (before ++ (ds ++ (w ++ c :: rest))).drop (before.length + ds.length + w.length) = c :: rest ∧
    (before ++ (ds ++ (w ++ c :: rest))).drop (before.length + ds.length + w.length + 1)
      = rest := by
  have hds : (before ++ (ds ++ (w ++ c :: rest))).drop before.length = ds ++ (w ++ c :: rest) :=
    List.drop_left
  have hw : (before ++ (ds ++ (w ++ c :: rest))).drop (before.length + ds.length)
      = w ++ c :: rest := by
    rw [← List.drop_drop, hds, List.drop_left]
  have hc : (before ++ (ds ++ (w ++ c :: rest))).drop (before.length + ds.length + w.length)
      = c :: rest := by
    rw [← List.drop_drop, hw, List.drop_left]
  refine ⟨hds, hw, hc, ?_⟩
  rw [← List.drop_drop, hc]
  rfl

/-- The null byte `strtok` writes. -/
theorem set_token (before ds w rest : List UInt8) (c : UInt8) :
    (before ++ (ds ++ (w ++ c :: rest))).set (before.length + ds.length + w.length) 0
      = before ++ (ds ++ (w ++ 0 :: rest)) := by
  rw [List.set_append_right _ _ (by omega), List.set_append_right _ _ (by omega),
    List.set_append_right _ _ (by omega),
    show before.length + ds.length + w.length - before.length - ds.length - w.length = 0 by omega]
  rfl

/-- What the call finds there. -/
theorem strtok_eq {delim : UInt8 → Bool} {before ds w rest : List UInt8} {c : UInt8}
    (hds : (ds ++ (w ++ c :: rest)).takeWhile delim = ds)
    (hw : (w ++ c :: rest).takeWhile (fun c => c ≠ 0 && !delim c) = w) :
    strtok delim (before ++ (ds ++ (w ++ c :: rest))) before.length
      = if w = [] then some none
        else if c = 0 then some (some ⟨before.length + ds.length,
          before.length + ds.length + w.length, before ++ (ds ++ (w ++ c :: rest))⟩)
        else some (some ⟨before.length + ds.length, before.length + ds.length + w.length + 1,
          before ++ (ds ++ (w ++ 0 :: rest))⟩) := by
  obtain ⟨hdrop, hdrop', hdrop'', -⟩ := drop_token before ds w rest c
  have hbyte : (before ++ (ds ++ (w ++ c :: rest)))[before.length + ds.length + w.length]?
      = some c := by
    rw [← List.head?_drop, hdrop'']
    rfl
  have hempty : before.length + ds.length + w.length = before.length + ds.length ↔ w = [] := by
    rw [← List.length_eq_zero_iff]
    omega
  unfold strtok
  simp only [hdrop, hds, hdrop', hw, hbyte, hempty, set_token]

section
variable {delim : UInt8 → Bool} (hdelim : delim 0 = false)
include hdelim

/-- A terminated string is delimiters, a run and the byte that ends it, and `strtok`
measures the first two. -/
theorem exists_run {s : List UInt8} (h : 0 ∈ s) :
    ∃ ds w c rest, s = ds ++ (w ++ c :: rest) ∧ s.takeWhile delim = ds ∧
      (w ++ c :: rest).takeWhile (fun c => c ≠ 0 && !delim c) = w ∧ 0 ∉ ds ∧ 0 ∉ w ∧
      (∀ x ∈ ds, delim x = true) ∧ (∀ x ∈ w, delim x = false) ∧
      (c = 0 ∨ w ≠ [] ∧ c ≠ 0 ∧ delim c = true ∧ 0 ∈ rest) := by
  obtain ⟨ds, c₀, rest₀, hs, hds, hc₀, htake⟩ := exists_takeWhile ⟨0, h, hdelim⟩
  have hzero : 0 ∉ ds := by
    intro hmem
    have hcontra := hds 0 hmem
    rw [hdelim] at hcontra
    cases hcontra
  have hmem : 0 ∈ c₀ :: rest₀ := by
    rw [hs] at h
    exact (List.mem_append.mp h).resolve_left hzero
  obtain ⟨w, c, rest, hrest, hw, hc, htake'⟩ :=
    exists_takeWhile (p := fun c => c ≠ 0 && !delim c) ⟨0, hmem, by simp⟩
  have hrun : ∀ x ∈ w, x ≠ 0 ∧ delim x = false := by
    intro x hx
    simpa using hw x hx
  have hzero' : 0 ∉ w := fun hx => (hrun 0 hx).1 rfl
  refine ⟨ds, w, c, rest, by rw [hs, hrest], htake, by rw [← hrest]; exact htake', hzero,
    hzero', hds,
    fun x hx => (hrun x hx).2, ?_⟩
  by_cases hc0 : c = 0
  · exact Or.inl hc0
  · have hdc : delim c = true := by simpa [hc0] using hc
    refine Or.inr ⟨?_, hc0, hdc, ?_⟩
    · -- an empty run would leave a delimiter that was not skipped
      rintro rfl
      obtain ⟨rfl, -⟩ := List.cons.inj hrest
      rw [hc₀] at hdc
      cases hdc
    · rw [hrest] at hmem
      rcases List.mem_append.mp hmem with hx | hx
      · exact absurd hx hzero'
      · exact (List.mem_cons.mp hx).resolve_left fun h0 => hc0 h0.symm

/-- **One call of `strtok`** on a terminated string finds the end of the string or the
first of its pieces. -/
theorem strtok_cases {mem : List UInt8} {pos : Nat} (h : 0 ∈ mem.drop pos) :
    (strtok delim mem pos = some none ∧ pieces delim (cstr (mem.drop pos)) = []) ∨
      ∃ t, strtok delim mem pos = some (some t) ∧ TokenSpec delim mem pos t := by
  obtain ⟨ds, w, c, rest, hsplit, htake, htake', hzero, hzero', hds, hw, hc⟩ := exists_run hdelim h
  have hmem : mem = mem.take pos ++ (ds ++ (w ++ c :: rest)) := by
    rw [← hsplit, List.take_append_drop]
  have hpos : (mem.take pos).length = pos := by
    have hlen := congrArg List.length hsplit
    simp only [List.length_drop, List.length_append, List.length_cons] at hlen
    rw [List.length_take]
    omega
  generalize mem.take pos = before at hmem hpos
  subst hmem hpos
  rw [hsplit] at htake
  rw [strtok_eq htake htake', hsplit, cstr_append hzero, cstr_append hzero', pieces_delims hds]
  by_cases hempty : w = []
  · -- only the terminator is left
    subst hempty
    obtain rfl : c = 0 := hc.resolve_right fun hne => hne.1 rfl
    refine Or.inl ⟨if_pos rfl, ?_⟩
    rw [cstr_zero]
    rfl
  · have hlong : 0 < w.length := List.length_pos_iff.mpr hempty
    rw [if_neg hempty]
    refine Or.inr ?_
    -- the run ends at the terminator, or at a delimiter that becomes one
    by_cases hc0 : c = 0
    · subst hc0
      obtain ⟨hdrop, hdrop', hdrop'', -⟩ := drop_token before ds w rest 0
      have hrun : pieces delim (w ++ []) = w :: pieces delim [] := pieces_run hempty hw rfl
      rw [List.append_nil] at hrun
      refine ⟨_, if_pos rfl, ?_, ?_, ?_, ?_, rfl⟩
      · simp only [Token.text, Token.rest, hdrop, hdrop', hdrop'', cstr_append hzero,
          cstr_append hzero', pieces_delims hds, cstr_zero, hrun, List.append_nil]
      · simp only [Token.rest, hdrop'']
        exact List.mem_cons_self
      · simp only [Token.text, hdrop', cstr_append_zero hzero']
        exact Nat.le_refl _
      · show before.length < before.length + ds.length + w.length
        omega
    · obtain ⟨-, -, hdc, hrest⟩ := hc.resolve_left hc0
      obtain ⟨hdrop, -⟩ := drop_token before ds w rest c
      obtain ⟨-, hdrop', -, hdrop''⟩ := drop_token before ds w rest 0
      have hcut : cstr (c :: rest) = c :: cstr rest :=
        cstr_append (w := [c]) (by simpa using Ne.symm hc0) rest
      have hrun : pieces delim (w ++ c :: cstr rest) = w :: pieces delim (cstr rest) := by
        rw [pieces_run hempty hw (by simp [startsRun, hdc]), pieces, if_pos hdc]
      refine ⟨_, if_neg hc0, ?_, ?_, ?_, ?_, by simp⟩
      · simp only [Token.text, Token.rest, hdrop, hdrop', hdrop'', cstr_append hzero,
          cstr_append_zero hzero', cstr_append hzero', pieces_delims hds, hcut, hrun]
      · simp only [Token.rest, hdrop'']
        exact hrest
      · simp only [Token.text, hdrop', cstr_append_zero hzero']
        omega
      · show before.length < before.length + ds.length + w.length + 1
        omega

end

end Datalogger.Lib
