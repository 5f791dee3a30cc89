import Mathlib.Data.List.TakeWhile

/-!
# Splitting at delimiters

`pieces delim s` are the maximal runs of `s` without a delimiter, in order: what a
tokenizer hands out one by one. When the text arrives in chunks and each chunk is split
on its own, a run that lies across a cut comes out in two parts. `flatMap_pieces_eq_iff`
says exactly when two ways of cutting one text give the same pieces: when they cut its
runs at the same places.

The proof marks each element at which a chunk starts. The pieces of the chunks depend
on the text and the marks alone, and they give back every mark inside a run.
-/

namespace Datalogger.Lib

variable {α : Type}

/-- The text goes on with a run. -/
def startsRun (delim : α → Bool) : List α → Bool
  | [] => false
  | c :: _ => !delim c

/-- One more element in front of the first piece. -/
def consPiece (c : α) : List (List α) → List (List α)
  | [] => [[c]]
  | w :: ws => (c :: w) :: ws

/-- The maximal runs without a delimiter. -/
def pieces (delim : α → Bool) : List α → List (List α)
  | [] => []
  | c :: s =>
    if delim c then pieces delim s
    else if startsRun delim s then consPiece c (pieces delim s)
    else [c] :: pieces delim s

theorem pieces_delims {delim : α → Bool} {d : List α} (hd : ∀ c ∈ d, delim c = true) (s : List α) :
    pieces delim (d ++ s) = pieces delim s := by
  induction d with
  | nil => rfl
  | cons c d ih =>
    rw [List.cons_append, pieces, if_pos (hd c (by simp))]
    exact ih fun x hx => hd x (by simp [hx])

/-- **A run comes out as one piece.** -/
theorem pieces_run {delim : α → Bool} {w : List α} (hne : w ≠ []) (hw : ∀ c ∈ w, delim c = false)
    {s : List α} (hs : startsRun delim s = false) :
    pieces delim (w ++ s) = w :: pieces delim s := by
  induction w with
  | nil => exact absurd rfl hne
  | cons c w ih =>
    have hc : ¬ delim c = true := by rw [hw c (by simp)]; exact Bool.false_ne_true
    rw [List.cons_append, pieces, if_neg hc]
    cases w with
    | nil =>
      rw [List.nil_append, hs, if_neg Bool.false_ne_true]
    | cons d w =>
      have hd : startsRun delim (d :: w ++ s) = true := by
        show (!delim d) = true
        rw [hw d (by simp)]
        rfl
      rw [if_pos hd, ih (by simp) fun x hx => hw x (by simp [hx])]
      rfl

/-- A piece is not empty, has no delimiter and is taken from the text. -/
theorem mem_pieces {delim : α → Bool} :
    ∀ {s : List α}, ∀ w ∈ pieces delim s, w ≠ [] ∧ (∀ c ∈ w, delim c = false) ∧ w.Sublist s := by
  intro s
  induction s with
  | nil => intro w hw; cases hw
  | cons c s ih =>
    intro w hw
    rw [pieces] at hw
    by_cases hc : delim c = true
    · rw [if_pos hc] at hw
      obtain ⟨hne, hdelim, hsub⟩ := ih w hw
      exact ⟨hne, hdelim, hsub.cons c⟩
    · have hc' : delim c = false := eq_false_of_ne_true hc
      have hone : [c] ≠ [] ∧ (∀ x ∈ [c], delim x = false) ∧ [c].Sublist (c :: s) :=
        ⟨by simp, by simpa using hc', by simp⟩
      have hrest : ∀ v ∈ pieces delim s,
          v ≠ [] ∧ (∀ x ∈ v, delim x = false) ∧ v.Sublist (c :: s) := by
        intro v hv
        obtain ⟨hne, hdelim, hsub⟩ := ih v hv
        exact ⟨hne, hdelim, hsub.cons c⟩
      rw [if_neg hc] at hw
      by_cases hs : startsRun delim s = true
      · rw [if_pos hs] at hw
        cases hp : pieces delim s with
        | nil =>
          rw [hp] at hw
          obtain rfl := List.mem_singleton.mp hw
          exact hone
        | cons v vs =>
          rw [hp] at hw
          rcases List.mem_cons.mp hw with rfl | hv
          · -- the first piece, longer by one element
            obtain ⟨-, hdelim, hsub⟩ := ih v (by rw [hp]; exact List.mem_cons_self)
            refine ⟨by simp, fun x hx => ?_, hsub.cons_cons c⟩
            rcases List.mem_cons.mp hx with rfl | hx
            · exact hc'
            · exact hdelim x hx
          · exact hrest w (by rw [hp]; exact List.mem_cons_of_mem v hv)
      · rw [if_neg hs] at hw
        rcases List.mem_cons.mp hw with rfl | hv
        · exact hone
        · exact hrest w hv

/-- The first segment goes on with a run if it is not empty. -/
theorem splitOnP_cases (delim : α → Bool) :
    ∀ s : List α, ∃ w ws, s.splitOnP delim = w :: ws ∧ startsRun delim s = !w.isEmpty ∧
      pieces delim s = (w :: ws).filter fun v => !v.isEmpty := by
  intro s
  induction s with
  | nil => exact ⟨[], [], List.splitOnP_nil, rfl, rfl⟩
  | cons c s ih =>
    obtain ⟨w, ws, hsplit, hstart, hpieces⟩ := ih
    rw [List.splitOnP_cons_eq_if_modifyHead, hsplit, pieces, hpieces, hstart, startsRun]
    by_cases hc : delim c = true
    · rw [if_pos hc, if_pos hc, hc]
      exact ⟨[], w :: ws, rfl, rfl, rfl⟩
    · rw [if_neg hc, if_neg hc, eq_false_of_ne_true hc]
      refine ⟨c :: w, ws, rfl, rfl, ?_⟩
      cases w with
      | nil => rfl
      | cons d w => rfl

/-- **The pieces are the segments that are not empty.** -/
theorem pieces_eq_splitOnP (delim : α → Bool) (s : List α) :
    pieces delim s = (s.splitOnP delim).filter fun w => !w.isEmpty := by
  obtain ⟨w, ws, hsplit, -, hpieces⟩ := splitOnP_cases delim s
  rw [hpieces, hsplit]

/-! ## Texts in chunks -/

/-- The text of the chunks, each element marked that starts a chunk. -/
def marked : List (List α) → List (α × Bool)
  | [] => []
  | [] :: chunks => marked chunks
  | (c :: cs) :: chunks => (c, true) :: (cs.map (·, false) ++ marked chunks)

/-- The text goes on with the same run in the same chunk. -/
def continuesRun (delim : α → Bool) : List (α × Bool) → Bool
  | [] => false
  | (c, m) :: _ => !delim c && !m

/-- The pieces of a marked text: a run ends at a delimiter and at a mark. -/
def markedPieces (delim : α → Bool) : List (α × Bool) → List (List α)
  | [] => []
  | (c, _) :: s =>
    if delim c then markedPieces delim s
    else if continuesRun delim s then consPiece c (markedPieces delim s)
    else [c] :: markedPieces delim s

theorem marked_fst : ∀ chunks : List (List α), (marked chunks).map Prod.fst = chunks.flatten := by
  intro chunks
  induction chunks with
  | nil => rfl
  | cons chunk chunks ih =>
    cases chunk with
    | nil => exact ih
    | cons c cs => simp [marked, ih, List.map_map, Function.comp_def]

/-- A marked text does not continue a run: it is empty or starts with a mark. -/
theorem continuesRun_marked (delim : α → Bool) :
    ∀ chunks : List (List α), continuesRun delim (marked chunks) = false := by
  intro chunks
  induction chunks with
  | nil => rfl
  | cons chunk chunks ih =>
    cases chunk with
    | nil => exact ih
    | cons c cs => simp [marked, continuesRun]

/-- The rest of a chunk, in front of the chunks that follow. -/
theorem markedPieces_rest (delim : α → Bool) (chunks : List (List α)) :
    ∀ cs : List α, markedPieces delim (cs.map (·, false) ++ marked chunks)
        = pieces delim cs ++ markedPieces delim (marked chunks) ∧
      continuesRun delim (cs.map (·, false) ++ marked chunks) = startsRun delim cs := by
  intro cs
  induction cs with
  | nil => exact ⟨rfl, continuesRun_marked delim chunks⟩
  | cons c cs ih =>
    obtain ⟨hpieces, hcont⟩ := ih
    refine ⟨?_, by simp [continuesRun, startsRun]⟩
    rw [List.map_cons, List.cons_append, markedPieces, pieces, hpieces, hcont]
    by_cases hc : delim c = true
    · rw [if_pos hc, if_pos hc]
    · rw [if_neg hc, if_neg hc]
      by_cases hs : startsRun delim cs = true
      · rw [if_pos hs, if_pos hs]
        cases cs with
        | nil => cases hs
        | cons d ds =>
          -- a run goes on, so there is a first piece to extend
          have hd : ¬ delim d = true := by
            simpa [startsRun] using hs
          rw [pieces, if_neg hd]
          by_cases hds : startsRun delim ds = true
          · rw [if_pos hds]
            cases pieces delim ds <;> rfl
          · rw [if_neg hds]
            rfl
      · rw [if_neg hs, if_neg hs]
        rfl

/-- **The pieces of the chunks are those of the marked text.** -/
theorem markedPieces_marked (delim : α → Bool) :
    ∀ chunks : List (List α),
      markedPieces delim (marked chunks) = chunks.flatMap (pieces delim) := by
  intro chunks
  induction chunks with
  | nil => rfl
  | cons chunk chunks ih =>
    cases chunk with
    | nil => exact ih
    | cons c cs =>
      rw [List.flatMap_cons, ← ih]
      obtain ⟨hpieces, hcont⟩ := markedPieces_rest delim chunks (c :: cs)
      rw [← hpieces]
      rfl

/-! ## Two markings of one text -/

/-- Position `o + 1` of a text goes on the run of position `o`. -/
def GoesOn (delim : α → Bool) (text : List α) (o : Nat) : Prop :=
  ∃ c d, text[o]? = some c ∧ text[o + 1]? = some d ∧ delim c = false ∧ delim d = false

theorem goesOn_succ {delim : α → Bool} {c : α} {text : List α} {o : Nat} :
    GoesOn delim (c :: text) (o + 1) ↔ GoesOn delim text o := Iff.rfl

/-- Nothing goes on a run behind a delimiter, or in front of one. -/
theorem not_goesOn_zero {delim : α → Bool} {c : α} {text : List α}
    (h : delim c = true ∨ startsRun delim text = false) : ¬ GoesOn delim (c :: text) 0 := by
  rintro ⟨c', d, hc, hd, hdelim, hdelim'⟩
  obtain rfl := Option.some.inj hc
  rcases h with h | h
  · rw [h] at hdelim
    cases hdelim
  · cases text with
    | nil => cases hd
    | cons e text =>
      obtain rfl := Option.some.inj hd
      rw [startsRun, hdelim'] at h
      cases h

/-- The first piece of a text that starts with a run. -/
theorem markedPieces_cons_run {delim : α → Bool} {c : α} (h : delim c = false) (m : Bool)
    (s : List (α × Bool)) : ∃ w ws, markedPieces delim ((c, m) :: s) = (c :: w) :: ws := by
  rw [markedPieces, if_neg (by rw [h]; exact Bool.false_ne_true)]
  by_cases hs : continuesRun delim s = true
  · rw [if_pos hs]
    cases markedPieces delim s with
    | nil => exact ⟨[], [], rfl⟩
    | cons w ws => exact ⟨w, ws, rfl⟩
  · rw [if_neg hs]
    exact ⟨[], _, rfl⟩

/-- The markings agree at every position that goes on a run. -/
def AgreeInside (delim : α → Bool) (s t : List (α × Bool)) : Prop :=
  ∀ o, GoesOn delim (s.map Prod.fst) o → (s[o + 1]?).map Prod.snd = (t[o + 1]?).map Prod.snd

/-- What the first position adds. -/
theorem agreeInside_cons (delim : α → Bool) (c : α) (m m' : Bool) (s t : List (α × Bool)) :
    AgreeInside delim ((c, m) :: s) ((c, m') :: t) ↔
      (GoesOn delim (c :: s.map Prod.fst) 0 → (s[0]?).map Prod.snd = (t[0]?).map Prod.snd) ∧
        AgreeInside delim s t := by
  constructor
  · intro h
    exact ⟨h 0, fun o ho => h (o + 1) (goesOn_succ.mpr ho)⟩
  · intro h o ho
    cases o with
    | zero => exact h.1 ho
    | succ o => exact h.2 o (goesOn_succ.mp ho)

/-- Behind a delimiter and in front of one, the first position adds nothing. -/
theorem agreeInside_cons_delim {delim : α → Bool} {c : α} {s t : List (α × Bool)}
    (h : delim c = true ∨ startsRun delim (s.map Prod.fst) = false) (m m' : Bool) :
    AgreeInside delim ((c, m) :: s) ((c, m') :: t) ↔ AgreeInside delim s t := by
  rw [agreeInside_cons]
  exact ⟨fun hagree => hagree.2, fun hagree => ⟨fun h0 => absurd h0 (not_goesOn_zero h), hagree⟩⟩

/-- Inside a run it adds the next mark. -/
theorem agreeInside_cons_run {delim : α → Bool} {c d : α} (hc : delim c = false)
    (hd : delim d = false) (m m' n n' : Bool) (s t : List (α × Bool)) :
    AgreeInside delim ((c, m) :: (d, n) :: s) ((c, m') :: (d, n') :: t) ↔
      n = n' ∧ AgreeInside delim ((d, n) :: s) ((d, n') :: t) := by
  have hzero : GoesOn delim (c :: ((d, n) :: s).map Prod.fst) 0 := ⟨c, d, rfl, rfl, hc, hd⟩
  rw [agreeInside_cons]
  refine and_congr_left fun _ => ⟨fun h => Option.some.inj (h hzero), fun h _ => ?_⟩
  rw [h]
  rfl

/-- **Two markings of one text** give the same pieces iff they agree inside its runs. -/
theorem markedPieces_eq_iff (delim : α → Bool) :
    ∀ s t : List (α × Bool), s.map Prod.fst = t.map Prod.fst →
      (markedPieces delim s = markedPieces delim t ↔ AgreeInside delim s t) := by
  intro s
  induction s with
  | nil =>
    intro t ht
    obtain rfl := List.map_eq_nil_iff.mp ht.symm
    simp [AgreeInside]
  | cons a s ih =>
    obtain ⟨c, m⟩ := a
    intro t ht
    cases t with
    | nil => cases ht
    | cons b t =>
      obtain ⟨c', m'⟩ := b
      obtain ⟨rfl, htail⟩ := List.cons.inj ht
      have hstep := ih t htail
      rw [markedPieces, markedPieces]
      by_cases hc : delim c = true
      · rw [if_pos hc, if_pos hc, agreeInside_cons_delim (Or.inl hc), hstep]
      · have hc' : delim c = false := eq_false_of_ne_true hc
        rw [if_neg hc, if_neg hc]
        cases s with
        | nil =>
          obtain rfl := List.map_eq_nil_iff.mp htail.symm
          rw [agreeInside_cons_delim (Or.inr rfl), ← hstep]
          simp [continuesRun]
        | cons e s =>
          obtain ⟨d, n⟩ := e
          cases t with
          | nil => cases htail
          | cons f t =>
            obtain ⟨d', n'⟩ := f
            obtain ⟨rfl, -⟩ := List.cons.inj htail
            by_cases hd : delim d = true
            · -- both pieces end in front of `d`
              have hcont : ∀ (k : Bool) (u : List (α × Bool)),
                  ¬ continuesRun delim ((d, k) :: u) = true := by
                intro k u
                simp [continuesRun, hd]
              rw [agreeInside_cons_delim (Or.inr (by simp [startsRun, hd])), ← hstep,
                if_neg (hcont n s), if_neg (hcont n' t), List.cons.injEq]
              exact ⟨fun h => h.2, fun h => ⟨rfl, h⟩⟩
            · have hd' : delim d = false := eq_false_of_ne_true hd
              obtain ⟨w, ws, hw⟩ := markedPieces_cons_run hd' n s
              obtain ⟨v, vs, hv⟩ := markedPieces_cons_run hd' n' t
              rw [agreeInside_cons_run hc' hd', ← hstep, hw, hv]
              -- a mark at `d` parts the run, so different marks give a first piece `[c]`
              -- on one side and a longer one on the other
              cases n <;> cases n' <;> simp [continuesRun, hd', consPiece]

/-! ## Where the chunks start -/

/-- A chunk starts at offset `o` of the text. -/
def StartsAt (chunks : List (List α)) (o : Nat) : Prop :=
  ∃ before chunk after, chunks = before ++ chunk :: after ∧ chunk ≠ [] ∧ before.flatten.length = o

theorem startsAt_cons {chunk : List α} {chunks : List (List α)} {o : Nat} :
    StartsAt (chunk :: chunks) o ↔
      (o = 0 ∧ chunk ≠ []) ∨ ∃ k, o = chunk.length + k ∧ StartsAt chunks k := by
  constructor
  · rintro ⟨before, chunk', after, heq, hne, hlen⟩
    cases before with
    | nil =>
      obtain ⟨rfl, rfl⟩ := List.cons.inj heq
      exact Or.inl ⟨hlen.symm, hne⟩
    | cons b before =>
      obtain ⟨rfl, rfl⟩ := List.cons.inj heq
      refine Or.inr ⟨before.flatten.length, ?_, before, chunk', after, rfl, hne, rfl⟩
      rw [← hlen, List.flatten_cons, List.length_append]
  · rintro (⟨rfl, hne⟩ | ⟨k, rfl, before, chunk', after, rfl, hne, rfl⟩)
    · exact ⟨[], chunk, chunks, rfl, hne, rfl⟩
    · exact ⟨chunk :: before, chunk', after, rfl, hne, by simp⟩

/-- **The marks are the starts of the chunks.** -/
theorem marked_getElem? :
    ∀ (chunks : List (List α)) (o : Nat),
      ((marked chunks)[o]?).map Prod.snd = some true ↔ StartsAt chunks o := by
  intro chunks
  induction chunks with
  | nil =>
    intro o
    constructor
    · intro h
      cases h
    · rintro ⟨before, chunk, after, heq, -⟩
      exact absurd heq (by simp)
  | cons chunk chunks ih =>
    intro o
    rw [startsAt_cons]
    cases chunk with
    | nil =>
      rw [marked, ih]
      simp
    | cons c cs =>
      cases o with
      | zero => simp [marked]
      | succ o =>
        rw [marked, List.getElem?_cons_succ]
        by_cases ho : o < cs.length
        · -- inside the first chunk
          rw [List.getElem?_append_left (by rw [List.length_map]; exact ho), List.getElem?_map,
            List.getElem?_eq_getElem ho]
          constructor
          · intro h
            cases h
          · rintro (⟨h, -⟩ | ⟨k, hk, -⟩)
            · cases h
            · rw [List.length_cons] at hk
              omega
        · have hle : cs.length ≤ o := Nat.le_of_not_lt ho
          rw [List.getElem?_append_right (by rw [List.length_map]; exact hle), List.length_map, ih]
          constructor
          · intro h
            exact Or.inr ⟨o - cs.length, by rw [List.length_cons]; omega, h⟩
          · rintro (⟨h, -⟩ | ⟨k, hk, h⟩)
            · cases h
            · rw [List.length_cons] at hk
              rw [show o - cs.length = k by omega]
              exact h

/-- **Two ways of cutting one text** give the same pieces iff they cut the runs at the
same places. -/
theorem flatMap_pieces_eq_iff (delim : α → Bool) {chunks chunks' : List (List α)}
    (h : chunks.flatten = chunks'.flatten) :
    chunks.flatMap (pieces delim) = chunks'.flatMap (pieces delim) ↔
      ∀ o, GoesOn delim chunks.flatten o →
        (StartsAt chunks (o + 1) ↔ StartsAt chunks' (o + 1)) := by
  have hfst : (marked chunks).map Prod.fst = (marked chunks').map Prod.fst := by
    rw [marked_fst, marked_fst, h]
  rw [← markedPieces_marked, ← markedPieces_marked, markedPieces_eq_iff delim _ _ hfst]
  unfold AgreeInside
  rw [marked_fst]
  refine forall_congr' fun o => imp_congr_right fun ho => ?_
  rw [← marked_getElem?, ← marked_getElem?]
  -- both texts have a byte there, so both marks are there
  obtain ⟨c, d, -, hd, -⟩ := ho
  have hmark : ∀ cs : List (List α), cs.flatten = chunks.flatten →
      ∃ m, ((marked cs)[o + 1]?).map Prod.snd = some m := by
    intro cs hcs
    have hget : ((marked cs)[o + 1]?).map Prod.fst = some d := by
      rw [← List.getElem?_map, marked_fst, hcs]
      exact hd
    obtain ⟨a, ha, -⟩ := Option.map_eq_some_iff.mp hget
    exact ⟨a.2, by rw [ha]; rfl⟩
  obtain ⟨m, hm⟩ := hmark chunks rfl
  obtain ⟨m', hm'⟩ := hmark chunks' h.symm
  rw [hm, hm']
  cases m <;> cases m' <;> simp

end Datalogger.Lib
