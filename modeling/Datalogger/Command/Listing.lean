import Datalogger.Command.Reply

/-!
# The listing loop

`GET <object>` prints one name after the other with `snprintf`, and takes the whole length
of each off the space that is left, whether it was printed or cut. The loop ends where
nothing is left, but not where less than nothing is: then `snprintf` is given a negative
size, which as a `size_t` is no bound at all.

The array always holds what fits of the names (`getList_leaves`). The calls stay in it if
and only if each name starts inside it or just at its end, or behind one that starts just
at its end, where the loop stops (`listsInSpace_iff`).
-/

namespace Datalogger

open Lib (Write Leaves ascii snprintfTo)

/-- A call of `snprintf`: the offset of `outptr`, `out_remaining` and the text. -/
structure SnprintfCall where
  off : Nat
  size : Int
  text : List UInt8
  deriving DecidableEq

def SnprintfCall.writes (c : SnprintfCall) : List Write := snprintfTo c.off c.size c.text

/-- The calls of the loop over the attribute names. -/
def listCalls : List NetprotParam → Nat → Int → Option (List SnprintfCall)
  | [], _, _ => none
  | p :: ps, off, outRemaining =>
    if p.name.text = [] ∨ outRemaining = 0 then some []
    else
      let paramlen := p.name.text.length + 2
      (listCalls ps (off + paramlen) (outRemaining - paramlen)).map
        (⟨off, outRemaining, p.name.text ++ ascii ", "⟩ :: ·)

/-- The calls of `GET <object>`. -/
def getListCalls (object : NetprotObject) (outlen : Nat) : Option (List SnprintfCall) :=
  (listCalls object.attrs 1 (outlen - 1)).map (⟨0, outlen, ascii "+"⟩ :: ·)

/-- The size is the space that is left, and not negative. -/
structure SnprintfCall.InSpace (outlen : Nat) (c : SnprintfCall) : Prop where
  left : c.size = outlen - c.off
  nonneg : 0 ≤ c.size

/-- The writes of `GET <object>`. -/
def listWrites (calls : List SnprintfCall) (outlen : Nat) : List Write :=
  calls.flatMap SnprintfCall.writes ++ [nullTerminate outlen]

/-- The line is answered by these calls, each of which is given the space that is left,
and the array then holds what fits of the names. -/
structure ListsBy (objects : List NetprotObject) (inp : List UInt8) (o : NetprotObject)
    (names : List (List UInt8)) (outlen : Nat) (calls : List SnprintfCall) : Prop where
  calls_eq : getListCalls o outlen = some calls
  result : netprotCmdGet objects inp outlen = some (replies objects 0 (listWrites calls outlen))
  inSpace : ∀ c ∈ calls, c.InSpace outlen
  leaves : Leaves outlen (listWrites calls outlen)
    ((ascii "+" ++ listText names).take (outlen - 1))

/-- The listing of an object, as it should be. -/
def ListsInSpace (objects : List NetprotObject) (inp : List UInt8) (o : NetprotObject)
    (names : List (List UInt8)) (outlen : Nat) : Prop :=
  ∃ calls, ListsBy objects inp o names outlen calls

/-- Where the name `k` starts in a listing that goes on at `off`. -/
def nameStart (off : Nat) (names : List (List UInt8)) (k : Nat) : Nat :=
  off + (listText (names.take k)).length

/-- Each name starts inside the array, or at its end, or behind one that does. -/
def StartInside (outlen off : Nat) (names : List (List UInt8)) : Prop :=
  ∀ k < names.length, nameStart off names k ≤ outlen ∨ ∃ j < k, nameStart off names j = outlen

instance (outlen off : Nat) (names : List (List UInt8)) :
    Decidable (StartInside outlen off names) :=
  inferInstanceAs (Decidable (∀ k < _, _ ∨ ∃ j < k, _))

/-! ## The calls -/

theorem listParams_eq_calls :
    ∀ (ps : List NetprotParam) (off : Nat) (outRemaining : Int),
      listParams ps off outRemaining
        = (listCalls ps off outRemaining).map fun calls => calls.flatMap SnprintfCall.writes := by
  intro ps
  induction ps with
  | nil =>
    intro off outRemaining
    rfl
  | cons p ps ih =>
    intro off outRemaining
    rw [listParams, listCalls]
    by_cases hend : p.name.text = [] ∨ outRemaining = 0
    · rw [if_pos hend, if_pos hend]
      rfl
    · rw [if_neg hend, if_neg hend]
      simp only [ih, Option.map_map]
      rfl

theorem getList_eq_calls (o : NetprotObject) (outlen : Nat) :
    getList o outlen = (getListCalls o outlen).map fun calls => listWrites calls outlen := by
  unfold getList getListCalls
  rw [listParams_eq_calls, Option.map_map, Option.map_map]
  rfl

/-- A line that lists an object gets its listing. -/
theorem netprotCmdGet_of_lists {objects : List NetprotObject} {inp : List UInt8} {o : NetprotObject}
    (h : ListsObject objects inp o) (outlen : Nat) :
    netprotCmdGet objects inp outlen = (getList o outlen).map (replies objects 0) := by
  obtain ⟨i, hi, ho, hend⟩ := h
  simp only [netprotCmdGet, hi, ho, if_pos hend]

/-! ## Where the names start -/

theorem nameStart_succ (off : Nat) (n : List UInt8) (names : List (List UInt8)) (k : Nat) :
    nameStart off (n :: names) (k + 1) = nameStart (off + (n.length + 2)) names k := by
  unfold nameStart
  rw [List.take_succ_cons, length_listText_cons]
  omega

theorem startInside_cons {outlen off : Nat} {n : List UInt8} {names : List (List UInt8)} :
    StartInside outlen off (n :: names) ↔
      off = outlen ∨ off < outlen ∧ StartInside outlen (off + (n.length + 2)) names := by
  constructor
  · intro h
    rcases h 0 (Nat.zero_lt_succ _) with hle | ⟨j, hj, -⟩
    · by_cases hfull : off = outlen
      · exact Or.inl hfull
      · refine Or.inr ⟨Nat.lt_of_le_of_ne hle hfull, fun k hk => ?_⟩
        rcases h (k + 1) (Nat.succ_lt_succ hk) with hle' | ⟨j, hj, hend⟩
        · rw [nameStart_succ] at hle'
          exact Or.inl hle'
        · -- the name that starts at the end is not this one
          cases j with
          | zero => exact absurd hend hfull
          | succ j =>
            rw [nameStart_succ] at hend
            exact Or.inr ⟨j, Nat.lt_of_succ_lt_succ hj, hend⟩
    · exact absurd hj (Nat.not_lt_zero j)
  · intro h k hk
    rcases h with hfull | ⟨hroom, hrest⟩
    · cases k with
      | zero => exact Or.inl (Nat.le_of_eq hfull)
      | succ k => exact Or.inr ⟨0, Nat.zero_lt_succ k, hfull⟩
    · cases k with
      | zero => exact Or.inl (Nat.le_of_lt hroom)
      | succ k =>
        rw [nameStart_succ]
        rcases hrest k (Nat.lt_of_succ_lt_succ hk) with hle | ⟨j, hj, hend⟩
        · exact Or.inl hle
        · refine Or.inr ⟨j + 1, Nat.succ_lt_succ hj, ?_⟩
          rw [nameStart_succ]
          exact hend

/-- **The loop's calls** stay in the array exactly if the names start in it. -/
theorem listCalls_inSpace {outlen : Nat} :
    ∀ (ps : List NetprotParam) (names : List (List UInt8)) (off : Nat),
      ps.map NetprotParam.nameText = names ++ [[]] → [] ∉ names →
      ∃ calls, listCalls ps off ((outlen : Int) - off) = some calls ∧
        ((∀ c ∈ calls, c.InSpace outlen) ↔ StartInside outlen off names) := by
  intro ps
  induction ps with
  | nil => intro names off hps; exact absurd hps.symm (by simp)
  | cons p ps ih =>
    intro names off hps hnames
    rw [List.map_cons] at hps
    rw [listCalls]
    cases names with
    | nil =>
      obtain ⟨hend, -⟩ := List.cons.inj hps
      rw [if_pos (Or.inl hend)]
      exact ⟨[], rfl, iff_of_true nofun nofun⟩
    | cons n names =>
      obtain ⟨rfl, hrest⟩ := List.cons.inj hps
      have hne : p.name.text ≠ [] := fun h0 => hnames (List.mem_cons.mpr (Or.inl h0.symm))
      by_cases hfull : (outlen : Int) - off = 0
      · rw [if_pos (Or.inr hfull)]
        refine ⟨[], rfl, iff_of_true nofun ?_⟩
        exact startInside_cons.mpr (Or.inl (by omega))
      · obtain ⟨calls, hcalls, hinside⟩ := ih names (off + (p.name.text.length + 2)) hrest
          fun hmem => hnames (by simp [hmem])
        have hrem : (outlen : Int) - off - (p.name.text.length + 2 : Nat)
            = outlen - (off + (p.name.text.length + 2) : Nat) := by omega
        rw [if_neg (not_or.mpr ⟨hne, hfull⟩)]
        simp only [hrem, hcalls]
        refine ⟨_, rfl, ?_⟩
        rw [List.forall_mem_cons, hinside, startInside_cons]
        constructor
        · intro h
          have hnonneg : (0 : Int) ≤ outlen - off := h.1.nonneg
          exact Or.inr ⟨by omega, h.2⟩
        · intro h
          rcases h with hend | ⟨hroom, hstart⟩
          · omega
          · exact ⟨⟨rfl, by show (0 : Int) ≤ outlen - off; omega⟩, hstart⟩

/-- **The listing stays in its space, exactly** if each name starts inside the array, or
at its end, or behind a name that starts at its end. -/
theorem listsInSpace_iff {objects : List NetprotObject} {inp : List UInt8} {o : NetprotObject}
    {names : List (List UInt8)} {outlen : Nat} (h : ListsObject objects inp o)
    (hattrs : o.attrs.map NetprotParam.nameText = names ++ [[]]) (hnames : [] ∉ names)
    (houtlen : 2 ≤ outlen) :
    ListsInSpace objects inp o names outlen ↔ StartInside outlen 1 names := by
  obtain ⟨loop, hloop, hinside⟩ := listCalls_inSpace o.attrs names 1 hattrs hnames
  have hcalls : getListCalls o outlen = some (⟨0, outlen, ascii "+"⟩ :: loop) := by
    unfold getListCalls
    rw [show listCalls o.attrs 1 (outlen - 1) = some loop from hloop]
    rfl
  have hlist := getList_eq_calls o outlen
  rw [hcalls, Option.map_some] at hlist
  -- the first call is always given the whole array
  have hfirst : SnprintfCall.InSpace outlen ⟨0, outlen, ascii "+"⟩ :=
    ⟨by show (outlen : Int) = outlen - 0; omega, by show (0 : Int) ≤ outlen; omega⟩
  constructor
  · intro hlists
    obtain ⟨calls, hby⟩ := hlists
    obtain rfl := Option.some.inj (hcalls.symm.trans hby.calls_eq)
    exact hinside.mp fun c hc => hby.inSpace c (List.mem_cons_of_mem _ hc)
  · intro hstart
    refine ⟨_, hcalls, ?_, ?_, getList_leaves hattrs hnames (by omega) hlist⟩
    · rw [netprotCmdGet_of_lists h, hlist]
      rfl
    · exact List.forall_mem_cons.mpr ⟨hfirst, hinside.mpr hstart⟩

/-- A line that lists `CHANNEL` of the board. -/
theorem listsObject_channel :
    ListsObject netprotObjects (ascii " CHANNEL") (channelObject channelAttrs) :=
  ⟨0, by decide +kernel, rfl, by decide +kernel⟩

/-- The board's channel in the board's array. -/
theorem listsInSpace_channel :
    ListsInSpace netprotObjects (ascii " CHANNEL") (channelObject channelAttrs)
      [ascii "NAME", ascii "DELAY"] 100 :=
  (listsInSpace_iff listsObject_channel rfl (by decide) (by decide)).mpr (by decide +kernel)

/-- Seven names of 15 letters. -/
def longAttrs : List NetprotParam :=
  List.replicate 7 { channelName with name := ⟨ascii "ABCDEFGHIJKLMNO", by decide, by decide⟩ }
    ++ [paramTerminator]

/-- They take up 120 bytes; the sixth is cut, and the seventh printed with a size of -3. -/
theorem not_listsInSpace_long :
    ¬ ListsInSpace [channelObject longAttrs, objectTerminator] (ascii " CHANNEL")
      (channelObject longAttrs) (List.replicate 7 (ascii "ABCDEFGHIJKLMNO")) 100 := by
  have hsizes : (getListCalls (channelObject longAttrs) 100).map (fun calls =>
      calls.any fun c => c.size < 0) = some true := by decide +kernel
  intro hlists
  obtain ⟨calls, hby⟩ := hlists
  rw [hby.calls_eq] at hsizes
  obtain ⟨c, hc, hneg⟩ := List.any_eq_true.mp (Option.some.inj hsizes)
  have hnonneg := (hby.inSpace c hc).nonneg
  have hneg := of_decide_eq_true hneg
  omega

end Datalogger
