import Mathlib.Data.List.Chain
import Datalogger.Command.Handlers

/-!
# What RESET restores

RESET walks the attributes of one object after the other, but its index `j` is set to
zero once, before the first object. Every later list is therefore entered at the
length of the one before it: the attributes in front of that index keep their values,
and where the list is shorter the walk starts behind its terminator.

`resetRestores_iff` says for which tables and contents RESET does what it is for all
the same. The table of the ADC board is not among them: BOARD has fewer attributes
than CHANNEL, so every RESET there reads past `board_attrs`.
-/

namespace Datalogger

/-- Every attribute of every object in the table holds its default. -/
def AllAtDefault (objects : List NetprotObject) : Prop :=
  ∀ o ∈ objects, o.name.text ≠ [] → ∀ p ∈ o.attrs, p.name.text ≠ [] → p.AtDefault

/-- RESET stays inside the arrays and leaves every attribute at its default. -/
def ResetRestores (objects : List NetprotObject) (inp : List UInt8) (outlen : Nat) : Prop :=
  ∃ res, netprotCmdReset objects inp outlen = some res ∧ AllAtDefault res.objects

/-- The number of attributes before the terminator. -/
def NetprotObject.attrCount (o : NetprotObject) : Nat := o.attrs.length - 1

/-- Entering the list of `o` at index `j` does no harm: `j` is not behind the terminator,
and the attributes passed over hold their defaults already. -/
def EntersHarmlessly (j : Nat) (o : NetprotObject) : Prop :=
  j ≤ o.attrCount ∧ ∀ p ∈ o.attrs.take j, p.AtDefault

/-- Between any two neighbours of the table the index carried over does no harm. -/
def CarryHarmless (objects : List NetprotObject) : Prop :=
  objects.dropLast.IsChain fun o o' => EntersHarmlessly o.attrCount o'

/-! ## One attribute list -/

/-- An index behind the list reads past it. -/
theorem resetAttrs_of_le : ∀ (ps : List NetprotParam) (j : Nat), ps.length ≤ j →
    resetAttrs j ps = none := by
  intro ps
  induction ps with
  | nil => intro j _; cases j <;> rfl
  | cons p ps ih =>
    intro j hj
    rw [List.length_cons] at hj
    obtain ⟨k, rfl⟩ : ∃ k, j = k + 1 := ⟨j - 1, by omega⟩
    rw [resetAttrs, ih k (by omega)]
    rfl

/-- An index inside the list, or at its terminator: the walk ends there, and restores
everything if and only if what it passes over needed no restoring. -/
theorem resetAttrs_of_lt :
    ∀ (ps : List NetprotParam) (j : Nat), NameTerminated NetprotParam.nameText ps → j < ps.length →
      ∃ qs, resetAttrs j ps = some (qs, ps.length - 1) ∧
        ((∀ p ∈ qs, p.name.text ≠ [] → p.AtDefault) ↔ ∀ p ∈ ps.take j, p.AtDefault) := by
  intro ps
  induction ps with
  | nil => intro j _ hj; cases hj
  | cons p ps ih =>
    intro j hterm hj
    have hcons := nameTerminated_cons hterm
    -- at index 0 the entries are restored, before it they are passed over
    cases j with
    | zero =>
      rw [resetAttrs]
      rcases hcons with ⟨hend, rfl⟩ | ⟨hne, hrest⟩
      · rw [if_pos hend]
        refine ⟨[p], rfl, ⟨fun _ q hq => (by cases hq), fun _ q hq hqne => ?_⟩⟩
        obtain rfl := List.mem_singleton.mp hq
        exact absurd hend hqne
      · have hpos := length_of_nameTerminated hrest
        obtain ⟨qs, hqs, hiff⟩ := ih 0 hrest hpos
        rw [if_neg hne, hqs]
        refine ⟨p.restored :: qs, ?_, ⟨fun _ q hq => (by cases hq), fun _ q hq hqne => ?_⟩⟩
        · rw [Option.map_some, List.length_cons]
          have hstep : ps.length - 1 + 1 = ps.length + 1 - 1 := by omega
          rw [hstep]
        · rcases List.mem_cons.mp hq with rfl | hmem
          · exact p.restored_atDefault
          · exact hiff.mpr (fun q hq => by cases hq) q hmem hqne
    | succ j =>
      rw [List.length_cons] at hj
      rcases hcons with ⟨-, rfl⟩ | ⟨hne, hrest⟩
      · cases hj with
        | step h => cases h
      · obtain ⟨qs, hqs, hiff⟩ := ih j hrest (by omega)
        rw [resetAttrs, hqs]
        refine ⟨p :: qs, ?_, ?_⟩
        · rw [Option.map_some, List.length_cons]
          have hstep : ps.length - 1 + 1 = ps.length + 1 - 1 := by omega
          rw [hstep]
        · rw [List.take_succ_cons, List.forall_mem_cons, List.forall_mem_cons, hiff]
          exact ⟨fun h => ⟨h.1 hne, h.2⟩, fun h => ⟨fun _ => h.1, h.2⟩⟩

/-! ## The table -/

/-- The objects of a table, each entered at the length of the list before it. -/
def CarriesHarmlessly : Nat → List NetprotObject → Prop
  | _, [] => True
  | j, o :: os => EntersHarmlessly j o ∧ CarriesHarmlessly o.attrCount os

theorem carriesHarmlessly_iff_isChain (os : List NetprotObject) :
    ∀ o : NetprotObject, CarriesHarmlessly o.attrCount os ↔
      (o :: os).IsChain fun o o' => EntersHarmlessly o.attrCount o' := by
  induction os with
  | nil => intro o; simp [CarriesHarmlessly]
  | cons o' os ih =>
    intro o
    rw [List.isChain_cons_cons, ← ih o']
    rfl

theorem TableTerminated.tail {o : NetprotObject} {os : List NetprotObject}
    (h : TableTerminated (o :: os)) (hne : o.name.text ≠ []) :
    NameTerminated NetprotParam.nameText o.attrs ∧ TableTerminated os := by
  rcases nameTerminated_cons h.objects with ⟨hend, -⟩ | ⟨-, hos⟩
  · exact absurd hend hne
  · exact ⟨h.attrs o (by simp) hne, hos, fun u hu => h.attrs u (by simp [hu])⟩

/-- The walk over the objects, entered with index `j`. -/
theorem resetObjects_iff :
    ∀ (os : List NetprotObject) (j : Nat), TableTerminated os →
      ((∃ us, resetObjects j os = some us ∧ AllAtDefault us) ↔
        CarriesHarmlessly j os.dropLast) := by
  intro os
  induction os with
  | nil =>
    intro j h
    exact absurd (length_of_nameTerminated h.objects) (by simp)
  | cons o os ih =>
    intro j h
    rw [resetObjects]
    rcases nameTerminated_cons h.objects with ⟨hend, rfl⟩ | ⟨hne, hos⟩
    · -- the terminating object: nothing is left to restore
      rw [if_pos hend]
      refine ⟨fun _ => trivial, fun _ => ⟨[o], rfl, fun u hu hune => ?_⟩⟩
      obtain rfl := List.mem_singleton.mp hu
      exact absurd hend hune
    · obtain ⟨hattrs, htail⟩ := h.tail hne
      have hposAttrs := length_of_nameTerminated hattrs
      have hposTail := length_of_nameTerminated hos
      obtain ⟨o', os', hcons⟩ : ∃ o' os', os = o' :: os' :=
        List.exists_cons_of_ne_nil (List.ne_nil_of_length_pos hposTail)
      have hdrop : (o :: os).dropLast = o :: os.dropLast := by
        rw [hcons]
        rfl
      rw [if_neg hne, hdrop]
      -- inside the list the walk ends at its terminator, where the next list is entered
      rcases Nat.lt_or_ge j o.attrs.length with hlt | hge
      · obtain ⟨qs, hqs, hiff⟩ := resetAttrs_of_lt o.attrs j hattrs hlt
        have hle : j ≤ o.attrCount := by
          unfold NetprotObject.attrCount
          omega
        simp only [hqs]
        have hih := ih (o.attrs.length - 1) htail
        constructor
        · rintro ⟨us, hus, hall⟩
          obtain ⟨vs, hvs, rfl⟩ := Option.map_eq_some_iff.mp hus
          refine ⟨⟨hle, hiff.mp fun p hp => hall { o with attrs := qs } (by simp) hne p hp⟩, ?_⟩
          exact hih.mp ⟨vs, hvs, fun u hu => hall u (by simp [hu])⟩
        · rintro ⟨hhere, hrest⟩
          obtain ⟨vs, hvs, hall⟩ := hih.mpr hrest
          refine ⟨{ o with attrs := qs } :: vs, by rw [hvs]; rfl, fun u hu => ?_⟩
          rcases List.mem_cons.mp hu with rfl | hmem
          · exact fun _ => hiff.mpr hhere.2
          · exact hall u hmem
      · -- the index is behind the terminator
        rw [resetAttrs_of_le o.attrs j hge]
        have hnot : ¬ j ≤ o.attrCount := by
          unfold NetprotObject.attrCount
          omega
        exact ⟨fun ⟨_, hnone, _⟩ => by simp at hnone, fun hh => absurd hh.1.1 hnot⟩

/-- **What RESET is right for.** On a terminated table RESET stays inside the arrays and
restores every attribute exactly if no object has fewer attributes than the one before
it and the attributes it passes over hold their defaults already. -/
theorem resetRestores_iff {objects : List NetprotObject} (h : TableTerminated objects)
    (inp : List UInt8) (outlen : Nat) :
    ResetRestores objects inp outlen ↔ CarryHarmless objects := by
  have hrun : ResetRestores objects inp outlen ↔
      ∃ us, resetObjects 0 objects = some us ∧ AllAtDefault us := by
    unfold ResetRestores netprotCmdReset
    constructor
    · rintro ⟨res, hres, hall⟩
      obtain ⟨us, hus, rfl⟩ := Option.map_eq_some_iff.mp hres
      exact ⟨us, hus, hall⟩
    · rintro ⟨us, hus, hall⟩
      exact ⟨_, Option.map_eq_some_iff.mpr ⟨us, hus, rfl⟩, hall⟩
  -- the first list is entered at 0 and nothing of it is passed over
  rw [hrun, resetObjects_iff objects 0 h]
  unfold CarryHarmless
  cases objects.dropLast with
  | nil => simp [CarriesHarmlessly]
  | cons o os =>
    rw [← carriesHarmlessly_iff_isChain]
    exact ⟨fun hc => hc.2, fun hc => ⟨⟨Nat.zero_le _, fun p hp => by cases hp⟩, hc⟩⟩

/-- A table of two objects, the second of which has more attributes and starts with one
that holds its default: both values are restored. -/
theorem resetRestores_two_objects :
    ResetRestores
      [channelObject [{ channelDelay with intval := 7 }, paramTerminator],
       boardObject [boardType, { channelDelay with intval := 9 }, paramTerminator],
       objectTerminator] [] 100 := by
  have hcarry : CarryHarmless
      [channelObject [{ channelDelay with intval := 7 }, paramTerminator],
       boardObject [boardType, { channelDelay with intval := 9 }, paramTerminator],
       objectTerminator] := by
    refine List.isChain_pair.mpr ⟨by decide, fun p hp => ?_⟩
    obtain rfl : p = boardType := List.mem_singleton.mp hp
    decide
  refine (resetRestores_iff ⟨⟨[Lib.ascii "CHANNEL", Lib.ascii "BOARD"], rfl, by decide⟩,
    fun o ho hne => ?_⟩ [] 100).mpr hcarry
  simp only [List.mem_cons, List.not_mem_nil, or_false] at ho
  rcases ho with rfl | rfl | rfl
  · exact ⟨[Lib.ascii "DELAY"], rfl, by decide⟩
  · exact ⟨[Lib.ascii "TYPE", Lib.ascii "DELAY"], rfl, by decide⟩
  · exact absurd rfl hne

/-- On the board's own table RESET reads past `board_attrs`. -/
theorem not_resetRestores_netprotObjects : ¬ ResetRestores netprotObjects [] 100 := by
  rintro ⟨res, hres, -⟩
  have hnone : netprotCmdReset netprotObjects [] 100 = none := by decide
  rw [hnone] at hres
  cases hres

end Datalogger
