import Mathlib.Data.List.Nodup
import Mathlib.Data.List.TakeWhile

/-!
# Keywords found by prefix

A reader that compares the start of its input with the names in a table, in order, and
takes the first that fits, does not look for the end of the word it reads. `prefixIdx`
is the entry it takes and `wordIdx` the one whose name is the whole word. They are the
same exactly if no name that is a shorter prefix of the word stands in front of the
word's own entry (`prefixIdx_eq_wordIdx_iff`); where the word has no entry, there must be
no such name at all.
-/

namespace Datalogger.Lib

variable {α : Type} [DecidableEq α]

omit [DecidableEq α] in
/-- Two tests that agree on a list find the same place in it. -/
theorem findIdx?_congr {p q : α → Bool} {l : List α} (h : ∀ a ∈ l, p a = q a) :
    l.findIdx? p = l.findIdx? q := by
  induction l with
  | nil => rfl
  | cons a l ih =>
    rw [List.findIdx?_cons, List.findIdx?_cons, h a (by simp), ih fun b hb => h b (by simp [hb])]

/-- The first name that `s` starts with. -/
def prefixIdx (names : List (List α)) (s : List α) : Option Nat :=
  names.findIdx? fun n => n.isPrefixOf s

/-- The first name that is `w`. -/
def wordIdx (names : List (List α)) (w : List α) : Option Nat :=
  names.findIdx? fun n => n = w

/-- A name that `w` starts with, other than `w`, stands behind `w`. -/
def Unshadowed (names : List (List α)) (w : List α) : Prop :=
  ∀ (i : Nat) (n : List α), names[i]? = some n → n <+: w → n ≠ w → ∃ j < i, names[j]? = some w

omit [DecidableEq α] in
theorem unshadowed_nil (w : List α) : Unshadowed [] w := by
  intro i n hn
  simp at hn

omit [DecidableEq α] in
theorem unshadowed_cons {n : List α} {names : List (List α)} {w : List α} :
    Unshadowed (n :: names) w ↔ n = w ∨ ¬ n <+: w ∧ Unshadowed names w := by
  constructor
  · intro h
    by_cases hn : n = w
    · exact Or.inl hn
    · refine Or.inr ⟨fun hpre => ?_, fun i m hm hpre hne => ?_⟩
      · obtain ⟨j, hj, -⟩ := h 0 n rfl hpre hn
        exact absurd hj (Nat.not_lt_zero j)
      · obtain ⟨j, hj, hw⟩ := h (i + 1) m hm hpre hne
        cases j with
        | zero => exact absurd (Option.some.inj hw) hn
        | succ j => exact ⟨j, Nat.lt_of_succ_lt_succ hj, hw⟩
  · intro h i m hm hpre hne
    cases i with
    | zero =>
      obtain rfl := Option.some.inj hm
      rcases h with heq | ⟨hnot, -⟩
      · exact absurd heq hne
      · exact absurd hpre hnot
    | succ i =>
      rcases h with heq | ⟨-, hrest⟩
      · exact ⟨0, Nat.zero_lt_succ i, congrArg some heq⟩
      · obtain ⟨j, hj, hw⟩ := hrest i m hm hpre hne
        exact ⟨j + 1, Nat.succ_lt_succ hj, hw⟩

/-- **First prefix and whole word.** -/
theorem prefixIdx_eq_wordIdx_iff (names : List (List α)) (w : List α) :
    prefixIdx names w = wordIdx names w ↔ Unshadowed names w := by
  induction names with
  | nil => exact iff_of_true rfl (unshadowed_nil w)
  | cons n names ih =>
    rw [unshadowed_cons, ← ih]
    unfold prefixIdx wordIdx
    rw [List.findIdx?_cons, List.findIdx?_cons]
    by_cases hn : n = w
    · have hprefix : n.isPrefixOf w = true :=
        List.isPrefixOf_iff_prefix.mpr (hn ▸ List.prefix_refl n)
      rw [if_pos hprefix, if_pos (decide_eq_true hn)]
      exact iff_of_true rfl (Or.inl hn)
    · rw [if_neg (c := decide (n = w) = true) (by simpa using hn)]
      by_cases hpre : n <+: w
      · -- the name is taken, although it is not the word
        rw [if_pos (List.isPrefixOf_iff_prefix.mpr hpre)]
        refine iff_of_false (fun h => ?_) fun h => h.elim hn fun hrest => hrest.1 hpre
        obtain ⟨j, -, hj⟩ := Option.map_eq_some_iff.mp h.symm
        exact absurd hj (Nat.succ_ne_zero j)
      · rw [if_neg fun h => hpre (List.isPrefixOf_iff_prefix.mp h),
          (Option.map_injective fun i j h => Nat.succ.inj h).eq_iff]
        exact ⟨fun h => Or.inr ⟨hpre, h⟩, fun h => (h.resolve_left hn).2⟩

/-- Where no name starts another, a name is found whatever follows it. -/
theorem prefixIdx_of_apart {names : List (List α)}
    (h : names.Pairwise fun m n => ¬ m <+: n ∧ ¬ n <+: m) {n : List α} {i : Nat}
    (hi : names[i]? = some n) (rest : List α) : prefixIdx names (n ++ rest) = some i := by
  obtain ⟨hlt, rfl⟩ := List.getElem?_eq_some_iff.mp hi
  unfold prefixIdx
  rw [List.findIdx?_eq_some_iff_getElem]
  refine ⟨hlt, List.isPrefixOf_iff_prefix.mpr (List.prefix_append _ rest), fun j hj hpre => ?_⟩
  -- of two prefixes of one text the shorter is a prefix of the other
  have hapart := List.pairwise_iff_getElem.mp h j i (Nat.lt_trans hj hlt) hlt hj
  rcases List.prefix_or_prefix_of_prefix (List.isPrefixOf_iff_prefix.mp hpre)
    (List.prefix_append _ rest) with hji | hij
  · exact hapart.1 hji
  · exact hapart.2 hij

instance (names : List (List α)) (w : List α) : Decidable (Unshadowed names w) :=
  decidable_of_iff _ (prefixIdx_eq_wordIdx_iff names w)

/-- The entry of a word in a table without duplicates. -/
theorem wordIdx_eq_some_iff {names : List (List α)} (h : names.Nodup) {w : List α} {i : Nat} :
    wordIdx names w = some i ↔ names[i]? = some w := by
  unfold wordIdx
  rw [List.findIdx?_eq_some_iff_getElem]
  constructor
  · intro hi
    obtain ⟨hlt, hw, -⟩ := hi
    rw [List.getElem?_eq_getElem hlt, of_decide_eq_true hw]
  · intro hi
    obtain ⟨hlt, hw⟩ := List.getElem?_eq_some_iff.mp hi
    refine ⟨hlt, decide_eq_true hw, fun j hj hjw => ?_⟩
    -- the same word twice
    have hjlt : j < names.length := Nat.lt_trans hj hlt
    have heq : names[j] = names[i] := (of_decide_eq_true hjw).trans hw.symm
    exact absurd ((List.Nodup.getElem_inj_iff h).mp heq) (Nat.ne_of_lt hj)

/-! ## Names of one class of symbols -/

omit [DecidableEq α] in
/-- A name of symbols of a class is a prefix of a text if it is one of the run of such
symbols the text starts with. -/
theorem prefix_takeWhile_iff {P : α → Bool} {n : List α} (hn : ∀ c ∈ n, P c = true) :
    ∀ {s : List α}, n <+: s.takeWhile P ↔ n <+: s := by
  induction n with
  | nil =>
    intro s
    exact iff_of_true List.nil_prefix List.nil_prefix
  | cons c n ih =>
    intro s
    have hc := hn c (by simp)
    cases s with
    | nil => rfl
    | cons b s =>
      by_cases hb : P b
      · rw [List.takeWhile_cons, if_pos hb, List.cons_prefix_cons, List.cons_prefix_cons,
          ih fun d hd => hn d (by simp [hd])]
      · rw [List.takeWhile_cons, if_neg hb, List.cons_prefix_cons, List.prefix_nil]
        refine iff_of_false nofun fun h => hb ?_
        rw [← h.1]
        exact hc

/-- So the first name a text starts with depends on that run alone. -/
theorem prefixIdx_takeWhile {P : α → Bool} {names : List (List α)}
    (h : ∀ n ∈ names, ∀ c ∈ n, P c = true) (s : List α) :
    prefixIdx names (s.takeWhile P) = prefixIdx names s := by
  refine findIdx?_congr fun n hn => ?_
  rw [Bool.eq_iff_iff, List.isPrefixOf_iff_prefix, List.isPrefixOf_iff_prefix,
    prefix_takeWhile_iff (h n hn)]

end Datalogger.Lib
