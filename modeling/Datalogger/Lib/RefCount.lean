import Mathlib.Data.List.Count
import Mathlib.Logic.Function.Basic

/-!
# Cells with a reference counter

A store of cells that several owners may share, each with a counter of its owners. The last
owner to let go of a cell frees it; any other only counts down. Nothing checks the counters:
what makes them right is that every owner was counted once. `Counted` says so, up to what has
been `lost`: owners that went away without letting go. A cell then is never freed under an
owner, whatever has been lost; when all owners have let go, exactly the cells with a loss are
left (`Counted.eq_none_iff`).
-/

namespace Datalogger.Lib

variable {κ ν : Type} [DecidableEq κ]

/-- A cell and how many owners it counts. -/
structure Cell (ν : Type) where
  refs : Nat
  value : ν

/-- The cells by their names. -/
abbrev Cells (κ ν : Type) := κ → Option (Cell ν)

namespace Cells

variable (s : Cells κ ν) (k : κ)

/-- A fresh cell with one owner. -/
def alloc (v : ν) : Cells κ ν := Function.update s k (some ⟨1, v⟩)

/-- One more owner. -/
def share : Cells κ ν :=
  Function.update s k ((s k).map fun c => { c with refs := c.refs + 1 })

/-- An owner lets go of its cell. -/
def release : Cells κ ν :=
  Function.update s k ((s k).bind fun c =>
    if c.refs = 1 then none else some { c with refs := c.refs - 1 })

/-- A new value for a cell. -/
def write (v : ν) : Cells κ ν :=
  Function.update s k ((s k).map fun c => { c with value := v })

/-- The value of a cell. -/
def valueAt : Option ν := (s k).map Cell.value

/-- How many owners a cell counts; none, if it is free. -/
def refsAt : Nat := ((s k).map Cell.refs).getD 0

variable {k} {j : κ}

theorem valueAt_share : (s.share k).valueAt j = s.valueAt j := by
  by_cases hjk : j = k
  · subst hjk
    rw [valueAt, share, Function.update_self, Option.map_map]
    rfl
  · rw [valueAt, share, Function.update_of_ne hjk]
    rfl

theorem valueAt_alloc_self (v : ν) : (s.alloc k v).valueAt k = some v := by
  rw [valueAt, alloc, Function.update_self]
  rfl

theorem valueAt_alloc_ne (h : j ≠ k) (v : ν) : (s.alloc k v).valueAt j = s.valueAt j := by
  rw [valueAt, alloc, Function.update_of_ne h]
  rfl

theorem valueAt_release_ne (h : j ≠ k) : (s.release k).valueAt j = s.valueAt j := by
  rw [valueAt, release, Function.update_of_ne h]
  rfl

theorem valueAt_write_ne (h : j ≠ k) (v : ν) : (s.write k v).valueAt j = s.valueAt j := by
  rw [valueAt, write, Function.update_of_ne h]
  rfl

variable {s}

theorem valueAt_write_self {w : ν} (h : s.valueAt k = some w) (v : ν) :
    (s.write k v).valueAt k = some v := by
  obtain ⟨c, hc, -⟩ := Option.map_eq_some_iff.mp h
  rw [valueAt, write, Function.update_self, hc]
  rfl

end Cells

/-- The counters of the cells are right for `owners`, the names of the cells they own, up to
what has been lost. -/
structure Counted (lost : κ → Nat) (s : Cells κ ν) (owners : List κ) : Prop where
  refs : ∀ k, s.refsAt k = owners.count k + lost k
  pos : ∀ k c, s k = some c → 0 < c.refs

theorem counted_nil : Counted (fun _ => 0) (fun _ => none : Cells κ ν) [] :=
  ⟨fun _ => rfl, nofun⟩

namespace Counted

variable {lost : κ → Nat} {s : Cells κ ν} {owners : List κ} {k j : κ}

/-- The order of the owners does not matter. -/
theorem perm {owners' : List κ} (h : Counted lost s owners) (hp : owners.Perm owners') :
    Counted lost s owners' :=
  ⟨fun k => by rw [← hp.count_eq]; exact h.refs k, h.pos⟩

/-- The cells that are not free are those with an owner or a loss. -/
theorem eq_none_iff (h : Counted lost s owners) : s k = none ↔ k ∉ owners ∧ lost k = 0 := by
  have hrefs := h.refs k
  unfold Cells.refsAt at hrefs
  rw [← List.count_eq_zero]
  cases hc : s k with
  | none =>
    rw [hc] at hrefs
    change 0 = owners.count k + lost k at hrefs
    exact ⟨fun _ => ⟨by omega, by omega⟩, fun _ => rfl⟩
  | some c =>
    have hpos := h.pos k c hc
    rw [hc] at hrefs
    change c.refs = owners.count k + lost k at hrefs
    exact ⟨nofun, fun hzero => by omega⟩

/-- Nobody's cell is freed. -/
theorem live (h : Counted lost s owners) (hk : k ∈ owners) : ∃ c, s k = some c :=
  Option.ne_none_iff_exists'.mp fun hnone => (h.eq_none_iff.mp hnone).1 hk

theorem alloc (h : Counted lost s owners) (hfree : s k = none) (v : ν) :
    Counted lost (s.alloc k v) (k :: owners) := by
  refine ⟨fun j => ?_, fun j c hc => ?_⟩
  · have hrefs := h.refs j
    unfold Cells.refsAt at hrefs ⊢
    by_cases hjk : j = k
    · subst hjk
      rw [hfree] at hrefs
      rw [Cells.alloc, Function.update_self, List.count_cons_self]
      change 0 = _ at hrefs
      change 1 = _
      omega
    · rw [Cells.alloc, Function.update_of_ne hjk, List.count_cons_of_ne (Ne.symm hjk)]
      exact hrefs
  · by_cases hjk : j = k
    · subst hjk
      rw [Cells.alloc, Function.update_self] at hc
      obtain rfl := Option.some.inj hc
      exact Nat.one_pos
    · rw [Cells.alloc, Function.update_of_ne hjk] at hc
      exact h.pos j c hc

theorem share (h : Counted lost s owners) (hk : k ∈ owners) :
    Counted lost (s.share k) (k :: owners) := by
  obtain ⟨d, hd⟩ := h.live hk
  refine ⟨fun j => ?_, fun j c hc => ?_⟩
  · have hrefs := h.refs j
    unfold Cells.refsAt at hrefs ⊢
    by_cases hjk : j = k
    · subst hjk
      rw [hd] at hrefs
      rw [Cells.share, Function.update_self, hd, List.count_cons_self]
      change d.refs = _ at hrefs
      change d.refs + 1 = _
      omega
    · rw [Cells.share, Function.update_of_ne hjk, List.count_cons_of_ne (Ne.symm hjk)]
      exact hrefs
  · by_cases hjk : j = k
    · subst hjk
      rw [Cells.share, Function.update_self, hd] at hc
      obtain rfl := Option.some.inj hc
      exact Nat.succ_pos _
    · rw [Cells.share, Function.update_of_ne hjk] at hc
      exact h.pos j c hc

theorem release (h : Counted lost s (k :: owners)) : Counted lost (s.release k) owners := by
  obtain ⟨d, hd⟩ := h.live (List.mem_cons_self ..)
  have hpos := h.pos k d hd
  refine ⟨fun j => ?_, fun j c hc => ?_⟩
  · have hrefs := h.refs j
    unfold Cells.refsAt at hrefs ⊢
    by_cases hjk : j = k
    · subst hjk
      rw [hd, List.count_cons_self] at hrefs
      rw [Cells.release, Function.update_self, hd, Option.bind_some]
      change d.refs = _ at hrefs
      split
      next => change 0 = _; omega
      next => change d.refs - 1 = _; omega
    · rw [List.count_cons_of_ne (Ne.symm hjk)] at hrefs
      rw [Cells.release, Function.update_of_ne hjk]
      exact hrefs
  · by_cases hjk : j = k
    · subst hjk
      rw [Cells.release, Function.update_self, hd, Option.bind_some] at hc
      split at hc
      next => cases hc
      next =>
        obtain rfl := Option.some.inj hc
        change 0 < d.refs - 1
        omega
    · rw [Cells.release, Function.update_of_ne hjk] at hc
      exact h.pos j c hc

theorem write (h : Counted lost s owners) (k : κ) (v : ν) : Counted lost (s.write k v) owners := by
  have hsame : ∀ j, ((s.write k v) j).map Cell.refs = (s j).map Cell.refs := fun j => by
    by_cases hjk : j = k
    · subst hjk
      rw [Cells.write, Function.update_self, Option.map_map]
      rfl
    · rw [Cells.write, Function.update_of_ne hjk]
  refine ⟨fun j => ?_, fun j c hc => ?_⟩
  · have hrefs := h.refs j
    unfold Cells.refsAt at hrefs ⊢
    rw [hsame]
    exact hrefs
  · have hmap := hsame j
    rw [hc] at hmap
    obtain ⟨d, hd, hrefs⟩ := Option.map_eq_some_iff.mp hmap.symm
    rw [← hrefs]
    exact h.pos j d hd

/-- Owners go away without letting go. -/
theorem lose {gone : List κ} (h : Counted lost s (gone ++ owners)) :
    Counted (fun j => lost j + gone.count j) s owners := by
  refine ⟨fun j => ?_, h.pos⟩
  rw [h.refs j, List.count_append]
  omega

/-- A cell that counts one owner has no other. -/
theorem not_mem_of_refs_one (h : Counted lost s (k :: owners)) (hone : s.refsAt k = 1) :
    k ∉ owners := by
  have hrefs := h.refs k
  rw [List.count_cons_self] at hrefs
  exact List.count_eq_zero.mp (by omega)

/-- A cell that still has an owner keeps its value when another lets go of it. -/
theorem valueAt_release (h : Counted lost s (k :: owners)) (hj : j ∈ owners) :
    (s.release k).valueAt j = s.valueAt j := by
  by_cases hjk : j = k
  · subst hjk
    obtain ⟨d, hd⟩ := h.live (List.mem_cons_of_mem _ hj)
    have hcount := List.count_pos_iff.mpr hj
    have hrefs := h.refs j
    rw [Cells.refsAt, hd, List.count_cons_self] at hrefs
    change d.refs = _ at hrefs
    rw [Cells.valueAt, Cells.release, Function.update_self, Cells.valueAt, hd, Option.bind_some,
      if_neg (by omega)]
    rfl
  · exact s.valueAt_release_ne hjk

end Counted

end Datalogger.Lib
