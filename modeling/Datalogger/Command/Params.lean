import Datalogger.Lib.CString
import Datalogger.Lib.Keywords

/-!
# The object table

`netprot_objects` is the parameter store: an array of objects, each with an array of
attributes, both ended by an entry with an empty name. SET, GET and RESET walk these
arrays up to that terminator, so the lists below carry the terminator entries as the
C arrays do, and a walk that reaches the end of a list has read past the array: its
result is `none`, as for every undefined access of this model.

Mirroring notes:
- The pointer a search returns through `out` is the index of the entry.
- The `attrs` of the terminating object is `NULL`; no walk looks at it.
- `strval` and the names are the strings in their arrays; see `CharArray`.
-/

namespace Datalogger

open Lib (CharArray ascii strncmp prefixIdx)

/-- `enum netprot_param_type`. -/
inductive ParamType where
  | int
  | str
  deriving DecidableEq, Repr

/-- `FLAG_RO`. -/
def flagRo : UInt8 := 1

/-- `netprot_param`, with `NETPROT_PARAM_NAMESIZE` 16 and `NETPROT_PARAMS_STRVALSIZE` 32. -/
structure NetprotParam where
  name : CharArray 16
  type : ParamType
  flags : UInt8
  intval : Int32
  strval : CharArray 32
  defaultIntval : Int32
  defaultStrval : CharArray 32
  deriving DecidableEq

/-- `netprot_object`. -/
structure NetprotObject where
  name : CharArray 16
  attrs : List NetprotParam
  deriving DecidableEq

/-- The text of `name`. -/
abbrev NetprotParam.nameText (p : NetprotParam) : List UInt8 := p.name.text

/-- The text of `name`. -/
abbrev NetprotObject.nameText (o : NetprotObject) : List UInt8 := o.name.text

/-- The empty string. -/
def emptyStr {n : Nat} (h : 0 < n := by decide) : CharArray n :=
  { text := [], fits := h, nulFree := by simp }

/-! ## The searches -/

/-- The loop of the two searches: the first entry before the terminator whose name is
a prefix of `name`. The error of a search that reaches the terminator is `!found`. -/
def findNamed {α : Type} (nameOf : α → List UInt8) (name : List UInt8) :
    List α → Nat → Option (Except Int32 Nat)
  | [], _ => none
  | e :: es, i =>
    if nameOf e = [] then some (.error 1)
    else if strncmp (nameOf e) name (nameOf e).length = 0 then some (.ok i)
    else findNamed nameOf name es (i + 1)

/-- `netprot_find_object`. -/
def netprotFindObject (objects : List NetprotObject) (name : List UInt8) :
    Option (Except Int32 Nat) :=
  if name = [] then some (.error (-1))
  else findNamed NetprotObject.nameText name objects 0

/-- `netprot_find_attr`. -/
def netprotFindAttr (name : List UInt8) (object : NetprotObject) : Option (Except Int32 Nat) :=
  if name = [] then some (.error (-1))
  else findNamed NetprotParam.nameText name object.attrs 0

/-- `netprot_find_object_attr`: `*out` is the attribute's entry. -/
def netprotFindObjectAttr (objects : List NetprotObject) (objname paramname : List UInt8) :
    Option (Except Int32 NetprotParam) :=
  match netprotFindObject objects objname with
  | none => none
  | some (.error _) => some (.error (-1))
  | some (.ok i) =>
    match objects[i]? with
    | none => none
    | some object =>
      match netprotFindAttr paramname object with
      | none => none
      | some (.error _) => some (.error (-1))
      | some (.ok j) => object.attrs[j]?.map Except.ok

/-! ## The table of the ADC board -/

/-- `CONFIG_IGNORE_NBUFFERS`. -/
def configIgnoreNbuffers : Int32 := 20000

/-- `CONFIG_BOARD_TYPE_STRING`. -/
def configBoardTypeString : CharArray 32 := ⟨ascii "ADC", by decide, by decide⟩

/-- The terminator `{"",0,0,0,"",0,""}` of an attribute list. -/
def paramTerminator : NetprotParam :=
  { name := emptyStr, type := .int, flags := 0, intval := 0, strval := emptyStr
    defaultIntval := 0, defaultStrval := emptyStr }

/-- `CHANNEL NAME`. -/
def channelName : NetprotParam :=
  { name := ⟨ascii "NAME", by decide, by decide⟩, type := .str, flags := 0
    intval := 0, strval := emptyStr, defaultIntval := 0, defaultStrval := emptyStr }

/-- `CHANNEL DELAY`. -/
def channelDelay : NetprotParam :=
  { name := ⟨ascii "DELAY", by decide, by decide⟩, type := .int, flags := 0
    intval := configIgnoreNbuffers, strval := emptyStr
    defaultIntval := configIgnoreNbuffers, defaultStrval := emptyStr }

/-- `BOARD TYPE`. -/
def boardType : NetprotParam :=
  { name := ⟨ascii "TYPE", by decide, by decide⟩, type := .str, flags := flagRo
    intval := 0, strval := configBoardTypeString
    defaultIntval := 0, defaultStrval := configBoardTypeString }

/-- `channel_attrs`. -/
def channelAttrs : List NetprotParam := [channelName, channelDelay, paramTerminator]

/-- `board_attrs`. -/
def boardAttrs : List NetprotParam := [boardType, paramTerminator]

/-- The object `CHANNEL` with these attributes. -/
def channelObject (attrs : List NetprotParam) : NetprotObject :=
  { name := ⟨ascii "CHANNEL", by decide, by decide⟩, attrs := attrs }

/-- The object `BOARD` with these attributes. -/
def boardObject (attrs : List NetprotParam) : NetprotObject :=
  { name := ⟨ascii "BOARD", by decide, by decide⟩, attrs := attrs }

@[simp] theorem channelObject_attrs (ps : List NetprotParam) : (channelObject ps).attrs = ps := rfl

@[simp] theorem boardObject_attrs (ps : List NetprotParam) : (boardObject ps).attrs = ps := rfl

theorem channelObject_named (ps : List NetprotParam) : (channelObject ps).name.text ≠ [] := by
  show ascii "CHANNEL" ≠ []
  decide

theorem boardObject_named (ps : List NetprotParam) : (boardObject ps).name.text ≠ [] := by
  show ascii "BOARD" ≠ []
  decide

/-- The terminator `{"", NULL}` of the table. -/
def objectTerminator : NetprotObject := { name := emptyStr, attrs := [] }

/-- `netprot_objects` as it is at power-up. -/
def netprotObjects : List NetprotObject :=
  [channelObject channelAttrs, boardObject boardAttrs, objectTerminator]

/-! ## Terminated tables -/

/-- A list that a walk over names ends on: entries with names, then one without. -/
def NameTerminated {α : Type} (nameOf : α → List UInt8) (es : List α) : Prop :=
  ∃ names, es.map nameOf = names ++ [[]] ∧ [] ∉ names

/-- Every list the searches and RESET walk over is terminated. -/
structure TableTerminated (table : List NetprotObject) : Prop where
  objects : NameTerminated NetprotObject.nameText table
  attrs : ∀ o ∈ table, o.name.text ≠ [] → NameTerminated NetprotParam.nameText o.attrs

theorem nameTerminated_cons {α : Type} {nameOf : α → List UInt8} {e : α} {es : List α}
    (h : NameTerminated nameOf (e :: es)) :
    (nameOf e = [] ∧ es = []) ∨ (nameOf e ≠ [] ∧ NameTerminated nameOf es) := by
  obtain ⟨names, hes, hnames⟩ := h
  rw [List.map_cons] at hes
  cases names with
  | nil =>
    obtain ⟨he, hrest⟩ := List.cons.inj hes
    exact Or.inl ⟨he, List.map_eq_nil_iff.mp hrest⟩
  | cons n names =>
    obtain ⟨rfl, hrest⟩ := List.cons.inj hes
    exact Or.inr ⟨fun h0 => hnames (by simp [h0]), names, hrest,
      fun hmem => hnames (by simp [hmem])⟩

theorem length_of_nameTerminated {α : Type} {nameOf : α → List UInt8} {es : List α}
    (h : NameTerminated nameOf es) : 0 < es.length := by
  obtain ⟨names, hnames, -⟩ := h
  have hlen := congrArg List.length hnames
  simp only [List.length_map, List.length_append, List.length_singleton] at hlen
  omega

/-- The entries with a name, by the place of their names. -/
theorem entry_iff {α : Type} {nameOf : α → List UInt8} {es : List α} {names : List (List UInt8)}
    (hes : es.map nameOf = names ++ [[]]) (hnames : [] ∉ names) {w : List UInt8} {i : Nat} :
    (∃ e, es[i]? = some e ∧ nameOf e ≠ [] ∧ nameOf e = w) ↔ names[i]? = some w := by
  have hget := congrArg (fun l : List (List UInt8) => l[i]?) hes
  simp only [List.getElem?_map] at hget
  constructor
  · intro h
    obtain ⟨e, he, hne, rfl⟩ := h
    rw [he, Option.map_some] at hget
    rcases Nat.lt_or_ge i names.length with hlt | hge
    · rw [hget, List.getElem?_append_left hlt]
    · -- behind the names there is the terminator only
      rw [List.getElem?_append_right hge] at hget
      exact absurd (List.mem_singleton.mp (List.mem_of_getElem? hget.symm)) hne
  · intro h
    obtain ⟨hlt, -⟩ := List.getElem?_eq_some_iff.mp h
    rw [List.getElem?_append_left hlt, h] at hget
    obtain ⟨e, he, rfl⟩ := Option.map_eq_some_iff.mp hget
    exact ⟨e, he, fun h0 => hnames (h0 ▸ List.mem_of_getElem? h), rfl⟩

/-- What the loop returns for the entry it finds, counted from `k` on. -/
def foundAt (k : Nat) : Option Nat → Except Int32 Nat
  | none => .error 1
  | some i => .ok (k + i)

/-- **The search finds the first name that compares equal**, or the terminator. -/
theorem findNamed_eq {α : Type} {nameOf : α → List UInt8} (s : List UInt8) :
    ∀ {names : List (List UInt8)} {es : List α} (k : Nat), es.map nameOf = names ++ [[]] →
      [] ∉ names → findNamed nameOf s es k
        = some (foundAt k (names.findIdx? fun n => strncmp n s n.length = 0)) := by
  intro names
  induction names with
  | nil =>
    intro es k hes _
    obtain ⟨e, rest, rfl, he, -⟩ := List.map_eq_cons_iff.mp hes
    rw [findNamed, if_pos he]
    rfl
  | cons n names ih =>
    intro es k hes hnames
    obtain ⟨e, rest, rfl, rfl, hrest⟩ := List.map_eq_cons_iff.mp hes
    have hne : nameOf e ≠ [] := fun h0 => hnames (by simp [h0])
    rw [findNamed, if_neg hne, List.findIdx?_cons]
    by_cases hcmp : strncmp (nameOf e) s (nameOf e).length = 0
    · rw [if_pos hcmp, if_pos (decide_eq_true hcmp)]
      rfl
    · rw [if_neg hcmp, if_neg fun h => hcmp (of_decide_eq_true h),
        ih (k + 1) hrest fun hmem => hnames (by simp [hmem])]
      cases names.findIdx? fun n => strncmp n s n.length = 0 with
      | none => rfl
      | some i =>
        show some (Except.ok (k + 1 + i)) = some (.ok (k + (i + 1)))
        rw [Nat.add_assoc, Nat.add_comm 1 i]

/-- Among names without null bytes, that is the first that is a prefix. -/
theorem findNamed_prefixIdx {α : Type} {nameOf : α → List UInt8} {names : List (List UInt8)}
    {es : List α} (hes : es.map nameOf = names ++ [[]]) (hnames : [] ∉ names)
    (hnul : ∀ n ∈ names, 0 ∉ n) (s : List UInt8) (k : Nat) :
    findNamed nameOf s es k = some (foundAt k (prefixIdx names s)) := by
  have hcmp : names.findIdx? (fun n => strncmp n s n.length = 0) = prefixIdx names s := by
    refine Lib.findIdx?_congr fun n hn => ?_
    rw [Bool.eq_iff_iff, decide_eq_true_iff, List.isPrefixOf_iff_prefix, Lib.strncmp_comm_eq_zero]
    exact Lib.strncmp_eq_zero_iff (hnul n hn)
  rw [findNamed_eq s k hes hnames, hcmp]

/-- A search of a terminated list comes back, and what it finds is an entry with a
name. -/
theorem findNamed_of_terminated {α : Type} {nameOf : α → List UInt8} (name : List UInt8)
    {es : List α} (k : Nat) (h : NameTerminated nameOf es) :
    (∃ err, findNamed nameOf name es k = some (.error err)) ∨
    ∃ i e, findNamed nameOf name es k = some (.ok (k + i)) ∧ es[i]? = some e ∧ nameOf e ≠ [] := by
  obtain ⟨names, hes, hnames⟩ := h
  rw [findNamed_eq name k hes hnames]
  cases hfind : names.findIdx? fun n => strncmp n name n.length = 0 with
  | none => exact Or.inl ⟨1, rfl⟩
  | some i =>
    obtain ⟨hlt, -, -⟩ := List.findIdx?_eq_some_iff_getElem.mp hfind
    obtain ⟨e, he, hne, -⟩ := (entry_iff hes hnames).mpr (List.getElem?_eq_getElem hlt)
    exact Or.inr ⟨i, e, rfl, he, hne⟩

/-- `netprot_find_object` on a terminated table. -/
theorem netprotFindObject_of_terminated {objects : List NetprotObject}
    (h : TableTerminated objects) (name : List UInt8) :
    (∃ err, netprotFindObject objects name = some (.error err)) ∨
    ∃ i o, netprotFindObject objects name = some (.ok i) ∧ objects[i]? = some o ∧
      NameTerminated NetprotParam.nameText o.attrs := by
  unfold netprotFindObject
  by_cases hname : name = []
  · rw [if_pos hname]
    exact Or.inl ⟨-1, rfl⟩
  · rw [if_neg hname]
    rcases findNamed_of_terminated name 0 h.objects with herr | ⟨i, o, hi, ho, hne⟩
    · exact Or.inl herr
    · rw [Nat.zero_add] at hi
      exact Or.inr ⟨i, o, hi, ho, h.attrs o (List.mem_of_getElem? ho) hne⟩

/-- `netprot_find_attr` on a terminated attribute list. -/
theorem netprotFindAttr_of_terminated {object : NetprotObject}
    (h : NameTerminated NetprotParam.nameText object.attrs) (name : List UInt8) :
    (∃ err, netprotFindAttr name object = some (.error err)) ∨
    ∃ j p, netprotFindAttr name object = some (.ok j) ∧ object.attrs[j]? = some p := by
  unfold netprotFindAttr
  by_cases hname : name = []
  · rw [if_pos hname]
    exact Or.inl ⟨-1, rfl⟩
  · rw [if_neg hname]
    rcases findNamed_of_terminated name 0 h with herr | ⟨j, p, hj, hp, -⟩
    · exact Or.inl herr
    · rw [Nat.zero_add] at hj
      exact Or.inr ⟨j, p, hj, hp⟩

/-! ## The values of a table -/

/-- An attribute with its default values. -/
def NetprotParam.restored (p : NetprotParam) : NetprotParam :=
  { p with intval := p.defaultIntval, strval := p.defaultStrval }

/-- The attribute holds its default values. -/
def NetprotParam.AtDefault (p : NetprotParam) : Prop :=
  p.intval = p.defaultIntval ∧ p.strval = p.defaultStrval

instance (p : NetprotParam) : Decidable p.AtDefault := inferInstanceAs (Decidable (_ ∧ _))

theorem NetprotParam.restored_atDefault (p : NetprotParam) : p.restored.AtDefault := ⟨rfl, rfl⟩

/-- An object with every value at its default. -/
def NetprotObject.restored (o : NetprotObject) : NetprotObject :=
  { o with attrs := o.attrs.map NetprotParam.restored }

/-- The two tables differ in values at most: same objects, same attributes, with the
same types, flags and defaults. -/
def SameTable (t u : List NetprotObject) : Prop :=
  t.map NetprotObject.restored = u.map NetprotObject.restored

theorem SameTable.getElem? {t u : List NetprotObject} (h : SameTable t u) {i : Nat}
    {o : NetprotObject} (ho : t[i]? = some o) :
    ∃ o', u[i]? = some o' ∧ o.restored = o'.restored := by
  have hi := congrArg (fun l : List NetprotObject => l[i]?) h
  simp only [List.getElem?_map, ho, Option.map_some] at hi
  obtain ⟨o', ho', heq⟩ := Option.map_eq_some_iff.mp hi.symm
  exact ⟨o', ho', heq.symm⟩

theorem map_nameText_restored (ps : List NetprotParam) :
    (ps.map NetprotParam.restored).map NetprotParam.nameText = ps.map NetprotParam.nameText := by
  rw [List.map_map]
  rfl

/-- The entries of a table of the board, one by one. -/
structure AdcEntries (name delay end₀ type end₁ : NetprotParam) : Prop where
  name : name.restored = channelName
  delay : delay.restored = channelDelay
  end₀ : end₀.restored = paramTerminator
  type : type.restored = boardType
  end₁ : end₁.restored = paramTerminator

/-- A table of the board, spelled out. -/
theorem SameTable.eq_adc {t : List NetprotObject} (h : SameTable t netprotObjects) :
    ∃ name delay end₀ type end₁,
      t = [channelObject [name, delay, end₀], boardObject [type, end₁], objectTerminator] ∧
        AdcEntries name delay end₀ type end₁ := by
  have hrestored : netprotObjects.map NetprotObject.restored = netprotObjects := by decide
  have hattrs : ∀ {o : NetprotObject} {n : CharArray 16} {ps : List NetprotParam},
      o.restored = { name := n, attrs := ps } →
      o = { name := n, attrs := o.attrs } ∧ o.attrs.map NetprotParam.restored = ps := by
    intro o n ps ho
    obtain ⟨hname, hps⟩ := NetprotObject.mk.inj ho
    subst hname
    exact ⟨rfl, hps⟩
  unfold SameTable at h
  rw [hrestored] at h
  -- three objects, then the attributes of the first two
  obtain ⟨o₀, rest, rfl, h₀, h⟩ := List.map_eq_cons_iff.mp h
  obtain ⟨o₁, rest, rfl, h₁, h⟩ := List.map_eq_cons_iff.mp h
  obtain ⟨o₂, rest, rfl, h₂, h⟩ := List.map_eq_cons_iff.mp h
  obtain rfl := List.map_eq_nil_iff.mp h
  obtain ⟨ho₀, ha₀⟩ := hattrs h₀
  obtain ⟨ho₁, ha₁⟩ := hattrs h₁
  obtain ⟨ho₂, ha₂⟩ := hattrs h₂
  obtain ⟨name, rest, hl₀, hname, ha₀⟩ := List.map_eq_cons_iff.mp ha₀
  obtain ⟨delay, rest, rfl, hdelay, ha₀⟩ := List.map_eq_cons_iff.mp ha₀
  obtain ⟨end₀, rest, rfl, hend₀, ha₀⟩ := List.map_eq_cons_iff.mp ha₀
  obtain rfl := List.map_eq_nil_iff.mp ha₀
  obtain ⟨type, rest, hl₁, htype, ha₁⟩ := List.map_eq_cons_iff.mp ha₁
  obtain ⟨end₁, rest, rfl, hend₁, ha₁⟩ := List.map_eq_cons_iff.mp ha₁
  obtain rfl := List.map_eq_nil_iff.mp ha₁
  rw [hl₀] at ho₀
  rw [hl₁] at ho₁
  rw [List.map_eq_nil_iff.mp ha₂] at ho₂
  refine ⟨name, delay, end₀, type, end₁, ?_, hname, hdelay, hend₀, htype, hend₁⟩
  rw [ho₀, ho₁, ho₂]
  rfl

/-- An attribute's name is that of its default. -/
theorem NetprotParam.name_of_restored {p q : NetprotParam} (h : p.restored = q) :
    p.name = q.name := by
  rw [← h]
  rfl

theorem SameTable.map_nameText {t u : List NetprotObject} (h : SameTable t u) :
    t.map NetprotObject.nameText = u.map NetprotObject.nameText := by
  have hname : ∀ v : List NetprotObject,
      v.map NetprotObject.nameText = (v.map NetprotObject.restored).map NetprotObject.nameText := by
    intro v
    rw [List.map_map]
    rfl
  rw [hname, show t.map NetprotObject.restored = u.map NetprotObject.restored from h, ← hname]

/-- An object of one table has a namesake in the other, with the same attribute names. -/
theorem SameTable.namesake {t u : List NetprotObject} (h : SameTable t u) {o : NetprotObject}
    (ho : o ∈ t) : ∃ o' ∈ u, o.nameText = o'.nameText ∧
      o.attrs.map NetprotParam.nameText = o'.attrs.map NetprotParam.nameText := by
  obtain ⟨i, hi⟩ := List.mem_iff_getElem?.mp ho
  obtain ⟨o', ho', heq⟩ := h.getElem? hi
  have hname : o.restored.nameText = o'.restored.nameText := by rw [heq]
  have hattrs := congrArg (fun p : NetprotObject => p.attrs.map NetprotParam.nameText) heq
  simp only [NetprotObject.restored, map_nameText_restored] at hattrs
  exact ⟨o', List.mem_of_getElem? ho', hname, hattrs⟩

/-- Which lists are terminated does not depend on the values. -/
theorem TableTerminated.of_sameTable {t u : List NetprotObject} (h : SameTable t u)
    (hu : TableTerminated u) : TableTerminated t := by
  refine ⟨?_, fun o ho hne => ?_⟩
  · unfold NameTerminated
    rw [h.map_nameText]
    exact hu.objects
  · obtain ⟨o', ho', hname, hattrs⟩ := h.namesake ho
    unfold NameTerminated
    rw [hattrs]
    exact hu.attrs o' ho' fun h0 => hne (hname.trans h0)

/-! ## Names that can be told apart -/

/-- A list whose entries are found by their names: the names are words before a
terminator, and none is a prefix of another. -/
def Addressable {α : Type} (nameOf : α → List UInt8) (es : List α) : Prop :=
  ∃ names, es.map nameOf = names ++ [[]] ∧ (∀ n ∈ names, n ≠ [] ∧ ∀ c ∈ n, Lib.isAlpha c) ∧
    names.Pairwise fun m n => ¬ m <+: n ∧ ¬ n <+: m

/-- A table whose objects and attributes are found by their names. -/
structure TableAddressable (table : List NetprotObject) : Prop where
  objects : Addressable NetprotObject.nameText table
  attrs : ∀ o ∈ table, o.name.text ≠ [] → Addressable NetprotParam.nameText o.attrs

theorem Addressable.word {α : Type} {nameOf : α → List UInt8} {es : List α}
    (h : Addressable nameOf es) {e : α} (he : e ∈ es) (hne : nameOf e ≠ []) :
    ∀ c ∈ nameOf e, Lib.isAlpha c := by
  obtain ⟨names, hes, hwords, -⟩ := h
  have hmem : nameOf e ∈ names ++ [[]] := hes ▸ List.mem_map_of_mem he
  rcases List.mem_append.mp hmem with hn | hend
  · exact (hwords _ hn).2
  · exact absurd (List.mem_singleton.mp hend) hne

/-- **A name finds its entry**, whatever follows it. -/
theorem findNamed_of_addressable {α : Type} {nameOf : α → List UInt8} (rest : List UInt8)
    {es : List α} {i : Nat} {e : α} (k : Nat) (h : Addressable nameOf es) (he : es[i]? = some e)
    (hne : nameOf e ≠ []) : findNamed nameOf (nameOf e ++ rest) es k = some (.ok (k + i)) := by
  obtain ⟨names, hes, hwords, hfree⟩ := h
  have hnames : [] ∉ names := fun hmem => (hwords [] hmem).1 rfl
  have hnul : ∀ n ∈ names, 0 ∉ n := fun n hn hmem => absurd ((hwords n hn).2 0 hmem) (by decide)
  have hi := (entry_iff hes hnames).mp ⟨e, he, hne, rfl⟩
  rw [findNamed_prefixIdx hes hnames hnul, Lib.prefixIdx_of_apart hfree hi]
  rfl

theorem Addressable.terminated {α : Type} {nameOf : α → List UInt8} {es : List α}
    (h : Addressable nameOf es) : NameTerminated nameOf es := by
  obtain ⟨names, hes, hwords, -⟩ := h
  exact ⟨names, hes, fun hmem => (hwords [] hmem).1 rfl⟩

theorem TableAddressable.terminated {table : List NetprotObject} (h : TableAddressable table) :
    TableTerminated table :=
  ⟨h.objects.terminated, fun o ho hne => (h.attrs o ho hne).terminated⟩

theorem TableAddressable.of_sameTable {t u : List NetprotObject} (h : SameTable t u)
    (hu : TableAddressable u) : TableAddressable t := by
  refine ⟨?_, fun o ho hne => ?_⟩
  · unfold Addressable
    rw [h.map_nameText]
    exact hu.objects
  · obtain ⟨o', ho', hname, hattrs⟩ := h.namesake ho
    unfold Addressable
    rw [hattrs]
    exact hu.attrs o' ho' fun h0 => hne (hname.trans h0)

/-- Texts that are words. -/
theorem words_of_all {names : List (List UInt8)}
    (h : names.all (fun n => decide (n ≠ []) && n.all fun c => decide (Lib.isAlpha c)) = true) :
    ∀ n ∈ names, n ≠ [] ∧ ∀ c ∈ n, Lib.isAlpha c := by
  intro n hn
  have hword := List.all_eq_true.mp h n hn
  rw [Bool.and_eq_true] at hword
  exact ⟨of_decide_eq_true hword.1, Lib.forall_mem_of_all hword.2⟩

/-- The names of the board's table can be told apart. -/
theorem netprotObjects_addressable : TableAddressable netprotObjects where
  objects := ⟨[ascii "CHANNEL", ascii "BOARD"], rfl, words_of_all (by decide), by decide⟩
  attrs := by
    intro o ho hne
    simp only [netprotObjects, List.mem_cons, List.not_mem_nil, or_false] at ho
    rcases ho with rfl | rfl | rfl
    · exact ⟨[ascii "NAME", ascii "DELAY"], rfl, words_of_all (by decide), by decide⟩
    · exact ⟨[ascii "TYPE"], rfl, words_of_all (by decide), by decide⟩
    · exact absurd rfl hne

/-- The boot table is terminated. -/
theorem netprotObjects_terminated : TableTerminated netprotObjects :=
  netprotObjects_addressable.terminated

end Datalogger
