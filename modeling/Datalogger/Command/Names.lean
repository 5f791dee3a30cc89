import Datalogger.Command.ScanText
import Datalogger.Command.Store

/-!
# Which entry a name finds

`netprot_find_object` and `netprot_find_attr` compare each name of a list with the start
of the text they are given and take the first that fits, so `NAMEX` finds `NAME`. On a
list of distinct words the letters the text starts with decide (`letters`), and the search
finds the entry they name, or none if they name none, exactly if no entry in front of it
is named by a shorter prefix of them (`findNamed_exact_iff`).

Where both searches are exact, SET stores only to the attribute its line names and GET
prints only that one (`namesResolved_iff`).
-/

namespace Datalogger

open Lib (ascii isAlpha skipSpaces strncmp Unshadowed prefixIdx wordIdx)

/-- The letters a text starts with. -/
def letters (s : List UInt8) : List UInt8 := s.takeWhile isAlpha

@[simp] theorem letters_letters (s : List UInt8) : letters (letters s) = letters s :=
  List.takeWhile_idem

/-- The names in front of the terminator of a list. -/
def entryNames {α : Type} (nameOf : α → List UInt8) (es : List α) : List (List UInt8) :=
  (es.map nameOf).takeWhile (· ≠ [])

/-- A terminated list of entries with distinct words for names. -/
def WordTable {α : Type} (nameOf : α → List UInt8) (es : List α) : Prop :=
  ∃ names, es.map nameOf = names ++ [[]] ∧ (∀ n ∈ names, n ≠ [] ∧ ∀ c ∈ n, isAlpha c) ∧ names.Nodup

/-- A table of such objects and attributes. -/
structure TableNamed (table : List NetprotObject) : Prop where
  objects : WordTable NetprotObject.nameText table
  attrs : ∀ o ∈ table, o.nameText ≠ [] → WordTable NetprotParam.nameText o.attrs

/-- Names none of which starts another are distinct. -/
theorem Addressable.wordTable {α : Type} {nameOf : α → List UInt8} {es : List α}
    (h : Addressable nameOf es) : WordTable nameOf es := by
  obtain ⟨names, hes, hwords, hfree⟩ := h
  refine ⟨names, hes, hwords, hfree.imp fun hapart heq => hapart.1 ?_⟩
  subst heq
  exact List.prefix_refl _

theorem TableAddressable.named {table : List NetprotObject} (h : TableAddressable table) :
    TableNamed table where
  objects := h.objects.wordTable
  attrs := fun o ho hne => (h.attrs o ho hne).wordTable

/-- The search comes back, with the entry named `w` if there is one and with none else. -/
structure FindsExactly {α : Type} (nameOf : α → List UInt8) (es : List α) (w : List UInt8)
    (r : Option (Except Int32 Nat)) : Prop where
  returns : r ≠ none
  found : ∀ i, r = some (.ok i) ↔ ∃ e, es[i]? = some e ∧ nameOf e ≠ [] ∧ nameOf e = w

/-! ## The searches -/

theorem WordTable.entryNames_eq {α : Type} {nameOf : α → List UInt8} {es : List α}
    {names : List (List UInt8)} (hes : es.map nameOf = names ++ [[]])
    (hnames : ∀ n ∈ names, n ≠ [] ∧ ∀ c ∈ n, isAlpha c) : entryNames nameOf es = names := by
  unfold entryNames
  rw [hes, List.takeWhile_append_of_pos fun n hn => decide_eq_true (hnames n hn).1]
  simp

/-- **A search is exact** for the texts whose letters are not shadowed. -/
theorem findNamed_exact_iff {α : Type} {nameOf : α → List UInt8} {es : List α}
    (h : WordTable nameOf es) (s : List UInt8) :
    FindsExactly nameOf es (letters s) (findNamed nameOf s es 0) ↔
      Unshadowed (entryNames nameOf es) (letters s) := by
  obtain ⟨names, hes, hnames, hnodup⟩ := h
  rw [WordTable.entryNames_eq hes hnames, ← Lib.prefixIdx_eq_wordIdx_iff]
  have hne : [] ∉ names := fun hmem => (hnames [] hmem).1 rfl
  have hnul : ∀ n ∈ names, 0 ∉ n := fun n hn => zero_notMem_of_isAlpha (hnames n hn).2
  have hfind := findNamed_prefixIdx hes hne hnul s 0
  rw [← Lib.prefixIdx_takeWhile (P := isAlpha) fun n hn => (hnames n hn).2] at hfind
  have hok :
      ∀ i, findNamed nameOf s es 0 = some (.ok i) ↔ prefixIdx names (letters s) = some i := by
    intro i
    rw [hfind]
    show some (foundAt 0 (prefixIdx names (letters s))) = _ ↔ _
    cases prefixIdx names (letters s) with
    | none => simp [foundAt]
    | some j => simp [foundAt]
  constructor
  · intro hexact
    refine Option.ext fun i => ?_
    rw [← hok, hexact.found, entry_iff hes hne, Lib.wordIdx_eq_some_iff hnodup]
  · intro heq
    refine ⟨by rw [hfind]; nofun, fun i => ?_⟩
    rw [hok, heq, Lib.wordIdx_eq_some_iff hnodup, entry_iff hes hne]

/-- An empty text finds nothing, and names nothing. -/
theorem findsExactly_nil {α : Type} {nameOf : α → List UInt8} {es : List α} (err : Int32) :
    FindsExactly nameOf es [] (some (.error err)) := by
  refine ⟨nofun, fun i => iff_of_false nofun fun h => ?_⟩
  obtain ⟨e, -, hne, he⟩ := h
  exact hne he

theorem unshadowed_empty (names : List (List UInt8)) : Unshadowed names [] :=
  fun _ _ _ hpre hne => absurd (List.prefix_nil.mp hpre) hne

theorem netprotFindObject_exact_iff {objects : List NetprotObject}
    (h : WordTable NetprotObject.nameText objects) (s : List UInt8) :
    FindsExactly NetprotObject.nameText objects (letters s) (netprotFindObject objects s) ↔
      Unshadowed (entryNames NetprotObject.nameText objects) (letters s) := by
  unfold netprotFindObject
  split
  next hs =>
    subst hs
    exact iff_of_true (findsExactly_nil (-1)) (unshadowed_empty _)
  next => exact findNamed_exact_iff h s

theorem netprotFindAttr_exact_iff {object : NetprotObject}
    (h : WordTable NetprotParam.nameText object.attrs) (s : List UInt8) :
    FindsExactly NetprotParam.nameText object.attrs (letters s) (netprotFindAttr s object) ↔
      Unshadowed (entryNames NetprotParam.nameText object.attrs) (letters s) := by
  unfold netprotFindAttr
  split
  next hs =>
    subst hs
    exact iff_of_true (findsExactly_nil (-1)) (unshadowed_empty _)
  next => exact findNamed_exact_iff h s

/-! ## SET and GET -/

/-- The name of the object in the text behind SET or GET. -/
def lineObject (inp : List UInt8) : List UInt8 := letters (skipSpaces inp)

/-- The text behind it. -/
def lineRest (inp : List UInt8) : List UInt8 :=
  skipSpaces ((skipSpaces inp).drop (lineObject inp).length)

/-- The name of the attribute. -/
def lineAttr (inp : List UInt8) : List UInt8 := letters (lineRest inp)

/-- The line tells its object, and its attribute, from the other names of the table. -/
def NamesTold (objects : List NetprotObject) (inp : List UInt8) : Prop :=
  Unshadowed (entryNames NetprotObject.nameText objects) (lineObject inp) ∧
  ∀ o ∈ objects, o.nameText ≠ [] → o.nameText = lineObject inp →
    Unshadowed (entryNames NetprotParam.nameText o.attrs) (lineAttr inp)

instance (objects : List NetprotObject) (inp : List UInt8) : Decidable (NamesTold objects inp) :=
  inferInstanceAs (Decidable (_ ∧ ∀ o ∈ objects, _ → _ → _))

/-- The entry is the attribute that the line names, of the object that it names. -/
def IsNamed (objects : List NetprotObject) (inp : List UInt8) (i j : Nat) (p : NetprotParam) :
    Prop :=
  ∃ o, objects[i]? = some o ∧ o.attrs[j]? = some p ∧ o.nameText = lineObject inp ∧
    p.nameText = lineAttr inp

/-- SET stores to no attribute but the one its line names. -/
def SetsNamed (objects : List NetprotObject) (inp : List UInt8) : Prop :=
  ∀ r t, setRun objects inp = some r → r.outcome = .ok t → ∃ p, IsNamed objects inp t.obj t.attr p

/-- GET prints the value of no attribute but the one its line names; a line without one
lists the names of the object. -/
def GetsNamed (objects : List NetprotObject) (inp : List UInt8) : Prop :=
  ∀ outlen res, netprotCmdGet objects inp outlen = some res → res.ret = 0 →
    (∃ o, ListsObject objects inp o ∧ o.nameText = lineObject inp) ∨
      ∃ i j p, IsNamed objects inp i j p ∧ res = replies objects 0 (getValue p outlen)

/-- Both searches of a line are exact, and SET and GET touch only what it names. -/
structure ResolvesNames (objects : List NetprotObject) (inp : List UInt8) : Prop where
  object : FindsExactly NetprotObject.nameText objects (lineObject inp)
    (netprotFindObject objects (skipSpaces inp))
  attr : ∀ o ∈ objects, o.nameText ≠ [] → o.nameText = lineObject inp →
    FindsExactly NetprotParam.nameText o.attrs (lineAttr inp) (netprotFindAttr (lineRest inp) o)
  set : SetsNamed objects inp
  get : GetsNamed objects inp

/-- The object a line finds. -/
theorem object_found {objects : List NetprotObject} (h : TableNamed objects) {inp : List UInt8}
    (htold : NamesTold objects inp) {i : Nat}
    (hi : netprotFindObject objects (skipSpaces inp) = some (.ok i)) :
    ∃ o, objects[i]? = some o ∧ o.nameText = lineObject inp ∧
      WordTable NetprotParam.nameText o.attrs ∧
      Unshadowed (entryNames NetprotParam.nameText o.attrs) (lineAttr inp) ∧
      skipSpaces ((skipSpaces inp).drop o.name.text.length) = lineRest inp := by
  obtain ⟨o, ho, hne, hname⟩ :=
    (((netprotFindObject_exact_iff h.objects _).mpr htold.1).found i).mp hi
  have hmem := List.mem_of_getElem? ho
  have hlen : o.name.text.length = (lineObject inp).length := congrArg List.length hname
  exact ⟨o, ho, hname, h.attrs o hmem hne, htold.2 o hmem hne hname, by rw [hlen]; rfl⟩

/-- The attribute it finds in the object. -/
theorem attr_found {o : NetprotObject} (h : WordTable NetprotParam.nameText o.attrs)
    {s w : List UInt8} (hw : letters s = w)
    (htold : Unshadowed (entryNames NetprotParam.nameText o.attrs) w) {j : Nat}
    (hj : netprotFindAttr s o = some (.ok j)) : ∃ p, o.attrs[j]? = some p ∧ p.nameText = w := by
  subst hw
  obtain ⟨p, hp, -, hname⟩ := (((netprotFindAttr_exact_iff h s).mpr htold).found j).mp hj
  exact ⟨p, hp, hname⟩

theorem setsNamed_of_told {objects : List NetprotObject} (h : TableNamed objects)
    {inp : List UInt8} (htold : NamesTold objects inp) : SetsNamed objects inp := by
  intro r t hr hok
  obtain ⟨o, q, a, n, hpath⟩ := setRun_path hr hok
  obtain ⟨o', ho', hname, hattrs, hunshadowed, hrest⟩ := object_found h htold hpath.find_object
  obtain rfl := Option.some.inj (ho'.symm.trans hpath.object)
  -- the name that is parsed is the one in the line
  have hparse := hpath.parse
  have hfind := hpath.find_attr
  rw [show assignmentText o' inp = lineRest inp from hrest] at hparse hfind
  obtain ⟨hzero, htext⟩ := parseAssignment_name hparse hpath.ret
  obtain rfl : n = 0 := Option.some.inj (hpath.name.symm.trans hzero)
  rw [htext] at hfind
  obtain ⟨p, hp, hpname⟩ := attr_found hattrs (letters_letters (lineRest inp)) hunshadowed hfind
  exact ⟨p, o', ho', hp, hname, hpname⟩

theorem getsNamed_of_told {objects : List NetprotObject} (h : TableNamed objects)
    {inp : List UInt8} (htold : NamesTold objects inp) : GetsNamed objects inp := by
  have hfails : (-1 : Int32) ≠ 0 := by decide
  intro outlen res hres hret
  simp only [netprotCmdGet] at hres
  split at hres
  next => cases hres
  next =>
    obtain rfl := Option.some.inj hres
    exact absurd hret hfails
  next i hi =>
    obtain ⟨o, ho, hname, hattrs, hunshadowed, hrest⟩ := object_found h htold hi
    simp only [ho] at hres
    rw [hrest] at hres
    split at hres
    next hend => exact Or.inl ⟨o, ⟨i, hi, ho, hrest.trans hend⟩, hname⟩
    next =>
      split at hres
      next => cases hres
      next =>
        obtain rfl := Option.some.inj hres
        exact absurd hret hfails
      next j hj =>
        obtain ⟨p, hp, hpname⟩ := attr_found hattrs rfl hunshadowed hj
        rw [hp] at hres
        obtain rfl := Option.some.inj hres
        exact Or.inr ⟨i, j, p, ⟨o, ho, hp, hname, hpname⟩, rfl⟩

/-- **Names are resolved exactly** where they are not shadowed: both searches find the
entry the letters of a text name, for those texts and no others, and with them SET stores
to, and GET prints, the attribute that a line names. -/
theorem namesResolved_iff {objects : List NetprotObject} (h : TableNamed objects) :
    (∀ s, FindsExactly NetprotObject.nameText objects (letters s) (netprotFindObject objects s) ↔
      Unshadowed (entryNames NetprotObject.nameText objects) (letters s)) ∧
    (∀ o ∈ objects, o.nameText ≠ [] → ∀ s,
      FindsExactly NetprotParam.nameText o.attrs (letters s) (netprotFindAttr s o) ↔
        Unshadowed (entryNames NetprotParam.nameText o.attrs) (letters s)) ∧
    ∀ inp, ResolvesNames objects inp ↔ NamesTold objects inp := by
  have hobject := netprotFindObject_exact_iff h.objects
  have hattr := fun o ho hne => netprotFindAttr_exact_iff (h.attrs o ho hne)
  refine ⟨hobject, hattr, fun inp => ⟨fun hres => ?_, fun htold => ?_⟩⟩
  · refine ⟨(hobject _).mp hres.object, fun o ho hne hname => ?_⟩
    exact (hattr o ho hne _).mp (hres.attr o ho hne hname)
  · refine ⟨(hobject _).mpr htold.1, fun o ho hne hname => ?_, setsNamed_of_told h htold,
      getsNamed_of_told h htold⟩
    exact (hattr o ho hne _).mpr (htold.2 o ho hne hname)

/-- The board tells `CHANNEL DELAY` from its other names. -/
theorem namesResolved_board :
    NamesTold netprotObjects (ascii " CHANNEL DELAY=5") ∧
      ResolvesNames netprotObjects (ascii " CHANNEL DELAY=5") := by
  have htold : NamesTold netprotObjects (ascii " CHANNEL DELAY=5") := by decide +kernel
  exact ⟨htold, ((namesResolved_iff netprotObjects_addressable.named).2.2 _).mpr htold⟩

/-- `SET CHANNEL NAMEX='a'` stores to `NAME`, which is what `NAMEX` finds. -/
theorem not_namesResolved_longer :
    ¬ FindsExactly NetprotParam.nameText channelAttrs (letters (ascii "NAMEX"))
      (netprotFindAttr (ascii "NAMEX") (channelObject channelAttrs)) ∧
    ¬ SetsNamed netprotObjects (ascii " CHANNEL NAMEX='a'") := by
  have hfind : netprotFindAttr (ascii "NAMEX") (channelObject channelAttrs) = some (.ok 0) := by
    decide +kernel
  have hset : ((setRun netprotObjects (ascii " CHANNEL NAMEX='a'")).bind
      fun r => r.outcome.toOption.map fun t => (t.obj, t.attr)) = some (0, 0) := by decide +kernel
  have hnames : (ascii "NAME" : List UInt8) ≠ ascii "NAMEX" := by decide
  constructor
  · intro hexact
    obtain ⟨p, hp, -, hname⟩ := (hexact.found 0).mp hfind
    obtain rfl := Option.some.inj (hp : some channelName = some p)
    exact hnames hname
  · intro hsets
    obtain ⟨r, hr, ht⟩ := Option.bind_eq_some_iff.mp hset
    obtain ⟨t, htarget, heq⟩ := Option.map_eq_some_iff.mp ht
    have hok : r.outcome = .ok t := by
      cases hout : r.outcome with
      | error e =>
        rw [hout] at htarget
        cases htarget
      | ok t' =>
        rw [hout] at htarget
        exact congrArg Except.ok (Option.some.inj htarget)
    obtain ⟨p, o, ho, hp, -, hname⟩ := hsets r t hr hok
    obtain ⟨hobj, hattr⟩ := Prod.mk.inj heq
    rw [hobj] at ho
    obtain rfl := Option.some.inj (ho : some (channelObject channelAttrs) = some o)
    rw [hattr] at hp
    obtain rfl := Option.some.inj (hp : some channelName = some p)
    exact hnames (hname.trans (by decide +kernel))

end Datalogger
