import Datalogger.Command.ReadBack

/-!
# What SET can do to the store

`Store` is the object table together with the 32 bytes behind each `strval`, of which
the table only knows the string. A SET that stores a string makes one `strcpy` into
these bytes, and nothing bounds the copy but the length check in front of it.

`StoreIntact` is the invariant of a run of command lines: every field holds its string
and a terminator within its 32 bytes, and what is read-only is as it was at power-up.
`SetAtomic` is about one SET: it fails and changes nothing, or it changes the value of
one attribute that is not read-only and copies inside that attribute's field.
-/

namespace Datalogger

open Lib (CharArray Write cstr applyWrites readString strcpyTo)

/-! ## The store and its memory -/

/-- The bytes of the `strval` of each attribute, by object and attribute. -/
abbrev Strvals := Nat → Nat → List UInt8

/-- `strcpy(netprot_objects[i].attrs[j].strval, …)`. -/
def Strvals.write (m : Strvals) (i j : Nat) (w : Write) : Strvals := fun k l =>
  if k = i ∧ l = j then w.apply (m i j) else m k l

/-- The table, and the memory of its strings. -/
structure Store where
  objects : List NetprotObject
  strvals : Strvals

/-- The store at power-up. -/
def Store.initial : Store :=
  { objects := netprotObjects
    strvals := fun i j => ((paramAt netprotObjects i j).map fun p => p.strval.image).getD [] }

/-- The copy a SET makes: into a string attribute, of the string it has checked. -/
def SetRun.copy (r : SetRun) : Option (Nat × Nat × Write) :=
  match r.outcome with
  | .error _ => none
  | .ok t =>
    if t.param.type = .str then some (t.obj, t.attr, strcpyTo 0 t.param.strval.text) else none

/-- What a SET on this text leaves. -/
def Store.set (s : Store) (r : SetRun) : Store :=
  { objects := r.objects s.objects
    strvals := match r.copy with
      | none => s.strvals
      | some (i, j, w) => s.strvals.write i j w }

/-- One command line: of the seven commands SET alone copies into the store (RESET, which
would, does not come back). -/
def Store.line (outsize : Nat) (s : Store) (line : List UInt8) : Option Store :=
  match netprotProcessCommand netprotDefaultCommandList s.objects line outsize with
  | none => none
  | some res =>
    if commandOf (cstr line) = some .set then
      (setRun s.objects (CommandId.set.arg (cstr line))).map s.set
    else some { s with objects := res.objects }

/-- A run of command lines. -/
def Store.run (outsize : Nat) (s : Store) : List (List UInt8) → Option Store
  | [] => some s
  | line :: lines => (s.line outsize line).bind fun s => s.run outsize lines

theorem Store.run_append (outsize : Nat) (lines' : List (List UInt8)) :
    ∀ (lines : List (List UInt8)) (s : Store),
      s.run outsize (lines ++ lines')
        = (s.run outsize lines).bind fun s => s.run outsize lines' := by
  intro lines
  induction lines with
  | nil => intro s; rfl
  | cons line lines ih =>
    intro s
    rw [List.cons_append, Store.run, Store.run, Option.bind_assoc]
    exact congrArg _ (funext ih)

/-- The table of the store is the one the dispatcher leaves. -/
theorem Store.line_objects (outsize : Nat) (s : Store) (line : List UInt8) :
    (s.line outsize line).map Store.objects
      = (netprotProcessCommand netprotDefaultCommandList s.objects line outsize).map
          ProcessResult.objects := by
  unfold Store.line
  by_cases hset : commandOf (cstr line) = some .set
  · rw [process_of_command hset, show CommandId.func .set = netprotCmdSet from rfl, netprotCmdSet]
    cases setRun s.objects (CommandId.set.arg (cstr line)) with
    | none => rfl
    | some r =>
      simp only [Option.map_some, if_pos hset]
      rfl
  · cases netprotProcessCommand netprotDefaultCommandList s.objects line outsize with
    | none => rfl
    | some res => simp only [if_neg hset, Option.map_some]

/-- A run of the store is the run of its table. -/
theorem Store.run_objects (outsize : Nat) :
    ∀ (lines : List (List UInt8)) (s : Store),
      (s.run outsize lines).map Store.objects = runLines outsize s.objects lines := by
  intro lines
  induction lines with
  | nil => intro s; rfl
  | cons line lines ih =>
    intro s
    have hline := s.line_objects outsize line
    rw [Store.run, runLines]
    cases hs : s.line outsize line with
    | none =>
      rw [hs] at hline
      rw [Option.map_eq_none_iff.mp hline.symm]
      rfl
    | some s' =>
      rw [hs] at hline
      obtain ⟨res, hres, hobjects⟩ := Option.map_eq_some_iff.mp hline.symm
      rw [hres]
      show (s'.run outsize lines).map Store.objects = runLines outsize res.objects lines
      rw [ih s', hobjects]

/-! ## One SET -/

/-- **What a SET that succeeds has found**: an attribute that is not read-only. -/
theorem setRun_ok {objects : List NetprotObject} {inp : List UInt8} {r : SetRun} {t : SetTarget}
    (h : setRun objects inp = some r) (hok : r.outcome = .ok t) :
    ∃ o q, objects[t.obj]? = some o ∧ o.attrs[t.attr]? = some q ∧ q.flags &&& flagRo = 0 ∧
      OtherValue q t.param ∧ ∀ c ∈ t.param.strval.text, c ∈ q.strval.text ∨ c ∈ inp := by
  obtain ⟨o, q, a, n, hpath⟩ := setRun_path h hok
  obtain ⟨-, -, hflags, hother, hbytes⟩ := setValue_ok hpath.value
  refine ⟨o, q, hpath.object, hpath.attr, hflags, hother, fun c hc => ?_⟩
  refine (hbytes c hc).imp_right fun htext => ?_
  have hsuffix : assignmentText o inp <:+ inp :=
    ((Lib.skipSpaces_suffix _).trans (List.drop_suffix _ _)).trans (Lib.skipSpaces_suffix inp)
  exact hsuffix.subset htext

/-- What a SET leaves in a cell: what was there, or what it has assigned. -/
theorem setRun_paramAt {objects : List NetprotObject} {inp : List UInt8} {r : SetRun}
    (h : setRun objects inp = some r) {i j : Nat} {p : NetprotParam}
    (hp : paramAt (r.objects objects) i j = some p) :
    paramAt objects i j = some p ∨ ∃ q, paramAt objects i j = some q ∧ OtherValue q p ∧
      ∀ c ∈ p.strval.text, c ∈ q.strval.text ∨ c ∈ inp := by
  unfold SetRun.objects at hp
  cases hout : r.outcome with
  | error e =>
    rw [hout] at hp
    exact Or.inl hp
  | ok t =>
    rw [hout] at hp
    have hp : paramAt (storeParam objects t.obj t.attr t.param) i j = some p := hp
    obtain ⟨o, q, ho, hq, -, hother, hbytes⟩ := setRun_ok h hout
    by_cases hij : t.obj = i ∧ t.attr = j
    · obtain ⟨rfl, rfl⟩ := hij
      rw [paramAt_storeParam_self ho hq] at hp
      obtain rfl := Option.some.inj hp
      refine Or.inr ⟨q, ?_, hother, hbytes⟩
      unfold paramAt
      rw [ho]
      exact hq
    · rw [paramAt_storeParam_ne hij] at hp
      exact Or.inl hp

/-- **What a line leaves in a cell.** Only SET assigns, and to a string only bytes of the
line. -/
theorem process_paramAt {objects : List NetprotObject} (h : SameTable objects netprotObjects)
    {line : List UInt8} {outsize : Nat} {res : ProcessResult}
    (hres : netprotProcessCommand netprotDefaultCommandList objects line outsize = some res)
    {i j : Nat} {p : NetprotParam} (hp : paramAt res.objects i j = some p) :
    paramAt objects i j = some p ∨ ∃ q, paramAt objects i j = some q ∧ OtherValue q p ∧
      ∀ c ∈ p.strval.text, c ∈ q.strval.text ∨ c ∈ cstr line := by
  cases hcmd : commandOf (cstr line) with
  | none =>
    rw [process_of_unknown hcmd] at hres
    obtain rfl := Option.some.inj hres
    exact Or.inl hp
  | some c =>
    rw [process_of_command hcmd] at hres
    obtain ⟨r, hr, rfl⟩ := Option.map_eq_some_iff.mp hres
    by_cases hset : c = .set
    · subst hset
      obtain ⟨run, hrun, rfl⟩ := Option.map_eq_some_iff.mp hr
      refine (setRun_paramAt hrun hp).imp_right fun ⟨q, hq, hother, hbytes⟩ => ?_
      exact ⟨q, hq, hother, fun b hb => (hbytes b hb).imp_right List.mem_of_mem_drop⟩
    · have hreset : c ≠ .reset := by
        rintro rfl
        rw [show CommandId.func .reset = netprotCmdReset from rfl,
          netprotCmdReset_sameTable h] at hr
        cases hr
      obtain ⟨r', hr', -, hsame, -⟩ := func_safe h hreset (c.arg (cstr line)) outsize
      obtain rfl := Option.some.inj (hr'.symm.trans hr)
      have hp : paramAt r'.objects i j = some p := hp
      rw [hsame hset] at hp
      exact Or.inl hp

/-- What one SET does to the store: `r` is what it decided. -/
structure SetAtomic (s : Store) (r : SetRun) : Prop where
  failed : (r.result s.objects).ret ≠ 0 → (r.result s.objects).objects = s.objects ∧ s.set r = s
  succeeded : (r.result s.objects).ret = 0 → ∃ i j q p, paramAt s.objects i j = some q ∧
    OtherValue q p ∧ (r.result s.objects).objects = storeParam s.objects i j p ∧
    ∀ k l, ¬ (k = i ∧ l = j) → (s.set r).strvals k l = s.strvals k l
  inside : ∀ i j w, r.copy = some (i, j, w) → w.Inside 32

theorem Store.set_of_error {s : Store} {r : SetRun} {e : SetError} (h : r.outcome = .error e) :
    s.set r = s := by
  unfold Store.set SetRun.objects SetRun.copy
  rw [h]

/-- The copy goes to the attribute that is assigned to, and the check in front of it
keeps it inside. -/
theorem SetRun.copy_spec {r : SetRun} {i j : Nat} {w : Write} (h : r.copy = some (i, j, w)) :
    ∃ t, r.outcome = .ok t ∧ t.obj = i ∧ t.attr = j ∧ t.param.type = .str ∧
      w = strcpyTo 0 t.param.strval.text ∧ w.Inside 32 := by
  unfold SetRun.copy at h
  cases hout : r.outcome with
  | error e =>
    rw [hout] at h
    cases h
  | ok t =>
    simp only [hout] at h
    split at h
    next htype =>
      obtain ⟨rfl, rfl, rfl⟩ : t.obj = i ∧ t.attr = j ∧ strcpyTo 0 t.param.strval.text = w := by
        simpa using h
      have hfits := t.param.strval.fits
      refine ⟨t, rfl, rfl, rfl, htype, rfl, ?_⟩
      show 0 + (t.param.strval.text ++ [0]).length ≤ 32
      rw [List.length_append, List.length_singleton]
      omega
    next => cases h

/-- A field that is not the one assigned to keeps its bytes. -/
theorem Store.set_strvals_ne {s : Store} {r : SetRun} {t : SetTarget} (hout : r.outcome = .ok t)
    {k l : Nat} (h : ¬ (k = t.obj ∧ l = t.attr)) : (s.set r).strvals k l = s.strvals k l := by
  unfold Store.set
  cases hcopy : r.copy with
  | none => rfl
  | some c =>
    obtain ⟨i, j, w⟩ := c
    obtain ⟨t', hout', rfl, rfl, -⟩ := SetRun.copy_spec hcopy
    obtain rfl := Except.ok.inj (hout'.symm.trans hout)
    exact if_neg h

/-- The field of the attribute assigned to holds its string. -/
theorem Store.set_strvals_self {s : Store} {r : SetRun} {t : SetTarget} {q : NetprotParam}
    (hout : r.outcome = .ok t) (hother : OtherValue q t.param)
    (hlen : (s.strvals t.obj t.attr).length = 32)
    (hread : readString (s.strvals t.obj t.attr) = some q.strval.text) :
    ((s.set r).strvals t.obj t.attr).length = 32 ∧
      readString ((s.set r).strvals t.obj t.attr) = some t.param.strval.text := by
  rcases hother with ⟨htype, v, hp⟩ | ⟨htype, v, hp⟩
  · -- an integer: nothing is copied
    have hne : ¬ t.param.type = .str := by
      rw [hp, htype]
      nofun
    have hcopy : r.copy = none := by
      unfold SetRun.copy
      simp only [hout, if_neg hne]
    have hstrval : t.param.strval = q.strval := by rw [hp]
    unfold Store.set
    simp only [hcopy, hstrval]
    exact ⟨hlen, hread⟩
  · have hstr : t.param.type = .str := by
      rw [hp]
      exact htype
    have hcopy : r.copy = some (t.obj, t.attr, strcpyTo 0 t.param.strval.text) := by
      unfold SetRun.copy
      simp only [hout, if_pos hstr]
    have hcell : (s.set r).strvals t.obj t.attr
        = applyWrites (s.strvals t.obj t.attr) [strcpyTo 0 t.param.strval.text] := by
      unfold Store.set
      simp only [hcopy]
      exact if_pos ⟨rfl, rfl⟩
    rw [hcell, Lib.length_applyWrites]
    exact ⟨hlen,
      (Lib.leaves_strcpyTo t.param.strval.fits).readString_eq t.param.strval.nulFree hlen⟩

/-- **SET is atomic** on every terminated table. -/
theorem setAtomic {s : Store} {inp : List UInt8} {r : SetRun} (h : setRun s.objects inp = some r) :
    SetAtomic s r := by
  refine ⟨fun hret => ?_, fun hret => ?_, fun i j w hcopy => ?_⟩
  · cases hout : r.outcome with
    | error e =>
      refine ⟨?_, Store.set_of_error hout⟩
      show r.objects s.objects = s.objects
      unfold SetRun.objects
      rw [hout]
    | ok t =>
      unfold SetRun.result at hret
      rw [hout] at hret
      exact absurd rfl hret
  · cases hout : r.outcome with
    | error e =>
      rw [SetRun.ret_of_error hout] at hret
      exact absurd hret (by decide)
    | ok t =>
      obtain ⟨o, q, ho, hq, -, hother, -⟩ := setRun_ok h hout
      refine ⟨t.obj, t.attr, q, t.param, ?_, hother, ?_,
        fun k l hkl => Store.set_strvals_ne hout hkl⟩
      · unfold paramAt
        rw [ho]
        exact hq
      · show r.objects s.objects = _
        unfold SetRun.objects
        rw [hout]
  · obtain ⟨t, -, -, -, -, -, hinside⟩ := SetRun.copy_spec hcopy
    exact hinside

/-! ## Every run -/

/-- What holds of the store behind any run of command lines. -/
structure StoreIntact (s : Store) : Prop where
  table : SameTable s.objects netprotObjects
  strval : ∀ i j p, paramAt s.objects i j = some p →
    (s.strvals i j).length = 32 ∧ readString (s.strvals i j) = some p.strval.text
  readOnly : ∀ i j p, paramAt s.objects i j = some p → p.flags &&& flagRo ≠ 0 →
    paramAt netprotObjects i j = some p ∧ s.strvals i j = Store.initial.strvals i j

theorem initial_intact : StoreIntact Store.initial where
  table := rfl
  strval := by
    intro i j p hp
    have hcell : Store.initial.strvals i j = p.strval.image := by
      show ((paramAt netprotObjects i j).map fun p => p.strval.image).getD [] = _
      rw [show paramAt netprotObjects i j = some p from hp]
      rfl
    rw [hcell]
    exact ⟨p.strval.length_image, p.strval.readString_image⟩
  readOnly := fun i j p hp _ => ⟨hp, rfl⟩

/-- **A SET keeps the store intact.** -/
theorem StoreIntact.set {s : Store} (h : StoreIntact s) {inp : List UInt8} {r : SetRun}
    (hr : setRun s.objects inp = some r) : StoreIntact (s.set r) := by
  cases hout : r.outcome with
  | error e =>
    rw [Store.set_of_error hout]
    exact h
  | ok t =>
    obtain ⟨o, q, ho, hq, hflags, hother, -⟩ := setRun_ok hr hout
    have hcell : paramAt s.objects t.obj t.attr = some q := by
      unfold paramAt
      rw [ho]
      exact hq
    have hobjects : (s.set r).objects = storeParam s.objects t.obj t.attr t.param := by
      show r.objects s.objects = _
      unfold SetRun.objects
      rw [hout]
    obtain ⟨r', hr', hsafe⟩ := setRun_safe (netprotObjects_terminated.of_sameTable h.table) inp
    obtain rfl := Option.some.inj (hr'.symm.trans hr)
    refine ⟨hsafe.sameTable.trans h.table, fun i j p hp => ?_, fun i j p hp hro => ?_⟩
    · rw [hobjects] at hp
      by_cases hij : i = t.obj ∧ j = t.attr
      · obtain ⟨rfl, rfl⟩ := hij
        rw [paramAt_storeParam_self ho hq] at hp
        obtain rfl := Option.some.inj hp
        obtain ⟨hlen, hread⟩ := h.strval _ _ q hcell
        exact Store.set_strvals_self hout hother hlen hread
      · rw [paramAt_storeParam_ne fun hne => hij ⟨hne.1.symm, hne.2.symm⟩] at hp
        rw [Store.set_strvals_ne hout hij]
        exact h.strval i j p hp
    · rw [hobjects] at hp
      by_cases hij : i = t.obj ∧ j = t.attr
      · -- the attribute assigned to is not read-only
        obtain ⟨rfl, rfl⟩ := hij
        rw [paramAt_storeParam_self ho hq] at hp
        obtain rfl := Option.some.inj hp
        rw [hother.flags_eq] at hro
        exact absurd hflags hro
      · rw [paramAt_storeParam_ne fun hne => hij ⟨hne.1.symm, hne.2.symm⟩] at hp
        rw [Store.set_strvals_ne hout hij]
        exact h.readOnly i j p hp hro

theorem StoreIntact.terminated {s : Store} (h : StoreIntact s) : TableTerminated s.objects :=
  netprotObjects_terminated.of_sameTable h.table

/-- A line that is not dispatched to RESET is processed, and keeps the store intact. -/
theorem StoreIntact.line {s : Store} (h : StoreIntact s) (outsize : Nat) {line : List UInt8}
    (hline : commandOf (cstr line) ≠ some .reset) :
    ∃ s', s.line outsize line = some s' ∧ StoreIntact s' := by
  unfold Store.line
  cases hcmd : commandOf (cstr line) with
  | none =>
    rw [process_of_unknown hcmd]
    exact ⟨s, rfl, h⟩
  | some c =>
    obtain ⟨res, hres, -, hsame, -⟩ :=
      func_safe h.table (fun hc => hline (hc ▸ hcmd)) (c.arg (cstr line)) outsize
    rw [process_of_command hcmd, hres]
    by_cases hset : c = .set
    · subst hset
      obtain ⟨r, hr, -⟩ := setRun_safe h.terminated (CommandId.set.arg (cstr line))
      refine ⟨s.set r, ?_, h.set hr⟩
      simp only [Option.map_some, if_true, hr]
    · have hne : ¬ some c = some CommandId.set := fun heq => hset (Option.some.inj heq)
      refine ⟨{ s with objects := res.objects }, ?_, ?_⟩
      · simp only [Option.map_some, if_neg hne]
        rfl
      · rw [hsame hset]
        exact h

/-- Behind a run without RESET the store is intact. -/
theorem StoreIntact.run (outsize : Nat) :
    ∀ (lines : List (List UInt8)) {s : Store}, StoreIntact s → NoReset lines →
      ∃ s', s.run outsize lines = some s' ∧ StoreIntact s' := by
  intro lines
  induction lines with
  | nil =>
    intro s h _
    exact ⟨s, rfl, h⟩
  | cons line lines ih =>
    intro s h hno
    obtain ⟨s₁, hline, h₁⟩ := h.line outsize (hno line (by simp))
    rw [Store.run, hline]
    exact ih h₁ fun l hl => hno l (by simp [hl])

/-- **Store integrity.** Behind every run of command lines without RESET the store is
intact, and there every SET, on any text, is atomic. -/
theorem store_integrity (outsize : Nat) {lines : List (List UInt8)} (h : NoReset lines) :
    ∃ s, Store.initial.run outsize lines = some s ∧ StoreIntact s ∧
      ∀ inp outlen, ∃ r, setRun s.objects inp = some r ∧
        netprotCmdSet s.objects inp outlen = some (r.result s.objects) ∧ SetAtomic s r := by
  obtain ⟨s, hrun, hs⟩ := initial_intact.run outsize lines h
  refine ⟨s, hrun, hs, fun inp outlen => ?_⟩
  obtain ⟨r, hr, -⟩ := setRun_safe hs.terminated inp
  exact ⟨r, hr, netprotCmdSet_eq hr outlen, setAtomic hr⟩

/-- A name of 30 letters, one too long, a refused one and a line that is no command. -/
def hostileLines : List (List UInt8) :=
  [Lib.ascii "SET CHANNEL NAME='ABCDEFGHIJKLMNOPQRSTUVWXYZABCD'",
    Lib.ascii "SET CHANNEL NAME='ABCDEFGHIJKLMNOPQRSTUVWXYZABCDE'",
    Lib.ascii "SET BOARD TYPE='X'", [255, 0, 7]]

theorem hostileLines_noReset : NoReset hostileLines := by
  intro line hline
  simp only [hostileLines, List.mem_cons, List.not_mem_nil, or_false] at hline
  rcases hline with rfl | rfl | rfl | rfl <;> decide

theorem store_integrity_hostile : ∃ s, Store.initial.run 100 hostileLines = some s ∧ StoreIntact s ∧
    ∀ inp outlen, ∃ r, setRun s.objects inp = some r ∧
      netprotCmdSet s.objects inp outlen = some (r.result s.objects) ∧ SetAtomic s r :=
  store_integrity 100 hostileLines_noReset

end Datalogger
