import Datalogger.Command.Dispatch
import Datalogger.Command.Machine
import Datalogger.Command.Reset

/-!
# What a command does to the parameter store

`SetSafe` says everything about one SET on a terminated table: it comes back, the bytes
it overwrites lie in the text it was given, and if it succeeds it has decided on an
attribute of the table that it changes in nothing but its value. No other handler but
RESET changes the table, so every table reached from `netprotObjects` by commands
other than RESET is a `SameTable` of it (`process_sameTable`), and RESET on such a
table reads past `board_attrs` (`netprotCmdReset_sameTable`).
-/

namespace Datalogger

open Lib (Write ascii skipSpaces strncpyTo snprintfTo)

/-! ## Storing a value -/

theorem storeParam_getElem?_self {objects : List NetprotObject} {i j : Nat} {p : NetprotParam}
    {o : NetprotObject} (ho : objects[i]? = some o) :
    (storeParam objects i j p)[i]? = some { o with attrs := o.attrs.set j p } := by
  unfold storeParam
  rw [List.getElem?_modify_eq, ho]
  rfl

theorem storeParam_getElem?_ne {objects : List NetprotObject} {i k : Nat} (h : i ≠ k) (j : Nat)
    (p : NetprotParam) : (storeParam objects i j p)[k]? = objects[k]? := by
  unfold storeParam
  rw [List.getElem?_modify_ne _ _ h]

/-- Replacing an entry by itself. -/
theorem set_of_getElem? {α : Type} {l : List α} {j : Nat} {a : α} (h : l[j]? = some a) :
    l.set j a = l := by
  obtain ⟨hlt, rfl⟩ := List.getElem?_eq_some_iff.mp h
  exact List.set_getElem_self hlt

/-- A store that changes only the value of an attribute keeps the table. -/
theorem sameTable_storeParam {objects : List NetprotObject} {i j : Nat} {o : NetprotObject}
    {q p : NetprotParam} (ho : objects[i]? = some o) (hq : o.attrs[j]? = some q)
    (hp : p.restored = q.restored) : SameTable (storeParam objects i j p) objects := by
  unfold SameTable
  refine List.ext_getElem? fun k => ?_
  rw [List.getElem?_map, List.getElem?_map]
  by_cases hk : i = k
  · subst hk
    have hattrs : (o.attrs.set j p).map NetprotParam.restored
      = o.attrs.map NetprotParam.restored := by
      rw [List.map_set, hp]
      exact set_of_getElem? (by rw [List.getElem?_map, hq]; rfl)
    rw [storeParam_getElem?_self ho, ho]
    show some { o with attrs := (o.attrs.set j p).map NetprotParam.restored } = some o.restored
    rw [hattrs]
    rfl
  · rw [storeParam_getElem?_ne hk]

/-! ## SET -/

/-- What one SET does on a terminated table. -/
structure SetSafe (objects : List NetprotObject) (inp : List UInt8) (r : SetRun) : Prop where
  nulls : ∀ o ∈ r.nulls, o < inp.length
  target : ∀ t, r.outcome = .ok t → ∃ o q, objects[t.obj]? = some o ∧ o.attrs[t.attr]? = some q ∧
    t.param.restored = q.restored

theorem setValue_safe {text : List UInt8} {a : Assignment} (ha : ParseSafe text a)
    (hret : a.ret = 0) (i j : Nat) (attr : NetprotParam) :
    ∃ out, setValue i j attr text a = some out ∧
      ∀ t, out = .ok t → t.obj = i ∧ t.attr = j ∧ t.param.restored = attr.restored := by
  obtain ⟨name, type, flags, intval, strval, defaultIntval, defaultStrval⟩ := attr
  unfold setValue
  by_cases hro : flags &&& flagRo ≠ 0
  · rw [if_pos hro]
    exact ⟨_, rfl, nofun⟩
  · rw [if_neg hro]
    -- the value has the type the scanner reports, the attribute may have the other one
    obtain ⟨-, ⟨htype, hint⟩ | ⟨htype, hstr⟩⟩ := ha.value hret
    · obtain ⟨v, hv⟩ := Option.isSome_iff_exists.mp hint
      rw [htype, hv]
      cases type with
      | int =>
        refine ⟨_, rfl, fun t ht => ?_⟩
        obtain rfl := Except.ok.inj ht
        exact ⟨rfl, rfl, rfl⟩
      | str => exact ⟨_, rfl, nofun⟩
    · obtain ⟨o, ho⟩ := Option.isSome_iff_exists.mp hstr
      rw [htype, ho]
      cases type with
      | int => exact ⟨_, rfl, nofun⟩
      | str =>
        rw [Option.map_some]
        by_cases hlen : (a.textAt text o).length + 1 < 32
        · rw [dif_pos hlen]
          refine ⟨_, rfl, fun t ht => ?_⟩
          obtain rfl := Except.ok.inj ht
          exact ⟨rfl, rfl, rfl⟩
        · rw [dif_neg hlen]
          exact ⟨_, rfl, nofun⟩

theorem setAttr_safe {object : NetprotObject}
    (h : NameTerminated NetprotParam.nameText object.attrs) (i : Nat) (text : List UInt8) :
    ∃ r, setAttr i object text = some r ∧ (∀ o ∈ r.nulls, o < text.length) ∧
      ∀ t, r.outcome = .ok t → t.obj = i ∧ ∃ q, object.attrs[t.attr]? = some q ∧
        t.param.restored = q.restored := by
  obtain ⟨a, hparse, hsafe⟩ := parseAssignment_safe text
  unfold setAttr
  simp only [hparse]
  by_cases hret : a.ret ≠ 0
  · rw [if_pos hret]
    exact ⟨_, rfl, hsafe.nulls, nofun⟩
  · have hret0 : a.ret = 0 := Decidable.not_not.mp hret
    rw [if_neg hret]
    obtain ⟨n, hn⟩ := Option.isSome_iff_exists.mp (hsafe.value hret0).1
    simp only [hn]
    rcases netprotFindAttr_of_terminated h (a.textAt text n) with ⟨err, herr⟩ | ⟨j, q, hj, hq⟩
    · simp only [herr]
      exact ⟨_, rfl, hsafe.nulls, nofun⟩
    · simp only [hj, hq]
      obtain ⟨out, hout, htarget⟩ := setValue_safe hsafe hret0 i j q
      rw [hout]
      refine ⟨_, rfl, hsafe.nulls, fun t ht => ?_⟩
      obtain ⟨hobj, hattr, hparam⟩ := htarget t ht
      exact ⟨hobj, q, by rw [hattr]; exact hq, hparam⟩

theorem assignmentText_length_le (object : NetprotObject) (inp : List UInt8) :
    (assignmentText object inp).length ≤ inp.length := by
  have hskip : ∀ s : List UInt8, (skipSpaces s).length ≤ s.length :=
    fun s => (Lib.skipSpaces_suffix s).length_le
  unfold assignmentText
  refine Nat.le_trans (hskip _) ?_
  rw [List.length_drop]
  exact Nat.le_trans (Nat.sub_le _ _) (hskip inp)

/-- **SET is safe** on every terminated table and every text. -/
theorem setRun_safe {objects : List NetprotObject} (h : TableTerminated objects)
    (inp : List UInt8) : ∃ r, setRun objects inp = some r ∧ SetSafe objects inp r := by
  unfold setRun
  rcases netprotFindObject_of_terminated h (skipSpaces inp) with
    ⟨err, herr⟩ | ⟨i, o, hi, ho, hattrs⟩
  · simp only [herr]
    exact ⟨_, rfl, nofun, nofun⟩
  · obtain ⟨r, hr, hnulls, htarget⟩ := setAttr_safe hattrs i (assignmentText o inp)
    simp only [hi, ho, hr]
    -- offsets from the assignment become offsets from the command text
    refine ⟨_, rfl, fun off hoff => ?_, fun t ht => ?_⟩
    · obtain ⟨off', hoff', rfl⟩ := List.mem_map.mp hoff
      have hlt := hnulls off' hoff'
      have hle := assignmentText_length_le o inp
      omega
    · obtain ⟨hobj, q, hq, hparam⟩ := htarget t ht
      exact ⟨o, q, by rw [hobj]; exact ho, hq, hparam⟩

/-! ## What a SET stores -/

/-- `p` is the attribute `q` with another value: another integer if it is an integer, and
another string if it is a string. -/
def OtherValue (q p : NetprotParam) : Prop :=
  (q.type = .int ∧ ∃ v, p = { q with intval := v }) ∨
    (q.type = .str ∧ ∃ v, p = { q with strval := v })

theorem OtherValue.flags_eq {q p : NetprotParam} (h : OtherValue q p) : p.flags = q.flags := by
  rcases h with ⟨-, v, rfl⟩ | ⟨-, v, rfl⟩
  · rfl
  · rfl

/-- The assignment: to an attribute that is not read-only, of its own type, and of bytes of
the text if it is a string. -/
theorem setValue_ok {i j : Nat} {attr : NetprotParam} {text : List UInt8} {a : Assignment}
    {t : SetTarget} (h : setValue i j attr text a = some (.ok t)) :
    t.obj = i ∧ t.attr = j ∧ attr.flags &&& flagRo = 0 ∧ OtherValue attr t.param ∧
      ∀ c ∈ t.param.strval.text, c ∈ attr.strval.text ∨ c ∈ text := by
  unfold setValue at h
  by_cases hro : attr.flags &&& flagRo ≠ 0
  · rw [if_pos hro] at h
    cases h
  · rw [if_neg hro] at h
    have hflags : attr.flags &&& flagRo = 0 := Decidable.not_not.mp hro
    split at h
    next htype =>
      obtain ⟨v, -, hv⟩ := Option.map_eq_some_iff.mp h
      obtain rfl := Except.ok.inj hv
      exact ⟨rfl, rfl, hflags, Or.inl ⟨htype, v, rfl⟩, fun c hc => Or.inl hc⟩
    next htype =>
      obtain ⟨o, -, ho⟩ := Option.map_eq_some_iff.mp h
      split at ho
      next hlen =>
        obtain rfl := Except.ok.inj ho
        refine ⟨rfl, rfl, hflags, Or.inr ⟨htype, _, rfl⟩, fun c hc => Or.inr ?_⟩
        exact Lib.mem_of_mem_cstr_drop_setZeros hc
      next => cases ho
    next => cases h

/-- The way of a SET that stores: what it has found, and what it has parsed. -/
structure SetPath (objects : List NetprotObject) (inp : List UInt8) (t : SetTarget)
    (o : NetprotObject) (q : NetprotParam) (a : Assignment) (n : Nat) : Prop where
  find_object : netprotFindObject objects (skipSpaces inp) = some (.ok t.obj)
  object : objects[t.obj]? = some o
  parse : parseAssignment (assignmentText o inp) = some a
  ret : a.ret = 0
  name : a.name = some n
  find_attr : netprotFindAttr (a.textAt (assignmentText o inp) n) o = some (.ok t.attr)
  attr : o.attrs[t.attr]? = some q
  value : setValue t.obj t.attr q (assignmentText o inp) a = some (.ok t)

theorem setRun_path {objects : List NetprotObject} {inp : List UInt8} {r : SetRun} {t : SetTarget}
    (h : setRun objects inp = some r) (hok : r.outcome = .ok t) :
    ∃ o q a n, SetPath objects inp t o q a n := by
  unfold setRun at h
  split at h
  next => cases h
  next =>
    obtain rfl := Option.some.inj h
    cases hok
  next i hi =>
    split at h
    next => cases h
    next o ho =>
      obtain ⟨r', hr', rfl⟩ := Option.map_eq_some_iff.mp h
      have hok : r'.outcome = .ok t := hok
      unfold setAttr at hr'
      split at hr'
      next => cases hr'
      next a ha =>
        split at hr'
        next =>
          obtain rfl := Option.some.inj hr'
          cases hok
        next hret =>
          split at hr'
          next => cases hr'
          next n hn =>
            split at hr'
            next => cases hr'
            next =>
              obtain rfl := Option.some.inj hr'
              cases hok
            next j hj =>
              split at hr'
              next => cases hr'
              next q hq =>
                obtain ⟨outcome, hvalue, rfl⟩ := Option.map_eq_some_iff.mp hr'
                obtain rfl : outcome = .ok t := hok
                obtain ⟨rfl, rfl, -⟩ := setValue_ok hvalue
                exact ⟨o, q, a, n, hi, ho, ha, Decidable.not_not.mp hret, hn, hj, hq, hvalue⟩

theorem SetRun.ret_of_error {r : SetRun} {e : SetError} (h : r.outcome = .error e)
    (objects : List NetprotObject) : (r.result objects).ret = -1 := by
  unfold SetRun.result
  rw [h]

/-- SET keeps the table. -/
theorem SetSafe.sameTable {objects : List NetprotObject} {inp : List UInt8} {r : SetRun}
    (h : SetSafe objects inp r) : SameTable (r.objects objects) objects := by
  unfold SetRun.objects
  cases hout : r.outcome with
  | error e => rfl
  | ok t =>
    obtain ⟨o, q, ho, hq, hparam⟩ := h.target t hout
    exact sameTable_storeParam ho hq hparam

/-! ## The other commands -/

/-- The listing loop ends at the terminator of the list. -/
theorem listParams_of_terminated :
    ∀ (ps : List NetprotParam) (off : Nat) (outRemaining : Int),
      NameTerminated NetprotParam.nameText ps → ∃ ws, listParams ps off outRemaining = some ws := by
  intro ps
  induction ps with
  | nil =>
    intro off outRemaining h
    exact absurd (length_of_nameTerminated h) (by simp)
  | cons p ps ih =>
    intro off outRemaining h
    rw [listParams]
    by_cases hstop : p.name.text = [] ∨ outRemaining = 0
    · rw [if_pos hstop]
      exact ⟨[], rfl⟩
    · rw [if_neg hstop]
      -- the loop goes on, so this entry is not the terminator
      rcases nameTerminated_cons h with ⟨hend, -⟩ | ⟨-, hrest⟩
      · exact absurd (Or.inl hend) hstop
      · obtain ⟨ws, hws⟩ := ih (off + (p.name.text.length + 2))
          (outRemaining - (p.name.text.length + 2 : Nat)) hrest
        simp only [hws]
        exact ⟨_, rfl⟩

/-- `GET <object>`: nothing but blanks behind the name of the object. -/
def ListsObject (objects : List NetprotObject) (inp : List UInt8) (o : NetprotObject) : Prop :=
  ∃ i, netprotFindObject objects (skipSpaces inp) = some (.ok i) ∧ objects[i]? = some o ∧
    skipSpaces ((skipSpaces inp).drop o.name.text.length) = []

/-- What one GET does on a terminated table. -/
inductive GetSpec (objects : List NetprotObject) (inp : List UInt8) (outlen : Nat) :
    HandlerResult → Prop
  | fails (text : List UInt8) (htext : text = ascii "-ERR OBJECT NOT FOUND \x0d\x0a" ∨
      text = ascii "-ERR ATTR NOT FOUND \x0d\x0a") (hnot : ∀ o, ¬ ListsObject objects inp o) :
      GetSpec objects inp outlen (getFails objects text outlen)
  | list (o : NetprotObject) (ws : List Write) (hlist : ListsObject objects inp o)
      (ho : o ∈ objects) (hterm : NameTerminated NetprotParam.nameText o.attrs)
      (hws : getList o outlen = some ws) : GetSpec objects inp outlen (replies objects 0 ws)
  | value (i j : Nat) (o : NetprotObject) (q : NetprotParam) (ho : objects[i]? = some o)
      (hq : o.attrs[j]? = some q) (hnot : ∀ o, ¬ ListsObject objects inp o) :
      GetSpec objects inp outlen (replies objects 0 (getValue q outlen))

/-- **GET is safe**: it comes back and changes nothing but the reply. -/
theorem netprotCmdGet_spec {objects : List NetprotObject} (h : TableTerminated objects)
    (inp : List UInt8) (outlen : Nat) :
    ∃ res, netprotCmdGet objects inp outlen = some res ∧ GetSpec objects inp outlen res := by
  unfold netprotCmdGet
  rcases netprotFindObject_of_terminated h (skipSpaces inp) with
    ⟨err, herr⟩ | ⟨i, o, hi, ho, hattrs⟩
  · simp only [herr]
    have hnot : ∀ o, ¬ ListsObject objects inp o := by
      intro o ⟨i, hi, _⟩
      rw [herr] at hi
      cases hi
    exact ⟨_, rfl, .fails (ascii "-ERR OBJECT NOT FOUND \x0d\x0a") (Or.inl rfl) hnot⟩
  · simp only [hi, ho]
    -- without the name of an attribute all of them are listed
    by_cases hend : skipSpaces ((skipSpaces inp).drop o.name.text.length) = []
    · rw [if_pos hend]
      obtain ⟨ws, hws⟩ := listParams_of_terminated o.attrs 1 (outlen - 1) hattrs
      have hlist : getList o outlen
          = some (snprintfTo 0 outlen (ascii "+") ++ ws ++ [nullTerminate outlen]) := by
        unfold getList
        rw [hws]
        rfl
      rw [hlist]
      exact ⟨_, rfl, .list o _ ⟨i, hi, ho, hend⟩ (List.mem_of_getElem? ho) hattrs hlist⟩
    · have hnot : ∀ o', ¬ ListsObject objects inp o' := by
        intro o' ⟨i', hi', ho', hend'⟩
        obtain rfl := Except.ok.inj (Option.some.inj (hi'.symm.trans hi))
        obtain rfl := Option.some.inj (ho'.symm.trans ho)
        exact hend hend'
      rw [if_neg hend]
      rcases netprotFindAttr_of_terminated hattrs
        (skipSpaces ((skipSpaces inp).drop o.name.text.length)) with ⟨err, herr⟩ | ⟨j, q, hj, hq⟩
      · simp only [herr]
        exact ⟨_, rfl, .fails (ascii "-ERR ATTR NOT FOUND \x0d\x0a") (Or.inr rfl) hnot⟩
      · simp only [hj, hq]
        exact ⟨_, rfl, .value i j o q ho hq hnot⟩

/-- The ways GET comes back on a terminated table; `ws` are its writes. -/
inductive GetOutcome (objects : List NetprotObject) (outlen : Nat) : Int32 → List Write → Prop
  | fails (text : List UInt8) (h : text = ascii "-ERR OBJECT NOT FOUND \x0d\x0a" ∨
      text = ascii "-ERR ATTR NOT FOUND \x0d\x0a") :
      GetOutcome objects outlen (-1) [strncpyTo 0 text outlen, nullTerminate outlen]
  | list (o : NetprotObject) (ws : List Write) (ho : o ∈ objects)
      (hterm : NameTerminated NetprotParam.nameText o.attrs) (hws : getList o outlen = some ws) :
      GetOutcome objects outlen 0 ws
  | value (q : NetprotParam) : GetOutcome objects outlen 0 (getValue q outlen)

/-- GET's outcome, without the text it was given. -/
theorem netprotCmdGet_cases {objects : List NetprotObject} (h : TableTerminated objects)
    (inp : List UInt8) (outlen : Nat) :
    ∃ ret ws, netprotCmdGet objects inp outlen = some (replies objects ret ws) ∧
      GetOutcome objects outlen ret ws := by
  obtain ⟨res, hres, hspec⟩ := netprotCmdGet_spec h inp outlen
  cases hspec with
  | fails text htext _ => exact ⟨_, _, hres, .fails text htext⟩
  | list o ws _ ho hterm hws => exact ⟨_, _, hres, .list o ws ho hterm hws⟩
  | value i j o q _ _ _ => exact ⟨_, _, hres, .value q⟩

/-- On every table of the board `CHANNEL NAME` and `CHANNEL DELAY` are found. -/
theorem findObjectAttr_channel {objects : List NetprotObject}
    (h : SameTable objects netprotObjects) :
    (∃ p, netprotFindObjectAttr objects (ascii "CHANNEL") (ascii "NAME") = some (.ok p)) ∧
      ∃ p, netprotFindObjectAttr objects (ascii "CHANNEL") (ascii "DELAY") = some (.ok p) := by
  obtain ⟨name, delay, end₀, type, end₁, rfl, hentries⟩ := h.eq_adc
  have hname : name.nameText = ascii "NAME" := by
    unfold NetprotParam.nameText
    rw [NetprotParam.name_of_restored hentries.name]
    rfl
  have hdelay : delay.nameText = ascii "DELAY" := by
    unfold NetprotParam.nameText
    rw [NetprotParam.name_of_restored hentries.delay]
    rfl
  have hobject : netprotFindObject
      [channelObject [name, delay, end₀], boardObject [type, end₁], objectTerminator]
      (ascii "CHANNEL") = some (.ok 0) := rfl
  constructor
  · have hattr : netprotFindAttr (ascii "NAME") (channelObject [name, delay, end₀])
        = some (.ok 0) := by
      unfold netprotFindAttr channelObject
      rw [if_neg (by decide), findNamed, hname, if_neg (by decide), if_pos (by decide)]
    refine ⟨name, ?_⟩
    simp only [netprotFindObjectAttr, hobject, List.getElem?_cons_zero, hattr]
    rfl
  · have hattr : netprotFindAttr (ascii "DELAY") (channelObject [name, delay, end₀])
        = some (.ok 1) := by
      unfold netprotFindAttr channelObject
      rw [if_neg (by decide), findNamed, hname, if_neg (by decide), if_neg (by decide), findNamed,
        hdelay, if_neg (by decide), if_pos (by decide)]
    refine ⟨delay, ?_⟩
    simp only [netprotFindObjectAttr, hobject, List.getElem?_cons_zero, hattr]
    rfl

/-- RESET on the board's table reads past `board_attrs`. -/
theorem netprotCmdReset_sameTable {objects : List NetprotObject}
    (h : SameTable objects netprotObjects) (inp : List UInt8) (outlen : Nat) :
    netprotCmdReset objects inp outlen = none := by
  have hterm := netprotObjects_terminated.of_sameTable h
  obtain ⟨name, delay, end₀, type, end₁, rfl, -⟩ := h.eq_adc
  have hchannel := (hterm.tail (channelObject_named _)).1
  obtain ⟨qs, hqs, -⟩ := resetAttrs_of_lt [name, delay, end₀] 0 hchannel (by decide : 0 < 3)
  -- CHANNEL has two attributes, so the list of BOARD is entered behind its terminator
  have hboard : resetAttrs 2 [type, end₁] = none :=
    resetAttrs_of_le [type, end₁] 2 (Nat.le_refl 2)
  have hrest : resetObjects 2 [boardObject [type, end₁], objectTerminator] = none := by
    rw [resetObjects, if_neg (boardObject_named _), boardObject_attrs, hboard]
  unfold netprotCmdReset
  rw [Option.map_eq_none_iff, resetObjects, if_neg (channelObject_named _),
    channelObject_attrs, hqs]
  show (resetObjects 2 _).map _ = none
  rw [hrest]
  rfl

theorem netprotCmdSet_eq {objects : List NetprotObject} {inp : List UInt8} {r : SetRun}
    (h : setRun objects inp = some r) (outlen : Nat) :
    netprotCmdSet objects inp outlen = some (r.result objects) := by
  unfold netprotCmdSet
  rw [h]
  rfl

/-- START on a table of the board. -/
theorem netprotCmdStart_eq {objects : List NetprotObject} (h : SameTable objects netprotObjects) :
    ∃ p, ∀ inp outlen, netprotCmdStart objects inp outlen = some (startResult objects p) := by
  obtain ⟨-, p, hp⟩ := findObjectAttr_channel h
  refine ⟨p, fun inp outlen => ?_⟩
  unfold netprotCmdStart
  rw [hp]

/-- **Every command but RESET** comes back, keeps the table and overwrites nothing
behind its text. -/
theorem func_safe {objects : List NetprotObject} (h : SameTable objects netprotObjects)
    {c : CommandId} (hc : c ≠ .reset) (inp : List UInt8) (outlen : Nat) :
    ∃ res, c.func objects inp outlen = some res ∧ SameTable res.objects netprotObjects ∧
      (c ≠ .set → res.objects = objects) ∧ ∀ o ∈ res.nulls, o < inp.length := by
  have hterm := netprotObjects_terminated.of_sameTable h
  cases c with
  | ok => exact ⟨_, rfl, h, fun _ => rfl, nofun⟩
  | ping =>
    by_cases hlen : outlen < (ascii "+PONG \x0d\x0a").length + 1
    · exact ⟨_, if_pos hlen, h, fun _ => rfl, nofun⟩
    · exact ⟨_, if_neg hlen, h, fun _ => rfl, nofun⟩
  | set =>
    obtain ⟨r, hr, hsafe⟩ := setRun_safe hterm inp
    exact ⟨r.result objects, netprotCmdSet_eq hr outlen, hsafe.sameTable.trans h,
      fun hne => absurd rfl hne, hsafe.nulls⟩
  | get =>
    obtain ⟨ret, ws, hget, -⟩ := netprotCmdGet_cases hterm inp outlen
    exact ⟨_, hget, h, fun _ => rfl, nofun⟩
  | start =>
    obtain ⟨p, hp⟩ := netprotCmdStart_eq h
    exact ⟨startResult objects p, hp inp outlen, h, fun _ => rfl, nofun⟩
  | stop =>
    by_cases hlen : outlen < (ascii "+OK \x0d\x0a").length + 1
    · exact ⟨_, if_pos hlen, h, fun _ => rfl, nofun⟩
    · exact ⟨_, if_neg hlen, h, fun _ => rfl, nofun⟩
  | reset => exact absurd rfl hc

/-! ## Runs of command lines -/

/-- A line that is processed keeps the table. -/
theorem process_sameTable {objects : List NetprotObject} (h : SameTable objects netprotObjects)
    {inp : List UInt8} {outsize : Nat} {res : ProcessResult}
    (hres : netprotProcessCommand netprotDefaultCommandList objects inp outsize = some res) :
    SameTable res.objects netprotObjects := by
  cases hcmd : commandOf (Lib.cstr inp) with
  | none =>
    rw [process_of_unknown hcmd] at hres
    obtain rfl := Option.some.inj hres
    exact h
  | some c =>
    rw [process_of_command hcmd] at hres
    obtain ⟨r, hr, rfl⟩ := Option.map_eq_some_iff.mp hres
    -- RESET does not come back, and every other command keeps the table
    by_cases hc : c = .reset
    · subst hc
      rw [show CommandId.func .reset = netprotCmdReset from rfl, netprotCmdReset_sameTable h] at hr
      cases hr
    · obtain ⟨r', hr', htable, -⟩ := func_safe h hc (c.arg (Lib.cstr inp)) outsize
      obtain rfl := Option.some.inj (hr'.symm.trans hr)
      exact htable

/-- The table after a run of command lines, given the size of the reply array: `none` if
one of them is undefined. -/
def runLines (outsize : Nat) (objects : List NetprotObject) :
    List (List UInt8) → Option (List NetprotObject)
  | [] => some objects
  | line :: lines =>
    match netprotProcessCommand netprotDefaultCommandList objects line outsize with
    | none => none
    | some res => runLines outsize res.objects lines

/-- The tables the board can have reached. -/
def Reachable (objects : List NetprotObject) : Prop :=
  ∃ outsize lines, runLines outsize netprotObjects lines = some objects

/-- **Every reachable table** has the objects, attributes, types, flags and defaults of
the one at power-up. -/
theorem runLines_sameTable {outsize : Nat} :
    ∀ (lines : List (List UInt8)) {t u : List NetprotObject}, SameTable t netprotObjects →
      runLines outsize t lines = some u → SameTable u netprotObjects := by
  intro lines
  induction lines with
  | nil =>
    intro t u h hrun
    obtain rfl := Option.some.inj hrun
    exact h
  | cons line lines ih =>
    intro t u h hrun
    rw [runLines] at hrun
    cases hres : netprotProcessCommand netprotDefaultCommandList t line outsize with
    | none =>
      rw [hres] at hrun
      cases hrun
    | some res =>
      rw [hres] at hrun
      exact ih (process_sameTable h hres) hrun

theorem Reachable.sameTable {objects : List NetprotObject} (h : Reachable objects) :
    SameTable objects netprotObjects := by
  obtain ⟨outsize, lines, hrun⟩ := h
  exact runLines_sameTable lines rfl hrun

theorem runLines_append {outsize : Nat} {t u : List NetprotObject} :
    ∀ (lines lines' : List (List UInt8)), runLines outsize t lines = some u →
      runLines outsize t (lines ++ lines') = runLines outsize u lines' := by
  intro lines
  induction lines generalizing t with
  | nil =>
    intro lines' hrun
    obtain rfl := Option.some.inj hrun
    rfl
  | cons line lines ih =>
    intro lines' hrun
    rw [runLines] at hrun
    rw [List.cons_append, runLines]
    cases hres : netprotProcessCommand netprotDefaultCommandList t line outsize with
    | none =>
      rw [hres] at hrun
      cases hrun
    | some res =>
      rw [hres] at hrun
      exact ih lines' hrun

end Datalogger
