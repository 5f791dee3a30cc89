import Datalogger.Command.Integrity
import Datalogger.Session.ReceiveBounds
import Datalogger.Session.Replies

/-!
# The channel name on the display

Behind each chunk `netprot_get_commands` gives the `strval` of CHANNEL NAME to
`sevenseg_set`, which takes four characters of it, whether or not the string has ended
before. A name is stored by `strcpy`, so what stands behind its terminator is what longer
names before it have left there (`leftAt`): the display is a function of the name exactly as
long as nothing the display can show is left (`display_name_iff`).

Mirroring notes:
- The bytes of the store are those of `Store`, the chunks those of `netprotGetCommands`;
  CHANNEL NAME is the attribute 0 of the object 0.
- RESET does not come back, so no history has got past one.
-/

namespace Datalogger

open Lib (ascii cstr isDigit readString strcpyTo)

/-! ## `sevenseg.c` -/

/-- `lookup_table`. -/
def lookupTable : List UInt8 := [0xEB, 0x28, 0xB3, 0xBA, 0x78, 0xDA, 0xDB, 0xA8, 0xFB, 0xF8]

/-- The segments of one character. -/
def segment (c : UInt8) : UInt8 :=
  if isDigit c then lookupTable.getD (c.toNat - 48) 0
  else if c = 108 ∨ c = 76 then 0x43
  else if c = 111 ∨ c = 79 then 0xEB
  else if c = 104 ∨ c = 72 then 0x79
  else if c = 105 ∨ c = 73 then 0x28
  else if c = 99 ∨ c = 67 then 0xC3
  else 0x00

/-- `sevenseg_set`: the contents of `segs_data`. -/
def sevensegSet (segs : List UInt8) (dp : Int32) : List UInt8 :=
  (List.range 4).map fun i =>
    if dp &&& (1 <<< Int32.ofNat i) ≠ 0 then segment (segs.getD i 0) ||| 0x04
    else segment (segs.getD i 0)

/-- The characters the display can show. -/
def Displayable (c : UInt8) : Prop := isDigit c = true ∨ c ∈ ascii "lLoOhHiIcC"

instance (c : UInt8) : Decidable (Displayable c) := inferInstanceAs (Decidable (_ ∨ _))

theorem segment_eq_zero_iff (c : UInt8) : segment c = 0 ↔ ¬ Displayable c := by
  have hall : ∀ m ∈ List.range 256,
    segment (UInt8.ofNat m) = 0 ↔ ¬ Displayable (UInt8.ofNat m) := by
    decide +kernel
  exact Lib.forall_byte (P := fun c => segment c = 0 ↔ ¬ Displayable c) hall c

theorem sevensegSet_zero (segs : List UInt8) :
    sevensegSet segs 0 = (List.range 4).map fun i => segment (segs.getD i 0) := by
  unfold sevensegSet
  refine List.map_congr_left fun i _ => if_neg ?_
  simp

/-! ## The display behind a history -/

/-- The store, and what is on the display. -/
structure Panel where
  store : Store
  segsData : List UInt8

/-- The board at power-up. -/
def Panel.initial : Panel := { store := Store.initial, segsData := [0, 0, 0, 0] }

/-- One call of `netprot_get_commands`, with the copies its commands make into the store and
the display it updates. -/
def displayStep : Option Panel → Call → Option Panel × List Turn
  | none, _ => (none, [])
  | some p, c =>
    let r := netprotGetCommands c.locals c.sends c.recv p.store.objects
    let panel := r.2.bind fun e =>
      (p.store.run outstrLen (r.1.map Turn.command)).map fun store =>
        { store := store
          segsData := if e.display.isSome then sevensegSet (store.strvals 0 0) 0 else p.segsData }
    (panel, r.1)

/-- `GET CHANNEL NAME`. -/
def getName : List UInt8 := getLine (channelObject channelAttrs) channelName

theorem getName_isLine : IsLine getName := ⟨by decide +kernel, by decide +kernel, by decide +kernel⟩

/-- Behind the history, GET CHANNEL NAME in a call of its own is answered with `reply`, and
the call then shows `segs`. -/
def Shows (calls : List Call) (reply segs : List UInt8) : Prop :=
  ∃ locals p turn,
    (Lib.run displayStep (some .initial) (calls ++ [lineCall locals getName_isLine])).1
      = some p ∧
    (Lib.run displayStep (some .initial) (calls ++ [lineCall locals getName_isLine])).2.getLast?
      = some turn ∧
    turn.reply = some reply ∧ p.segsData = segs

/-! ## The names of a history -/

/-- The name a line stores: it is a SET that succeeds on CHANNEL NAME. -/
def storedName (objects : List NetprotObject) (line : List UInt8) : Option (List UInt8) :=
  if commandOf (cstr line) = some .set then
    match setRun objects (CommandId.set.arg (cstr line)) with
    | some { outcome := .ok t, .. } =>
      if t.obj = 0 ∧ t.attr = 0 then some t.param.strval.text else none
    | _ => none
  else none

/-- The names a run of command lines stores, the first one first. -/
def storedNames : List NetprotObject → List (List UInt8) → List (List UInt8)
  | _, [] => []
  | objects, line :: lines =>
    (storedName objects line).toList ++
      match netprotProcessCommand netprotDefaultCommandList objects line outstrLen with
      | none => []
      | some res => storedNames res.objects lines

/-- The names a history has stored. -/
def historyNames (calls : List Call) : List (List UInt8) :=
  storedNames netprotObjects ((Lib.run displayStep (some .initial) calls).2.map Turn.command)

/-- The byte at position `i` of a field after these names: the character, or the
terminator, of the last one long enough to reach it. -/
def leftAt (names : List (List UInt8)) (i : Nat) : UInt8 :=
  names.foldl (fun c name => if i ≤ name.length then name.getD i 0 else c) 0

/-- Nothing that the display can show stands in its positions behind the end of `name`. -/
def NothingLeft (names : List (List UInt8)) (name : List UInt8) : Prop :=
  ∀ i, name.length < i → i < 4 → ¬ Displayable (leftAt names i)

theorem leftAt_snoc (names : List (List UInt8)) (name : List UInt8) (i : Nat) :
    leftAt (names ++ [name]) i = if i ≤ name.length then name.getD i 0 else leftAt names i := by
  simp [leftAt]

/-! ## The bytes of the name -/

/-- The field of CHANNEL NAME after these names. -/
def HoldsNames (names : List (List UInt8)) (mem : List UInt8) : Prop :=
  mem.length = 32 ∧ ∀ i, i < 32 → mem[i]? = some (leftAt names i)

/-- One more name. -/
theorem HoldsNames.strcpy {names : List (List UInt8)} {mem : List UInt8} (h : HoldsNames names mem)
    {name : List UInt8} (hfits : name.length < 32) :
    HoldsNames (names ++ [name]) ((strcpyTo 0 name).apply mem) := by
  obtain ⟨hlen, hbytes⟩ := h
  refine ⟨(Lib.Write.length_apply mem _).trans hlen, fun i hi => ?_⟩
  have hmem : (strcpyTo 0 name).apply mem = name ++ 0 :: mem.drop (name.length + 1) := by
    simp only [Lib.Write.apply, strcpyTo, List.take_zero, List.nil_append, Nat.zero_add,
      List.length_append, List.length_singleton, List.append_assoc, List.singleton_append]
    refine List.take_of_length_le ?_
    simp only [List.length_append, List.length_cons, List.length_drop]
    omega
  rw [hmem, leftAt_snoc]
  by_cases hin : i ≤ name.length
  · rw [if_pos hin]
    rcases Nat.lt_or_eq_of_le hin with hlt | heq
    · rw [List.getElem?_append_left hlt, List.getD_eq_getElem?_getD, List.getElem?_eq_getElem hlt]
      rfl
    · rw [heq, List.getElem?_append_right (Nat.le_refl _), Nat.sub_self,
        List.getD_eq_getElem?_getD, List.getElem?_eq_none (Nat.le_refl _)]
      rfl
  · rw [if_neg hin, ← hbytes i hi, List.getElem?_append_right (by omega)]
    obtain ⟨k, hk⟩ : ∃ k, i - name.length = k + 1 := ⟨i - name.length - 1, by omega⟩
    rw [hk, List.getElem?_cons_succ, List.getElem?_drop]
    congr 1
    omega

/-- CHANNEL NAME is a string in every table of the board. -/
theorem channelName_type {t : List NetprotObject} (h : SameTable t netprotObjects)
    {q : NetprotParam} (hq : paramAt t 0 0 = some q) : q.type = .str := by
  obtain ⟨o, ho, hattr⟩ := Option.bind_eq_some_iff.mp hq
  obtain ⟨o', ho', hsame⟩ := h.getElem? ho
  obtain rfl := Option.some.inj (ho'.symm.trans (show netprotObjects[0]? = some _ from rfl))
  have hrestored := congrArg (fun x : NetprotObject => x.attrs[0]?) hsame
  simp only [NetprotObject.restored, List.getElem?_map, hattr, Option.map_some] at hrestored
  exact congrArg NetprotParam.type (Option.some.inj hrestored)

/-- What a line does to the bytes of the name. -/
theorem Store.line_name {s s' : Store} (h : StoreIntact s) {line : List UInt8}
    (hline : s.line outstrLen line = some s') :
    s'.strvals 0 0 = match storedName s.objects line with
      | none => s.strvals 0 0
      | some name => (strcpyTo 0 name).apply (s.strvals 0 0) := by
  unfold Store.line at hline
  cases hres : netprotProcessCommand netprotDefaultCommandList s.objects line outstrLen with
  | none =>
    rw [hres] at hline
    cases hline
  | some res =>
    rw [hres] at hline
    by_cases hset : commandOf (cstr line) = some .set
    · simp only [if_pos hset] at hline
      obtain ⟨r, hr, rfl⟩ := Option.map_eq_some_iff.mp hline
      unfold storedName
      rw [if_pos hset, hr]
      obtain ⟨nulls, outcome⟩ := r
      cases outcome with
      | error e => rw [Store.set_of_error rfl]
      | ok t =>
        by_cases hcell : t.obj = 0 ∧ t.attr = 0
        · obtain ⟨o, q, ho, hq, -, hother, -⟩ := setRun_ok hr rfl
          have hparam : paramAt s.objects t.obj t.attr = some q := by
            unfold paramAt
            rw [ho]
            exact hq
          rw [hcell.1, hcell.2] at hparam
          have htype := channelName_type h.table hparam
          have hstr : t.param.type = .str := by
            rcases hother with ⟨hint, -⟩ | ⟨-, v, hv⟩
            · rw [htype] at hint
              cases hint
            · rw [hv]
              exact htype
          simp only [Store.set, SetRun.copy, if_pos hstr, Strvals.write, hcell.1,
            hcell.2, and_self, if_true]
        · simp only [if_neg hcell]
          exact Store.set_strvals_ne rfl fun heq => hcell ⟨heq.1.symm, heq.2.symm⟩
    · simp only [if_neg hset] at hline
      obtain rfl := Option.some.inj hline
      unfold storedName
      rw [if_neg hset]

/-- A stored name fits its field. -/
theorem storedName_fits {objects : List NetprotObject} {line name : List UInt8}
    (h : storedName objects line = some name) : name.length < 32 := by
  unfold storedName at h
  split at h
  next =>
    split at h
    next r t _ =>
      split at h
      next =>
        obtain rfl := Option.some.inj h
        exact t.param.strval.fits
      next => cases h
    next => cases h
  next => cases h

/-- A line of a defined run keeps the store intact. -/
theorem StoreIntact.of_line {s s' : Store} (h : StoreIntact s) {line : List UInt8}
    (hline : s.line outstrLen line = some s') : StoreIntact s' := by
  by_cases hreset : commandOf (cstr line) = some .reset
  · exfalso
    unfold Store.line at hline
    rw [process_of_command hreset, show CommandId.func .reset = netprotCmdReset from rfl,
      netprotCmdReset_sameTable h.table] at hline
    cases hline
  · obtain ⟨s₁, hs₁, hintact⟩ := h.line outstrLen hreset
    obtain rfl := Option.some.inj (hs₁.symm.trans hline)
    exact hintact

/-- A run of lines keeps the store intact and stores its names. -/
theorem StoreIntact.run_names :
    ∀ (lines : List (List UInt8)) {s s' : Store} {names : List (List UInt8)}, StoreIntact s →
      HoldsNames names (s.strvals 0 0) → s.run outstrLen lines = some s' →
      StoreIntact s' ∧ HoldsNames (names ++ storedNames s.objects lines) (s'.strvals 0 0) := by
  intro lines
  induction lines with
  | nil =>
    intro s s' names h hnames hrun
    obtain rfl := Option.some.inj hrun
    rw [storedNames, List.append_nil]
    exact ⟨h, hnames⟩
  | cons line lines ih =>
    intro s s' names h hnames hrun
    rw [Store.run] at hrun
    obtain ⟨s₁, hline, hrest⟩ := Option.bind_eq_some_iff.mp hrun
    have hbytes := Store.line_name h hline
    have hobjects := s.line_objects outstrLen line
    rw [hline] at hobjects
    obtain ⟨res, hres, hsame⟩ := Option.map_eq_some_iff.mp hobjects.symm
    have hnames₁ : HoldsNames (names ++ (storedName s.objects line).toList) (s₁.strvals 0 0) := by
      cases hname : storedName s.objects line with
      | none =>
        rw [hname] at hbytes
        rw [hbytes, Option.toList_none, List.append_nil]
        exact hnames
      | some name =>
        rw [hname] at hbytes
        rw [hbytes, Option.toList_some]
        exact hnames.strcpy (storedName_fits hname)
    obtain ⟨hintact, hall⟩ := ih (h.of_line hline) hnames₁ hrest
    rw [storedNames, hres, ← List.append_assoc]
    simp only
    rw [hsame]
    exact ⟨hintact, hall⟩

/-! ## The display -/

/-- The bytes of a field that holds a name. -/
theorem field_of_readString {mem name : List UInt8} (h : readString mem = some name) :
    ∃ rest, mem = name ++ 0 :: rest := by
  unfold readString at h
  split at h
  next hzero =>
    obtain rfl := Option.some.inj h
    obtain ⟨before, rest, rfl, hbefore⟩ := List.eq_append_cons_of_mem hzero
    exact ⟨rest, by rw [Lib.cstr_append_zero hbefore]⟩
  next => cases h

/-- The display of a name with nothing behind it. -/
def nameSegments (name : List UInt8) : List UInt8 :=
  (List.range 4).map fun i => if i < name.length then segment (name.getD i 0) else 0

/-- The four bytes that are shown: the name, its end, and what is left behind it. -/
theorem shown_byte {names : List (List UInt8)} {mem name : List UInt8} (h : HoldsNames names mem)
    (hread : readString mem = some name) {i : Nat} (hi : i < 4) :
    mem.getD i 0 = if i < name.length then name.getD i 0
      else if i = name.length then 0 else leftAt names i := by
  obtain ⟨rest, hmem⟩ := field_of_readString hread
  by_cases hin : i < name.length
  · rw [if_pos hin, hmem, List.getD_eq_getElem?_getD, List.getElem?_append_left hin,
      ← List.getD_eq_getElem?_getD]
  · rw [if_neg hin]
    by_cases hend : i = name.length
    · rw [if_pos hend, hend, hmem, List.getD_eq_getElem?_getD,
        List.getElem?_append_right (Nat.le_refl _), Nat.sub_self]
      rfl
    · rw [if_neg hend, List.getD_eq_getElem?_getD, h.2 i (by omega)]
      rfl

/-- **What is on the display** behind a name: the name alone exactly if nothing is left. -/
theorem sevensegSet_eq_iff {names : List (List UInt8)} {mem name : List UInt8}
    (h : HoldsNames names mem) (hread : readString mem = some name) :
    sevensegSet mem 0 = nameSegments name ↔ NothingLeft names name := by
  rw [sevensegSet_zero, nameSegments, List.map_inj_left]
  constructor
  · intro hshown i hlt hi
    have hbyte := hshown i (List.mem_range.mpr hi)
    rw [shown_byte h hread hi, if_neg (by omega), if_neg (by omega), if_neg (by omega)] at hbyte
    exact (segment_eq_zero_iff _).mp hbyte
  · intro hnothing i hi
    have hi : i < 4 := List.mem_range.mp hi
    rw [shown_byte h hread hi]
    by_cases hin : i < name.length
    · rw [if_pos hin, if_pos hin]
    · rw [if_neg hin, if_neg hin]
      by_cases hend : i = name.length
      · rw [if_pos hend]
        rfl
      · rw [if_neg hend]
        exact (segment_eq_zero_iff _).mpr (hnothing i (by omega) hi)

/-- The positions behind the end of a name are blank. -/
def BlankBehind (name segs : List UInt8) : Prop :=
  ∀ i, name.length ≤ i → i < 4 → segs[i]? = some 0

theorem sevensegSet_eq_iff_blank {names : List (List UInt8)} {mem name : List UInt8}
    (h : HoldsNames names mem) (hread : readString mem = some name) :
    sevensegSet mem 0 = nameSegments name ↔ BlankBehind name (sevensegSet mem 0) := by
  constructor
  · intro hshown i hlt hi
    rw [hshown, nameSegments, List.getElem?_map, List.getElem?_range hi, Option.map_some,
      if_neg (by omega)]
  · intro hblank
    rw [sevensegSet_zero, nameSegments, List.map_inj_left]
    intro i hi
    have hi : i < 4 := List.mem_range.mp hi
    by_cases hin : i < name.length
    · rw [if_pos hin, shown_byte h hread hi, if_pos hin]
    · have hzero := hblank i (by omega) hi
      rw [sevensegSet_zero, List.getElem?_map, List.getElem?_range hi, Option.map_some] at hzero
      rw [if_neg hin, Option.some.inj hzero]

/-! ## Histories -/

/-- The store of a history is the one its commands leave. -/
theorem displayRun_store (calls : List Call) :
    ∀ p : Panel, (Lib.run displayStep (some .initial) calls).1 = some p →
      Store.initial.run outstrLen
        ((Lib.run displayStep (some .initial) calls).2.map Turn.command) = some p.store := by
  refine Lib.run_history
    (fun _ turns s => ∀ p : Panel, s = some p →
      Store.initial.run outstrLen (turns.map Turn.command) = some p.store) ?_ ?_ calls
  · intro p hp
    obtain rfl := Option.some.inj hp
    rfl
  · intro _ turns s c hs p hp
    cases s with
    | none => cases hp
    | some p₀ =>
      obtain ⟨e, -, hstore⟩ := Option.bind_eq_some_iff.mp hp
      obtain ⟨store, hrun, hpanel⟩ := Option.map_eq_some_iff.mp hstore
      rw [List.map_append, Store.run_append, hs p₀ rfl, ← hpanel]
      exact hrun

theorem initial_holdsNames : HoldsNames [] (Store.initial.strvals 0 0) := by
  have himage : Store.initial.strvals 0 0 = List.replicate 32 0 := rfl
  rw [himage]
  refine ⟨List.length_replicate, fun i hi => ?_⟩
  rw [List.getElem?_replicate, if_pos hi]
  rfl

/-- The field of the name behind a history. -/
theorem displayRun_name {calls : List Call} {p : Panel}
    (h : (Lib.run displayStep (some .initial) calls).1 = some p) :
    StoreIntact p.store ∧ HoldsNames (historyNames calls) (p.store.strvals 0 0) := by
  have hrun := initial_intact.run_names _ initial_holdsNames (displayRun_store calls p h)
  rw [List.nil_append] at hrun
  exact hrun

/-- GET CHANNEL NAME in a call of its own leaves the store alone and shows the name. -/
theorem displayStep_getName {p : Panel} (h : StoreIntact p.store) (locals : Locals)
    {q : NetprotParam} (hq : paramAt p.store.objects 0 0 = some q) :
    ∃ turn, displayStep (some p) (lineCall locals getName_isLine)
        = (some { store := p.store, segsData := sevensegSet (p.store.strvals 0 0) 0 }, [turn]) ∧
      turn.reply = some (valueReply q) := by
  have hattr : IsAttr 0 0 (channelObject channelAttrs) channelName := ⟨rfl, rfl, by decide⟩
  obtain ⟨hcmd, harg⟩ := commandOf_getLine (channelObject channelAttrs) channelName
  have hget := netprotCmdGet_cell hattr h.table hq outstrLen
  have hres := process_of_command hcmd p.store.objects outstrLen
  rw [harg, show CommandId.func .get = netprotCmdGet from rfl, hget, Option.map_some] at hres
  have hreply := replyTo_getLine hattr h.table hq locals.outstr_length
  unfold replyTo at hreply
  rw [hres, Option.bind_some] at hreply
  -- the turn, the end of the loop and the line's effect on the store
  have hturn : (processTurn p.store.objects locals.outstr getName).result.map ProcessResult.objects
        = some p.store.objects ∧
      (processTurn p.store.objects locals.outstr getName).reply = some (valueReply q) ∧
      (processTurn p.store.objects locals.outstr getName).command = getName := by
    refine ⟨?_, ?_, ?_⟩
    · rw [(processTurn_inputs p.store.objects locals.outstr getName).2.2, getName, hres]
      rfl
    · unfold processTurn getName
      rw [hres]
      exact hreply
    · rw [(processTurn_inputs p.store.objects locals.outstr getName).1, getName_isLine.cstr_eq]
  have hstore : p.store.line outstrLen getName = some p.store := by
    unfold Store.line getName
    rw [hres]
    exact if_neg (by rw [hcmd]; decide)
  obtain ⟨hobjects, hanswer, hcommand⟩ := hturn
  obtain ⟨segname, hfinish⟩ := LoopEnd.finish_done h.table
  obtain ⟨res, hresult, hsame⟩ := Option.map_eq_some_iff.mp hobjects
  refine ⟨processTurn p.store.objects locals.outstr getName, ?_, hanswer⟩
  have hcall := netprotGetCommands_received h.table locals (fun _ => true) getName_isLine.nonempty
    getName_isLine.short (Nat.le_of_lt getName_isLine.short)
  rw [getName_isLine.commandLines_eq, lineLoop] at hcall
  unfold Turn.andThen at hcall
  simp only [hresult, hanswer, if_true, lineLoop, hsame, hfinish] at hcall
  unfold displayStep lineCall chunkCall
  simp only [hcall, List.map_cons, List.map_nil, hcommand, Store.run, hstore, Option.bind_some,
    Option.map_some, Option.isSome_some, if_true]

/-- What GET CHANNEL NAME and the display show behind a history. -/
theorem Shows.spec {calls : List Call} {reply segs : List UInt8} (h : Shows calls reply segs) :
    ∃ mem name, HoldsNames (historyNames calls) mem ∧ readString mem = some name ∧
      reply = ascii "+" ++ name ++ crlf ∧ segs = sevensegSet mem 0 := by
  obtain ⟨locals, p, turn, hrun, hlast, hreply, hsegs⟩ := h
  rw [Lib.run_snoc] at hrun hlast
  cases hbefore : (Lib.run displayStep (some .initial) calls).1 with
  | none =>
    rw [hbefore] at hrun
    cases hrun
  | some p₀ =>
    rw [hbefore] at hrun hlast
    obtain ⟨hintact, hnames⟩ := displayRun_name hbefore
    have hattr : IsAttr 0 0 (channelObject channelAttrs) channelName := ⟨rfl, rfl, by decide⟩
    obtain ⟨o, q, -, -, hq, -, -⟩ := hattr.cell hintact.table
    obtain ⟨turn', hstep, hreply'⟩ := displayStep_getName hintact locals hq
    rw [hstep] at hrun hlast
    simp only [List.getLast?_append, List.getLast?_singleton, Option.some_or] at hlast
    obtain rfl := Option.some.inj hlast
    obtain rfl := Option.some.inj hrun
    refine ⟨p₀.store.strvals 0 0, q.strval.text, hnames, (hintact.strval 0 0 q hq).2, ?_,
      hsegs.symm⟩
    rw [hreply] at hreply'
    rw [Option.some.inj hreply', valueReply, NetprotParam.valueText,
      channelName_type hintact.table hq]

/-- **The display shows the channel name and nothing else**, for two histories behind which
GET CHANNEL NAME gives the same name, exactly if neither history has left anything behind
the name: for each position there, the last name stored that was long enough to reach it
has no character the display can show. -/
theorem display_name_iff {calls₁ calls₂ : List Call} {name segs₁ segs₂ : List UInt8}
    (h₁ : Shows calls₁ (ascii "+" ++ name ++ crlf) segs₁)
    (h₂ : Shows calls₂ (ascii "+" ++ name ++ crlf) segs₂) :
    (segs₁ = segs₂ ∧ BlankBehind name segs₁ ∧ BlankBehind name segs₂) ↔
      NothingLeft (historyNames calls₁) name ∧ NothingLeft (historyNames calls₂) name := by
  obtain ⟨mem₁, name₁, hnames₁, hread₁, hname₁, rfl⟩ := h₁.spec
  obtain ⟨mem₂, name₂, hnames₂, hread₂, hname₂, rfl⟩ := h₂.spec
  obtain rfl : name = name₁ := List.append_cancel_left (List.append_cancel_right hname₁)
  obtain rfl : name = name₂ := List.append_cancel_left (List.append_cancel_right hname₂)
  rw [← sevensegSet_eq_iff_blank hnames₁ hread₁, ← sevensegSet_eq_iff_blank hnames₂ hread₂,
    ← sevensegSet_eq_iff hnames₁ hread₁, ← sevensegSet_eq_iff hnames₂ hread₂]
  constructor
  · intro h
    exact h.2
  · intro ⟨hshown₁, hshown₂⟩
    exact ⟨hshown₁.trans hshown₂.symm, hshown₁, hshown₂⟩

/-- The chunk `SET CHANNEL NAME='CH10'`, and the same with the name `1`. -/
def setCh10 : Call := chunkCall .cleared (ascii "SET CHANNEL NAME='CH10'\x0d\x0a") (by decide +kernel)

def setOne : Call := chunkCall .cleared (ascii "SET CHANNEL NAME='1'\x0d\x0a") (by decide +kernel)

/-- A history and GET, evaluated. -/
def shownBy (calls : List Call) : Option (List UInt8) × Option (List UInt8) :=
  let r := Lib.run displayStep (some .initial) (calls ++ [lineCall .cleared getName_isLine])
  (r.2.getLast?.bind Turn.reply, r.1.map Panel.segsData)

theorem shows_of_shownBy {calls : List Call} {reply segs : List UInt8}
    (h : shownBy calls = (some reply, some segs)) : Shows calls reply segs := by
  obtain ⟨hreply, hsegs⟩ := Prod.mk.inj h
  obtain ⟨turn, hturn, hreply⟩ := Option.bind_eq_some_iff.mp hreply
  obtain ⟨p, hp, hsegs⟩ := Option.map_eq_some_iff.mp hsegs
  exact ⟨.cleared, p, turn, hp, hturn, hreply, hsegs⟩

/-- The chunk `SET CHANNEL NAME='AAAA'`, a name of which nothing is shown. -/
def setUnshown : Call :=
  chunkCall .cleared (ascii "SET CHANNEL NAME='AAAA'\x0d\x0a") (by decide +kernel)

/-- The name `1` after the name `AAAA`, and on its own. -/
theorem display_name_one :
    ([0x28, 0, 0, 0] = [0x28, 0, 0, (0 : UInt8)] ∧ BlankBehind (ascii "1") [0x28, 0, 0, 0] ∧
        BlankBehind (ascii "1") [0x28, 0, 0, 0]) ↔
      NothingLeft (historyNames [setUnshown, setOne]) (ascii "1") ∧
        NothingLeft (historyNames [setOne]) (ascii "1") :=
  display_name_iff (shows_of_shownBy (by decide +kernel)) (shows_of_shownBy (by decide +kernel))

/-- After the name `CH10` the name `1` is shown as `1 10`. -/
theorem not_display_name :
    ¬ ∀ (calls₁ calls₂ : List Call) (name segs₁ segs₂ : List UInt8),
      Shows calls₁ (ascii "+" ++ name ++ crlf) segs₁ →
      Shows calls₂ (ascii "+" ++ name ++ crlf) segs₂ →
        segs₁ = segs₂ ∧ BlankBehind name segs₁ ∧ BlankBehind name segs₂ := by
  intro hall
  have hleft : Shows [setCh10, setOne] (ascii "+" ++ ascii "1" ++ crlf) [0x28, 0, 0x28, 0xEB] :=
    shows_of_shownBy (by decide +kernel)
  have halone : Shows [setOne] (ascii "+" ++ ascii "1" ++ crlf) [0x28, 0, 0, 0] :=
    shows_of_shownBy (by decide +kernel)
  exact absurd (hall _ _ _ _ _ hleft halone).1 (by decide)

end Datalogger
