import Datalogger.Command.Store

/-!
# What a command leaves in the reply array

With the 100 bytes `netprot_get_commands` passes, every command but RESET overwrites
the reply array from its start with a string and a terminator, whatever was in it
(`func_reply`): no reply of the board's table is too long. GET also writes a null byte
at `out[outlen]`, just behind the array, which does not change what the array holds.
-/

namespace Datalogger

open Lib (Write Leaves ascii strcpyTo strncpyTo snprintfTo)

/-- `outstr_len`. -/
def outstrLen : Nat := 100

/-- The names GET lists, each with its comma. -/
def listText (names : List (List UInt8)) : List UInt8 := names.flatMap (· ++ ascii ", ")

theorem length_listText_cons (n : List UInt8) (names : List (List UInt8)) :
    (listText (n :: names)).length = n.length + 2 + (listText names).length := by
  unfold listText
  rw [List.flatMap_cons, List.length_append, List.length_append, show (ascii ", ").length = 2 from rfl]

/-- **The listing loop** appends what fits of the names. -/
theorem listParams_leaves {size : Nat} (hsize : 0 < size) :
    ∀ (ps : List NetprotParam) (names : List (List UInt8)) (ws : List Write) (s : List UInt8),
      ps.map NetprotParam.nameText = names ++ [[]] → [] ∉ names →
      Leaves size ws (s.take (size - 1)) →
      ∃ ws', listParams ps s.length ((size : Int) - s.length) = some ws' ∧
        Leaves size (ws ++ ws') ((s ++ listText names).take (size - 1)) := by
  intro ps
  induction ps with
  | nil => intro names ws s hps; exact absurd hps.symm (by simp)
  | cons p ps ih =>
    intro names ws s hps hnames hleaves
    rw [List.map_cons] at hps
    cases names with
    | nil =>
      obtain ⟨hend, -⟩ := List.cons.inj hps
      refine ⟨[], ?_, ?_⟩
      · rw [listParams, if_pos (Or.inl hend)]
      · rw [List.append_nil, show s ++ listText [] = s from List.append_nil s]
        exact hleaves
    | cons n names =>
      obtain ⟨rfl, hrest⟩ := List.cons.inj hps
      have hne : p.name.text ≠ [] := fun h0 => hnames (List.mem_cons.mpr (Or.inl h0.symm))
      by_cases hfull : (size : Int) - s.length = 0
      · -- the loop ends in front of this name, for which there is no room
        refine ⟨[], ?_, ?_⟩
        · rw [listParams, if_pos (Or.inr hfull)]
        · rw [List.append_nil, List.take_append_of_le_length (by omega)]
          exact hleaves
      · have htext : (p.name.text ++ ascii ", ").length = p.name.text.length + 2 := by
          rw [List.length_append]
          rfl
        -- this name is written over the terminator of the text so far
        obtain ⟨ws', hws', hfinal⟩ := ih names _ _ hrest (fun hmem => hnames (by simp [hmem]))
          (hleaves.snprintf hsize (p.name.text ++ ascii ", "))
        have hrem : (size : Int) - s.length - (p.name.text.length + 2 : Nat)
            = size - (s.length + (p.name.text.length + 2) : Nat) := by omega
        rw [List.length_append, htext] at hws'
        refine ⟨snprintfTo s.length ((size : Int) - s.length) (p.name.text ++ ascii ", ") ++ ws',
          ?_, ?_⟩
        · rw [listParams, if_neg (not_or.mpr ⟨hne, hfull⟩)]
          simp only [hrem, hws']
          rfl
        · rw [List.append_assoc, List.append_assoc] at hfinal
          exact hfinal

/-- **`GET <object>`** replies what fits of the names. -/
theorem getList_leaves {o : NetprotObject} {names : List (List UInt8)} {outlen : Nat}
    {ws : List Write} (hps : o.attrs.map NetprotParam.nameText = names ++ [[]])
    (hnames : [] ∉ names) (houtlen : 0 < outlen) (hws : getList o outlen = some ws) :
    Leaves outlen ws ((ascii "+" ++ listText names).take (outlen - 1)) := by
  obtain ⟨ws', hws', hleaves⟩ := listParams_leaves houtlen o.attrs names _ (ascii "+") hps hnames
    (Lib.leaves_snprintf houtlen (ascii "+"))
  unfold getList at hws
  rw [show listParams o.attrs 1 (outlen - 1) = some ws' from hws', Option.map_some] at hws
  obtain rfl := Option.some.inj hws
  exact hleaves.outside (Nat.le_refl outlen)

/-- The text GET replies for an attribute. -/
def valueReply (q : NetprotParam) : List UInt8 := ascii "+" ++ q.valueText ++ crlf

theorem length_valueReply (q : NetprotParam) : (valueReply q).length = q.valueText.length + 3 := by
  unfold valueReply crlf
  rw [List.length_append, List.length_append, show (ascii "+").length = 1 from rfl]
  simp only [List.length_cons, List.length_nil]
  omega

/-- A value prints in at most 31 bytes, and without a null byte. -/
theorem valueText_bounds (q : NetprotParam) : q.valueText.length ≤ 31 ∧ 0 ∉ q.valueText := by
  unfold NetprotParam.valueText
  cases q.type with
  | int =>
    have hlen := Lib.length_decimalInt_le q.intval
    exact ⟨by show (Lib.decimalInt q.intval.toInt).length ≤ 31; omega, Lib.zero_notMem_decimalInt _⟩
  | str => exact ⟨Nat.le_of_lt_succ q.strval.fits, q.strval.nulFree⟩

theorem zero_notMem_valueReply (q : NetprotParam) : 0 ∉ valueReply q := by
  intro hmem
  rcases List.mem_append.mp hmem with hhead | hcrlf
  · rcases List.mem_append.mp hhead with hplus | hvalue
    · exact absurd hplus (by decide)
    · exact (valueText_bounds q).2 hvalue
  · exact absurd hcrlf (by decide)

/-- A value's reply fits in `outstr`. -/
theorem valueReply_lt (q : NetprotParam) : (valueReply q).length < outstrLen := by
  have hbounds := valueText_bounds q
  have hlen := length_valueReply q
  unfold outstrLen
  omega

theorem getValue_leaves (q : NetprotParam) {outlen : Nat} (h : (valueReply q).length < outlen) :
    Leaves outlen (getValue q outlen) (valueReply q) := by
  unfold getValue
  rw [Lib.snprintfTo_of_lt (show ((ascii "+" ++ q.valueText ++ crlf).length : Int) < outlen by
    exact Int.ofNat_lt.mpr h)]
  exact (Lib.leaves_strcpyTo h).outside (Nat.le_refl outlen)

/-- The names of an object of the board take up little room. -/
theorem listText_length {objects : List NetprotObject} (h : SameTable objects netprotObjects)
    {o : NetprotObject} (ho : o ∈ objects) {names : List (List UInt8)}
    (hps : o.attrs.map NetprotParam.nameText = names ++ [[]]) : (listText names).length ≤ 13 := by
  obtain ⟨o', ho', -, hattrs⟩ := h.namesake ho
  -- the names are those of the boot table
  have hall : ∀ o' ∈ netprotObjects,
      (listText (o'.attrs.map NetprotParam.nameText)).length ≤ 15 := by decide
  have hbound := hall o' ho'
  rw [← hattrs, hps] at hbound
  unfold listText at hbound ⊢
  rw [List.flatMap_append, List.length_append, show (List.flatMap (· ++ ascii ", ") [[]]).length = 2
    from rfl] at hbound
  omega

/-- A listing is a C string. -/
theorem zero_notMem_listing {o : NetprotObject} {names : List (List UInt8)}
    (hps : o.attrs.map NetprotParam.nameText = names ++ [[]]) :
    0 ∉ ascii "+" ++ listText names := by
  intro hmem
  rcases List.mem_append.mp hmem with hplus | htext
  · exact absurd hplus (by decide)
  · obtain ⟨n, hn, hn0⟩ := List.mem_flatMap.mp htext
    have hname : n ∈ o.attrs.map NetprotParam.nameText := by
      rw [hps]
      exact List.mem_append_left _ hn
    obtain ⟨p, -, rfl⟩ := List.mem_map.mp hname
    rcases List.mem_append.mp hn0 with hzero | hcomma
    · exact p.name.nulFree hzero
    · exact absurd hcomma (by decide)

/-- GET leaves a terminated string in `outstr`. -/
theorem GetOutcome.leaves {objects : List NetprotObject} {ret : Int32}
    {ws : List Write} (hget : GetOutcome objects outstrLen ret ws) :
    ∃ s, Leaves outstrLen ws s ∧ 0 ∉ s := by
  cases hget with
  | fails text htext =>
    have hshort : text.length < outstrLen ∧ 0 ∉ text := by
      rcases htext with rfl | rfl <;> decide
    exact ⟨text, (Lib.leaves_strncpyTo hshort.1).outside (Nat.le_refl _), hshort.2⟩
  | list o ws ho hterm hws =>
    obtain ⟨names, hps, hnames⟩ := hterm
    exact ⟨_, getList_leaves hps hnames (by decide) hws, fun hmem =>
      zero_notMem_listing hps (List.mem_of_mem_take hmem)⟩
  | value q =>
    exact ⟨_, getValue_leaves q (valueReply_lt q), zero_notMem_valueReply q⟩

/-- SET's replies are short strings. -/
theorem SetRun.reply_bounds (r : SetRun) : r.reply.length ≤ 26 ∧ 0 ∉ r.reply := by
  unfold SetRun.reply
  cases r.outcome with
  | ok t => exact ⟨show success.length ≤ 26 by decide, show 0 ∉ success by decide⟩
  | error e =>
    have hall : e.text.length ≤ 26 ∧ 0 ∉ e.text := by cases e <;> decide
    exact hall

/-- **No command but RESET leaves the reply array as it was**: each overwrites it from
its start with a terminated string. -/
theorem func_reply {objects : List NetprotObject} (h : SameTable objects netprotObjects)
    {c : CommandId} (hc : c ≠ .reset) {inp : List UInt8} {res : HandlerResult}
    (hres : c.func objects inp outstrLen = some res) :
    ∃ s, Leaves outstrLen res.writes s ∧ 0 ∉ s := by
  have hterm := netprotObjects_terminated.of_sameTable h
  cases c with
  | ok =>
    obtain rfl := Option.some.inj hres
    exact ⟨[], Lib.leaves_strcpyTo (by decide), by decide⟩
  | ping =>
    obtain rfl := Option.some.inj hres
    exact ⟨ascii "+PONG \x0d\x0a", Lib.leaves_strcpyTo (by decide), by decide⟩
  | set =>
    obtain ⟨r, hr, -⟩ := setRun_safe hterm inp
    obtain rfl := Option.some.inj ((netprotCmdSet_eq hr outstrLen).symm.trans hres)
    have hbounds := r.reply_bounds
    exact ⟨r.reply, Lib.leaves_strcpyTo (show r.reply.length < 100 by omega), hbounds.2⟩
  | get =>
    obtain ⟨ret, ws, hget, hout⟩ := netprotCmdGet_cases hterm inp outstrLen
    obtain rfl := Option.some.inj (hget.symm.trans hres)
    exact hout.leaves
  | start =>
    obtain ⟨p, hp⟩ := netprotCmdStart_eq h
    obtain rfl := Option.some.inj ((hp inp outstrLen).symm.trans hres)
    exact ⟨[], Lib.leaves_strcpyTo (by decide), by decide⟩
  | stop =>
    obtain rfl := Option.some.inj hres
    exact ⟨ascii "+OK \x0d\x0a", Lib.leaves_strcpyTo (by decide), by decide⟩
  | reset => exact absurd rfl hc

end Datalogger
