import Datalogger.Command.Assigned
import Datalogger.Command.Reply

/-!
# Reading back what was written

An attribute of the table is a cell of its own: only a SET that succeeds on it changes
it (`paramAt_step`), and GET prints it (`replyTo_getLine`), so over any run of command
lines GET replies what the last successful SET stored (`paramAt_run`).

What SET stores is not always what was written. A string and a hexadecimal number in
range are; a decimal number goes through `strtol` with base 0, which takes a leading
zero for octal and saturates at the ends of `int`. `storeReadsBack_iff` says for which
texts the value comes back. White space anywhere between the parts of the line, or behind
the value, makes no difference (`setRun_padded`).
-/

namespace Datalogger

open Lib (ascii cstr isSpace skipSpaces applyWrites readString decimalInt digitsValue InIntRange)

/-- The cell `netprot_objects[i].attrs[j]`. -/
def paramAt (objects : List NetprotObject) (i j : Nat) : Option NetprotParam :=
  objects[i]?.bind fun o => o.attrs[j]?

/-- `p` is the attribute `j` of the object `i` of the board's table, which is `o`. -/
structure IsAttr (i j : Nat) (o : NetprotObject) (p : NetprotParam) : Prop where
  object : netprotObjects[i]? = some o
  attr : o.attrs[j]? = some p
  named : p.nameText ≠ []

/-- The white space of a SET line in front of the object, the attribute and the `=`. -/
structure Spacing where
  object : List UInt8
  attr : List UInt8
  equals : List UInt8
  object_space : ∀ c ∈ object, isSpace c
  attr_space : ∀ c ∈ attr, isSpace c
  equals_space : ∀ c ∈ equals, isSpace c

/-- The line `SET O A=text`, however it is spaced. -/
def setLine (o : NetprotObject) (p : NetprotParam) (w : Spacing) (text : List UInt8) : List UInt8 :=
  ascii "SET" ++ (w.object ++ (o.nameText ++ (w.attr ++ (p.nameText ++ (w.equals ++ 61 :: text)))))

/-- The line `GET O A`. -/
def getLine (o : NetprotObject) (p : NetprotParam) : List UInt8 :=
  ascii "GET" ++ 32 :: (o.nameText ++ 32 :: p.nameText)

/-- The string in the reply array after a line, which held `out` before. -/
def replyTo (objects : List NetprotObject) (line out : List UInt8) : Option (List UInt8) :=
  (netprotProcessCommand netprotDefaultCommandList objects line outstrLen).bind fun res =>
    readString (applyWrites out res.writes)

/-- The line is a SET that succeeds on the attribute `j` of the object `i`. -/
def SetsAttr (objects : List NetprotObject) (line : List UInt8) (i j : Nat) : Prop :=
  commandOf (cstr line) = some .set ∧
    ∃ r t, setRun objects (CommandId.set.arg (cstr line)) = some r ∧ r.outcome = .ok t ∧
      t.obj = i ∧ t.attr = j

instance (objects : List NetprotObject) (line : List UInt8) (i j : Nat) :
    Decidable (SetsAttr objects line i j) :=
  decidable_of_iff (commandOf (cstr line) = some .set ∧
      ∃ r ∈ setRun objects (CommandId.set.arg (cstr line)),
        ∃ t ∈ r.outcome.toOption, t.obj = i ∧ t.attr = j) <| by
    refine and_congr_right fun _ => exists_congr fun r => ?_
    cases r.outcome <;> simp [Except.toOption]

/-- No line of the run is a SET that succeeds on the attribute. -/
def Untouched (i j : Nat) : List NetprotObject → List (List UInt8) → Prop
  | _, [] => True
  | t, line :: lines => ¬ SetsAttr t line i j ∧
      ∀ res, netprotProcessCommand netprotDefaultCommandList t line outstrLen = some res →
        Untouched i j res.objects lines

instance decidableUntouched (i j : Nat) :
    ∀ (t : List NetprotObject) (lines : List (List UInt8)), Decidable (Untouched i j t lines)
  | _, [] => .isTrue trivial
  | t, line :: lines =>
    have : Decidable (∀ res, netprotProcessCommand netprotDefaultCommandList t line outstrLen
        = some res → Untouched i j res.objects lines) :=
      match netprotProcessCommand netprotDefaultCommandList t line outstrLen with
      | none => .isTrue nofun
      | some res =>
        have := decidableUntouched i j res.objects lines
        decidable_of_iff (Untouched i j res.objects lines)
          ⟨fun h _ hres => Option.some.inj hres ▸ h, fun h => h res rfl⟩
    inferInstanceAs (Decidable (_ ∧ _))

/-- No line of the run is dispatched to RESET. -/
def NoReset (lines : List (List UInt8)) : Prop :=
  ∀ line ∈ lines, commandOf (cstr line) ≠ some .reset

/-- The text behind the `=`, up to the end of the string, is the value, with white space
around it. -/
def Literal.WrittenAs (l : Literal) (text : List UInt8) : Prop :=
  ∃ front behind, (∀ c ∈ front, isSpace c) ∧ (∀ c ∈ behind, isSpace c) ∧
    cstr text = front ++ (l.text ++ behind)

/-- The text is a value, and the reply is that value. -/
def RepliesValue (text reply : List UInt8) : Prop :=
  ∃ l : Literal, l.WrittenAs text ∧ reply = ascii "+" ++ l.value.text ++ crlf

/-- The text is a value that is stored as it is written. -/
def ExactText (text : List UInt8) : Prop := ∃ l : Literal, l.WrittenAs text ∧ l.Exact

/-! ## The cell -/

/-- A cell in a table with other values. -/
theorem SameTable.cell {t u : List NetprotObject} (h : SameTable t u) {i j : Nat}
    {o : NetprotObject} {p : NetprotParam} (ho : u[i]? = some o) (hp : o.attrs[j]? = some p) :
    ∃ o' q, t[i]? = some o' ∧ o'.attrs[j]? = some q ∧ paramAt t i j = some q ∧
      o'.nameText = o.nameText ∧ q.nameText = p.nameText := by
  obtain ⟨o', ho', heq⟩ := SameTable.getElem? (Eq.symm h) ho
  have hattrs : (o'.attrs.map NetprotParam.restored)[j]? = some p.restored := by
    have hj := congrArg (fun x : NetprotObject => x.attrs[j]?) heq
    simp only [NetprotObject.restored, List.getElem?_map, hp, Option.map_some] at hj
    rw [List.getElem?_map]
    exact hj.symm
  rw [List.getElem?_map] at hattrs
  obtain ⟨q, hq, hqp⟩ := Option.map_eq_some_iff.mp hattrs
  have hname : o'.restored.nameText = o.restored.nameText := by rw [heq]
  have hqname : q.restored.nameText = p.restored.nameText := by rw [hqp]
  refine ⟨o', q, ho', hq, ?_, hname, hqname⟩
  unfold paramAt
  rw [ho']
  exact hq

/-- The attribute's cell in a table of the board. -/
theorem IsAttr.cell {i j : Nat} {o : NetprotObject} {p : NetprotParam} (ha : IsAttr i j o p)
    {t : List NetprotObject} (h : SameTable t netprotObjects) :
    ∃ o' q, t[i]? = some o' ∧ o'.attrs[j]? = some q ∧ paramAt t i j = some q ∧
      o'.nameText = o.nameText ∧ q.nameText = p.nameText := h.cell ha.object ha.attr

/-- The object of an attribute has a name. -/
theorem IsAttr.object_named {i j : Nat} {o : NetprotObject} {p : NetprotParam}
    (ha : IsAttr i j o p) : o.nameText ≠ [] := by
  have hall : ∀ o ∈ netprotObjects, o.attrs ≠ [] → o.nameText ≠ [] := by decide
  refine hall o (List.mem_of_getElem? ha.object) fun h0 => ?_
  have hattr := ha.attr
  rw [h0] at hattr
  cases hattr

/-- An attribute in a table of the board, and how its names are found. -/
structure Lookup (t : List NetprotObject) (i j : Nat) (o' : NetprotObject) (q : NetprotParam) :
    Prop where
  object : t[i]? = some o'
  attr : o'.attrs[j]? = some q
  object_word : o'.nameText ≠ [] ∧ ∀ c ∈ o'.nameText, Lib.isAlpha c
  attr_word : q.nameText ≠ [] ∧ ∀ c ∈ q.nameText, Lib.isAlpha c
  find_object : ∀ rest, netprotFindObject t (o'.nameText ++ 32 :: rest) = some (.ok i)
  find_attr : netprotFindAttr q.nameText o' = some (.ok j)

/-- The name of an object leads to it, whatever follows. -/
theorem netprotFindObject_of_addressable {t : List NetprotObject}
    (h : Addressable NetprotObject.nameText t) {i : Nat} {o : NetprotObject} (ho : t[i]? = some o)
    (hne : o.nameText ≠ []) (rest : List UInt8) :
    netprotFindObject t (o.nameText ++ rest) = some (.ok i) := by
  unfold netprotFindObject
  rw [if_neg (by simp [hne]), findNamed_of_addressable rest 0 h ho hne, Nat.zero_add]

/-- The name of an attribute leads to it. -/
theorem netprotFindAttr_of_addressable {o : NetprotObject}
    (h : Addressable NetprotParam.nameText o.attrs) {j : Nat} {q : NetprotParam}
    (hq : o.attrs[j]? = some q) (hne : q.nameText ≠ []) :
    netprotFindAttr q.nameText o = some (.ok j) := by
  have hfind := findNamed_of_addressable [] 0 h hq hne
  rw [List.append_nil, Nat.zero_add] at hfind
  unfold netprotFindAttr
  rw [if_neg hne, hfind]

/-- The two names together lead to the attribute. -/
theorem netprotFindObjectAttr_of_addressable {t : List NetprotObject} (h : TableAddressable t)
    {i j : Nat} {o : NetprotObject} {q : NetprotParam} (ho : t[i]? = some o)
    (hone : o.nameText ≠ []) (hq : o.attrs[j]? = some q) (hqne : q.nameText ≠ []) :
    netprotFindObjectAttr t o.nameText q.nameText = some (.ok q) := by
  have hobject := netprotFindObject_of_addressable h.objects ho hone []
  rw [List.append_nil] at hobject
  have hattr := netprotFindAttr_of_addressable (h.attrs o (List.mem_of_getElem? ho) hone) hq hqne
  unfold netprotFindObjectAttr
  simp only [hobject, ho, hattr, hq, Option.map_some]

/-- The names of an attribute lead to its cell. -/
theorem IsAttr.lookup {i j : Nat} {o : NetprotObject} {p : NetprotParam} (ha : IsAttr i j o p)
    {t : List NetprotObject} (h : SameTable t netprotObjects) :
    ∃ o' q, Lookup t i j o' q ∧ paramAt t i j = some q ∧
      o'.nameText = o.nameText ∧ q.nameText = p.nameText := by
  have haddr := netprotObjects_addressable.of_sameTable h
  obtain ⟨o', q, ho', hq, hcell, honame, hqname⟩ := ha.cell h
  have hone : o'.nameText ≠ [] := by rw [honame]; exact ha.object_named
  have hqne : q.nameText ≠ [] := by rw [hqname]; exact ha.named
  have hmem := List.mem_of_getElem? ho'
  have hattrs := haddr.attrs o' hmem hone
  refine ⟨o', q, ⟨ho', hq, ⟨hone, haddr.objects.word hmem hone⟩,
    ⟨hqne, hattrs.word (List.mem_of_getElem? hq) hqne⟩, fun rest => ?_, ?_⟩, hcell, honame, hqname⟩
  · exact netprotFindObject_of_addressable haddr.objects ho' hone _
  · exact netprotFindAttr_of_addressable hattrs hq hqne

theorem paramAt_storeParam_ne {t : List NetprotObject} {i j k l : Nat} (h : ¬ (k = i ∧ l = j))
    (p : NetprotParam) : paramAt (storeParam t k l p) i j = paramAt t i j := by
  unfold paramAt
  by_cases hk : k = i
  · subst hk
    have hl : l ≠ j := fun hl => h ⟨rfl, hl⟩
    cases ho : t[k]? with
    | none =>
      have hnone : (storeParam t k l p)[k]? = none := by
        rw [List.getElem?_eq_none_iff] at ho ⊢
        unfold storeParam
        rw [List.length_modify]
        exact ho
      rw [hnone]
    | some o =>
      rw [storeParam_getElem?_self ho]
      show (o.attrs.set l p)[j]? = o.attrs[j]?
      exact List.getElem?_set_ne hl
  · rw [storeParam_getElem?_ne hk]

theorem paramAt_storeParam_self {t : List NetprotObject} {i j : Nat} {o : NetprotObject}
    {q : NetprotParam} (ho : t[i]? = some o) (hq : o.attrs[j]? = some q) (p : NetprotParam) :
    paramAt (storeParam t i j p) i j = some p := by
  unfold paramAt
  rw [storeParam_getElem?_self ho]
  exact List.getElem?_set_self (List.getElem?_eq_some_iff.mp hq).1

/-- **One line changes a cell only if it is a SET that succeeds on it.** -/
theorem paramAt_step {t : List NetprotObject} (h : SameTable t netprotObjects)
    {line : List UInt8} {outsize : Nat} {res : ProcessResult}
    (hres : netprotProcessCommand netprotDefaultCommandList t line outsize = some res)
    {i j : Nat} (hnot : ¬ SetsAttr t line i j) : paramAt res.objects i j = paramAt t i j := by
  cases hcmd : commandOf (cstr line) with
  | none =>
    rw [process_of_unknown hcmd] at hres
    obtain rfl := Option.some.inj hres
    rfl
  | some c =>
    rw [process_of_command hcmd] at hres
    obtain ⟨r, hr, rfl⟩ := Option.map_eq_some_iff.mp hres
    by_cases hreset : c = .reset
    · subst hreset
      rw [show CommandId.func .reset = netprotCmdReset from rfl, netprotCmdReset_sameTable h] at hr
      cases hr
    · by_cases hset : c = .set
      · subst hset
        obtain ⟨run, hrun, rfl⟩ := Option.map_eq_some_iff.mp hr
        show paramAt (run.objects t) i j = paramAt t i j
        unfold SetRun.objects
        cases hout : run.outcome with
        | error e => rfl
        | ok target =>
          refine paramAt_storeParam_ne (fun hij => hnot ?_) target.param
          exact ⟨hcmd, run, target, hrun, hout, hij.1, hij.2⟩
      · obtain ⟨r', hr', -, hsame, -⟩ := func_safe h hreset (c.arg (cstr line)) outsize
        obtain rfl := Option.some.inj (hr'.symm.trans hr)
        show paramAt r'.objects i j = paramAt t i j
        rw [hsame hset]

/-- **Over a run** in which no SET succeeds on it, a cell keeps what it holds. -/
theorem paramAt_run {i j : Nat} :
    ∀ (lines : List (List UInt8)) {t u : List NetprotObject}, SameTable t netprotObjects →
      runLines outstrLen t lines = some u → Untouched i j t lines →
      paramAt u i j = paramAt t i j := by
  intro lines
  induction lines with
  | nil =>
    intro t u _ hrun _
    obtain rfl := Option.some.inj hrun
    rfl
  | cons line lines ih =>
    intro t u h hrun huntouched
    rw [runLines] at hrun
    cases hres : netprotProcessCommand netprotDefaultCommandList t line outstrLen with
    | none =>
      rw [hres] at hrun
      cases hrun
    | some res =>
      rw [hres] at hrun
      rw [ih (process_sameTable h hres) hrun (huntouched.2 res hres),
        paramAt_step h hres huntouched.1]

/-- Without RESET every run goes through to its end. -/
theorem runLines_of_noReset :
    ∀ (lines : List (List UInt8)) {t : List NetprotObject}, SameTable t netprotObjects →
      NoReset lines → ∃ u, runLines outstrLen t lines = some u := by
  intro lines
  induction lines with
  | nil => intro t _ _; exact ⟨t, rfl⟩
  | cons line lines ih =>
    intro t h hno
    have hres :
        ∃ res, netprotProcessCommand netprotDefaultCommandList t line outstrLen = some res := by
      cases hcmd : commandOf (cstr line) with
      | none => exact ⟨_, process_of_unknown hcmd t outstrLen⟩
      | some c =>
        have hc : c ≠ .reset := fun h0 => hno line (by simp) (h0 ▸ hcmd)
        obtain ⟨r, hr, -⟩ := func_safe h hc (c.arg (cstr line)) outstrLen
        exact ⟨_, by rw [process_of_command hcmd, hr]; rfl⟩
    obtain ⟨res, hres⟩ := hres
    rw [runLines, hres]
    exact ih (process_sameTable h hres) fun l hl => hno l (by simp [hl])

/-! ## GET -/

/-- What GET O A does: it prints the cell. -/
theorem netprotCmdGet_cell {i j : Nat} {o : NetprotObject} {p : NetprotParam}
    (ha : IsAttr i j o p) {t : List NetprotObject} (h : SameTable t netprotObjects)
    {q : NetprotParam} (hq : paramAt t i j = some q) (outlen : Nat) :
    netprotCmdGet t (32 :: (o.nameText ++ 32 :: p.nameText)) outlen
      = some (replies t 0 (getValue q outlen)) := by
  obtain ⟨o', q', hlook, hcell, honame, hqname⟩ := ha.lookup h
  obtain rfl := Option.some.inj (hcell.symm.trans hq)
  have hptr : skipSpaces (32 :: (o'.nameText ++ 32 :: q'.nameText))
      = o'.nameText ++ 32 :: q'.nameText :=
    Lib.skipSpaces_word hlook.object_word.1 hlook.object_word.2 _
  have hrest : skipSpaces ((o'.nameText ++ 32 :: q'.nameText).drop o'.nameText.length)
      = q'.nameText := by
    rw [List.drop_left]
    have hword := Lib.skipSpaces_word hlook.attr_word.1 hlook.attr_word.2 []
    rw [List.append_nil] at hword
    exact hword
  rw [← honame, ← hqname]
  simp only [netprotCmdGet, hptr, hlook.find_object, hlook.object, hrest,
    if_neg hlook.attr_word.1, hlook.find_attr, hlook.attr]
  rfl

theorem commandOf_getLine (o : NetprotObject) (p : NetprotParam) :
    commandOf (cstr (getLine o p)) = some .get ∧
      CommandId.get.arg (cstr (getLine o p)) = 32 :: (o.nameText ++ 32 :: p.nameText) := by
  have hnul : 0 ∉ getLine o p := by
    intro hmem
    have ho := o.name.nulFree
    have hp := p.name.nulFree
    simp [getLine, ho, hp] at hmem
    exact absurd hmem (by decide)
  rw [Lib.cstr_of_notMem hnul]
  exact ⟨rfl, rfl⟩

/-- **GET O A replies the value in the cell**, whatever the reply array held. -/
theorem replyTo_getLine {i j : Nat} {o : NetprotObject} {p : NetprotParam} (ha : IsAttr i j o p)
    {t : List NetprotObject} (h : SameTable t netprotObjects) {q : NetprotParam}
    (hq : paramAt t i j = some q) {out : List UInt8} (hout : out.length = outstrLen) :
    replyTo t (getLine o p) out = some (valueReply q) := by
  obtain ⟨hcmd, harg⟩ := commandOf_getLine o p
  unfold replyTo
  rw [process_of_command hcmd, harg, show CommandId.func .get = netprotCmdGet from rfl,
    netprotCmdGet_cell ha h hq]
  exact (getValue_leaves q (valueReply_lt q)).readString_eq (zero_notMem_valueReply q) hout

/-! ## SET -/

/-- A SET whose assignment succeeds stores the value that was parsed. -/
theorem setValue_yields {text name : List UInt8} {a : Assignment} {v : Value}
    (hy : a.Yields text name v) {i j : Nat} {q : NetprotParam} {target : SetTarget}
    (hset : setValue i j q text a = some (.ok target)) :
    target.obj = i ∧ target.attr = j ∧ target.param.valueText = v.text := by
  obtain ⟨qname, type, flags, intval, strval, defaultIntval, defaultStrval⟩ := q
  unfold setValue at hset
  by_cases hro : flags &&& flagRo ≠ 0
  · rw [if_pos hro] at hset
    cases hset
  · rw [if_neg hro] at hset
    cases v with
    | int v =>
      obtain ⟨-, -, -, htype, k, hk, rfl⟩ := hy
      rw [htype, hk] at hset
      cases type with
      | int =>
        obtain rfl := Except.ok.inj (Option.some.inj hset)
        exact ⟨rfl, rfl, rfl⟩
      | str => cases hset
    | str s =>
      obtain ⟨-, -, -, htype, off, hoff, rfl⟩ := hy
      rw [htype, hoff] at hset
      cases type with
      | int => cases hset
      | str =>
        simp only [Option.map_some] at hset
        by_cases hlen : (a.textAt text off).length + 1 < 32
        · rw [dif_pos hlen] at hset
          obtain rfl := Except.ok.inj (Option.some.inj hset)
          exact ⟨rfl, rfl, rfl⟩
        · rw [dif_neg hlen] at hset
          cases hset

/-- **SET O A=value, however it is spaced**: the value is assigned as it is stored. -/
theorem setRun_padded {t : List NetprotObject} (h : TableAddressable t) {i j : Nat}
    {o : NetprotObject} {q : NetprotParam} (ho : t[i]? = some o) (hone : o.nameText ≠ [])
    (hq : o.attrs[j]? = some q) (x : AssignmentText) (hx : x.name = q.nameText)
    {sp sp' behind : List UInt8} (hsp : ∀ c ∈ sp, isSpace c) (hsp' : ∀ c ∈ sp', isSpace c)
    (hbehind : ∀ c ∈ behind, isSpace c) :
    ∃ a nulls, a.Yields (x.text ++ behind) x.name x.literal.stored ∧
      setRun t (sp ++ (o.nameText ++ (sp' ++ (x.text ++ behind))))
        = (setValue i j q (x.text ++ behind) a).map fun outcome => ⟨nulls, outcome⟩ := by
  have hqne : q.nameText ≠ [] := by rw [← hx]; exact x.nonempty
  have hattrs := h.attrs o (List.mem_of_getElem? ho) hone
  have hword := h.objects.word (List.mem_of_getElem? ho) hone
  have hptr := Lib.skipSpaces_spaces_word hsp hone hword (sp' ++ (x.text ++ behind))
  have htext : assignmentText o (sp ++ (o.nameText ++ (sp' ++ (x.text ++ behind))))
      = x.text ++ behind := by
    have hname : x.text ++ behind
        = x.name ++ ((x.before ++ 61 :: (x.after ++ x.literal.text)) ++ behind) := by
      rw [AssignmentText.text, List.append_assoc]
    unfold assignmentText
    rw [hptr, List.drop_left, hname]
    exact Lib.skipSpaces_spaces_word hsp' x.nonempty x.alpha _
  have hfindObject := netprotFindObject_of_addressable h.objects ho hone (sp' ++ (x.text ++ behind))
  have hfindAttr := netprotFindAttr_of_addressable hattrs hq hqne
  -- the assignment is the literal's, whichever kind it is
  obtain ⟨a, hparse, hyields⟩ := parseAssignment_padded x hbehind
  obtain ⟨hret, hname, hnameText⟩ := hyields.common
  rw [hx] at hnameText
  have hattrRun : setAttr i o (x.text ++ behind)
      = (setValue i j q (x.text ++ behind) a).map fun outcome => ⟨a.nulls, outcome⟩ := by
    unfold setAttr
    simp only [hparse, hret, hname, hnameText, hfindAttr, hq]
    rw [if_neg (fun hne => hne rfl)]
  refine ⟨a, a.nulls.map ((sp ++ (o.nameText ++ (sp' ++ (x.text ++ behind)))).length
    - (x.text ++ behind).length + ·), hyields, ?_⟩
  unfold setRun
  simp only [hptr, hfindObject, ho, htext, hattrRun, Option.map_map, Function.comp_def]

/-- The same with nothing behind the value. -/
theorem setRun_assigned {t : List NetprotObject} (h : TableAddressable t) {i j : Nat}
    {o : NetprotObject} {q : NetprotParam} (ho : t[i]? = some o) (hone : o.nameText ≠ [])
    (hq : o.attrs[j]? = some q) (x : AssignmentText) (hx : x.name = q.nameText)
    {sp sp' : List UInt8} (hsp : ∀ c ∈ sp, isSpace c) (hsp' : ∀ c ∈ sp', isSpace c) :
    ∃ a nulls, a.Yields x.text x.name x.literal.stored ∧
      setRun t (sp ++ (o.nameText ++ (sp' ++ x.text)))
        = (setValue i j q x.text a).map fun outcome => ⟨nulls, outcome⟩ := by
  have hrun := setRun_padded h ho hone hq x hx hsp hsp' isSpace_of_mem_nil
  rw [List.append_nil] at hrun
  exact hrun

/-- **What SET O A=value stores**: the cell takes the value as it is stored. -/
theorem setRun_literal {i j : Nat} {o : NetprotObject} {p : NetprotParam} (ha : IsAttr i j o p)
    {t : List NetprotObject} (h : SameTable t netprotObjects) (w : Spacing) (l : Literal)
    {text : List UInt8} (hl : l.WrittenAs text) {r : SetRun}
    (hrun : setRun t (w.object ++ (o.nameText ++ (w.attr ++ (p.nameText ++ (w.equals
      ++ 61 :: cstr text))))) = some r)
    {target : SetTarget} (hok : r.outcome = .ok target) :
    paramAt (r.objects t) i j = some target.param ∧ target.param.valueText = l.stored.text := by
  obtain ⟨o', q, hlook, hcell, honame, hqname⟩ := ha.lookup h
  obtain ⟨front, behind, hfront, hbehind, htext⟩ := hl
  rw [← honame, ← hqname, htext] at hrun
  let x : AssignmentText :=
    { name := q.nameText, before := w.equals, after := front, literal := l
      nonempty := hlook.attr_word.1, alpha := hlook.attr_word.2, before_space := w.equals_space
      after_space := hfront }
  have hx : q.nameText ++ (w.equals ++ 61 :: (front ++ (l.text ++ behind))) = x.text ++ behind := by
    simp [x, AssignmentText.text]
  obtain ⟨a, nulls, hyields, hset⟩ :=
    setRun_padded (netprotObjects_addressable.of_sameTable h) hlook.object hlook.object_word.1
      hlook.attr x rfl w.object_space w.attr_space hbehind
  rw [hx] at hrun
  obtain ⟨outcome, hvalue, rfl⟩ := Option.map_eq_some_iff.mp (hset.symm.trans hrun)
  have hok : outcome = .ok target := hok
  subst hok
  obtain ⟨hobj, hattrIdx, htext⟩ := setValue_yields hyields hvalue
  refine ⟨?_, htext⟩
  show paramAt (storeParam t target.obj target.attr target.param) i j = some target.param
  rw [hobj, hattrIdx]
  exact paramAt_storeParam_self hlook.object hlook.attr target.param

theorem commandOf_setLine (o : NetprotObject) (p : NetprotParam) (w : Spacing) (text : List UInt8) :
    commandOf (cstr (setLine o p w text)) = some .set ∧
      CommandId.set.arg (cstr (setLine o p w text)) = w.object ++ (o.nameText ++ (w.attr
        ++ (p.nameText ++ (w.equals ++ 61 :: cstr text)))) := by
  have hline : cstr (setLine o p w text) = setLine o p w (cstr text) := by
    unfold setLine
    rw [Lib.cstr_append (by decide), Lib.cstr_append (zero_notMem_of_isSpace w.object_space),
      Lib.cstr_append o.name.nulFree, Lib.cstr_append (zero_notMem_of_isSpace w.attr_space),
      Lib.cstr_append p.name.nulFree, Lib.cstr_append (zero_notMem_of_isSpace w.equals_space),
      ← List.singleton_append, Lib.cstr_append (by decide)]
    rfl
  rw [hline]
  exact ⟨rfl, rfl⟩

/-- A SET of a value that returned zero leaves it in the cell. -/
theorem paramAt_setLine {i j : Nat} {o : NetprotObject} {p : NetprotParam} (ha : IsAttr i j o p)
    {t : List NetprotObject} (h : SameTable t netprotObjects) (w : Spacing) (l : Literal)
    {text : List UInt8} (hl : l.WrittenAs text) {res : ProcessResult}
    (hres : netprotProcessCommand netprotDefaultCommandList t (setLine o p w text) outstrLen
      = some res) (hret : res.ret = 0) :
    ∃ q, paramAt res.objects i j = some q ∧ q.valueText = l.stored.text := by
  obtain ⟨hcmd, harg⟩ := commandOf_setLine o p w text
  rw [process_of_command hcmd, harg] at hres
  obtain ⟨r, hr, rfl⟩ := Option.map_eq_some_iff.mp hres
  obtain ⟨run, hrun, rfl⟩ := Option.map_eq_some_iff.mp hr
  cases hout : run.outcome with
  | error e =>
    have hzero : (run.result t).ret = 0 := hret
    rw [SetRun.ret_of_error hout] at hzero
    exact absurd hzero (by decide)
  | ok target =>
    obtain ⟨hcell, hvalue⟩ := setRun_literal ha h w l hl hrun hout
    exact ⟨target.param, hcell, hvalue⟩

/-! ## The store reads back -/

/-- After a SET that returned zero, and until the next one that succeeds on the
attribute, GET replies the value exactly if it is stored as it is written. -/
theorem replyTo_after_set_iff {i j : Nat} {o : NetprotObject} {p : NetprotParam}
    (ha : IsAttr i j o p) {t u : List NetprotObject} (h : SameTable t netprotObjects)
    (w : Spacing) {text : List UInt8} {res : ProcessResult}
    (hres : netprotProcessCommand netprotDefaultCommandList t (setLine o p w text) outstrLen
      = some res) (hret : res.ret = 0) {after : List (List UInt8)}
    (hafter : runLines outstrLen res.objects after = some u)
    (huntouched : Untouched i j res.objects after) {out : List UInt8}
    (hout : out.length = outstrLen) :
    (∃ reply, replyTo u (getLine o p) out = some reply ∧ RepliesValue text reply) ↔
      ExactText text := by
  have htable := process_sameTable h hres
  have hu := runLines_sameTable after htable hafter
  -- for a text that is a value, the reply is the stored value's
  have hreply : ∀ l : Literal, l.WrittenAs text →
      replyTo u (getLine o p) out = some (ascii "+" ++ l.stored.text ++ crlf) := by
    intro l hl
    obtain ⟨q, hq, hvalue⟩ := paramAt_setLine ha h w l hl hres hret
    rw [replyTo_getLine ha hu ((paramAt_run after htable hafter huntouched).trans hq) hout]
    unfold valueReply
    rw [hvalue]
  constructor
  · rintro ⟨reply, hget, l, hl, rfl⟩
    have heq := Option.some.inj ((hreply l hl).symm.trans hget)
    have hvalue := List.append_cancel_left (List.append_cancel_right heq)
    exact ⟨l, hl, l.text_stored_eq_iff.mp hvalue⟩
  · rintro ⟨l, hl, hexact⟩
    refine ⟨_, hreply l hl, l, hl, ?_⟩
    rw [l.text_stored_eq_iff.mpr hexact]

/-- Before any SET succeeds on it, an attribute reads as at power-up. -/
theorem replyTo_initial {i j : Nat} {o : NetprotObject} {p : NetprotParam} (ha : IsAttr i j o p)
    {lines : List (List UInt8)} {u : List NetprotObject}
    (hrun : runLines outstrLen netprotObjects lines = some u)
    (huntouched : Untouched i j netprotObjects lines) {out : List UInt8}
    (hout : out.length = outstrLen) : replyTo u (getLine o p) out = some (valueReply p) := by
  have hp : paramAt netprotObjects i j = some p := by
    unfold paramAt
    rw [ha.object]
    exact ha.attr
  exact replyTo_getLine ha (runLines_sameTable lines rfl hrun)
    ((paramAt_run lines rfl hrun huntouched).trans hp) hout

/-- A SET that succeeds on another attribute leaves the reply as it was. -/
theorem replyTo_of_other_set {i j : Nat} {o : NetprotObject} {p : NetprotParam}
    (ha : IsAttr i j o p) {t : List NetprotObject} (h : SameTable t netprotObjects)
    {line : List UInt8} {res : ProcessResult}
    (hres : netprotProcessCommand netprotDefaultCommandList t line outstrLen = some res)
    {k l : Nat} (hset : SetsAttr t line k l) (hother : ¬ (k = i ∧ l = j)) {out : List UInt8}
    (hout : out.length = outstrLen) :
    replyTo res.objects (getLine o p) out = replyTo t (getLine o p) out := by
  have hnot : ¬ SetsAttr t line i j := by
    rintro ⟨-, r, target, hr, hok, hi, hj⟩
    obtain ⟨-, r', target', hr', hok', hk, hl⟩ := hset
    obtain rfl := Option.some.inj (hr.symm.trans hr')
    obtain rfl := Except.ok.inj (hok.symm.trans hok')
    exact hother ⟨hk.symm.trans hi, hl.symm.trans hj⟩
  obtain ⟨o', q, -, -, hcell, -, -⟩ := ha.cell h
  rw [replyTo_getLine ha h hcell hout,
    replyTo_getLine ha (process_sameTable h hres) ((paramAt_step h hres hnot).trans hcell) hout]

/-- **The store reads back.** For every attribute of the table: every run of lines not
dispatched to RESET goes through; after `SET O A=text` returned zero, however it is
spaced, GET replies the value until the next SET that succeeds on the attribute if and
only if the text is a value that is stored as it is written; before any such SET it
replies the initial value; and a SET that succeeds on another attribute does not change
the reply. -/
theorem storeReadsBack_iff {i j : Nat} {o : NetprotObject} {p : NetprotParam}
    (ha : IsAttr i j o p) :
    (∀ lines, NoReset lines → ∃ u, runLines outstrLen netprotObjects lines = some u) ∧
    (∀ (before : List (List UInt8)) (w : Spacing) (text : List UInt8)
      (after : List (List UInt8)) (t u : List NetprotObject) (res : ProcessResult)
      (out : List UInt8), runLines outstrLen netprotObjects before = some t →
      netprotProcessCommand netprotDefaultCommandList t (setLine o p w text) outstrLen = some res →
      res.ret = 0 → runLines outstrLen res.objects after = some u →
      Untouched i j res.objects after → out.length = outstrLen →
      ((∃ reply, replyTo u (getLine o p) out = some reply ∧ RepliesValue text reply) ↔
        ExactText text)) ∧
    (∀ (lines : List (List UInt8)) (u : List NetprotObject) (out : List UInt8),
      runLines outstrLen netprotObjects lines = some u → Untouched i j netprotObjects lines →
      out.length = outstrLen → replyTo u (getLine o p) out = some (valueReply p)) ∧
    (∀ (t : List NetprotObject) (line : List UInt8) (res : ProcessResult) (k l : Nat)
      (out : List UInt8), Reachable t →
      netprotProcessCommand netprotDefaultCommandList t line outstrLen = some res →
      SetsAttr t line k l → ¬ (k = i ∧ l = j) → out.length = outstrLen →
      replyTo res.objects (getLine o p) out = replyTo t (getLine o p) out) := by
  refine ⟨fun lines hno => runLines_of_noReset lines rfl hno, ?_, ?_, ?_⟩
  · intro before w text after t u res out hbefore hres hret hafter huntouched hout
    exact replyTo_after_set_iff ha (runLines_sameTable before rfl hbefore) w hres hret hafter
      huntouched hout
  · intro lines u out hrun huntouched hout
    exact replyTo_initial ha hrun huntouched hout
  · intro t line res k l out hreach hres hset hother hout
    exact replyTo_of_other_set ha hreach.sameTable hres hset hother hout

theorem delay_isAttr : IsAttr 0 1 (channelObject channelAttrs) channelDelay :=
  ⟨rfl, rfl, by decide⟩

/-- White space around every part of the line. -/
def wideSpacing : Spacing :=
  { object := [32, 9], attr := [32], equals := [32]
    object_space := Lib.forall_mem_of_all (by decide)
    attr_space := Lib.forall_mem_of_all (by decide)
    equals_space := Lib.forall_mem_of_all (by decide) }

/-- SETs of the attribute and of another one, one that fails half-way, and a GET. -/
def linesBefore : List (List UInt8) :=
  [ascii "SET CHANNEL DELAY=7", ascii "SET CHANNEL DELAY=", ascii "GET CHANNEL DELAY"]

/-- No SET of these succeeds on the attribute. -/
def linesAfter : List (List UInt8) :=
  [ascii "SET CHANNEL NAME='two'", ascii "SET CHANNEL DELAY='two'", ascii "SET CHANNEL",
    ascii "GET CHANNEL NAME"]

/-- `SET CHANNEL DELAY = 0x1F` among them is read back. -/
theorem storeReadsBack_delay :
    ∃ t res u reply, runLines outstrLen netprotObjects linesBefore = some t ∧
      netprotProcessCommand netprotDefaultCommandList t (setLine (channelObject channelAttrs)
        channelDelay wideSpacing (ascii " 0x1F ")) outstrLen = some res ∧
      runLines outstrLen res.objects linesAfter = some u ∧
      replyTo u (getLine (channelObject channelAttrs) channelDelay) (List.replicate 100 1)
        = some reply ∧ RepliesValue (ascii " 0x1F ") reply := by
  have hruns : ∃ t ∈ runLines outstrLen netprotObjects linesBefore,
      ∃ res ∈ netprotProcessCommand netprotDefaultCommandList t
        (setLine (channelObject channelAttrs)
        channelDelay wideSpacing (ascii " 0x1F ")) outstrLen,
      ∃ _ ∈ runLines outstrLen res.objects linesAfter,
        res.ret = 0 ∧ Untouched 0 1 res.objects linesAfter := by decide +kernel
  obtain ⟨t, hbefore, res, hres, u, hafter, hret, huntouched⟩ := hruns
  have hblank : ∀ c ∈ [(32 : UInt8)], isSpace c := Lib.forall_mem_of_all (by decide)
  obtain ⟨reply, hreply, hvalue⟩ := ((storeReadsBack_iff delay_isAttr).2.1 linesBefore wideSpacing
    (ascii " 0x1F ") linesAfter t u res (List.replicate 100 1) hbefore hres hret hafter huntouched
    rfl).mpr ⟨.hexadecimal (ascii "1F") (by decide) (Lib.forall_mem_of_all (by decide)),
      ⟨[32], [32], hblank, hblank, by decide⟩, by show InIntRange 31; decide⟩
  exact ⟨t, res, u, reply, hbefore, hres, hafter, hreply, hvalue⟩

/-- `SET CHANNEL DELAY=text` with the usual blanks, on the table at power-up. -/
def setDelay (text : List UInt8) : Option ProcessResult :=
  netprotProcessCommand netprotDefaultCommandList netprotObjects
    (ascii "SET CHANNEL DELAY=" ++ text) outstrLen

/-- `SET CHANNEL DELAY=010` returns zero, and `GET CHANNEL DELAY` then replies `+8`. -/
theorem not_storeReadsBack_leadingZero :
    (setDelay (ascii "010")).map (fun res => (res.ret,
        replyTo res.objects (getLine (channelObject channelAttrs) channelDelay)
          (List.replicate 100 1)))
      = some (0, some (ascii "+8\x0d\x0a")) ∧
    ¬ RepliesValue (ascii "010") (ascii "+8\x0d\x0a") := by
  refine ⟨by decide +kernel, ?_⟩
  rintro ⟨l, ⟨front, behind, hfront, hbehind, htext⟩, hreply⟩
  -- none of the three bytes is white space, so all of them are the value's
  have hplain : ∀ c ∈ ascii "010", ¬ isSpace c := Lib.forall_mem_of_all (by decide)
  have htext : ascii "010" = front ++ (l.text ++ behind) := htext
  obtain rfl : front = [] := List.eq_nil_iff_forall_not_mem.mpr fun c hc =>
    hplain c (by rw [htext]; simp [hc]) (hfront c hc)
  obtain rfl : behind = [] := List.eq_nil_iff_forall_not_mem.mpr fun c hc =>
    hplain c (by rw [htext]; simp [hc]) (hbehind c hc)
  rw [List.nil_append, List.append_nil] at htext
  have hl := htext.symm
  cases l with
  | integer sign digits hne hdigit =>
    cases sign with
    | none =>
      obtain rfl : digits = ascii "010" := hl
      have hten : ascii "+8\x0d\x0a"
          ≠ ascii "+" ++ decimalInt (Sign.none.apply (digitsValue 10 (ascii "010"))) ++ crlf := by
        decide +kernel
      exact hten hreply
    | plus => cases hl
    | minus => cases hl
  | hexadecimal digits hne hxdigit => cases hl
  | string opening closing body hquoted hne hbody =>
    obtain rfl : opening = 48 := (List.cons.inj hl).1
    exact absurd hquoted.1 (by decide)

end Datalogger
