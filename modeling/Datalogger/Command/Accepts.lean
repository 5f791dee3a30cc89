import Datalogger.Command.ReadBack

/-!
# What SET accepts

A line `SET O A=value` may have any white space in front of its names and around the
`=`; whatever it has, SET comes to the assignment with the value as it is stored
(`setRun_assigned`). From there an integer is always accepted, and a string if it is
shorter than 31 characters: the check in front of the `strcpy` asks for one byte more than
the string and its terminator take up. `setAccepts_iff` says for which values SET does
what it should: for all but the strings that just fill the field, and the decimal numbers
with a misleading zero, which are stored as other numbers.
-/

namespace Datalogger

open Lib (ascii isSpace)

/-- The type of attribute a value is for. -/
def Literal.type : Literal → ParamType
  | .string .. => .str
  | _ => .int

/-- An integer in range, or a string that fits in `strval` with its terminator. -/
def Literal.Fits : Literal → Prop
  | .string _ _ body _ _ _ => body.length + 1 ≤ 32
  | l => l.InRange

/-- A string that does not. -/
def Literal.TooLong : Literal → Prop
  | .string _ _ body _ _ _ => 32 < body.length + 1
  | _ => False

/-- A string that leaves no byte of `strval` unused. -/
def Literal.FillsField : Literal → Prop
  | .string _ _ body _ _ _ => body.length + 1 = 32
  | _ => False

/-- The attribute holds the value, all of it. -/
def NetprotParam.Holds (q : NetprotParam) : Value → Prop
  | .int v => q.type = .int ∧ q.intval.toInt = v
  | .str s => q.type = .str ∧ q.strval.text = s

/-- SET stores a value that fits, and refuses a string that is too long. -/
def SetAccepts (t : List NetprotObject) (inp : List UInt8) (i j : Nat) (l : Literal) : Prop :=
  ∀ outlen, ∃ res, netprotCmdSet t inp outlen = some res ∧
    (l.Fits → res.ret = 0 ∧ ∃ q, paramAt res.objects i j = some q ∧ q.Holds l.value) ∧
    (l.TooLong → res.ret = -1 ∧ res.objects = t)

/-! ## The assignment -/

section

variable {text name : List UInt8} {a : Assignment} {q : NetprotParam} (i j : Nat)

theorem setValue_int {v : Int} (hy : a.Yields text name (.int v)) (hro : q.flags &&& flagRo = 0)
    (htype : q.type = .int) :
    ∃ k : Int32, k.toInt = v ∧
      setValue i j q text a = some (.ok ⟨i, j, { q with intval := k }⟩) := by
  obtain ⟨-, -, -, hint, k, hk, hv⟩ := hy
  refine ⟨k, hv, ?_⟩
  unfold setValue
  rw [if_neg (fun hne => hne hro), hint, htype, hk]
  rfl

theorem setValue_str {s : List UInt8} (hy : a.Yields text name (.str s))
    (hro : q.flags &&& flagRo = 0) (htype : q.type = .str) (hlen : s.length + 1 < 32) :
    ∃ cs, cs.text = s ∧ setValue i j q text a = some (.ok ⟨i, j, { q with strval := cs }⟩) := by
  obtain ⟨-, -, -, hstr, off, hoff, rfl⟩ := hy
  refine ⟨Lib.CharArray.strcpy (a.memAt text off) (Nat.lt_of_succ_lt hlen), rfl, ?_⟩
  unfold setValue
  rw [if_neg (fun hne => hne hro), hstr, htype, hoff]
  simp only [Option.map_some, dif_pos hlen]

theorem setValue_str_tooLong {s : List UInt8} (hy : a.Yields text name (.str s))
    (hro : q.flags &&& flagRo = 0) (htype : q.type = .str) (hlen : ¬ s.length + 1 < 32) :
    setValue i j q text a = some (.error .attrTooLong) := by
  obtain ⟨-, -, -, hstr, off, hoff, rfl⟩ := hy
  unfold setValue
  rw [if_neg (fun hne => hne hro), hstr, htype, hoff]
  simp only [Option.map_some, dif_neg hlen]

end

/-! ## The two types -/

/-- What there is to know about a value for an integer attribute. -/
structure Literal.IsInt (l : Literal) (v w : Int) : Prop where
  stored : l.stored = .int v
  value : l.value = .int w
  fits : l.Fits ↔ l.InRange
  notLong : ¬ l.TooLong
  notFull : ¬ l.FillsField

theorem Literal.isInt_of_type {l : Literal} (h : l.type = .int) : ∃ v w, l.IsInt v w := by
  cases l with
  | integer sign digits => exact ⟨_, _, rfl, rfl, Iff.rfl, id, id⟩
  | hexadecimal digits => exact ⟨_, _, rfl, rfl, Iff.rfl, id, id⟩
  | string => cases h

/-- What there is to know about one for a string attribute. -/
structure Literal.IsStr (l : Literal) (body : List UInt8) : Prop where
  stored : l.stored = .str body
  value : l.value = .str body
  fits : l.Fits ↔ body.length + 1 ≤ 32
  tooLong : l.TooLong ↔ 32 < body.length + 1
  fillsField : l.FillsField ↔ body.length + 1 = 32
  noZero : ¬ l.LeadingZero

theorem Literal.isStr_of_type {l : Literal} (h : l.type = .str) : ∃ body, l.IsStr body := by
  cases l with
  | integer => cases h
  | hexadecimal => cases h
  | string opening closing body => exact ⟨body, rfl, rfl, Iff.rfl, Iff.rfl, Iff.rfl, id⟩

/-! ## The whole command -/

/-- A SET that stores should have stored the value, if it fits. -/
theorem setAccepts_stored {t : List NetprotObject} {i j : Nat} {o : NetprotObject}
    {q : NetprotParam} (ho : t[i]? = some o) (hq : o.attrs[j]? = some q) {inp : List UInt8}
    {nulls : List Nat} {p : NetprotParam}
    (hrun : setRun t inp = some ⟨nulls, .ok ⟨i, j, p⟩⟩) {l : Literal} (hlong : ¬ l.TooLong) :
    SetAccepts t inp i j l ↔ (l.Fits → p.Holds l.value) := by
  have hcell := paramAt_storeParam_self ho hq p
  constructor
  · intro haccepts hfits
    obtain ⟨res, hres, hstored, -⟩ := haccepts 0
    rw [netprotCmdSet_eq hrun] at hres
    obtain rfl := Option.some.inj hres
    obtain ⟨-, p', hp', hholds⟩ := hstored hfits
    obtain rfl := Option.some.inj (hcell.symm.trans hp')
    exact hholds
  · intro hholds outlen
    exact ⟨_, netprotCmdSet_eq hrun outlen, fun hfits => ⟨rfl, p, hcell, hholds hfits⟩,
      fun h => absurd h hlong⟩

/-- One that refuses should not have been given a value that fits. -/
theorem setAccepts_refused {t : List NetprotObject} {i j : Nat} {inp : List UInt8}
    {nulls : List Nat} {e : SetError} (hrun : setRun t inp = some ⟨nulls, .error e⟩) {l : Literal} :
    SetAccepts t inp i j l ↔ ¬ l.Fits := by
  have hfails : (-1 : Int32) ≠ 0 := by decide
  constructor
  · intro haccepts hfits
    obtain ⟨res, hres, hstored, -⟩ := haccepts 0
    rw [netprotCmdSet_eq hrun] at hres
    obtain rfl := Option.some.inj hres
    exact hfails (hstored hfits).1
  · intro hnot outlen
    exact ⟨_, netprotCmdSet_eq hrun outlen, fun hfits => absurd hfits hnot, fun _ => ⟨rfl, rfl⟩⟩

/-- **What SET accepts, exactly**: every value that fits, and no string that does not, but
for the strings that fill the field and the numbers with a misleading zero. -/
theorem setAccepts_iff {t : List NetprotObject} (h : TableAddressable t) {i j : Nat}
    {o : NetprotObject} {q : NetprotParam} (ho : t[i]? = some o) (hone : o.nameText ≠ [])
    (hq : o.attrs[j]? = some q) (hro : q.flags &&& flagRo = 0) (x : AssignmentText)
    (hname : x.name = q.nameText) (htype : x.literal.type = q.type) {sp sp' : List UInt8}
    (hsp : ∀ c ∈ sp, isSpace c) (hsp' : ∀ c ∈ sp', isSpace c) :
    SetAccepts t (sp ++ (o.nameText ++ (sp' ++ x.text))) i j x.literal ↔
      ¬ x.literal.FillsField ∧ ¬ (x.literal.InRange ∧ x.literal.LeadingZero) := by
  obtain ⟨a, nulls, hyields, hrun⟩ := setRun_assigned h ho hone hq x hname hsp hsp'
  cases hqtype : q.type with
  | int =>
    obtain ⟨v, w, hl⟩ := Literal.isInt_of_type (htype.trans hqtype)
    rw [hl.stored] at hyields
    obtain ⟨k, rfl, hset⟩ := setValue_int i j hyields hro hqtype
    rw [hset, Option.map_some] at hrun
    -- the attribute holds the number that was written if the two are the same
    have hexact := x.literal.stored_eq_value_iff.trans x.literal.exact_iff
    rw [hl.stored, hl.value, Value.int.injEq] at hexact
    have hholds : NetprotParam.Holds { q with intval := k } x.literal.value ↔ k.toInt = w := by
      rw [hl.value]
      exact ⟨And.right, fun heq => ⟨hqtype, heq⟩⟩
    rw [setAccepts_stored ho hq hrun hl.notLong, hl.fits, hholds, hexact]
    constructor
    · intro hstored
      exact ⟨hl.notFull, fun hzero => (hstored hzero.1).2 hzero.2⟩
    · intro hnot hrange
      exact ⟨hrange, fun hzero => hnot.2 ⟨hrange, hzero⟩⟩
  | str =>
    obtain ⟨body, hl⟩ := Literal.isStr_of_type (htype.trans hqtype)
    rw [hl.stored] at hyields
    rw [hl.fillsField]
    have hzero : ¬ (x.literal.InRange ∧ x.literal.LeadingZero) := fun hzero => hl.noZero hzero.2
    by_cases hlen : body.length + 1 < 32
    · obtain ⟨cs, hcs, hset⟩ := setValue_str i j hyields hro hqtype hlen
      rw [hset, Option.map_some] at hrun
      rw [setAccepts_stored ho hq hrun (by rw [hl.tooLong]; omega), hl.value]
      exact iff_of_true (fun _ => ⟨hqtype, hcs⟩) ⟨by omega, hzero⟩
    · rw [setValue_str_tooLong i j hyields hro hqtype hlen, Option.map_some] at hrun
      rw [setAccepts_refused hrun, hl.fits]
      constructor
      · intro hnot
        exact ⟨by omega, hzero⟩
      · intro hnot
        have hfull := hnot.1
        omega

/-- A number behind white space of all sorts. -/
def delayAssignment : AssignmentText :=
  { name := ascii "DELAY", before := [9, 32], after := [13]
    literal := .integer .minus (ascii "42") (by decide) (Lib.forall_mem_of_all (by decide))
    nonempty := by decide, alpha := Lib.forall_mem_of_all (by decide)
    before_space := Lib.forall_mem_of_all (by decide)
    after_space := Lib.forall_mem_of_all (by decide) }

/-- It is accepted for `CHANNEL DELAY`. -/
theorem setAccepts_delay :
    SetAccepts netprotObjects
      ([32] ++ ((channelObject channelAttrs).nameText ++ ([32, 32] ++ delayAssignment.text))) 0 1
      delayAssignment.literal :=
  (setAccepts_iff netprotObjects_addressable rfl (channelObject_named channelAttrs) rfl rfl
    delayAssignment rfl rfl (Lib.forall_mem_of_all (by decide))
    (Lib.forall_mem_of_all (by decide))).mpr
      ⟨id, fun hzero => absurd hzero.2.1 (by decide)⟩

/-- A string of 31 characters. -/
def fullName : AssignmentText :=
  { name := ascii "NAME", before := [], after := []
    literal := .string 39 39 (List.replicate 31 65) ⟨by decide, by decide⟩ (List.cons_ne_nil _ _)
      (Lib.forall_mem_of_all (by decide))
    nonempty := by decide, alpha := Lib.forall_mem_of_all (by decide)
    before_space := isSpace_of_mem_nil, after_space := isSpace_of_mem_nil }

/-- It would fit in `CHANNEL NAME`, and is refused. -/
theorem not_setAccepts_full :
    ¬ SetAccepts netprotObjects
      ([32] ++ ((channelObject channelAttrs).nameText ++ ([32] ++ fullName.text))) 0 0
      fullName.literal := by
  have hret : (netprotCmdSet netprotObjects
      ([32] ++ ((channelObject channelAttrs).nameText ++ ([32] ++ fullName.text))) 100).map
        HandlerResult.ret = some (-1) := by decide +kernel
  have hfits : fullName.literal.Fits := by
    show (List.replicate 31 (65 : UInt8)).length + 1 ≤ 32
    decide
  intro haccepts
  obtain ⟨res, hres, hstored, -⟩ := haccepts 100
  rw [hres, Option.map_some, (hstored hfits).1] at hret
  exact absurd hret (by decide)

end Datalogger
