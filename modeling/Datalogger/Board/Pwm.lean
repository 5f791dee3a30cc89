import Datalogger.Command.Accepts

/-!
# The PWM registers

Behind each chunk the PWM board gives FREQ and WIDTH of its object PWM to `pwm_set`, which
makes them the modulus of the timer and the value of its channel. SET stores every `int` in
the two, and `pwm_set` checks neither. `pwm_programmed_iff` says for which pairs the
arithmetic is defined and its results fit the timer.

Mirroring notes:
- The arithmetic is that of `int`: a division by zero and a result outside `int` are
  undefined.
- The registers hold what is assigned to them, before the timer takes the low 16 bits.
- START of this board is left out: it names a variable that only the other board declares.
-/

namespace Datalogger

open Lib (CharArray ascii checkedDiv checkedMul checkedSub decimal)

/-! ## `pwm.c` -/

/-- `BUS_CLOCK`. -/
def busClock : Int32 := 50000000

/-- The two registers `pwm_set` writes. -/
structure PwmRegs where
  ftm0Mod : Int32
  pwmChanV : Int32
  deriving DecidableEq

/-- `pwm_set`. -/
def pwmSet (freq width : Int32) : Option PwmRegs := do
  let ftm0Mod ← checkedSub (← checkedDiv busClock (← checkedMul 2 freq)) 1
  let pwmChanV ← checkedDiv width (← checkedDiv 1000000000 (← checkedDiv busClock 2))
  return { ftm0Mod := ftm0Mod, pwmChanV := pwmChanV }

/-- What the registers should hold: the period and the pulse in ticks of the timer, the
period in 16 bits and the pulse no longer than it. -/
structure PwmRegs.Programmed (r : PwmRegs) (freq width : Int32) : Prop where
  period : r.ftm0Mod.toInt = Int.tdiv 25000000 freq.toInt - 1
  period_nonneg : 0 ≤ r.ftm0Mod.toInt
  period_le : r.ftm0Mod.toInt ≤ 65535
  pulse : r.pwmChanV.toInt = width.toInt.tdiv 40
  pulse_nonneg : 0 ≤ r.pwmChanV.toInt
  pulse_le : r.pwmChanV.toInt ≤ r.ftm0Mod.toInt

/-- The modulus: the doubled frequency has to fit in `int` and to be no zero. -/
theorem modulus_eq_some_iff {freq m : Int32} :
    ((checkedMul 2 freq).bind fun f => (checkedDiv busClock f).bind fun q => checkedSub q 1)
      = some m ↔
      (-1073741824 ≤ freq.toInt ∧ freq.toInt < 1073741824 ∧ freq.toInt ≠ 0) ∧
        m.toInt = Int.tdiv 25000000 freq.toInt - 1 := by
  have htwo : (2 : Int32).toInt = 2 := by decide
  have hone : (1 : Int32).toInt = 1 := by decide
  have hclock : busClock.toInt = 2 * 25000000 := by decide
  have hquot : Int.tdiv (2 * 25000000) (2 * freq.toInt) = Int.tdiv 25000000 freq.toInt :=
    Int.mul_tdiv_mul_of_pos 25000000 freq.toInt (by decide)
  simp only [Option.bind_eq_some_iff, Lib.checkedMul_eq_some_iff, Lib.checkedDiv_eq_some_iff,
    Lib.checkedSub_eq_some_iff]
  constructor
  · intro h
    obtain ⟨f, hf, q, ⟨hne, hq⟩, hm⟩ := h
    have hbounds := Lib.int32_bounds f
    rw [htwo] at hf
    rw [hclock, hf, hquot] at hq
    rw [hq, hone] at hm
    refine ⟨⟨?_, ?_, ?_⟩, hm⟩ <;> omega
  · intro h
    obtain ⟨⟨hle, hlt, hne⟩, hm⟩ := h
    have hbounds := Lib.int32_bounds m
    obtain ⟨f, hf⟩ := Lib.exists_int32 (v := 2 * freq.toInt) (by omega) (by omega)
    have habs := Int.natAbs_tdiv_le_natAbs 25000000 freq.toInt
    obtain ⟨q, hq⟩ := Lib.exists_int32 (v := Int.tdiv 25000000 freq.toInt) (by omega) (by omega)
    refine ⟨f, by rw [hf, htwo], q, ⟨by omega, ?_⟩, by rw [hm, hq, hone]⟩
    rw [hq, hclock, hf, hquot]

/-- The value of the channel: a tick is 40 ns. -/
theorem channelValue_eq_some_iff {width v : Int32} :
    ((checkedDiv busClock 2).bind fun hz => (checkedDiv 1000000000 hz).bind fun ns =>
        checkedDiv width ns) = some v ↔ v.toInt = width.toInt.tdiv 40 := by
  have htick : ((checkedDiv busClock 2).bind fun hz => checkedDiv 1000000000 hz) = some 40 := by
    decide
  rw [← Option.bind_assoc, htick, Option.bind_some, Lib.checkedDiv_eq_some_iff]
  have hforty : (40 : Int32).toInt = 40 := by decide
  rw [hforty]
  exact ⟨And.right, fun hv => ⟨by decide, hv⟩⟩

/-- **What `pwm_set` writes**, if it is defined. -/
theorem pwmSet_eq_some_iff {freq width : Int32} {r : PwmRegs} :
    pwmSet freq width = some r ↔
      ((-1073741824 ≤ freq.toInt ∧ freq.toInt < 1073741824 ∧ freq.toInt ≠ 0) ∧
        r.ftm0Mod.toInt = Int.tdiv 25000000 freq.toInt - 1) ∧
        r.pwmChanV.toInt = width.toInt.tdiv 40 := by
  rw [← modulus_eq_some_iff, ← channelValue_eq_some_iff]
  unfold pwmSet
  simp only [Option.bind_eq_bind, Option.pure_def, Option.bind_eq_some_iff, Option.some.injEq]
  constructor
  · rintro ⟨f, hf, q, hq, m, hm, hz, hhz, ns, hns, v, hv, rfl⟩
    exact ⟨⟨f, hf, q, hq, hm⟩, hz, hhz, ns, hns, hv⟩
  · rintro ⟨⟨f, hf, q, hq, hm⟩, hz, hhz, ns, hns, hv⟩
    exact ⟨f, hf, q, hq, r.ftm0Mod, hm, hz, hhz, ns, hns, r.pwmChanV, hv, rfl⟩

/-- The widths whose pulse lies between zero and a period of `k` ticks. -/
theorem pulse_between_iff {w k : Int} (hk : 0 ≤ k) :
    0 ≤ w.tdiv 40 ∧ w.tdiv 40 ≤ k ↔ -40 < w ∧ w < 40 * (k + 1) := by
  rcases Int.le_total 0 w with hpos | hneg
  · rw [Int.tdiv_eq_ediv_of_nonneg hpos]
    omega
  · have hflip : w.tdiv 40 = -(-w / 40) := by
      rw [← Int.tdiv_eq_ediv_of_nonneg (by omega), Int.neg_tdiv, Int.neg_neg]
    rw [hflip]
    omega

/-- **The pairs that fit the timer.** -/
theorem pwmSet_programmed_iff (freq width : Int32) :
    (∃ r, pwmSet freq width = some r ∧ r.Programmed freq width) ↔
      (382 ≤ freq.toInt ∧ freq.toInt ≤ 25000000) ∧
        -40 < width.toInt ∧ width.toInt < 40 * (25000000 / freq.toInt) := by
  -- the period of a positive frequency
  have hperiod : 0 < freq.toInt → Int.tdiv 25000000 freq.toInt = 25000000 / freq.toInt ∧
      ∀ k, k ≤ 25000000 / freq.toInt ↔ k * freq.toInt ≤ 25000000 := fun hpos =>
    ⟨Int.tdiv_eq_ediv_of_nonneg (by decide), fun k => Int.le_ediv_iff_mul_le hpos⟩
  constructor
  · intro h
    obtain ⟨r, hr, hp⟩ := h
    obtain ⟨⟨⟨-, -, hne⟩, -⟩, -⟩ := pwmSet_eq_some_iff.mp hr
    have hmod := hp.period
    have hnonneg := hp.period_nonneg
    have hle := hp.period_le
    have hpos : 0 < freq.toInt := by
      refine Int.lt_of_not_ge fun hneg => ?_
      have hquot := Int.tdiv_nonpos_of_nonneg_of_nonpos (by decide : (0 : Int) ≤ 25000000) hneg
      omega
    obtain ⟨hquot, hdiv⟩ := hperiod hpos
    have hone := hdiv 1
    have hmax := hdiv 65537
    rw [hquot] at hmod
    have hpulse := (pulse_between_iff (w := width.toInt) hnonneg).mp
    rw [← hp.pulse] at hpulse
    have hwidth := hpulse ⟨hp.pulse_nonneg, hp.pulse_le⟩
    refine ⟨by omega, by omega, by omega⟩
  · intro h
    obtain ⟨⟨hlow, hhigh⟩, hwidth⟩ := h
    obtain ⟨hquot, hdiv⟩ := hperiod (by omega)
    have hone := hdiv 1
    have hmax := hdiv 65537
    obtain ⟨m, hm⟩ := Lib.exists_int32 (v := 25000000 / freq.toInt - 1) (by omega) (by omega)
    have hnonneg : 0 ≤ 25000000 / freq.toInt - 1 := by omega
    obtain ⟨hpulse₀, hpulse₁⟩ := (pulse_between_iff (w := width.toInt) hnonneg).mpr (by omega)
    obtain ⟨v, hv⟩ := Lib.exists_int32 (v := width.toInt.tdiv 40) (by omega) (by omega)
    have hm' : m.toInt = Int.tdiv 25000000 freq.toInt - 1 := by rw [hm, hquot]
    refine ⟨⟨m, v⟩, pwmSet_eq_some_iff.mpr ⟨⟨by omega, hm'⟩, hv⟩, hm', ?_, ?_, hv, ?_, ?_⟩
    · show 0 ≤ m.toInt
      omega
    · show m.toInt ≤ 65535
      omega
    · show 0 ≤ v.toInt
      omega
    · show v.toInt ≤ m.toInt
      omega

/-- The values `pwm_init` starts with. -/
example : pwmSet 100000 3000 = some { ftm0Mod := 249, pwmChanV := 75 } := by decide

/-! ## The table of the PWM board -/

/-- `CONFIG_PWM_DELAY`. -/
def configPwmDelay : Int32 := 1000

/-- `PWM FREQ`: without flags and string, as CHANNEL DELAY. -/
def pwmFreq : NetprotParam :=
  { channelDelay with
    name := ⟨ascii "FREQ", by decide, by decide⟩
    intval := 100000
    defaultIntval := 100000 }

/-- `PWM WIDTH`. -/
def pwmWidth : NetprotParam :=
  { channelDelay with
    name := ⟨ascii "WIDTH", by decide, by decide⟩
    intval := 3000
    defaultIntval := 3000 }

/-- `PWM DELAY`. -/
def pwmDelay : NetprotParam :=
  { channelDelay with
    intval := configPwmDelay
    defaultIntval := configPwmDelay }

/-- `pwm_attrs`. -/
def pwmAttrs : List NetprotParam := [pwmFreq, pwmWidth, pwmDelay, paramTerminator]

/-- `BOARD TYPE` of this board. -/
def pwmBoardType : NetprotParam :=
  { boardType with
    strval := ⟨ascii "PWM", by decide, by decide⟩
    defaultStrval := ⟨ascii "PWM", by decide, by decide⟩ }

/-- The object `PWM` with these attributes. -/
def pwmObject (attrs : List NetprotParam) : NetprotObject :=
  { name := ⟨ascii "PWM", by decide, by decide⟩, attrs := attrs }

/-- `netprot_objects` with these attributes of `PWM`. -/
def pwmTable (attrs : List NetprotParam) : List NetprotObject :=
  [channelObject channelAttrs, boardObject [pwmBoardType, paramTerminator], pwmObject attrs,
    objectTerminator]

/-- `netprot_objects` as it is at power-up. -/
def pwmObjects : List NetprotObject := pwmTable pwmAttrs

theorem pwmObject_named (ps : List NetprotParam) : (pwmObject ps).nameText ≠ [] := by
  show ascii "PWM" ≠ []
  decide

/-- The names of the table can be told apart. -/
theorem pwmObjects_addressable : TableAddressable pwmObjects where
  objects := ⟨[ascii "CHANNEL", ascii "BOARD", ascii "PWM"], rfl, words_of_all (by decide), by decide⟩
  attrs := by
    intro o ho hne
    simp only [pwmObjects, pwmTable, List.mem_cons, List.not_mem_nil, or_false] at ho
    rcases ho with rfl | rfl | rfl | rfl
    · exact ⟨[ascii "NAME", ascii "DELAY"], rfl, words_of_all (by decide), by decide⟩
    · exact ⟨[ascii "TYPE"], rfl, words_of_all (by decide), by decide⟩
    · exact ⟨[ascii "FREQ", ascii "WIDTH", ascii "DELAY"], rfl, words_of_all (by decide), by decide⟩
    · exact absurd rfl hne

theorem pwmObjects_terminated : TableTerminated pwmObjects := pwmObjects_addressable.terminated

/-! ## SET, and the update behind a chunk -/

/-- `/* Update PWM if PWM board */`. -/
def updatePwm (objects : List NetprotObject) : Option PwmRegs :=
  match netprotFindObjectAttr objects (ascii "PWM") (ascii "WIDTH"),
    netprotFindObjectAttr objects (ascii "PWM") (ascii "FREQ") with
  | some (.ok width), some (.ok freq) => pwmSet freq.intval width.intval
  | _, _ => none

/-- The SET commands of a chunk, one after the other. -/
def setCommands : List NetprotObject → List (List UInt8) → Option (List NetprotObject)
  | objects, [] => some objects
  | objects, inp :: inps =>
    (netprotCmdSet objects inp outstrLen).bind fun res => setCommands res.objects inps

/-- SET has left these values in FREQ and WIDTH. -/
def PwmSets (freq width : Int32) (t : List NetprotObject) : Prop :=
  ∃ inps p q, setCommands pwmObjects inps = some t ∧
    paramAt t 2 0 = some p ∧ p.intval = freq ∧ paramAt t 2 1 = some q ∧ q.intval = width

/-- Whenever SET has left these values in FREQ and WIDTH, the update is defined and leaves the
registers as they should be. -/
def PwmProgrammed (freq width : Int32) : Prop :=
  ∀ t, PwmSets freq width t → ∃ r, updatePwm t = some r ∧ r.Programmed freq width

theorem setCommands_sameTable {u : List NetprotObject} (hu : TableTerminated u) :
    ∀ (inps : List (List UInt8)) {s t : List NetprotObject}, SameTable s u →
      setCommands s inps = some t → SameTable t u := by
  intro inps
  induction inps with
  | nil =>
    intro s t hs hrun
    obtain rfl := Option.some.inj hrun
    exact hs
  | cons inp inps ih =>
    intro s t hs hrun
    rw [setCommands] at hrun
    obtain ⟨res, hres, hrest⟩ := Option.bind_eq_some_iff.mp hrun
    obtain ⟨r, hr, hsafe⟩ := setRun_safe (hu.of_sameTable hs) inp
    rw [netprotCmdSet_eq hr] at hres
    obtain rfl := Option.some.inj hres
    exact ih (hsafe.sameTable.trans hs) hrest

/-- The update takes the two values of the table. -/
theorem updatePwm_eq {t : List NetprotObject} (h : SameTable t pwmObjects)
    {freq width : NetprotParam}
    (hfreq : paramAt t 2 0 = some freq) (hwidth : paramAt t 2 1 = some width) :
    updatePwm t = pwmSet freq.intval width.intval := by
  have haddr := pwmObjects_addressable.of_sameTable h
  have hfind : ∀ {j : Nat} {p q : NetprotParam}, pwmAttrs[j]? = some p → p.nameText ≠ [] →
      paramAt t 2 j = some q →
      netprotFindObjectAttr t (ascii "PWM") p.nameText = some (.ok q) := by
    intro j p q hp hne hq
    obtain ⟨o, q', ho, hq', hcell, honame, hqname⟩ := h.cell (i := 2) rfl hp
    obtain rfl := Option.some.inj (hcell.symm.trans hq)
    have hobject : o.nameText = ascii "PWM" := honame
    rw [← hobject, ← hqname]
    exact netprotFindObjectAttr_of_addressable haddr ho (by rw [hobject]; decide) hq'
      (by rw [hqname]; exact hne)
  have hfreq' := hfind (j := 0) (p := pwmFreq) rfl (by decide) hfreq
  have hwidth' := hfind (j := 1) (p := pwmWidth) rfl (by decide) hwidth
  unfold updatePwm
  rw [show ascii "WIDTH" = pwmWidth.nameText from rfl, show ascii "FREQ" = pwmFreq.nameText from rfl,
    hwidth', hfreq']

/-! ## Any value -/

/-- An `int` in decimal, as a value of the grammar. -/
def intLiteral (v : Int32) : Literal :=
  .integer (if v.toInt < 0 then .minus else .none) (decimal v.toInt.natAbs) (Lib.decimal_ne_nil _)
    fun c hc => by simpa [Lib.isDigit] using Lib.digit_of_mem_decimal hc

/-- SET stores it as it is. -/
theorem stored_intLiteral (v : Int32) : (intLiteral v).stored = .int v.toInt := by
  have hv := Lib.int32_bounds v
  have hvalue : Sign.apply v.toInt.natAbs (if v.toInt < 0 then .minus else .none) = v.toInt := by
    by_cases hneg : v.toInt < 0
    · rw [if_pos hneg]
      show -(v.toInt.natAbs : Int) = v.toInt
      omega
    · rw [if_neg hneg]
      show (v.toInt.natAbs : Int) = v.toInt
      omega
  have hsays : (intLiteral v).value = .int v.toInt := by
    show Value.int (Sign.apply (Lib.digitsValue 10 (decimal v.toInt.natAbs)) _) = _
    rw [Lib.digitsValue_decimal, hvalue]
  have hexact : (intLiteral v).Exact := by
    show Lib.InIntRange (Sign.apply (Lib.digitsValue 10 (decimal v.toInt.natAbs)) _) ∧
      ((decimal v.toInt.natAbs).head? ≠ some 48 ∨ Lib.digitsValue 10 (decimal v.toInt.natAbs) < 8)
    rw [Lib.digitsValue_decimal, hvalue]
    refine ⟨⟨hv.1, by omega⟩, ?_⟩
    rcases Nat.eq_zero_or_pos v.toInt.natAbs with hzero | hpos
    · exact Or.inr (by omega)
    · exact Or.inl (Lib.head?_decimal hpos)
  rw [(intLiteral v).stored_eq_value_iff.mpr hexact, hsays]

/-- **SET stores any `int`** in an integer attribute that is not read-only. -/
theorem netprotCmdSet_int {t : List NetprotObject} (h : TableAddressable t) {i j : Nat}
    {o : NetprotObject} {q : NetprotParam} (ho : t[i]? = some o) (hone : o.nameText ≠ [])
    (hq : o.attrs[j]? = some q) (hqne : q.nameText ≠ []) (hro : q.flags &&& flagRo = 0)
    (htype : q.type = .int) (v : Int32) (outlen : Nat) :
    ∃ inp res, netprotCmdSet t inp outlen = some res ∧ res.ret = 0 ∧
      res.objects = storeParam t i j { q with intval := v } := by
  have hword := (h.attrs o (List.mem_of_getElem? ho) hone).word (List.mem_of_getElem? hq) hqne
  let x : AssignmentText :=
    { name := q.nameText, before := [], after := [], literal := intLiteral v, nonempty := hqne
      alpha := hword, before_space := isSpace_of_mem_nil, after_space := isSpace_of_mem_nil }
  have hspace : ∀ c ∈ [(32 : UInt8)], Lib.isSpace c := Lib.forall_mem_of_all (by decide)
  obtain ⟨a, nulls, hyields, hrun⟩ := setRun_assigned h ho hone hq x rfl hspace hspace
  rw [show x.literal = intLiteral v from rfl, stored_intLiteral] at hyields
  obtain ⟨k, hk, hset⟩ := setValue_int i j hyields hro htype
  obtain rfl := Int32.toInt.inj hk
  rw [hset, Option.map_some] at hrun
  exact ⟨_, _, netprotCmdSet_eq hrun outlen, rfl, rfl⟩

/-- SET can leave any two values. -/
theorem pwmSets_exists (freq width : Int32) : ∃ t, PwmSets freq width t := by
  have hfreq := netprotCmdSet_int (i := 2) (j := 0) pwmObjects_addressable rfl
    (pwmObject_named pwmAttrs) rfl (by decide) rfl rfl freq outstrLen
  obtain ⟨inp, res, hres, -, hobjects⟩ := hfreq
  have hmid : res.objects
      = pwmTable [{ pwmFreq with intval := freq }, pwmWidth, pwmDelay, paramTerminator] := hobjects
  have hsame : SameTable
      (pwmTable [{ pwmFreq with intval := freq }, pwmWidth, pwmDelay,
        paramTerminator]) pwmObjects :=
    rfl
  have hwidth := netprotCmdSet_int (i := 2) (j := 1) (pwmObjects_addressable.of_sameTable hsame) rfl
    (pwmObject_named _) rfl (by decide) rfl rfl width outstrLen
  obtain ⟨inp', res', hres', -, hobjects'⟩ := hwidth
  refine ⟨res'.objects, [inp, inp'], { pwmFreq with intval := freq },
    { pwmWidth with intval := width }, ?_, ?_, rfl, ?_, rfl⟩
  · rw [setCommands, hres, Option.bind_some, setCommands, hmid, hres', Option.bind_some,
      setCommands]
  · rw [hobjects']
    rfl
  · rw [hobjects']
    rfl

/-- **The pairs `pwm_set` programs**, of all that SET accepts: a frequency from 382 Hz to
25 MHz, and a width that is no longer than its period and no negative number of ticks. -/
theorem pwm_programmed_iff (freq width : Int32) :
    PwmProgrammed freq width ↔
      (382 ≤ freq.toInt ∧ freq.toInt ≤ 25000000) ∧
        -40 < width.toInt ∧ width.toInt < 40 * (25000000 / freq.toInt) := by
  rw [← pwmSet_programmed_iff]
  have hupdate : ∀ t, PwmSets freq width t → updatePwm t = pwmSet freq width := by
    intro t hsets
    obtain ⟨inps, p, q, hrun, hp, rfl, hq, rfl⟩ := hsets
    exact updatePwm_eq (setCommands_sameTable pwmObjects_terminated inps rfl hrun) hp hq
  constructor
  · intro h
    obtain ⟨t, ht⟩ := pwmSets_exists freq width
    rw [← hupdate t ht]
    exact h t ht
  · intro h t ht
    rw [hupdate t ht]
    exact h

/-- `SET PWM FREQ=0` is accepted, and the update then divides by zero. -/
theorem not_pwm_programmed : ¬ ∀ freq width, PwmProgrammed freq width := by
  intro hall
  have hset : setCommands pwmObjects [ascii " PWM FREQ=0"]
      = some (pwmTable [{ pwmFreq with intval := 0 }, pwmWidth, pwmDelay, paramTerminator]) := by
    decide +kernel
  obtain ⟨r, hr, -⟩ := hall 0 3000 _ ⟨_, _, _, hset, rfl, rfl, rfl, rfl⟩
  have hnone : updatePwm
      (pwmTable [{ pwmFreq with intval := 0 }, pwmWidth, pwmDelay, paramTerminator]) = none := by
    decide +kernel
  rw [hnone] at hr
  cases hr

end Datalogger
