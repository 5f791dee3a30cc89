import Mathlib.Data.List.Basic
import Datalogger.Lib.Numerals

/-!
# `fnet_inet_ptos`

The stack's parser for dotted-quad addresses. `*tp` is the octet that is being read and
`octets` counts the octets begun; a digit behind a zero is refused, so an address is
written in one way only: the parser reads what `dottedQuad` writes
(`fnetInetPtonIp4_dottedQuad`), and nothing else (`fnetInetPtonIp4_eq_some`).

Mirroring notes:
- The stack is configured without IPv6, so an address family is `AF_INET` or nothing and
  `sa_data` has four bytes.
-/

namespace Datalogger

open Lib (decimal)

/-- `struct sockaddr`. -/
structure Sockaddr where
  saFamily : UInt16
  saPort : UInt16
  saData : List UInt8
  deriving DecidableEq, Repr

/-- `AF_INET`. -/
def afInet : UInt16 := 1

/-- The variables of `fnet_inet_pton_ip4`: `tmp` up to `tp`, and `*tp`. -/
structure Pton where
  isDigit : Bool
  octets : Nat
  done : List UInt8
  tp : Nat
  deriving DecidableEq, Repr

/-- The variables in front of the loop. -/
def ptonInit : Pton := { isDigit := false, octets := 0, done := [], tp := 0 }

/-- One turn of the loop; `none` is `goto ERROR`. -/
def Pton.step (s : Pton) (ch : UInt8) : Option Pton :=
  if Lib.isDigit ch then
    let val := s.tp * 10 + (ch.toNat - 48)
    if s.isDigit ∧ s.tp = 0 then none
    else if 255 < val then none
    else if s.isDigit then some { s with tp := val }
    else if 4 < s.octets + 1 then none
    else some { s with tp := val, octets := s.octets + 1, isDigit := true }
  else if ch = 46 ∧ s.isDigit then
    if s.octets = 4 then none
    else some { s with done := s.done ++ [UInt8.ofNat s.tp], tp := 0, isDigit := false }
  else none

/-- `while ((ch = *str++) != '\0')`. -/
def Pton.loop : Pton → List UInt8 → Option Pton
  | s, [] => some s
  | s, ch :: str => (s.step ch).bind fun s => s.loop str

/-- `fnet_inet_pton_ip4`: the bytes copied to `*addr`. -/
def fnetInetPtonIp4 (str : List UInt8) : Option (List UInt8) :=
  match ptonInit.loop str with
  | none => none
  | some s => if s.octets < 4 then none else some (s.done ++ [UInt8.ofNat s.tp])

/-- `fnet_inet_ptos`: the address it leaves, and nothing on an error. -/
def fnetInetPtos (str : List UInt8) (addr : Sockaddr) : Option Sockaddr :=
  (fnetInetPtonIp4 str).map fun data => { addr with saFamily := afInet, saData := data }

/-! ## Dotted quads -/

/-- The octets in front of the last, each with its dot. -/
def dotted (octets : List UInt8) : List UInt8 := octets.flatMap fun a => decimal a.toNat ++ [46]

/-- `a.b.c.d`. -/
def dottedQuad (a b c d : UInt8) : List UInt8 := dotted [a, b, c] ++ decimal d.toNat

/-- A digit is the last digit of the numbers it ends. -/
theorem decimal_snoc {n : Nat} {ch : UInt8} (hn : n ≠ 0) (h : Lib.isDigit ch) :
    decimal (n * 10 + (ch.toNat - 48)) = decimal n ++ [ch] := by
  have hall : ∀ m ∈ List.range 256, Lib.isDigit (UInt8.ofNat m) →
      (UInt8.ofNat m).toNat - 48 < 10 ∧
        ((UInt8.ofNat m).toNat - 48).digitChar.toNat.toUInt8 = UInt8.ofNat m := by decide +kernel
  obtain ⟨hlt, hchar⟩ := Lib.forall_byte
    (P := fun c => Lib.isDigit c → c.toNat - 48 < 10 ∧ (c.toNat - 48).digitChar.toNat.toUInt8 = c)
    hall ch h
  have hdiv : (n * 10 + (ch.toNat - 48)) / 10 = n := by omega
  have hmod : (n * 10 + (ch.toNat - 48)) % 10 = ch.toNat - 48 := by omega
  rw [Lib.decimal_eq, if_neg (by omega), hdiv, hmod, hchar]

/-- A single digit. -/
theorem decimal_digit {ch : UInt8} (h : Lib.isDigit ch) : decimal (ch.toNat - 48) = [ch] := by
  have hall : ∀ m ∈ List.range 256, Lib.isDigit (UInt8.ofNat m) →
      decimal ((UInt8.ofNat m).toNat - 48) = [UInt8.ofNat m] := by decide +kernel
  exact Lib.forall_byte (P := fun c => Lib.isDigit c → decimal (c.toNat - 48) = [c]) hall ch h

/-! ## What the loop has read -/

/-- The text read so far is what the variables say. -/
structure PtonInv (s : Pton) (text : List UInt8) : Prop where
  text : text = dotted s.done ++ if s.isDigit then decimal s.tp else []
  octets : s.octets = s.done.length + if s.isDigit then 1 else 0
  fresh : s.isDigit = false → s.tp = 0
  octet : s.tp ≤ 255
  dots : s.done.length ≤ 3

theorem ptonInit_inv : PtonInv ptonInit [] := ⟨rfl, rfl, fun _ => rfl, by decide, by decide⟩

theorem dotted_snoc (octets : List UInt8) (a : UInt8) :
    dotted (octets ++ [a]) = dotted octets ++ (decimal a.toNat ++ [46]) := by
  unfold dotted
  rw [List.flatMap_append, List.flatMap_singleton]

theorem toNat_octet {n : Nat} (h : n ≤ 255) : (UInt8.ofNat n).toNat = n := by
  rw [UInt8.toNat_ofNat']
  omega

/-- What one turn does when it does not fail: it goes on with an octet, begins one or ends
one. -/
inductive PtonTurn (s : Pton) (ch : UInt8) : Pton → Prop
  | digit (hch : Lib.isDigit ch) (hin : s.isDigit = true) (htp : s.tp ≠ 0)
      (hval : s.tp * 10 + (ch.toNat - 48) ≤ 255) :
      PtonTurn s ch { s with tp := s.tp * 10 + (ch.toNat - 48) }
  | octet (hch : Lib.isDigit ch) (hin : s.isDigit = false)
      (hval : s.tp * 10 + (ch.toNat - 48) ≤ 255) (hoctets : s.octets < 4) :
      PtonTurn s ch
        { s with tp := s.tp * 10 + (ch.toNat - 48), octets := s.octets + 1, isDigit := true }
  | dot (hch : ch = 46) (hin : s.isDigit = true) (hoctets : s.octets ≠ 4) :
      PtonTurn s ch { s with done := s.done ++ [UInt8.ofNat s.tp], tp := 0, isDigit := false }

theorem Pton.step_eq_some_iff {s s' : Pton} {ch : UInt8} :
    s.step ch = some s' ↔ PtonTurn s ch s' := by
  constructor
  · intro h
    unfold Pton.step at h
    split at h
    next hch =>
      simp only at h
      split at h
      next => cases h
      next hzero =>
        split at h
        next => cases h
        next hval =>
          split at h
          next hin =>
            obtain rfl := Option.some.inj h
            exact .digit hch hin (fun htp => hzero ⟨hin, htp⟩) (Nat.le_of_not_lt hval)
          next hin =>
            split at h
            next => cases h
            next hoctets =>
              obtain rfl := Option.some.inj h
              exact .octet hch (eq_false_of_ne_true hin) (Nat.le_of_not_lt hval) (by omega)
    next =>
      split at h
      next hdot =>
        split at h
        next => cases h
        next hoctets =>
          obtain rfl := Option.some.inj h
          exact .dot hdot.1 hdot.2 hoctets
      next => cases h
  · intro h
    cases h with
    | digit hch hin htp hval =>
      simp only [Pton.step, if_pos hch, hin, htp, and_false, if_false, if_neg (Nat.not_lt.mpr hval),
        if_true]
    | octet hch hin hval hoctets =>
      have hfour : ¬ 4 < s.octets + 1 := by omega
      simp only [Pton.step, if_pos hch, hin, Bool.false_eq_true, false_and, if_false,
        if_neg (Nat.not_lt.mpr hval), if_neg hfour]
    | dot hch hin hoctets =>
      subst hch
      have hdigit : ¬ Lib.isDigit 46 = true := by decide
      simp only [Pton.step, if_neg hdigit, hin, and_self, if_true, if_neg hoctets]

/-- **One turn keeps the invariant.** -/
theorem PtonInv.step {s s' : Pton} {text : List UInt8} (h : PtonInv s text) {ch : UInt8}
    (hturn : PtonTurn s ch s') : PtonInv s' (text ++ [ch]) := by
  obtain ⟨htext, hoctets, hfresh, hoctet, hdots⟩ := h
  cases hturn with
  | digit hch hin htp hval =>
    refine ⟨?_, hoctets, fun hout => absurd hin (by rw [hout]; nofun), hval, hdots⟩
    rw [htext]
    simp only [hin, if_true]
    rw [decimal_snoc htp hch, List.append_assoc]
  | octet hch hin hval hlt =>
    have htp := hfresh hin
    simp only [hin, Bool.false_eq_true, if_false, Nat.add_zero, List.append_nil] at htext hoctets
    refine ⟨?_, ?_, nofun, hval, hdots⟩
    · show text ++ [ch] = dotted s.done ++ decimal (s.tp * 10 + (ch.toNat - 48))
      rw [htext, htp, Nat.zero_mul, Nat.zero_add, decimal_digit hch]
    · show s.octets + 1 = s.done.length + 1
      rw [hoctets]
  | dot hch hin hne =>
    simp only [hin, if_true] at htext hoctets
    refine ⟨?_, ?_, fun _ => rfl, Nat.zero_le _, ?_⟩
    · show text ++ [ch] = dotted (s.done ++ [UInt8.ofNat s.tp]) ++ []
      rw [htext, hch, dotted_snoc, toNat_octet hoctet, List.append_nil, List.append_assoc]
    · show s.octets = (s.done ++ [UInt8.ofNat s.tp]).length + 0
      rw [hoctets, List.length_append, List.length_singleton]
    · show (s.done ++ [UInt8.ofNat s.tp]).length ≤ 3
      rw [List.length_append, List.length_singleton]
      omega

theorem Pton.loop_append (str str' : List UInt8) :
    ∀ s : Pton, s.loop (str ++ str') = (s.loop str).bind fun s => s.loop str' := by
  induction str with
  | nil => intro s; rfl
  | cons ch str ih =>
    intro s
    rw [List.cons_append, Pton.loop, Pton.loop]
    cases s.step ch with
    | none => rfl
    | some s' => exact ih s'

/-- The invariant holds of all that has been read. -/
theorem PtonInv.loop (str : List UInt8) :
    ∀ {s s' : Pton} {text : List UInt8}, PtonInv s text → s.loop str = some s' →
      PtonInv s' (text ++ str) := by
  induction str with
  | nil =>
    intro s s' text h hloop
    obtain rfl := Option.some.inj hloop
    rw [List.append_nil]
    exact h
  | cons ch str ih =>
    intro s s' text h hloop
    obtain ⟨s₁, hstep, hrest⟩ := Option.bind_eq_some_iff.mp hloop
    have hnext := ih (h.step (Pton.step_eq_some_iff.mp hstep)) hrest
    rw [List.append_assoc] at hnext
    exact hnext

/-! ## What the loop makes of an address -/

theorem Pton.loop_singleton {s s' : Pton} {ch : UInt8} (h : PtonTurn s ch s') :
    s.loop [ch] = some s' := by
  rw [Pton.loop, Pton.step_eq_some_iff.mpr h]
  rfl

/-- The digit of `d` and its value. -/
theorem digitChar_digit {d : Nat} (h : d < 10) :
    Lib.isDigit d.digitChar.toNat.toUInt8 ∧ d.digitChar.toNat.toUInt8.toNat - 48 = d := by
  have hall : ∀ m ∈ List.range 10, Lib.isDigit m.digitChar.toNat.toUInt8 ∧
      m.digitChar.toNat.toUInt8.toNat - 48 = m := by decide
  exact hall d (List.mem_range.mpr h)

/-- An octet, from its first digit to its last. -/
theorem Pton.loop_decimal {s : Pton} (hin : s.isDigit = false) (htp : s.tp = 0)
    (hoctets : s.octets < 4) (n : Nat) (hn : n ≤ 255) :
    s.loop (decimal n) = some { s with tp := n, octets := s.octets + 1, isDigit := true } := by
  induction n using Nat.strongRecOn with
  | ind n ih =>
    obtain ⟨hdigit, hvalue⟩ := digitChar_digit (Nat.mod_lt n (by decide : 10 > 0))
    rw [Lib.decimal_eq]
    by_cases hsmall : n < 10
    · have hturn := PtonTurn.octet hdigit hin (by omega) hoctets
      rw [htp, hvalue, Nat.zero_mul, Nat.zero_add, Nat.mod_eq_of_lt hsmall] at hturn
      rw [if_pos hsmall, List.nil_append, Nat.mod_eq_of_lt hsmall]
      exact Pton.loop_singleton hturn
    · rw [if_neg hsmall, Pton.loop_append, ih (n / 10) (by omega) (by omega), Option.bind_some]
      have hsum : n / 10 * 10 + n % 10 = n := by omega
      have hfits : n / 10 * 10 + ((n % 10).digitChar.toNat.toUInt8.toNat - 48) ≤ 255 := by
        rw [hvalue, hsum]
        exact hn
      have hne : n / 10 ≠ 0 := by omega
      have hturn := PtonTurn.digit (s := ⟨true, s.octets + 1, s.done, n / 10⟩) hdigit rfl hne hfits
      simp only [hvalue, hsum] at hturn
      exact Pton.loop_singleton hturn

/-- An octet with its dot. -/
theorem Pton.loop_dotted {s : Pton} (hin : s.isDigit = false) (htp : s.tp = 0)
    (hoctets : s.octets < 3) (a : UInt8) :
    s.loop (decimal a.toNat ++ [46]) =
      some { s with done := s.done ++ [a], octets := s.octets + 1 } := by
  have ha : a.toNat ≤ 255 := Nat.le_of_lt_succ a.toNat_lt
  rw [Pton.loop_append, Pton.loop_decimal hin htp (by omega) _ ha, Option.bind_some]
  have hne : s.octets + 1 ≠ 4 := by omega
  have hturn := PtonTurn.dot (s := ⟨true, s.octets + 1, s.done, a.toNat⟩) rfl rfl hne
  rw [Pton.loop_singleton hturn, UInt8.ofNat_toNat]
  cases s
  subst hin htp
  rfl

/-- **The parser reads dotted quads.** -/
theorem fnetInetPtonIp4_dottedQuad (a b c d : UInt8) :
    fnetInetPtonIp4 (dottedQuad a b c d) = some [a, b, c, d] := by
  have hd : d.toNat ≤ 255 := Nat.le_of_lt_succ d.toNat_lt
  have hloop : ptonInit.loop (dottedQuad a b c d)
      = some { isDigit := true, octets := 4, done := [a, b, c], tp := d.toNat } := by
    simp only [dottedQuad, dotted, List.flatMap_cons, List.flatMap_nil, List.append_nil,
      List.append_assoc (decimal a.toNat ++ [46]), List.append_assoc (decimal b.toNat ++ [46])]
    have h1 : 1 < 3 := by decide
    have h2 : 2 < 3 := by decide
    have h3 : 3 < 4 := by decide
    rw [Pton.loop_append, Pton.loop_dotted rfl rfl (Nat.zero_lt_succ 2), Option.bind_some,
      Pton.loop_append, Pton.loop_dotted rfl rfl h1, Option.bind_some,
      Pton.loop_append, Pton.loop_dotted rfl rfl h2, Option.bind_some,
      Pton.loop_decimal rfl rfl h3 _ hd]
    rfl
  unfold fnetInetPtonIp4
  simp only [hloop, UInt8.ofNat_toNat]
  rfl

/-- **And nothing else.** -/
theorem fnetInetPtonIp4_eq_some {str data : List UInt8} (h : fnetInetPtonIp4 str = some data) :
    ∃ a b c d, str = dottedQuad a b c d ∧ data = [a, b, c, d] := by
  unfold fnetInetPtonIp4 at h
  cases hloop : ptonInit.loop str with
  | none =>
    rw [hloop] at h
    cases h
  | some s =>
    simp only [hloop] at h
    obtain ⟨htext, hoctets, -, hoctet, hdots⟩ := ptonInit_inv.loop str hloop
    split at h
    next => cases h
    next hfour =>
      obtain rfl := Option.some.inj h
      -- the fourth octet has begun and no further dot was taken
      have hin : s.isDigit = true := by
        by_contra hout
        rw [if_neg hout] at hoctets
        omega
      rw [if_pos hin] at htext hoctets
      have hlen : s.done.length = 3 := by omega
      obtain ⟨a, b, c, hdone⟩ := List.length_eq_three.mp hlen
      refine ⟨a, b, c, UInt8.ofNat s.tp, ?_, by rw [hdone]; rfl⟩
      rw [List.nil_append] at htext
      rw [htext, hdone, dottedQuad, toNat_octet hoctet]

end Datalogger
