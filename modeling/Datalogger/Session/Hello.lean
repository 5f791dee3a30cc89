import Datalogger.Lib.Hexadecimal
import Datalogger.Lib.Writes

/-!
# HELLO

`netprot_hello` prints the 128-bit UID of the chip into the first line of a session. The
line is always complete (`helloLine_complete`): `tosend` has room for the longest UID and
`snprintf` is given one byte less, which is still enough.

`UID_tostr` prints the four words of the UID without a width and without anything between
them, so words of fewer than eight digits run into each other, and `hello_identifies_iff`
says which UIDs share a line: those whose words, glued together at their own widths, are
the same number with the same number of digits.

Mirroring note: `netprot_hello` ignores the outcome of `netprot_goodbye`, so it is left out;
`HelloNet` is what the socket calls behind it answer.
-/

namespace Datalogger

open Lib (Write ascii applyWrites digitsValue hexadecimal readString snprintfTo UpperHex)

/-- The four UID registers. -/
@[ext] structure Uid where
  uidh : UInt32
  uidmh : UInt32
  uidml : UInt32
  uidl : UInt32
  deriving DecidableEq, Repr

/-- `UID_STR_LEN`. -/
def uidStrLen : Nat := 35

/-- `NETPROT_HELLO_SIZE`. -/
def netprotHelloSize : Nat := 45

/-- The digits of the UID. -/
def Uid.digits (u : Uid) : List UInt8 :=
  hexadecimal u.uidh.toNat ++ hexadecimal u.uidmh.toNat ++ hexadecimal u.uidml.toNat
    ++ hexadecimal u.uidl.toNat

/-- What `UID_tostr` formats. -/
def Uid.text (u : Uid) : List UInt8 := ascii "0x" ++ u.digits

/-- `UID_tostr`. -/
def uidTostr (u : Uid) (outlen : Nat) : List Write := snprintfTo 0 outlen u.text

/-- `NETPROT_HELLO_FORMAT`. -/
def netprotHelloFormat (uidStr : List UInt8) : List UInt8 :=
  ascii "HELLO " ++ uidStr ++ ascii " \x0d\x0a"

/-- The two arrays of `netprot_hello`, as it finds them. -/
structure HelloLocals where
  tosend : List UInt8
  uidStr : List UInt8
  tosend_length : tosend.length = netprotHelloSize
  uidStr_length : uidStr.length = uidStrLen

/-- The string in `tosend`, `none` if one of the arrays is not terminated. -/
def helloLine (locals : HelloLocals) (u : Uid) : Option (List UInt8) :=
  (readString (applyWrites locals.uidStr (uidTostr u uidStrLen))).bind fun uidStr =>
    readString
      (applyWrites locals.tosend
        (snprintfTo 0 (netprotHelloSize - 1 : Nat) (netprotHelloFormat uidStr)))

/-- The answers of `connect`, of the loop that waits for it, and of `send`. -/
structure HelloNet where
  connectFails : Bool
  connected : Bool
  sendFails : Bool
  deriving DecidableEq, Repr

/-- `netprot_hello`: the value returned, and the line it gave to `send`. -/
def netprotHello (locals : HelloLocals) (u : Uid) (net : HelloNet) : Int32 × Option (List UInt8) :=
  if net.connectFails then (-1, none)
  else if ¬ net.connected then (-2, none)
  else if net.sendFails then (-1, helloLine locals u)
  else (0, helloLine locals u)

/-! ## The line is complete -/

theorem Uid.digits_upperHex (u : Uid) : ∀ c ∈ u.digits, UpperHex c := by
  intro c hc
  simp only [Uid.digits, List.mem_append] at hc
  rcases hc with ((h | h) | h) | h
  · exact Lib.upperHex_of_mem h
  · exact Lib.upperHex_of_mem h
  · exact Lib.upperHex_of_mem h
  · exact Lib.upperHex_of_mem h

theorem Uid.length_digits_le (u : Uid) : u.digits.length ≤ 32 := by
  have h₁ := Lib.length_hexadecimal_le u.uidh
  have h₂ := Lib.length_hexadecimal_le u.uidmh
  have h₃ := Lib.length_hexadecimal_le u.uidml
  have h₄ := Lib.length_hexadecimal_le u.uidl
  simp only [Uid.digits, List.length_append]
  omega

theorem Uid.length_text_le (u : Uid) : u.text.length ≤ 34 := by
  have hdigits := u.length_digits_le
  show (ascii "0x" ++ u.digits).length ≤ 34
  rw [List.length_append, show (ascii "0x").length = 2 from rfl]
  omega

theorem Uid.zero_notMem_text (u : Uid) : 0 ∉ u.text := by
  intro h
  rcases List.mem_append.mp h with hprefix | hdigits
  · exact absurd hprefix (by decide)
  · exact absurd (u.digits_upperHex 0 hdigits) (by decide)

/-- A text that fits an array is read back from it. -/
theorem readString_snprintf {out text : List UInt8} {size : Nat} (hfits : text.length < size)
    (hsize : size ≤ out.length) (hzero : 0 ∉ text) :
    readString (applyWrites out (snprintfTo 0 size text)) = some text := by
  rw [Lib.snprintfTo_of_lt (by omega)]
  exact (Lib.leaves_strcpyTo (Nat.lt_of_lt_of_le hfits hsize)).readString_eq hzero rfl

/-- **The line is never cut off.** -/
theorem helloLine_complete (locals : HelloLocals) (u : Uid) :
    helloLine locals u = some (netprotHelloFormat u.text) := by
  have htext := u.length_text_le
  have huid : readString (applyWrites locals.uidStr (uidTostr u uidStrLen)) = some u.text :=
    readString_snprintf (by show u.text.length < 35; omega) (by rw [locals.uidStr_length])
      u.zero_notMem_text
  unfold helloLine
  rw [huid, Option.bind_some]
  refine readString_snprintf ?_ (by rw [locals.tosend_length]; decide) ?_
  · show (ascii "HELLO " ++ u.text ++ ascii " \x0d\x0a").length < 44
    rw [List.length_append, List.length_append, show (ascii "HELLO ").length = 6 from rfl,
      show (ascii " \x0d\x0a").length = 3 from rfl]
    omega
  · intro h
    have hu := u.zero_notMem_text
    simp only [netprotHelloFormat, List.mem_append] at h
    rcases h with (h | h) | h
    · exact absurd h (by decide)
    · exact hu h
    · exact absurd h (by decide)

/-! ## UIDs with the same line -/

/-- The number of hexadecimal digits of a register. -/
def hexWidth (x : UInt32) : Nat := Nat.log 16 x.toNat + 1

/-- The number of digits of a UID. -/
def Uid.width (u : Uid) : Nat :=
  hexWidth u.uidh + hexWidth u.uidmh + hexWidth u.uidml + hexWidth u.uidl

/-- The registers of a UID as one number, each as wide as its own digits. -/
def Uid.glued (u : Uid) : Nat :=
  ((u.uidh.toNat * 16 ^ hexWidth u.uidmh + u.uidmh.toNat) * 16 ^ hexWidth u.uidml + u.uidml.toNat)
    * 16 ^ hexWidth u.uidl + u.uidl.toNat

theorem Uid.length_digits (u : Uid) : u.digits.length = u.width := by
  simp only [Uid.digits, List.length_append, Lib.length_hexadecimal]
  rfl

theorem Uid.digitsValue_digits (u : Uid) : digitsValue 16 u.digits = u.glued := by
  simp only [Uid.digits, Lib.digitsValue_append, Lib.digitsValue_hexadecimal,
    Lib.length_hexadecimal]
  rfl

/-- **Which UIDs share their digits.** -/
theorem Uid.digits_eq_iff {u v : Uid} :
    u.digits = v.digits ↔ u.width = v.width ∧ u.glued = v.glued := by
  constructor
  · intro h
    rw [← u.length_digits, ← v.length_digits, ← u.digitsValue_digits, ← v.digitsValue_digits, h]
    exact ⟨rfl, rfl⟩
  · intro ⟨hwidth, hglued⟩
    refine Lib.eq_of_digitsValue_eq u.digits_upperHex v.digits_upperHex ?_ ?_
    · rw [u.length_digits, v.length_digits, hwidth]
    · rw [u.digitsValue_digits, v.digitsValue_digits, hglued]

/-- Two different UIDs whose registers have the same numbers of digits, register by register,
are told apart. -/
theorem Uid.glued_ne_of_widths {u v : Uid} (hmh : hexWidth u.uidmh = hexWidth v.uidmh)
    (hml : hexWidth u.uidml = hexWidth v.uidml) (hl : hexWidth u.uidl = hexWidth v.uidl)
    (hne : u ≠ v) : u.glued ≠ v.glued := by
  have hlt : ∀ x : UInt32, x.toNat < 16 ^ hexWidth x :=
    fun x => Nat.lt_pow_succ_log_self (by decide) x.toNat
  -- a number in front of digits, and the digits, from the number they make
  have hsplit : ∀ {a b c d base : Nat}, b < base → d < base → a * base + b = c * base + d →
      a = c ∧ b = d := by
    intro a b c d base hb hd heq
    have hlast := congrArg (· % base) heq
    simp only [Nat.mul_add_mod', Nat.mod_eq_of_lt hb, Nat.mod_eq_of_lt hd] at hlast
    have hpos : 0 < base := Nat.lt_of_le_of_lt (Nat.zero_le b) hb
    exact ⟨Nat.eq_of_mul_eq_mul_right hpos (by omega), hlast⟩
  intro heq
  unfold Uid.glued at heq
  rw [← hmh, ← hml, ← hl] at heq
  obtain ⟨h₃, hlow⟩ := hsplit (hlt u.uidl) (hl ▸ hlt v.uidl) heq
  obtain ⟨h₂, hmidlow⟩ := hsplit (hlt u.uidml) (hml ▸ hlt v.uidml) h₃
  obtain ⟨hhigh, hmidhigh⟩ := hsplit (hlt u.uidmh) (hmh ▸ hlt v.uidmh) h₂
  exact hne (Uid.ext (UInt32.toNat_inj.mp hhigh) (UInt32.toNat_inj.mp hmidhigh)
    (UInt32.toNat_inj.mp hmidlow) (UInt32.toNat_inj.mp hlow))

theorem netprotHelloFormat_inj {u v : Uid}
    (h : netprotHelloFormat u.text = netprotHelloFormat v.text) :
    u.digits = v.digits := by
  have htext := List.append_cancel_left (List.append_cancel_right h)
  exact List.append_cancel_left htext

/-- `netprot_hello` gets as far as `send`. -/
def HelloNet.sends (net : HelloNet) : Prop := net.connectFails = false ∧ net.connected = true

theorem netprotHello_sends {net : HelloNet} (h : net.sends) (locals : HelloLocals) (u : Uid) :
    (netprotHello locals u net).2 = some (netprotHelloFormat u.text) := by
  unfold netprotHello
  rw [h.1, h.2, helloLine_complete]
  cases net.sendFails <;> rfl

/-- The line sent for the UID `u` is complete, and tells it from the UID `v`. -/
structure HelloIdentifies (u v : Uid) : Prop where
  complete : ∀ (locals : HelloLocals) (net : HelloNet), net.sends →
    (netprotHello locals u net).2 = some (ascii "HELLO " ++ u.text ++ ascii " \x0d\x0a")
  differ : u ≠ v → ∀ (locals locals' : HelloLocals) (net net' : HelloNet), net.sends → net'.sends →
    (netprotHello locals u net).2 ≠ (netprotHello locals' v net').2

/-- Arrays of zeros. -/
def zeroHelloLocals : HelloLocals where
  tosend := List.replicate netprotHelloSize 0
  uidStr := List.replicate uidStrLen 0
  tosend_length := List.length_replicate
  uidStr_length := List.length_replicate

/-- **When HELLO identifies the board.** The line of every UID is complete, and the lines
of two different UIDs differ exactly if their registers, each as wide as its own digits,
do not make the same number with the same number of digits. -/
theorem hello_identifies_iff (u v : Uid) :
    HelloIdentifies u v ↔ (u ≠ v → ¬ (u.width = v.width ∧ u.glued = v.glued)) := by
  constructor
  · intro h hne hsame
    have hnet : HelloNet.sends ⟨false, true, false⟩ := ⟨rfl, rfl⟩
    refine h.differ hne zeroHelloLocals zeroHelloLocals _ _ hnet hnet ?_
    rw [netprotHello_sends hnet, netprotHello_sends hnet, Uid.text, Uid.text,
      Uid.digits_eq_iff.mpr hsame]
  · intro hcond
    refine ⟨fun locals net hnet => netprotHello_sends hnet locals u, ?_⟩
    intro hne locals locals' net net' hnet hnet' heq
    rw [netprotHello_sends hnet, netprotHello_sends hnet'] at heq
    exact hcond hne (Uid.digits_eq_iff.mp (netprotHelloFormat_inj (Option.some.inj heq)))

/-- The registers 1, 11 and 11, 1 in front of the same two print the same digits. -/
theorem not_hello_identifies : ¬ ∀ u v : Uid, HelloIdentifies u v := by
  intro hall
  have hnet : HelloNet.sends ⟨false, true, false⟩ := ⟨rfl, rfl⟩
  have hdiffer := (hall ⟨0x1, 0x11, 0x1, 0x1⟩ ⟨0x11, 0x1, 0x1, 0x1⟩).differ (by decide)
    zeroHelloLocals zeroHelloLocals _ _ hnet hnet
  exact absurd hdiffer (by decide +kernel)

end Datalogger
