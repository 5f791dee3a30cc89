import Datalogger.Broadcast.Extract

/-!
# Ports that are misread

`bcast_parse_broadcast` reads the `PORT` field through `extract_string`, which refuses a
text of more than five characters, and `atoi`, which reads anything, and stores the low 16
bits; 0 stands for a field that is missing. It never fails because of a port, so
`bcast_check_broadcast` takes a datagram with an unusable `PORT` field for the default port
or for the port that happens to come out (`bcast_port_read_iff`).
-/

namespace Datalogger

open Lib (ascii cstr digitsValue isDigit leBytes)

/-- A `PORT='text'` field of a datagram, the first one. -/
def PortField (datagram text : List UInt8) : Prop := QuotedField datagram (ascii "PORT='") text

/-- The text is the number of a port in decimal: up to the five digits of the largest one,
as `portstr` has room for. -/
def IsPortNumber (text : List UInt8) (port : Nat) : Prop :=
  text.length ≤ 5 ∧ (∀ c ∈ text, isDigit c) ∧ digitsValue 10 text = port ∧ 1 ≤ port ∧ port ≤ 65535

/-- The port of a datagram is read as it is written, whatever `*out` and the default port
are: a datagram that is taken gives the port of its `PORT` field, the default port if it has
none, and one whose `PORT` field is no port is refused. -/
def PortRead (datagram : List UInt8) : Prop :=
  ∀ (out : Sockaddr) (defaultPort : Int32),
    let answer := bcastCheckBroadcast (fnetUdpRcv datagram) out defaultPort
    (answer.1 = 1 →
      (∀ text, PortField datagram text →
        ∃ port, IsPortNumber text port ∧ leBytes 2 answer.2.saPort.toNat = networkOrder port) ∧
      ((¬ ∃ text, PortField datagram text) →
        leBytes 2 answer.2.saPort.toNat = networkOrder defaultPort.toInt)) ∧
    (∀ text, PortField datagram text → (¬ ∃ port, IsPortNumber text port) → answer.1 = -1)

/-- The datagram fits the buffer and has an address in front of its first null byte, so that
it is taken. -/
def HasAddress (datagram : List UInt8) : Prop :=
  datagram.length ≤ mcastMaxsize ∧
    ∃ a b c d, HasField (ascii "IP='") (dottedQuad a b c d) (cstr datagram)

/-! ## The port of a field -/

theorem quote_notMem_digits {text : List UInt8} (h : ∀ c ∈ text, isDigit c) : 39 ∉ text :=
  fun hmem => absurd (h 39 hmem) (by decide)

/-- A `PORT` field with a port is read. -/
theorem bcastParsePort_of_number {buf text : List UInt8} {port : Nat}
    (h : HasField (ascii "PORT='") text (cstr buf)) (hport : IsPortNumber text port) :
    ∃ x : Int32, x.toInt = port ∧ bcastParsePort buf = fnetHtons x := by
  obtain ⟨hlen, hdigits, hvalue, hpos, hle⟩ := hport
  have hextract := extractString_eq_some_iff.mpr ⟨h, quote_notMem_digits hdigits,
    show text.length < portstrSize from Nat.lt_succ_of_le hlen⟩
  refine ⟨Lib.atoi text, ?_, ?_⟩
  · rw [Lib.toInt_atoi_digits hdigits (by omega), hvalue]
  · unfold bcastParsePort
    rw [hextract]
    split
    next hnone => cases hnone
    next hnil =>
      rw [Option.some.inj hnil] at hvalue
      exact absurd hvalue.symm (Nat.ne_of_gt hpos)
    next portstr _ hsome => rw [Option.some.inj hsome]

/-- Without a field in the string no port is set. -/
theorem bcastParsePort_of_no_field {buf : List UInt8}
    (h : ¬ ∃ text, QuotedField (cstr buf) (ascii "PORT='") text) : bcastParsePort buf = 0 := by
  have hnone : extractString (cstr buf) (ascii "PORT='") portstrSize = none := by
    refine Option.eq_none_iff_forall_ne_some.mpr fun v hv => ?_
    obtain ⟨hfield, hquote, -⟩ := extractString_eq_some_iff.mp hv
    exact h ⟨v, hfield, hquote⟩
  unfold bcastParsePort
  rw [hnone]

/-! ## What is made of a datagram -/

/-- The field of the string is the one of the datagram, where there is one. -/
theorem quotedField_of_cstr {datagram pre text : List UInt8}
    (h : QuotedField (cstr datagram) pre text) :
    QuotedField datagram pre text := ⟨h.1.of_cstr, h.2⟩

/-- A datagram with an address is taken. -/
theorem bcastCheckBroadcast_of_address {datagram : List UInt8} (h : HasAddress datagram)
    (out : Sockaddr) (defaultPort : Int32) :
    ∃ addr, bcastCheckBroadcast (fnetUdpRcv datagram) out defaultPort =
      (1, ⟨afInet, if bcastParsePort (datagram ++ [0]) = 0 then fnetHtons defaultPort
        else bcastParsePort (datagram ++ [0]), addr⟩) := by
  obtain ⟨hfits, a, b, c, d, hip⟩ := h
  exact ⟨[a, b, c, d], bcastCheckBroadcast_of_field hfits hip out defaultPort⟩

/-- A datagram without an address is not, and neither is an empty one. -/
theorem bcastCheckBroadcast_of_no_address {datagram : List UInt8} (h : ¬ HasAddress datagram)
    (out : Sockaddr) (defaultPort : Int32) :
    bcastCheckBroadcast (fnetUdpRcv datagram) out defaultPort
      = (if datagram = [] then 0 else -1, out) := by
  by_cases hne : datagram = []
  · rw [if_pos hne, hne]
    rfl
  · rw [if_neg hne]
    refine bcastCheckBroadcast_refused hne ?_ out defaultPort
    by_cases hlong : mcastMaxsize < datagram.length
    · exact Or.inl hlong
    · exact Or.inr fun hip => h ⟨Nat.not_lt.mp hlong, hip⟩

/-- Two ports of 16 bits with the same bytes are the same. -/
theorem networkOrder_inj {p q : Nat} (hp : p ≤ 65535) (hq : q ≤ 65535)
    (h : networkOrder p = networkOrder q) : p = q := by
  obtain ⟨hhigh, htail⟩ := List.cons.inj h
  have hhigh' := congrArg UInt8.toNat hhigh
  have hlow' := congrArg UInt8.toNat (List.cons.inj htail).1
  rw [UInt8.toNat_ofNat', UInt8.toNat_ofNat'] at hhigh' hlow'
  omega

/-- **When a port is read as it is written.** Exactly for a datagram that has no address, and
so is not taken, and for one whose `PORT` field, if it has one, is the number of a port and
ends before the first null byte. -/
theorem bcast_port_read_iff (datagram : List UInt8) :
    PortRead datagram ↔
      (HasAddress datagram → ∀ text, PortField datagram text →
        (∃ port, IsPortNumber text port) ∧ HasField (ascii "PORT='") text (cstr datagram)) := by
  have hcstr : cstr (datagram ++ [0]) = cstr datagram := Lib.cstr_append_zero' datagram []
  constructor
  · intro hread haddr text hfield
    obtain ⟨addr, hanswer⟩ := bcastCheckBroadcast_of_address haddr ⟨0, 0, []⟩ 0
    have hports := ((hread ⟨0, 0, []⟩ 0).1 (by rw [hanswer])).1
    obtain ⟨port, hport, hbytes⟩ := hports text hfield
    refine ⟨⟨port, hport⟩, ?_⟩
    by_contra hbehind
    -- a field that a null byte hides leaves the default port, here 0
    have hnone : ¬ ∃ text', QuotedField (cstr (datagram ++ [0])) (ascii "PORT='") text' := by
      rw [hcstr]
      intro hsome
      obtain ⟨text', htext'⟩ := hsome
      rw [(quotedField_of_cstr htext').unique hfield] at htext'
      exact hbehind htext'.1
    rw [hanswer, bcastParsePort_of_no_field hnone, if_pos rfl, leBytes_fnetHtons] at hbytes
    have hzero := networkOrder_inj (Nat.zero_le _) hport.2.2.2.2 hbytes
    exact absurd hport.2.2.2.1 (by omega)
  · intro hcond out defaultPort
    by_cases haddr : HasAddress datagram
    · obtain ⟨addr, hanswer⟩ := bcastCheckBroadcast_of_address haddr out defaultPort
      have hgood := hcond haddr
      simp only [hanswer]
      refine ⟨fun _ => ⟨fun text hfield => ?_, fun hno => ?_⟩, fun text hfield hbad => ?_⟩
      · obtain ⟨⟨port, hport⟩, hstring⟩ := hgood text hfield
        obtain ⟨x, hx, hparse⟩ := bcastParsePort_of_number (hcstr.symm ▸ hstring) hport
        have hpos := hport.2.2.2.1
        have hle := hport.2.2.2.2
        have hset := fnetHtons_ne_zero (x := x) (by omega) (by omega)
        refine ⟨port, hport, ?_⟩
        rw [hparse, if_neg hset, leBytes_fnetHtons, hx]
      · have hnone : ¬ ∃ text', QuotedField (cstr (datagram ++ [0])) (ascii "PORT='") text' := by
          rw [hcstr]
          intro hsome
          obtain ⟨text', htext'⟩ := hsome
          exact hno ⟨text', quotedField_of_cstr htext'⟩
        rw [bcastParsePort_of_no_field hnone, if_pos rfl, leBytes_fnetHtons]
      · exact absurd (hgood text hfield).1 hbad
    · rw [bcastCheckBroadcast_of_no_address haddr out defaultPort]
      by_cases hne : datagram = []
      · simp only [if_pos hne]
        refine ⟨fun h => absurd h (by decide), fun text hfield _ => ?_⟩
        obtain ⟨⟨before, rest, -, hs⟩, -⟩ := hfield
        have hlen := congrArg List.length hs
        simp [hne, ascii] at hlen
      · simp only [if_neg hne]
        exact ⟨fun h => absurd h (by decide), fun _ _ _ => trivial⟩

/-- A port above 65535 is cut to 16 bits: the board connects to 4464. -/
theorem not_portRead_large : ¬ PortRead (ascii "IP='10.0.0.1' PORT='70000'") := by
  intro hread
  have hanswer : (bcastCheckBroadcast (fnetUdpRcv (ascii "IP='10.0.0.1' PORT='70000'"))
      ⟨0, 0, []⟩ 4951).1 = 1 := by decide +kernel
  have hfield : PortField (ascii "IP='10.0.0.1' PORT='70000'") (ascii "70000") :=
    ⟨⟨ascii "IP='10.0.0.1' ", [], ⟨⟨ascii "70000'", by decide +kernel⟩, by decide +kernel⟩,
      by decide +kernel⟩, by decide +kernel⟩
  obtain ⟨port, ⟨-, -, hvalue, -, hle⟩, -⟩ := ((hread ⟨0, 0, []⟩ 4951).1 hanswer).1 _ hfield
  have hlarge : Lib.digitsValue 10 (ascii "70000") = 70000 := by decide +kernel
  omega

end Datalogger
