import Datalogger.Lib.LittleEndian
import Datalogger.Lib.Search
import Datalogger.Broadcast.Inet

/-!
# Broadcasts

`bcast.c` without its listener: the fields of a datagram, `bcast_parse_broadcast` and
`bcast_check_broadcast`. A field is text behind the first occurrence of its prefix, up to
the next quote (`extractString_eq_some_iff`). `bcastCheckBroadcast_roundTrip` puts the two
fields together.

Mirroring notes:
- `bcast_check_broadcast` is given what `recv` delivers for the length it passes. `recv`
  answers an empty queue with 0, and an empty datagram too.
- `extract_string` leaves its buffer alone where it fails, so the text is an option.
-/

namespace Datalogger

open Lib (ascii cstr decimal FirstAt leBytes)

/-- `MCAST_MAXSIZE`. -/
def mcastMaxsize : Nat := 56

/-- `FNET_IP6_ADDR_STR_SIZE`, the size of `ipstr`. -/
def fnetIp6AddrStrSize : Nat := 40

/-- `sizeof("xxxxx")`, the size of `portstr`. -/
def portstrSize : Nat := 6

/-- `FNET_HTONS` of an `int`, stored in an `unsigned short`. -/
def fnetHtons (x : Int32) : UInt16 :=
  UInt16.ofNat (x.toUInt32.toNat % 256 * 256 + x.toUInt32.toNat / 256 % 256)

/-- `extract_string`: the text it copies to `out`, whose length it returns; 0 if `none`. -/
def extractString (inp pre : List UInt8) (outLen : Nat) : Option (List UInt8) :=
  match Lib.strstr pre inp with
  | none => none
  | some strPtr =>
    let strPtr := strPtr.drop pre.length
    match Lib.strchr 39 strPtr with
    | none => none
    | some strLen => if outLen < strLen + 1 then none else some (strPtr.take strLen)

/-- The port of the datagram, 0 if none is set. -/
def bcastParsePort (buf : List UInt8) : UInt16 :=
  match extractString (cstr buf) (ascii "PORT='") portstrSize with
  | none | some [] => 0
  | some portstr => fnetHtons (Lib.atoi portstr)

/-- `bcast_parse_broadcast`: the value returned and `*out` afterwards. -/
def bcastParseBroadcast (buf : List UInt8) (bufLen : Nat) (out : Sockaddr) : Int × Sockaddr :=
  if buf[bufLen]? ≠ some 0 then (-1, out)
  else
    match extractString (cstr buf) (ascii "IP='") fnetIp6AddrStrSize with
    | none | some [] => (-1, out)
    | some ipstr =>
      match fnetInetPtos ipstr out with
      | none => (-1, out)
      | some out => (0, { out with saPort := bcastParsePort buf })

/-- `fnet_udp_rcv` on a queued datagram: one that is longer than the buffer is dropped
with an error. -/
def fnetUdpRcv (datagram : List UInt8) (len : Nat) : Option (List UInt8) :=
  if len < datagram.length then none else some datagram

/-- `bcast_check_broadcast`; `recv` is `none` for `SOCKET_ERROR`. -/
def bcastCheckBroadcast (recv : Nat → Option (List UInt8)) (out : Sockaddr) (defaultPort : Int32) :
    Int × Sockaddr :=
  match recv mcastMaxsize with
  | none => (-1, out)
  | some [] => (0, out)
  | some recvBuf =>
    match bcastParseBroadcast (recvBuf ++ [0]) recvBuf.length out with
    | (0, out) => (1, if out.saPort = 0 then { out with saPort := fnetHtons defaultPort } else out)
    | (_, out) => (-1, out)

/-! ## Fields -/

/-- `value` and a quote stand behind the first `pre`. -/
def HasField (pre value s : List UInt8) : Prop :=
  ∃ before rest, FirstAt pre s before ∧ s = before ++ (pre ++ (value ++ 39 :: rest))

/-- **What is extracted**: the field, if there is room for it. -/
theorem extractString_eq_some_iff {inp pre v : List UInt8} {outLen : Nat} :
    extractString inp pre outLen = some v ↔ HasField pre v inp ∧ 39 ∉ v ∧ v.length < outLen := by
  unfold extractString
  cases hstr : Lib.strstr pre inp with
  | none =>
    refine ⟨nofun, fun ⟨⟨before, rest, hfirst, hs⟩, _, _⟩ => ?_⟩
    have hsome := Lib.strstr_eq_some_iff.mpr ⟨before, hfirst, hs⟩
    rw [hstr] at hsome
    cases hsome
  | some found =>
    obtain ⟨before, hfirst, hs⟩ := Lib.strstr_eq_some_iff.mp hstr
    obtain ⟨tail, htail⟩ := hfirst.1
    have hfound : found = pre ++ tail := List.append_cancel_left (hs.symm.trans htail)
    -- a field of `inp` stands in `tail`
    have hfield : ∀ w, HasField pre w inp → ∃ rest, tail = w ++ 39 :: rest := by
      intro w ⟨before', rest, hfirst', hs'⟩
      have hsome := Lib.strstr_eq_some_iff.mpr ⟨before', hfirst', hs'⟩
      rw [hstr, hfound] at hsome
      exact ⟨rest, List.append_cancel_left (Option.some.inj hsome)⟩
    simp only [hfound, List.drop_left]
    cases hchr : Lib.strchr 39 tail with
    | none =>
      refine ⟨nofun, fun ⟨hv, hquote, _⟩ => ?_⟩
      obtain ⟨rest, hrest⟩ := hfield v hv
      have hsome := Lib.strchr_eq_some_iff.mpr ⟨v, rest, hrest, hquote, rfl⟩
      rw [hchr] at hsome
      cases hsome
    | some n =>
      obtain ⟨w, rest, htail', hquote, hlen⟩ := Lib.strchr_eq_some_iff.mp hchr
      have htake : tail.take n = w := by rw [htail', ← hlen, List.take_left]
      simp only [htake]
      constructor
      · intro h
        split at h
        next => cases h
        next hroom =>
          obtain rfl := Option.some.inj h
          exact ⟨⟨before, rest, hfirst, by rw [hs, hfound, htail']⟩, hquote, by omega⟩
      · intro ⟨hv, hquote', hlen'⟩
        obtain ⟨rest', hrest'⟩ := hfield v hv
        have hsame := Lib.strchr_eq_some_iff.mpr ⟨v, rest', hrest', hquote', rfl⟩
        obtain rfl := Option.some.inj (hchr.symm.trans hsame)
        have hvw : v = w := by rw [← htake, hrest', List.take_left]
        rw [if_neg (by omega), hvw]

/-- Where the prefix does not occur nothing is extracted. -/
theorem extractString_of_absent {inp pre : List UInt8} (h : ¬ pre <:+: inp) (outLen : Nat) :
    extractString inp pre outLen = none := by
  unfold extractString
  rw [Lib.strstr_eq_none_iff.mpr h]

/-- A first occurrence in the string is one in the memory. -/
theorem FirstAt.of_cstr {needle mem before : List UInt8} (h : FirstAt needle (cstr mem) before) :
    FirstAt needle mem before := by
  obtain ⟨⟨rest, hs⟩, hfirst⟩ := h
  obtain ⟨tail, htail⟩ : cstr mem <+: mem := List.takeWhile_prefix _
  refine ⟨⟨rest ++ tail, ?_⟩, fun k hk hpre => hfirst k hk ?_⟩
  · rw [← htail, hs]
    simp only [List.append_assoc]
  · -- an earlier occurrence would end in the string too
    rw [← htail, List.drop_append_of_le_length (by rw [hs, List.length_append]; omega)] at hpre
    refine List.prefix_of_prefix_length_le hpre (List.prefix_append _ _) ?_
    rw [List.length_drop, hs, List.length_append, List.length_append]
    omega

/-- The field of a string is one of the memory it stands in. -/
theorem HasField.of_cstr {pre value mem : List UInt8} (h : HasField pre value (cstr mem)) :
    HasField pre value mem := by
  obtain ⟨before, rest, hfirst, hs⟩ := h
  obtain ⟨tail, htail⟩ : cstr mem <+: mem := List.takeWhile_prefix _
  refine ⟨before, rest ++ tail, FirstAt.of_cstr hfirst, ?_⟩
  conv_lhs => rw [← htail, hs]
  simp only [List.append_assoc, List.cons_append]

/-! ## Ports -/

/-- The two bytes of a port on the wire, the higher one first. -/
def networkOrder (port : Int) : List UInt8 :=
  [UInt8.ofNat (port / 256 % 256).toNat, UInt8.ofNat (port % 256).toNat]

/-- **`FNET_HTONS`** leaves a port in network order. -/
theorem leBytes_fnetHtons (x : Int32) : leBytes 2 (fnetHtons x).toNat = networkOrder x.toInt := by
  obtain ⟨v, hv⟩ : ∃ v, v = x.toUInt32.toNat := ⟨_, rfl⟩
  have hval : (fnetHtons x).toNat = v % 256 * 256 + v / 256 % 256 := by
    rw [fnetHtons, UInt16.toNat_ofNat', ← hv]
    omega
  -- `x` and `v` differ by a multiple of 2 ^ 32
  have hmod : (v : Int) = x.toInt % 4294967296 := by rw [hv, Lib.toUInt32_emod]
  have hdiv : x.toInt / 256 = v / 256 + 16777216 * (x.toInt / 4294967296) := by omega
  have hhigh : (x.toInt / 256 % 256).toNat = v / 256 % 256 := by omega
  have hlow : (x.toInt % 256).toNat = v % 256 := by omega
  have hfirst : (v % 256 * 256 + v / 256 % 256) % 256 = v / 256 % 256 % 256 := by omega
  have hsecond : (v % 256 * 256 + v / 256 % 256) / 256 % 256 = v % 256 % 256 := by omega
  show [UInt8.ofNat (fnetHtons x).toNat, UInt8.ofNat ((fnetHtons x).toNat / 256)] = _
  rw [networkOrder, hhigh, hlow, hval]
  congr 1
  · exact UInt8.toNat_inj.mp (by rw [UInt8.toNat_ofNat', UInt8.toNat_ofNat']; exact hfirst)
  · congr 1
    exact UInt8.toNat_inj.mp (by rw [UInt8.toNat_ofNat', UInt8.toNat_ofNat']; exact hsecond)

/-- A port other than 0 is set. -/
theorem fnetHtons_ne_zero {x : Int32} (hpos : 1 ≤ x.toInt) (hle : x.toInt ≤ 65535) :
    fnetHtons x ≠ 0 := by
  intro hzero
  have hbytes := leBytes_fnetHtons x
  rw [hzero] at hbytes
  obtain ⟨hhigh, htail⟩ := List.cons.inj hbytes
  have hlow := (List.cons.inj htail).1
  have hhigh' := congrArg UInt8.toNat hhigh
  have hlow' := congrArg UInt8.toNat hlow
  rw [UInt8.toNat_ofNat', UInt8.toNat_ofNat'] at hhigh' hlow'
  change 0 % 256 = (x.toInt / 256 % 256).toNat % 256 at hhigh'
  change 0 / 256 % 256 = (x.toInt % 256).toNat % 256 at hlow'
  omega

/-! ## The two fields -/

theorem quote_notMem_decimal (n : Nat) : 39 ∉ decimal n :=
  fun h => absurd (Lib.digit_of_mem_decimal h).1 (by decide)

theorem quote_notMem_dottedQuad (a b c d : UInt8) : 39 ∉ dottedQuad a b c d := by
  simp [dottedQuad, dotted, quote_notMem_decimal]

theorem length_decimal_octet (a : UInt8) : (decimal a.toNat).length ≤ 3 := by
  have hall : ∀ m ∈ List.range 256, (decimal (UInt8.ofNat m).toNat).length ≤ 3 := by decide +kernel
  exact Lib.forall_byte (P := fun a => (decimal a.toNat).length ≤ 3) hall a

theorem length_dottedQuad (a b c d : UInt8) : (dottedQuad a b c d).length < fnetIp6AddrStrSize := by
  have ha := length_decimal_octet a
  have hb := length_decimal_octet b
  have hc := length_decimal_octet c
  have hd := length_decimal_octet d
  simp only [dottedQuad, dotted, List.flatMap_cons, List.flatMap_nil, List.length_append,
    List.length_singleton, List.length_nil, fnetIp6AddrStrSize]
  omega

/-- A `PORT` field gives its port. -/
theorem bcastParsePort_of_field {buf : List UInt8} {p : Nat} (hp : p ≤ 65535)
    (h : HasField (ascii "PORT='") (decimal p) (cstr buf)) :
    bcastParsePort buf = fnetHtons (Lib.atoi (decimal p)) := by
  have hlen : (decimal p).length < portstrSize := by
    refine Nat.lt_succ_of_le ?_
    unfold decimal
    rw [List.length_map, Nat.length_toDigits_le_iff (by decide) (by decide)]
    omega
  have hextract := extractString_eq_some_iff.mpr ⟨h, quote_notMem_decimal p, hlen⟩
  unfold bcastParsePort
  rw [hextract]
  split
  next hnone => cases hnone
  next hnil => exact absurd (Option.some.inj hnil) (Lib.decimal_ne_nil p)
  next portstr _ hsome => rw [Option.some.inj hsome]

theorem bcastParsePort_of_absent {buf : List UInt8} (h : ¬ ascii "PORT='" <:+: cstr buf) :
    bcastParsePort buf = 0 := by
  unfold bcastParsePort
  rw [extractString_of_absent h]

/-- An `IP` field gives its address. -/
theorem bcastParseBroadcast_of_field {buf : List UInt8} {bufLen : Nat}
    (hnul : buf[bufLen]? = some 0)
    {a b c d : UInt8} (h : HasField (ascii "IP='") (dottedQuad a b c d) (cstr buf)) (out : Sockaddr) :
    bcastParseBroadcast buf bufLen out = (0, ⟨afInet, bcastParsePort buf, [a, b, c, d]⟩) := by
  have hextract := extractString_eq_some_iff.mpr
    ⟨h, quote_notMem_dottedQuad a b c d, length_dottedQuad a b c d⟩
  have hptos : fnetInetPtos (dottedQuad a b c d) out
      = some { out with saFamily := afInet, saData := [a, b, c, d] } := by
    rw [fnetInetPtos, fnetInetPtonIp4_dottedQuad]
    rfl
  unfold bcastParseBroadcast
  rw [if_neg (not_not_intro hnul), hextract]
  split
  next hnone => cases hnone
  next hnil =>
    have hne : dottedQuad a b c d ≠ [] :=
      List.append_ne_nil_of_right_ne_nil _ (Lib.decimal_ne_nil d.toNat)
    exact absurd (Option.some.inj hnil) hne
  next ipstr _ hsome =>
    rw [← Option.some.inj hsome, hptos]

/-- Without one the address is left alone. -/
theorem bcastParseBroadcast_of_no_field {buf : List UInt8} (bufLen : Nat)
    (h : ¬ ∃ a b c d, HasField (ascii "IP='") (dottedQuad a b c d) (cstr buf)) (out : Sockaddr) :
    bcastParseBroadcast buf bufLen out = (-1, out) := by
  unfold bcastParseBroadcast
  split
  next => rfl
  next =>
    split
    next => rfl
    next => rfl
    next ipstr _ hextract =>
      cases hptos : fnetInetPtos ipstr out with
      | none => rfl
      | some o =>
        obtain ⟨data, hdata, -⟩ := Option.map_eq_some_iff.mp hptos
        obtain ⟨a, b, c, d, rfl, -⟩ := fnetInetPtonIp4_eq_some hdata
        exact absurd ⟨a, b, c, d, (extractString_eq_some_iff.mp hextract).1⟩ h

/-! ## The round trip -/

/-- The broadcast is taken: 1 is returned, and the address and the port are `*out`. -/
def Answers (answer : Int × Sockaddr) (addr : List UInt8) (port : Int) : Prop :=
  answer.1 = 1 ∧ answer.2.saFamily = afInet ∧ answer.2.saData = addr ∧
    leBytes 2 answer.2.saPort.toNat = networkOrder port

/-- What is made of a datagram that `recv` delivers. -/
theorem bcastCheckBroadcast_of_field {datagram : List UInt8}
    (hfits : datagram.length ≤ mcastMaxsize) {a b c d : UInt8}
    (h : HasField (ascii "IP='") (dottedQuad a b c d) (cstr datagram)) (out : Sockaddr)
    (defaultPort : Int32) :
    bcastCheckBroadcast (fnetUdpRcv datagram) out defaultPort =
      (1, ⟨afInet, if bcastParsePort (datagram ++ [0]) = 0 then fnetHtons defaultPort
        else bcastParsePort (datagram ++ [0]), [a, b, c, d]⟩) := by
  have hrecv : fnetUdpRcv datagram mcastMaxsize = some datagram :=
    if_neg (Nat.not_lt.mpr hfits)
  have hne : datagram ≠ [] := by
    rintro rfl
    obtain ⟨before, rest, -, hs⟩ := h
    have hlen := congrArg List.length hs
    simp [ascii, cstr] at hlen
  have hend : (datagram ++ [0])[datagram.length]? = some 0 := by simp
  have hcstr : cstr (datagram ++ [0]) = cstr datagram := Lib.cstr_append_zero' datagram []
  have hparse := bcastParseBroadcast_of_field hend (hcstr.symm ▸ h) out
  unfold bcastCheckBroadcast
  rw [hrecv]
  split
  next hnone => cases hnone
  next hnil => exact absurd (Option.some.inj hnil) hne
  next recvBuf _ hsome =>
    obtain rfl := Option.some.inj hsome
    rw [hparse]
    by_cases hport : bcastParsePort (datagram ++ [0]) = 0
    · simp only [hport, if_true]
    · simp only [hport, if_false]

/-- A datagram without an address, or too long for `recv`, is refused. -/
theorem bcastCheckBroadcast_refused {datagram : List UInt8} (hne : datagram ≠ [])
    (h : mcastMaxsize < datagram.length ∨
      ¬ ∃ a b c d, HasField (ascii "IP='") (dottedQuad a b c d) (cstr datagram))
    (out : Sockaddr) (defaultPort : Int32) :
    bcastCheckBroadcast (fnetUdpRcv datagram) out defaultPort = (-1, out) := by
  by_cases hlong : mcastMaxsize < datagram.length
  · have hrecv : fnetUdpRcv datagram mcastMaxsize = none := if_pos hlong
    unfold bcastCheckBroadcast
    rw [hrecv]
  · have hrecv : fnetUdpRcv datagram mcastMaxsize = some datagram := if_neg hlong
    have hcstr : cstr (datagram ++ [0]) = cstr datagram := Lib.cstr_append_zero' datagram []
    have hno : ¬ ∃ a b c d,
        HasField (ascii "IP='") (dottedQuad a b c d) (cstr (datagram ++ [0])) := by
      rw [hcstr]
      exact h.resolve_left hlong
    have hparse := bcastParseBroadcast_of_no_field datagram.length hno out
    unfold bcastCheckBroadcast
    rw [hrecv]
    split
    next hnone => cases hnone
    next hnil => exact absurd (Option.some.inj hnil) hne
    next recvBuf _ hsome =>
      obtain rfl := Option.some.inj hsome
      simp only [hparse]

/-- **The round trip.** A null-free datagram with room and the fields is taken for the
address and the port of the fields, or the default port; one that is not empty and has no
address is refused. -/
theorem bcastCheckBroadcast_roundTrip (out : Sockaddr) (defaultPort : Int32)
    {datagram : List UInt8} (hne : datagram ≠ []) :
    (∀ a b c d, 0 ∉ datagram → datagram.length ≤ mcastMaxsize →
      HasField (ascii "IP='") (dottedQuad a b c d) datagram →
        (∀ p : Nat, 1 ≤ p → p ≤ 65535 → HasField (ascii "PORT='") (decimal p) datagram →
          Answers (bcastCheckBroadcast (fnetUdpRcv datagram) out defaultPort) [a, b, c, d] p) ∧
        (¬ ascii "PORT='" <:+: datagram →
          Answers (bcastCheckBroadcast (fnetUdpRcv datagram) out defaultPort) [a, b, c, d]
            defaultPort.toInt)) ∧
    ((¬ ∃ a b c d, HasField (ascii "IP='") (dottedQuad a b c d) datagram) →
      bcastCheckBroadcast (fnetUdpRcv datagram) out defaultPort = (-1, out)) := by
  refine ⟨fun a b c d hnul hfits hip => ?_, fun hno => ?_⟩
  · have hcstr : cstr (datagram ++ [0]) = datagram := Lib.cstr_append_zero hnul []
    rw [bcastCheckBroadcast_of_field hfits (Lib.cstr_of_notMem hnul ▸ hip)]
    refine ⟨fun p hpos hle hport => ?_, fun hport => ?_⟩
    · have hread : (Lib.atoi (decimal p)).toInt = p := Lib.toInt_atoi_decimal (by omega)
      have hset := fnetHtons_ne_zero (x := Lib.atoi (decimal p)) (by omega) (by omega)
      rw [bcastParsePort_of_field hle (hcstr.symm ▸ hport), if_neg hset]
      refine ⟨rfl, rfl, rfl, ?_⟩
      rw [leBytes_fnetHtons, hread]
    · rw [bcastParsePort_of_absent (hcstr.symm ▸ hport), if_pos rfl]
      exact ⟨rfl, rfl, rfl, leBytes_fnetHtons defaultPort⟩
  · refine bcastCheckBroadcast_refused hne (Or.inr fun hfield => hno ?_) out defaultPort
    obtain ⟨a, b, c, d, h⟩ := hfield
    exact ⟨a, b, c, d, h.of_cstr⟩

/-- Both fields, with text around them. -/
theorem bcastCheckBroadcast_roundTrip_server :
    Answers (bcastCheckBroadcast (fnetUdpRcv (ascii "HELLO PORT='4952' IP='10.0.0.1'!"))
      ⟨0, 0, []⟩ 4951) [10, 0, 0, 1] 4952 := by
  refine ((bcastCheckBroadcast_roundTrip ⟨0, 0, []⟩ 4951 (by decide)).1 10 0 0 1 (by decide)
    (by decide) ?_).1 4952 (by decide) (by decide) ?_
  · exact ⟨ascii "HELLO PORT='4952' ", ascii "!", ⟨⟨ascii "10.0.0.1'!", rfl⟩, by decide⟩, rfl⟩
  · exact ⟨ascii "HELLO ", ascii " IP='10.0.0.1'!", ⟨⟨ascii "4952' IP='10.0.0.1'!", rfl⟩, by decide⟩,
      rfl⟩

/-- An empty datagram is no data: 0 is returned. -/
theorem not_bcastCheckBroadcast_refuses_empty :
    ¬ ∀ (datagram : List UInt8) (out : Sockaddr) (defaultPort : Int32),
      (¬ ∃ a b c d, HasField (ascii "IP='") (dottedQuad a b c d) datagram) →
        bcastCheckBroadcast (fnetUdpRcv datagram) out defaultPort = (-1, out) := by
  intro h
  refine absurd (h [] ⟨0, 0, []⟩ 4951 ?_) (by decide)
  intro ⟨a, b, c, d, before, rest, _, hs⟩
  have hlen := congrArg List.length hs
  simp [ascii] at hlen

end Datalogger
