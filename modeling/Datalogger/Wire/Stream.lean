import Datalogger.Lib.Framing
import Datalogger.Wire.RoundTrip

/-!
# Packets in a byte stream

The other end of the connection receives the bytes of one packet behind another and cuts
them with `netprot_header_decode` (`nextPacket`), which finds how much of what has arrived
belongs to the first packet, or refuses what is not there whole. So the packets delimit
themselves (`selfDelimiting_packets`) and `readPackets` finds them where they were put.

What the decoder makes of the time step is no part of `Packet`; a sender that writes no
time step is all `netprot_send_capture` is.
-/

namespace Datalogger

open Lib (SelfDelimiting EndsInside readFrames)

/-! ## The receiving end -/

/-- What the other end learns from one packet. -/
structure Packet where
  count : Int32
  flags : UInt8
  payload : List UInt8
  deriving DecidableEq, Repr

/-- The outputs of the decoder before a call. -/
def noOutputs : DecodeOut := { dataout := none, datasize := 0, count := 0, dtNs := 0, flags := 0 }

/-- What has arrived, as the `int` the decoder is given. -/
def arrivedLen (stream : List UInt8) : Int32 := Int32.ofNat (min stream.length 2147483647)

/-- One packet off the front of what has arrived, by `netprot_header_decode`. -/
def nextPacket (stream : List UInt8) : Option (Packet × List UInt8) :=
  let r := netprotHeaderDecode stream (arrivedLen stream) noOutputs
  if r.2 = 0 then
    some ({ count := r.1.count
            flags := r.1.flags
            payload := (stream.drop 28).take r.1.datasize.toInt.toNat },
      stream.drop (28 + r.1.datasize.toInt.toNat))
  else none

/-- The packets in what has arrived, and the bytes behind them. -/
def readPackets (stream : List UInt8) : List Packet × List UInt8 :=
  readFrames nextPacket stream.length stream

/-- A header as `netprot_header_append` leaves it for `datasize` bytes. -/
def HeaderFor (count datasize : Int32) (flags : UInt8) (header : List UInt8) : Prop :=
  ∃ p : Netstruct, header = (netprotHeaderAppend p count datasize 0 flags).header

/-- `w` is a packet: a header and the bytes it announces. -/
def IsPacket (a : Packet) (w : List UInt8) : Prop :=
  ∃ header datasize, HeaderFor a.count datasize a.flags header ∧
    w = header ++ a.payload ∧ datasize.toInt = a.payload.length ∧ a.payload.length ≤ 2147483619

theorem HeaderFor.length {count datasize : Int32} {flags : UInt8} {header : List UInt8}
    (h : HeaderFor count datasize flags header) : header.length = 28 := by
  obtain ⟨p, rfl⟩ := h
  exact Netstruct.length_header _

/-- What `2n` bytes of samples are announced as. -/
def announced (n : Int32) : Int32 := (n.toUInt32 * 2).toInt32

theorem announced_toInt {n : Int32} (hn : 0 ≤ n.toInt) (hfits : n.toInt ≤ 986) :
    (announced n).toInt = 2 * n.toInt := by
  have hnat := Lib.toUInt32_of_nonneg hn
  have htwo : (2 : UInt32).toNat = 2 := rfl
  have hmul : (n.toUInt32 * 2).toNat = n.toUInt32.toNat * 2 := by
    rw [UInt32.toNat_mul, htwo]
    omega
  rw [announced, Lib.toInt32_of_lt (by omega), hmul]
  omega

theorem arrivedLen_toInt (stream : List UInt8) :
    (arrivedLen stream).toInt = min stream.length 2147483647 := by
  rw [arrivedLen, Int32.toInt_ofNat_of_lt (by omega)]

/-- The first checks of the decoder see a header only once it is whole. -/
theorem headerAccepted_header {count datasize : Int32} {flags : UInt8} {header : List UInt8}
    (h : HeaderFor count datasize flags header) (rest : List UInt8) :
    HeaderAccepted (header ++ rest) (arrivedLen (header ++ rest)) := by
  have hlen := h.length
  obtain ⟨p, rfl⟩ := h
  obtain ⟨⟨_, hversion⟩, ⟨_, hheader⟩, -, -, ⟨_, hdtNs⟩, -⟩ :=
    (netprotHeaderAppend p count datasize 0 flags).bytes_drop_offsets 0 rest
  rw [Netstruct.bytes, show Netstruct.payload _ 0 = [] from rfl, List.append_nil]
    at hversion hheader hdtNs
  refine ⟨?_, extractUint8_of_drop hversion, extractUint8_of_drop hheader, ?_⟩
  · rw [arrivedLen_toInt, List.length_append]
    omega
  · rw [(extractUint32_of_drop hdtNs).trans (fnetNtohl_fnetHtonl _)]
    exact nanoseconds_lt (Int.le_refl 0)

/-- The fields the decoder finds in a header. -/
theorem extract_header {count datasize : Int32} {flags : UInt8} {header : List UInt8}
    (h : HeaderFor count datasize flags header) (rest : List UInt8) :
    (extractUint32 (header ++ rest) countOffset).toInt32 = count ∧
    extractUint8 (header ++ rest) flagsOffset = flags ∧
    (extractUint32 (header ++ rest) sizeOffset).toInt32 = datasize := by
  obtain ⟨p, rfl⟩ := h
  obtain ⟨-, -, ⟨_, hflags⟩, ⟨_, hcount⟩, -, ⟨_, hsize⟩⟩ :=
    (netprotHeaderAppend p count datasize 0 flags).bytes_drop_offsets 0 rest
  rw [Netstruct.bytes, show Netstruct.payload _ 0 = [] from rfl, List.append_nil]
    at hflags hcount hsize
  refine ⟨?_, ?_, ?_⟩
  · rw [(extractUint32_of_drop hcount).trans (fnetNtohl_fnetHtonl _)]
    exact Int32.toInt32_toUInt32 count
  · rw [extractUint8_of_drop hflags]
    exact UInt8.and_neg_one
  · rw [(extractUint32_of_drop hsize).trans (fnetNtohl_fnetHtonl _)]
    exact Int32.toInt32_toUInt32 datasize

/-- A packet is taken off the front of whatever follows it. -/
theorem nextPacket_whole {a : Packet} {w : List UInt8} (h : IsPacket a w) (rest : List UInt8) :
    nextPacket (w ++ rest) = some (a, rest) := by
  obtain ⟨header, datasize, hheader, rfl, hsize, hmax⟩ := h
  have hlen := hheader.length
  rw [List.append_assoc]
  have hacc := headerAccepted_header hheader (a.payload ++ rest)
  obtain ⟨hcount, hflags, hdatasize⟩ := extract_header hheader (a.payload ++ rest)
  have hfits : ¬ arrivedLen (header ++ (a.payload ++ rest)) < datasize + netstructLen := by
    have h28 := netstructLen_toInt
    rw [Int32.lt_iff_toInt_lt, Lib.int32_add_of_bounds (by omega) (by omega), arrivedLen_toInt,
      List.length_append, List.length_append]
    omega
  have hok := (netprotHeaderDecode_of_accepted noOutputs hacc).2
  rw [hdatasize] at hok
  obtain ⟨hret, hsizeOut, -⟩ := hok hfits
  obtain ⟨hcountOut, hflagsOut⟩ := netprotHeaderDecode_fields hret
  have hpayload : ((header ++ (a.payload ++ rest)).drop 28).take a.payload.length = a.payload := by
    rw [List.drop_left' hlen, List.take_left' rfl]
  have hrest : (header ++ (a.payload ++ rest)).drop (28 + a.payload.length) = rest := by
    rw [← List.drop_drop, List.drop_left' hlen, List.drop_left' rfl]
  unfold nextPacket
  dsimp only
  rw [if_pos hret, hsizeOut, hcountOut, hflagsOut, hcount, hflags, hsize, Int.toNat_natCast,
    hpayload, hrest]

/-- The beginning of a packet is not taken for one. -/
theorem nextPacket_part {a : Packet} {w : List UInt8} (h : IsPacket a w) {p : List UInt8}
    (hpre : p <+: w) (hlt : p.length < w.length) : nextPacket p = none := by
  obtain ⟨header, datasize, hheader, rfl, hsize, hmax⟩ := h
  have hlen := hheader.length
  have hrefused : (netprotHeaderDecode p (arrivedLen p) noOutputs).2 ≠ 0 := by
    rcases Nat.lt_or_ge p.length 28 with hshort | hlong
    · -- the header is not there yet
      refine netprotHeaderDecode_of_not_accepted noOutputs fun hacc => ?_
      have h28 := hacc.1
      rw [arrivedLen_toInt] at h28
      omega
    · -- the header is, so the decoder asks for all it announces
      have hsplit : header <+: p :=
        List.prefix_of_prefix_length_le (List.prefix_append header a.payload) hpre (by omega)
      obtain ⟨rest, rfl⟩ := hsplit
      have hacc := headerAccepted_header hheader rest
      obtain ⟨-, -, hdatasize⟩ := extract_header hheader rest
      refine (netprotHeaderDecode_of_accepted noOutputs hacc).1 ?_
      have h28 := netstructLen_toInt
      rw [hdatasize, Int32.lt_iff_toInt_lt, Lib.int32_add_of_bounds (by omega) (by omega),
        arrivedLen_toInt]
      rw [List.length_append, List.length_append] at hlt
      rw [List.length_append]
      omega
  unfold nextPacket
  dsimp only
  rw [if_neg hrefused]

/-- **The packets delimit themselves.** -/
theorem selfDelimiting_packets : SelfDelimiting nextPacket IsPacket where
  whole := nextPacket_whole
  part := nextPacket_part
  nonempty := by
    rintro a w ⟨header, datasize, hheader, rfl, -⟩ hnil
    have hlen := hheader.length
    rw [(List.append_eq_nil_iff.mp hnil).1] at hlen
    cases hlen

/-- Reading a stream of packets that ends inside one. -/
theorem readPackets_of_packets {as : List Packet} {ws : List (List UInt8)} {tail : List UInt8}
    (hframes : List.Forall₂ IsPacket as ws) (htail : EndsInside IsPacket tail) :
    readPackets (ws.flatten ++ tail) = (as, tail) := by
  refine Lib.readFrames_of_frames selfDelimiting_packets ?_ hframes (Nat.le_refl _)
  rcases htail with rfl | ⟨a, w, hw, hpre, hlt⟩
  · rfl
  · exact nextPacket_part hw hpre hlt

end Datalogger
