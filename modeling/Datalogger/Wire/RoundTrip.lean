import Datalogger.Lib.LittleEndian
import Datalogger.Wire.Header

/-!
# A frame and its decoder

`netprot_header_append` fills in a packed structure and the other end reads bytes at
the offsets of `netprot_header_prv.h`. `Netstruct.bytes` is the structure as it lies in
memory, field behind field without padding and each in the byte order of the core;
`header_offsets` is found to name the fields that `netprot_header_decode` asks for
(`bytes_drop_offsets`), and a frame is decoded to what was put into it
(`netprotHeaderDecode_append`).

The time step is left out of the result: the decoder reads the seconds from the offset
of the nanoseconds.
-/

namespace Datalogger

open Lib (leBytes leValue leValue_leBytes_of_lt getD_of_drop)

/-! ## The structure in memory -/

namespace Netstruct

/-- The fields in front of `data`. -/
def header (p : Netstruct) : List UInt8 :=
  [p.version, p.headerSize, p.flags, p.channelNo] ++ leBytes 4 p.count.toNat ++
    leBytes 4 p.tsS.toNat ++ leBytes 4 p.tsNs.toNat ++ leBytes 4 p.dtS.toNat ++
    leBytes 4 p.dtNs.toNat ++ leBytes 4 p.size.toNat

/-- The first `n` bytes of `data`; an odd `n` ends inside a sample. -/
def payload (p : Netstruct) (n : Nat) : List UInt8 :=
  ((p.samples ((n + 1) / 2)).flatMap fun x => leBytes 2 x.toNat).take n

/-- The structure with `n` bytes of data. -/
def bytes (p : Netstruct) (n : Nat) : List UInt8 := p.header ++ p.payload n

@[simp] theorem length_header (p : Netstruct) : p.header.length = 28 := by
  simp [header]

@[simp] theorem length_payload (p : Netstruct) (n : Nat) : (p.payload n).length = n := by
  have hsamples : ∀ l : List UInt16,
    (l.flatMap fun x => leBytes 2 x.toNat).length = 2 * l.length := by
    intro l
    induction l with
    | nil => rfl
    | cons x l ih => rw [List.flatMap_cons, List.length_append, ih, Lib.length_leBytes,
        List.length_cons]; ring
  rw [payload, List.length_take, hsamples, length_samples]
  omega

/-- The payload is behind the header. -/
theorem drop_bytes (p : Netstruct) (n : Nat) (rest : List UInt8) :
    (p.bytes n ++ rest).drop 28 = p.payload n ++ rest := by
  rw [bytes, List.append_assoc, List.drop_left' p.length_header]

/-- **`header_offsets`.** The decoder's offsets are those of its fields. -/
theorem bytes_drop_offsets (p : Netstruct) (n : Nat) (rest : List UInt8) :
    (∃ tail, (p.bytes n ++ rest).drop versionOffset = p.version :: tail) ∧
    (∃ tail, (p.bytes n ++ rest).drop headerSizeOffset = p.headerSize :: tail) ∧
    (∃ tail, (p.bytes n ++ rest).drop flagsOffset = p.flags :: tail) ∧
    (∃ tail, (p.bytes n ++ rest).drop countOffset = leBytes 4 p.count.toNat ++ tail) ∧
    (∃ tail, (p.bytes n ++ rest).drop dtNsOffset = leBytes 4 p.dtNs.toNat ++ tail) ∧
    (∃ tail, (p.bytes n ++ rest).drop sizeOffset = leBytes 4 p.size.toNat ++ tail) :=
  ⟨⟨_, rfl⟩, ⟨_, rfl⟩, ⟨_, rfl⟩, ⟨_, rfl⟩, ⟨_, rfl⟩, ⟨_, rfl⟩⟩

end Netstruct

/-! ## Reading a field -/

theorem extractUint8_of_drop {decode tail : List UInt8} {off : Nat} {x : UInt8}
    (h : decode.drop off = x :: tail) : extractUint8 decode off = x :=
  getD_of_drop h 0

/-- A 32-bit field is read in the other byte order. -/
theorem extractUint32_of_drop {decode tail : List UInt8} {off : Nat} {x : UInt32}
    (h : decode.drop off = leBytes 4 x.toNat ++ tail) : extractUint32 decode off = fnetNtohl x := by
  obtain ⟨b0, b1, b2, b3, hbytes⟩ : ∃ b0 b1 b2 b3, leBytes 4 x.toNat = [b0, b1, b2, b3] :=
    ⟨_, _, _, _, rfl⟩
  have hvalue : leValue [b0, b1, b2, b3] = x.toNat := by
    rw [← hbytes]
    exact leValue_leBytes_of_lt x.toNat_lt
  rw [hbytes] at h
  have h0 : extractUint8 decode off = b0 := getD_of_drop h 0
  have h1 : extractUint8 decode (off + 1) = b1 := getD_of_drop h 1
  have h2 : extractUint8 decode (off + 2) = b2 := getD_of_drop h 2
  have h3 : extractUint8 decode (off + 3) = b3 := getD_of_drop h 3
  have hword : ofBytes b3.toNat b2.toNat b1.toNat b0.toNat = x := by
    apply UInt32.toNat_inj.mp
    rw [toNat_ofBytes b3.toNat_lt b2.toNat_lt b1.toNat_lt b0.toNat_lt, ← hvalue]
    simp only [leValue]
    ring
  rw [extractUint32, h0, h1, h2, h3, hword]

/-! ## The round trip -/

/-- The fields a decode that succeeds has read. -/
theorem netprotHeaderDecode_fields {decode : List UInt8} {decodelen : Int32} {out : DecodeOut}
    (h : (netprotHeaderDecode decode decodelen out).2 = 0) :
    (netprotHeaderDecode decode decodelen out).1.count
        = (extractUint32 decode countOffset).toInt32 ∧
      (netprotHeaderDecode decode decodelen out).1.flags = extractUint8 decode flagsOffset := by
  revert h
  unfold netprotHeaderDecode
  split
  next => intro h; exact absurd h npErrParam_ne
  next =>
    split
    next => intro h; exact absurd h npErrCorrupt_ne
    next =>
      split
      next => intro h; exact absurd h npErrCorrupt_ne
      next =>
        split
        next => intro h; exact absurd h npErrCorrupt_ne
        next =>
          split
          next => intro h; exact absurd h npErrCorrupt_ne
          next => intro _; exact ⟨rfl, rfl⟩

/-- What the other end has to find: success, the arguments of the encoder, and the
payload behind the header. -/
structure DecodesTo (decode : List UInt8) (r : DecodeOut × Int32) (count datasize : Int32)
    (flags : UInt8) (payload : List UInt8) : Prop where
  ret : r.2 = 0
  count : r.1.count = count
  flags : r.1.flags = flags
  datasize : r.1.datasize = datasize
  dataout : r.1.dataout = some 28
  payload : payload <+: decode.drop 28

/-- The nanoseconds of a time step that is not negative. -/
theorem nanoseconds_lt {dtNs : Int} (h : 0 ≤ dtNs) :
    (Int32.ofInt (dtNs.tmod 1000000000)).toUInt32.toNat < 1000000000 := by
  have hmod : dtNs.tmod 1000000000 = dtNs % 1000000000 := Int.tmod_eq_emod_of_nonneg h
  have hint : (Int32.ofInt (dtNs % 1000000000)).toInt = dtNs % 1000000000 :=
    Int32.toInt_ofInt_of_le (by omega) (by omega)
  have hnat := Lib.toUInt32_of_nonneg (x := Int32.ofInt (dtNs % 1000000000)) (by omega)
  rw [hmod]
  omega

/-- The size of the frame as `netprot_header_getsize` adds it up. -/
theorem netprotHeaderGetsize_append (p : Netstruct) (count : Int32) {datasize : Int32} (dtNs : Int)
    (flags : UInt8) (hsize : 0 ≤ datasize.toInt) (hfit : datasize.toInt ≤ 2147483619) :
    (netprotHeaderGetsize (netprotHeaderAppend p count datasize dtNs flags)).toInt
      = 28 + datasize.toInt := by
  have hfield : fnetNtohl (netprotHeaderAppend p count datasize dtNs flags).size
    = datasize.toUInt32 :=
    fnetNtohl_fnetHtonl _
  have hnat := Lib.toUInt32_of_nonneg hsize
  have hlen : netstructLen.toUInt32.toNat = 28 := by decide
  have hsum : (netstructLen.toUInt32 + datasize.toUInt32).toNat = 28 + datasize.toUInt32.toNat := by
    rw [UInt32.toNat_add, hlen]
    omega
  rw [netprotHeaderGetsize, hfield, Lib.toInt32_of_lt (by omega), hsum]
  omega

/-- A frame that fits passes every check, and its payload is found behind the header. -/
theorem netprotHeaderDecode_append_ok (p : Netstruct) (count datasize decodelen : Int32)
    {dtNs : Int} (flags : UInt8) (rest : List UInt8) (out : DecodeOut) (hdt : 0 ≤ dtNs)
    (hsize : 0 ≤ datasize.toInt) (hlen : 28 + datasize.toInt ≤ decodelen.toInt) :
    let frame := netprotHeaderAppend p count datasize dtNs flags
    let decode := frame.bytes datasize.toInt.toNat ++ rest
    (netprotHeaderDecode decode decodelen out).2 = 0 ∧
      (netprotHeaderDecode decode decodelen out).1.datasize = datasize ∧
      (netprotHeaderDecode decode decodelen out).1.dataout = some 28 := by
  intro frame decode
  have hbound := Lib.int32_bounds decodelen
  obtain ⟨⟨_, hversion⟩, ⟨_, hheader⟩, -, -, ⟨_, hdtNs⟩, ⟨_, hsizeAt⟩⟩ :=
    frame.bytes_drop_offsets datasize.toInt.toNat rest
  have hdtField : extractUint32 decode dtNsOffset
      = (Int32.ofInt (dtNs.tmod 1000000000)).toUInt32 :=
    (extractUint32_of_drop hdtNs).trans (fnetNtohl_fnetHtonl _)
  have hsizeField : (extractUint32 decode sizeOffset).toInt32 = datasize := by
    rw [(extractUint32_of_drop hsizeAt).trans (fnetNtohl_fnetHtonl _)]
    exact Int32.toInt32_toUInt32 datasize
  -- both validity checks pass, so the decoder reports what it has read
  have hacc : HeaderAccepted decode decodelen := by
    refine ⟨by omega, extractUint8_of_drop hversion, extractUint8_of_drop hheader, ?_⟩
    rw [hdtField]
    exact nanoseconds_lt hdt
  have hfits : ¬ decodelen < datasize + netstructLen := by
    have h28 := netstructLen_toInt
    rw [Int32.lt_iff_toInt_lt, Lib.int32_add_of_bounds (by omega) (by omega)]
    omega
  have hok := (netprotHeaderDecode_of_accepted out hacc).2
  rw [hsizeField] at hok
  exact hok hfits

/-- **The frame round trip.** A frame is decoded to the arguments it was made with and the
payload that was in the buffer before, whatever lies behind it. That its size fits in
`int` follows from `decodelen` being one. -/
theorem netprotHeaderDecode_append (p : Netstruct) (count datasize decodelen : Int32) (dtNs : Int)
    (flags : UInt8) (rest : List UInt8) (out : DecodeOut) (hdt : 0 ≤ dtNs)
    (hsize : 0 ≤ datasize.toInt) (hlen : 28 + datasize.toInt ≤ decodelen.toInt) :
    let frame := netprotHeaderAppend p count datasize dtNs flags
    let decode := frame.bytes datasize.toInt.toNat ++ rest
    DecodesTo decode (netprotHeaderDecode decode decodelen out) count datasize flags
        (p.payload datasize.toInt.toNat) ∧
      (netprotHeaderGetsize frame).toInt = 28 + datasize.toInt := by
  intro frame decode
  have hbound := Lib.int32_bounds decodelen
  obtain ⟨-, -, ⟨_, hflags⟩, ⟨_, hcount⟩, -, -⟩ :=
    frame.bytes_drop_offsets datasize.toInt.toNat rest
  have hcountField : extractUint32 decode countOffset = count.toUInt32 :=
    (extractUint32_of_drop hcount).trans (fnetNtohl_fnetHtonl _)
  obtain ⟨hret, hdatasize, hdataout⟩ :=
    netprotHeaderDecode_append_ok p count datasize decodelen flags rest out hdt hsize hlen
  obtain ⟨hcountOut, hflagsOut⟩ := netprotHeaderDecode_fields hret
  refine ⟨⟨hret, ?_, ?_, hdatasize, hdataout, ?_⟩,
    netprotHeaderGetsize_append p count dtNs flags hsize (by omega)⟩
  · rw [hcountOut, hcountField]
    exact Int32.toInt32_toUInt32 count
  · rw [hflagsOut, extractUint8_of_drop hflags]
    exact UInt8.and_neg_one
  · rw [Netstruct.drop_bytes]
    exact List.prefix_append _ _

/-- Five bytes of payload, so two samples and a half. -/
theorem netprotHeaderDecode_append_five :
    let frame := netprotHeaderAppend (Netstruct.zero.store 0 0x1234) (-7) 5 2500000000 dataInvalid
    let decode := frame.bytes 5 ++ [0xaa]
    let out : DecodeOut := { dataout := none, datasize := 0, count := 0, dtNs := 0, flags := 0 }
    DecodesTo decode (netprotHeaderDecode decode 33 out) (-7) 5 dataInvalid
        ((Netstruct.zero.store 0 0x1234).payload 5) ∧
      (netprotHeaderGetsize frame).toInt = 28 + 5 :=
  netprotHeaderDecode_append (Netstruct.zero.store 0 0x1234) (-7) 5 33 2500000000 dataInvalid
    [0xaa] _
    (by decide) (by decide) (by decide)

end Datalogger
