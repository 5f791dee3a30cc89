import Datalogger.Lib.CInt
import Datalogger.Wire.Netstruct

/-!
# The packet header: `netprot_header.c`

`netprot_header_append` fills the header fields of a packed `struct netstruct`;
`netprot_header_decode` reads a received buffer through the hand-written offsets
of `netprot_header_prv.h`. `int` is `Int32` and `uint32_t` is `UInt32`, so every
conversion and every wrap-around below is the one the C arithmetic makes;
`long long` is `Int`, since no time step here leaves its range.

The decoder narrows the size field to `int` and then adds the header length in
`int` before comparing with the buffer length. A size field of `2^31 - 28` or more
becomes negative, either at the conversion or at the addition, and passes
(`netprotHeaderDecode_inside_iff`).

Mirroring notes:
- `fnet_htonl`/`fnet_ntohl` are the byte swap of a little-endian core.
- The output pointers are never `NULL`; their `NULL` checks have no counterpart.
- A failing call leaves the outputs it has already written, so the decoder takes
  the old values of its outputs and returns the new ones.
-/

namespace Datalogger

def netprotVersion : UInt8 := 1
def netstructLen : Int32 := 28

/-- `enum netprotheader_err`. -/
def npErrCorrupt : Int32 := -2
def npErrParam : Int32 := -1

/-- `enum netprot_flags`. -/
def dataInvalid : UInt8 := 0x01

/-- `enum header_offsets`, the fields the decoder reads. -/
def versionOffset : Nat := 0
def headerSizeOffset : Nat := 1
def flagsOffset : Nat := 2
def countOffset : Nat := 4
def dtNsOffset : Nat := 20
def sizeOffset : Nat := 24
def dataOffset : Nat := 28

/-! ## Byte order -/

/-- The 32-bit value with bytes `b3 b2 b1 b0`, most significant first. -/
def ofBytes (b3 b2 b1 b0 : Nat) : UInt32 :=
  UInt32.ofNat (b3 * 16777216 + b2 * 65536 + b1 * 256 + b0)

/-- `fnet_htonl`. -/
def fnetHtonl (x : UInt32) : UInt32 :=
  ofBytes (x.toNat % 256) (x.toNat / 256 % 256) (x.toNat / 65536 % 256) (x.toNat / 16777216)

/-- `fnet_ntohl` is `fnet_htonl`. -/
def fnetNtohl (x : UInt32) : UInt32 := fnetHtonl x

theorem toNat_ofBytes {b3 b2 b1 b0 : Nat} (h3 : b3 < 256) (h2 : b2 < 256) (h1 : b1 < 256)
    (h0 : b0 < 256) :
    (ofBytes b3 b2 b1 b0).toNat = b3 * 16777216 + b2 * 65536 + b1 * 256 + b0 := by
  rw [ofBytes, UInt32.toNat_ofNat_of_lt']
  show _ < 4294967296
  omega

/-- Every 32-bit value is made of its four bytes. -/
theorem ofBytes_toNat (x : UInt32) :
    ofBytes (x.toNat / 16777216) (x.toNat / 65536 % 256) (x.toNat / 256 % 256) (x.toNat % 256)
      = x := by
  have hx : x.toNat < 4294967296 := x.toNat_lt
  apply UInt32.toNat_inj.mp
  rw [toNat_ofBytes (by omega) (by omega) (by omega) (by omega)]
  omega

theorem fnetHtonl_ofBytes {b3 b2 b1 b0 : Nat} (h3 : b3 < 256) (h2 : b2 < 256) (h1 : b1 < 256)
    (h0 : b0 < 256) : fnetHtonl (ofBytes b3 b2 b1 b0) = ofBytes b0 b1 b2 b3 := by
  have hval := toNat_ofBytes h3 h2 h1 h0
  have e0 : (ofBytes b3 b2 b1 b0).toNat % 256 = b0 := by omega
  have e1 : (ofBytes b3 b2 b1 b0).toNat / 256 % 256 = b1 := by omega
  have e2 : (ofBytes b3 b2 b1 b0).toNat / 65536 % 256 = b2 := by omega
  have e3 : (ofBytes b3 b2 b1 b0).toNat / 16777216 = b3 := by omega
  rw [fnetHtonl, e0, e1, e2, e3]

/-- The byte swap is its own inverse. -/
@[simp] theorem fnetNtohl_fnetHtonl (x : UInt32) : fnetNtohl (fnetHtonl x) = x := by
  have hx : x.toNat < 4294967296 := x.toNat_lt
  show fnetHtonl (ofBytes _ _ _ _) = x
  rw [fnetHtonl_ofBytes (by omega) (by omega) (by omega) (by omega), ofBytes_toNat]

/-! ## Encoding -/

/-- `netprot_header_append` on a non-`NULL` buffer. -/
def netprotHeaderAppend (toappend : Netstruct) (count datasize : Int32) (dtNs : Int)
    (flags : UInt8) : Netstruct :=
  let dtS : Int32 := Int32.ofInt (dtNs.tdiv 1000000000)
  { toappend with
    version := netprotVersion
    headerSize := 28
    channelNo := 0
    tsS := 0
    tsNs := 0
    flags := flags &&& 0xff
    count := fnetHtonl count.toUInt32
    dtS := fnetHtonl dtS.toUInt32
    dtNs := fnetHtonl (Int32.ofInt (dtNs.tmod 1000000000)).toUInt32
    size := fnetHtonl datasize.toUInt32 }

/-- `netprot_header_getsize`. -/
def netprotHeaderGetsize (p : Netstruct) : Int32 :=
  (netstructLen.toUInt32 + fnetNtohl p.size).toInt32

/-! ## Decoding -/

/-- `extract_uint8(ptroffset(decode, off))`. -/
def extractUint8 (decode : List UInt8) (off : Nat) : UInt8 := decode.getD off 0

/-- `extract_uint32(ptroffset(decode, off))`: a little-endian load, then `ntohl`. -/
def extractUint32 (decode : List UInt8) (off : Nat) : UInt32 :=
  fnetNtohl (ofBytes (extractUint8 decode (off + 3)).toNat (extractUint8 decode (off + 2)).toNat
    (extractUint8 decode (off + 1)).toNat (extractUint8 decode off).toNat)

/-- The outputs of `netprot_header_decode`; `dataout` is an offset into the buffer. -/
structure DecodeOut where
  dataout : Option Nat
  datasize : Int32
  count : Int32
  dtNs : Int
  flags : UInt8
  deriving DecidableEq, Repr

/-- The outputs written before the nanoseconds are checked. -/
def decodeFields (decode : List UInt8) (out : DecodeOut) : DecodeOut :=
  { out with
    flags := extractUint8 decode flagsOffset
    count := (extractUint32 decode countOffset).toInt32
    dtNs := (extractUint32 decode dtNsOffset).toNat }

/-- The outputs written before the size is checked. The seconds are read from the
offset of the nanoseconds, as the source does. -/
def decodeSize (decode : List UInt8) (out : DecodeOut) : DecodeOut :=
  { out with
    dtNs := out.dtNs + (1000000000 * extractUint32 decode dtNsOffset).toNat
    datasize := (extractUint32 decode sizeOffset).toInt32 }

/-- `netprot_header_decode`; the second component is the return value. -/
def netprotHeaderDecode (decode : List UInt8) (decodelen : Int32) (out : DecodeOut) :
    DecodeOut × Int32 :=
  if decodelen < netstructLen then (out, npErrParam)
  else if extractUint8 decode versionOffset ≠ netprotVersion then (out, npErrCorrupt)
  else if extractUint8 decode headerSizeOffset ≠ 28 then (out, npErrCorrupt)
  else if 1000000000 ≤ (decodeFields decode out).dtNs then (decodeFields decode out, npErrCorrupt)
  else if decodelen < (decodeSize decode (decodeFields decode out)).datasize + netstructLen then
    (decodeSize decode (decodeFields decode out), npErrCorrupt)
  else ({ decodeSize decode (decodeFields decode out) with dataout := some dataOffset }, 0)

theorem decodeFields_dtNs (decode : List UInt8) (out : DecodeOut) :
    (decodeFields decode out).dtNs = (extractUint32 decode dtNsOffset).toNat := rfl

theorem decodeSize_datasize (decode : List UInt8) (out : DecodeOut) :
    (decodeSize decode out).datasize = (extractUint32 decode sizeOffset).toInt32 := rfl

/-- The checks the decoder makes before it looks at the size field. -/
def HeaderAccepted (decode : List UInt8) (decodelen : Int32) : Prop :=
  28 ≤ decodelen.toInt ∧ extractUint8 decode versionOffset = netprotVersion ∧
    extractUint8 decode headerSizeOffset = 28 ∧
    (extractUint32 decode dtNsOffset).toNat < 1000000000

/-- The size field as transmitted. -/
def sizeField (decode : List UInt8) : Nat := (extractUint32 decode sizeOffset).toNat

/-! ## Decoder safety -/

/-- What a successful decode promises: the reported payload lies inside the
`decodelen` bytes of the buffer, behind the header. -/
def PayloadInside (decodelen : Int32) (r : DecodeOut × Int32) : Prop :=
  r.2 = 0 → 0 ≤ r.1.datasize.toInt ∧ 28 + r.1.datasize.toInt ≤ decodelen.toInt ∧
    r.1.dataout = some 28

theorem netstructLen_toInt : netstructLen.toInt = 28 := by decide

theorem npErrParam_ne : npErrParam ≠ 0 := by decide

theorem npErrCorrupt_ne : npErrCorrupt ≠ 0 := by decide

/-- A header that fails one of the first checks is refused. -/
theorem netprotHeaderDecode_of_not_accepted {decode : List UInt8} {decodelen : Int32}
    (out : DecodeOut) (h : ¬ HeaderAccepted decode decodelen) :
    (netprotHeaderDecode decode decodelen out).2 ≠ 0 := by
  unfold netprotHeaderDecode
  split
  next => exact npErrParam_ne
  next hlen =>
    split
    next => exact npErrCorrupt_ne
    next hversion =>
      split
      next => exact npErrCorrupt_ne
      next hsize =>
        split
        next => exact npErrCorrupt_ne
        next hdt =>
          -- all four checks passed, so the header was accepted
          exfalso
          apply h
          rw [Int32.lt_iff_toInt_lt, netstructLen_toInt] at hlen
          rw [decodeFields_dtNs] at hdt
          exact ⟨Int.not_lt.mp hlen, Decidable.not_not.mp hversion,
            Decidable.not_not.mp hsize, by omega⟩

/-- Past the first checks only the size test decides, and a success reports the
size field as an `int`. -/
theorem netprotHeaderDecode_of_accepted {decode : List UInt8} {decodelen : Int32}
    (out : DecodeOut) (h : HeaderAccepted decode decodelen) :
    let datasize := (extractUint32 decode sizeOffset).toInt32
    (decodelen < datasize + netstructLen → (netprotHeaderDecode decode decodelen out).2 ≠ 0) ∧
    (¬ decodelen < datasize + netstructLen →
      (netprotHeaderDecode decode decodelen out).2 = 0 ∧
      (netprotHeaderDecode decode decodelen out).1.datasize = datasize ∧
      (netprotHeaderDecode decode decodelen out).1.dataout = some 28) := by
  obtain ⟨hlen, hversion, hsize, hdt⟩ := h
  have hlen' : ¬ decodelen < netstructLen := by
    rw [Int32.lt_iff_toInt_lt, netstructLen_toInt]
    exact Int.not_lt.mpr hlen
  have hdt' : ¬ 1000000000 ≤ (decodeFields decode out).dtNs := by
    rw [decodeFields_dtNs]
    omega
  unfold netprotHeaderDecode
  rw [if_neg hlen', if_neg (not_not_intro hversion), if_neg (not_not_intro hsize), if_neg hdt',
    decodeSize_datasize]
  constructor
  · intro htest
    rw [if_pos htest]
    exact npErrCorrupt_ne
  · intro htest
    rw [if_neg htest]
    exact ⟨rfl, rfl, rfl⟩

/-- **Decoder safety, exactly.** A decode keeps its promise if and only if the
header is refused before the size test or the size field is below `2^31 - 28`. -/
theorem netprotHeaderDecode_inside_iff (decode : List UInt8) (decodelen : Int32)
    (out : DecodeOut) :
    PayloadInside decodelen (netprotHeaderDecode decode decodelen out) ↔
      ¬ HeaderAccepted decode decodelen ∨ sizeField decode < 2147483620 := by
  have h28 := netstructLen_toInt
  by_cases hacc : HeaderAccepted decode decodelen
  · obtain ⟨hfail, hok⟩ := netprotHeaderDecode_of_accepted out hacc
    have hlen := hacc.1
    constructor
    · -- a size field that wraps passes the test and is reported as a negative size,
      -- or as one that does not fit
      intro hinside
      refine Or.inr (Nat.lt_of_not_le fun hbig => ?_)
      unfold sizeField at hbig
      have hlt : (extractUint32 decode sizeOffset).toNat < 4294967296 := UInt32.toNat_lt _
      have hpass : ¬ decodelen < (extractUint32 decode sizeOffset).toInt32 + netstructLen := by
        rw [Int32.lt_iff_toInt_lt]
        rcases Nat.lt_or_ge (extractUint32 decode sizeOffset).toNat 2147483648 with hpos | hneg
        · have hval := Lib.toInt32_of_lt hpos
          rw [Lib.int32_add_of_overflow (by omega)]
          omega
        · have hval := Lib.toInt32_of_le hneg
          rw [Lib.int32_add_of_bounds (by omega) (by omega)]
          omega
      -- so the header is accepted, with a size that breaks the promise
      obtain ⟨hret, hsize, -⟩ := hok hpass
      obtain ⟨hnonneg, hfits, -⟩ := hinside hret
      rw [hsize] at hnonneg hfits
      have hdl := Lib.int32_bounds decodelen
      rcases Nat.lt_or_ge (extractUint32 decode sizeOffset).toNat 2147483648 with hpos | hneg
      · have hval := Lib.toInt32_of_lt hpos
        omega
      · have hval := Lib.toInt32_of_le hneg
        omega
    -- below the bound the sum is tested as the number it is
    · rintro (hrefused | hsmall) hret
      · exact absurd hacc hrefused
      · unfold sizeField at hsmall
        have hval := Lib.toInt32_of_lt (x := extractUint32 decode sizeOffset) (by omega)
        have htest : ¬ decodelen < (extractUint32 decode sizeOffset).toInt32 + netstructLen :=
          fun htest => hfail htest hret
        obtain ⟨-, hsize, hdata⟩ := hok htest
        rw [Int32.lt_iff_toInt_lt, Lib.int32_add_of_bounds (by omega) (by omega)] at htest
        rw [hsize]
        exact ⟨by omega, by omega, hdata⟩
  · constructor
    · intro _
      exact Or.inl hacc
    · intro _ hret
      exact absurd hret (netprotHeaderDecode_of_not_accepted out hacc)

/-- A 28-byte header whose size field is `0xffffffff`. -/
def wrappingHeader : List UInt8 :=
  [1, 28, 0, 0, 0, 0, 0, 0, 0, 0, 0, 0, 0, 0, 0, 0, 0, 0, 0, 0, 0, 0, 0, 0, 255, 255, 255, 255]

/-- The decoder accepts it and reports a payload of -1 bytes. -/
theorem not_payloadInside_wrappingHeader :
    ¬ PayloadInside 28
      (netprotHeaderDecode wrappingHeader 28
        { dataout := none, datasize := 0, count := 0, dtNs := 0, flags := 0 }) := by
  intro hinside
  exact absurd (hinside (by decide)).1 (by decide)

end Datalogger
