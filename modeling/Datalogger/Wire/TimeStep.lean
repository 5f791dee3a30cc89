import Mathlib.Data.Nat.ModEq
import Datalogger.Wire.RoundTrip

/-!
# The time step of a frame

`netprot_header_append` divides the time step into a word of seconds and a word of
nanoseconds. `netprot_header_decode` reads both from the offset of the nanoseconds, and
multiplies what it takes for seconds in 32 bits, so that what comes back depends on
the nanoseconds alone (`netprotHeaderDecode_dtNs`). `timeStep_roundTrip_iff` says which
time steps survive that: 0, the only one the program sends, and few others.
-/

namespace Datalogger

/-- The nanoseconds behind the seconds of a time step. -/
def nanoseconds (dtNs : Int) : Nat := (dtNs % 1000000000).toNat

/-- What the other end makes of a nanoseconds field: the field once as it is and once
as seconds. -/
def decodedStep (ns : Nat) : Nat := ns + 1000000000 * ns % 4294967296

/-- The decode succeeds and reports this time step. -/
def DecodesStep (r : DecodeOut × Int32) (dtNs : Int) : Prop := r.2 = 0 ∧ r.1.dtNs = dtNs

/-- The time step a decode that succeeds reports. -/
theorem netprotHeaderDecode_dtNs {decode : List UInt8} {decodelen : Int32} {out : DecodeOut}
    (h : (netprotHeaderDecode decode decodelen out).2 = 0) :
    (netprotHeaderDecode decode decodelen out).1.dtNs
      = decodedStep (extractUint32 decode dtNsOffset).toNat := by
  have hstep : ((extractUint32 decode dtNsOffset).toNat : Int)
      + (1000000000 * extractUint32 decode dtNsOffset).toNat
        = decodedStep (extractUint32 decode dtNsOffset).toNat := by
    rw [UInt32.toNat_mul, decodedStep]
    rfl
  revert h
  unfold netprotHeaderDecode
  split
  next => intro h; exact absurd h npErrParam_ne
  next =>
    split
    next => intro h; exact absurd h npErrCorrupt_ne
    next =>
      split
      next => intro h; exact absurd h npErrCorrupt_ne
      next =>
        split
        next => intro h; exact absurd h npErrCorrupt_ne
        next =>
          split
          next => intro h; exact absurd h npErrCorrupt_ne
          next => intro _; exact hstep

/-- The nanoseconds field of a frame. -/
theorem extractUint32_append (p : Netstruct) (count datasize : Int32) {dtNs : Int} (flags : UInt8)
    (n : Nat) (rest : List UInt8) (hdt : 0 ≤ dtNs) :
    (extractUint32 ((netprotHeaderAppend p count datasize dtNs flags).bytes n ++ rest)
      dtNsOffset).toNat = nanoseconds dtNs := by
  obtain ⟨-, -, -, -, ⟨_, hfield⟩, -⟩ :=
    (netprotHeaderAppend p count datasize dtNs flags).bytes_drop_offsets n rest
  have hmod : dtNs.tmod 1000000000 = dtNs % 1000000000 := Int.tmod_eq_emod_of_nonneg hdt
  have hint : (Int32.ofInt (dtNs % 1000000000)).toInt = dtNs % 1000000000 :=
    Int32.toInt_ofInt_of_le (by omega) (by omega)
  have hnat := Lib.toUInt32_of_nonneg (x := Int32.ofInt (dtNs % 1000000000)) (by omega)
  rw [extractUint32_of_drop hfield]
  show (fnetNtohl (fnetHtonl (Int32.ofInt (dtNs.tmod 1000000000)).toUInt32)).toNat
    = nanoseconds dtNs
  rw [fnetNtohl_fnetHtonl, hmod, nanoseconds]
  omega

/-- The residue of a billion times `ns` is a billion times `s` only for an `s` that
leaves it below `2^32`, and then `ns` and `s` agree modulo `2^23`. -/
theorem billion_mul_mod_iff (ns s : Nat) :
    1000000000 * ns % 4294967296 = 1000000000 * s ↔ s ≤ 4 ∧ ns % 8388608 = s := by
  have hns : 1000000000 * ns = 512 * (1953125 * ns) := by omega
  have hs : 1000000000 * s = 512 * (1953125 * s) := by omega
  have hword : (4294967296 : Nat) = 512 * 8388608 := by decide
  constructor
  · intro h
    have hlt : 1000000000 * ns % 4294967296 < 4294967296 := Nat.mod_lt _ (by decide)
    rw [h] at hlt
    have hle : s ≤ 4 := by omega
    refine ⟨hle, ?_⟩
    -- a billion is odd but for `2^9`, so the congruence is one modulo `2^23`
    rw [hns, hs, hword, Nat.mul_mod_mul_left] at h
    have hodd : 1953125 * ns ≡ 1953125 * s [MOD 8388608] := by
      rw [Nat.ModEq, Nat.eq_of_mul_eq_mul_left (by decide) h, Nat.mod_eq_of_lt (by omega)]
    have hmod := Nat.ModEq.cancel_left_of_coprime (by decide) hodd
    rw [hmod, Nat.mod_eq_of_lt (by omega)]
  · intro h
    obtain ⟨hle, hmod⟩ := h
    have hodd : 1953125 * ns % 8388608 = 1953125 * s := by
      rw [Nat.mul_mod, hmod]
      omega
    rw [hns, hs, hword, Nat.mul_mod_mul_left, hodd]

/-- **The time step comes back, exactly.** A time step that is not negative is decoded to
itself if and only if it has at most four whole seconds and its nanoseconds leave that
number of seconds modulo `2^23`. -/
theorem timeStep_roundTrip_iff (p : Netstruct) (count datasize decodelen : Int32) (dtNs : Int)
    (flags : UInt8) (rest : List UInt8) (out : DecodeOut) (hdt : 0 ≤ dtNs)
    (hsize : 0 ≤ datasize.toInt) (hlen : 28 + datasize.toInt ≤ decodelen.toInt) :
    let frame := netprotHeaderAppend p count datasize dtNs flags
    let decode := frame.bytes datasize.toInt.toNat ++ rest
    DecodesStep (netprotHeaderDecode decode decodelen out) dtNs ↔
      dtNs / 1000000000 ≤ 4 ∧ (nanoseconds dtNs % 8388608 : Int) = dtNs / 1000000000 := by
  intro frame decode
  have hret := (netprotHeaderDecode_append_ok p count datasize decodelen flags rest out hdt hsize
    hlen).1
  have hdtNs := netprotHeaderDecode_dtNs hret
  rw [extractUint32_append p count datasize flags _ rest hdt] at hdtNs
  unfold DecodesStep
  rw [hdtNs]
  -- both sides in terms of the seconds `s` and the nanoseconds
  obtain ⟨s, hs⟩ := Int.eq_ofNat_of_zero_le (a := dtNs / 1000000000) (by omega)
  have hsplit : dtNs = s * 1000000000 + nanoseconds dtNs := by
    unfold nanoseconds
    omega
  have hiff := billion_mul_mod_iff (nanoseconds dtNs) s
  have hstep : (decodedStep (nanoseconds dtNs) : Int) = dtNs ↔
      1000000000 * nanoseconds dtNs % 4294967296 = 1000000000 * s := by
    unfold decodedStep
    generalize 1000000000 * nanoseconds dtNs % 4294967296 = r
    omega
  rw [hs, hstep, hiff]
  constructor
  · intro h
    omega
  · intro h
    exact ⟨hret, by omega⟩

/-- A step of 1.008388609 s comes back. -/
theorem timeStep_roundTrip_odd :
    let frame := netprotHeaderAppend Netstruct.zero 3 4 1008388609 dataInvalid
    let decode := frame.bytes 4 ++ []
    let out : DecodeOut := { dataout := none, datasize := 0, count := 0, dtNs := 0, flags := 0 }
    DecodesStep (netprotHeaderDecode decode 32 out) 1008388609 :=
  (timeStep_roundTrip_iff Netstruct.zero 3 4 32 1008388609 dataInvalid [] _ (by decide) (by decide)
    (by decide)).mpr (by decide)

/-- A step of one second comes back as none. -/
theorem not_timeStep_roundTrip_second :
    let frame := netprotHeaderAppend Netstruct.zero 0 0 1000000000 0
    let decode := frame.bytes 0 ++ []
    let out : DecodeOut := { dataout := none, datasize := 0, count := 0, dtNs := 0, flags := 0 }
    ¬ DecodesStep (netprotHeaderDecode decode 28 out) 1000000000 := by
  intro frame decode out hstep
  have hzero : (netprotHeaderDecode decode 28 out).1.dtNs = 0 := by decide +kernel
  exact absurd (hzero.symm.trans hstep.2) (by decide)

end Datalogger
