import Datalogger.Capture.Ownership
import Datalogger.Wire.RoundTrip

/-!
# Where the interrupt stores its samples

`data0` and `data1` are `BUFFER_SIZE` bytes each, room for `MAX_SAMPLES` samples, and
`capture.c` lays a `struct netstruct` over each of them, whose samples start behind a
header of 28 bytes.

The index of the next store runs through `0 .. n-1` whatever calls are made
(`afterOps_nsample_lt`), so the stores stay inside exactly for the `n` that leave room
for the header (`captureInBounds_iff`); from 987 samples on the last ones of every
buffer go over its end.
-/

namespace Datalogger

open Lib (leBytes)

/-- `MAX_SAMPLES`. -/
def maxSamples : Nat := 1000

/-- `BUFFER_SIZE`, which is `MAX_SAMPLES * sizeof(uint16_t)`. -/
def bufferSize : Nat := maxSamples * 2

/-- The offset of `data[i]` in a `struct netstruct`. -/
def sampleOffset (i : Nat) : Nat := 28 + 2 * i

/-! ## A store in memory -/

namespace Netstruct

theorem length_sampleBytes (xs : List UInt16) :
    (xs.flatMap fun x => leBytes 2 x.toNat).length = 2 * xs.length := by
  induction xs with
  | nil => rfl
  | cons x xs ih =>
    rw [List.flatMap_cons, List.length_append, ih, Lib.length_leBytes, List.length_cons]
    omega

/-- An even number of bytes is whole samples. -/
theorem payload_two_mul (p : Netstruct) (m : Nat) :
    p.payload (2 * m) = (p.samples m).flatMap fun x => leBytes 2 x.toNat := by
  have hhalf : (2 * m + 1) / 2 = m := by omega
  rw [payload, hhalf, List.take_of_length_le]
  rw [length_sampleBytes, length_samples]

/-- A store replaces one sample. -/
theorem samples_store (p : Netstruct) {i m : Nat} (x : UInt16) (h : i < m) :
    ∃ before behind, before.length = i ∧ p.samples m = before ++ p.data i :: behind ∧
      (p.store i x).samples m = before ++ x :: behind := by
  have hrange : List.range m = List.range i ++ i :: List.range' (i + 1) (m - i - 1) := by
    have happend := List.range'_append_1 (s := 0) (m := i) (n := m - i - 1 + 1)
    rw [Nat.zero_add, List.range'_succ, ← List.range_eq_range'] at happend
    rw [happend, List.range_eq_range']
    congr 1
    omega
  have hsame : ∀ js : List Nat, i ∉ js → js.map (p.store i x).data = js.map p.data := by
    intro js hjs
    refine List.map_congr_left fun j hj => ?_
    have hne : j ≠ i := fun h0 => hjs (h0 ▸ hj)
    simp only [store]
    rw [if_neg hne]
  refine ⟨(List.range i).map p.data, (List.range' (i + 1) (m - i - 1)).map p.data, ?_, ?_, ?_⟩
  · rw [List.length_map, List.length_range]
  · rw [samples, hrange, List.map_append, List.map_cons]
  · rw [samples, hrange, List.map_append, List.map_cons, hsame _ (by simp),
      hsame _ (by simp [List.mem_range'_1])]
    simp [store]

end Netstruct

/-- A firing stores its sample in the current buffer, at the current index, and nothing
else. -/
theorem captureIsr_mem (s : Capture) (x : UInt16) :
    (captureIsr s x).mem
      = fun b => if b = s.curBuf then (s.mem b).store s.nsample x else s.mem b := by
  by_cases h : s.Completes
  · rw [captureIsr_of_completes x h]
    rfl
  · rw [captureIsr_of_not_completes x h]
    rfl

/-! ## The index -/

/-- The index after a run: the samples since the last full buffer. -/
theorem afterOps_nsample (mem : BufId → Netstruct) {n k : Int32} (hn : 1 ≤ n)
    (ops : List CaptureOp) :
    (afterOps (captureSetup mem n k) ops).nsample = (isrSamples ops).length % n.toInt.toNat := by
  have hpos : (1 : Int) ≤ n.toInt := Int32.le_iff_toInt_le.mp hn
  have hinv : FillInv n.toInt.toNat (isrSamples ops) (afterOps (captureSetup mem n k) ops) :=
    afterOps_fillInv mem (by omega) (by omega) ops
  rw [hinv.nsample_eq, Lib.length_openBlock]

/-- **Between firings the index is below `n`.** -/
theorem afterOps_nsample_lt (mem : BufId → Netstruct) {n k : Int32} (hn : 1 ≤ n)
    (ops : List CaptureOp) : ((afterOps (captureSetup mem n k) ops).nsample : Int) < n.toInt := by
  have hpos : (1 : Int) ≤ n.toInt := Int32.le_iff_toInt_le.mp hn
  have hlt := Nat.mod_lt (isrSamples ops).length (y := n.toInt.toNat) (by omega)
  rw [afterOps_nsample mem hn]
  omega

/-- Every index below `n` is reached, by as many firings. -/
theorem afterOps_firings (mem : BufId → Netstruct) {n k : Int32} (hn : 1 ≤ n) {m : Nat}
    (h : (m : Int) < n.toInt) :
    (afterOps (captureSetup mem n k) (List.replicate m (.isr 0))).nsample = m := by
  have hsamples : (isrSamples (List.replicate m (.isr 0))).length = m := by
    induction m with
    | zero => rfl
    | succ m ih => rw [List.replicate_succ, isrSamples, List.length_cons, ih (by omega)]
  rw [afterOps_nsample mem hn, hsamples, Nat.mod_eq_of_lt (by omega)]

/-! ## The bound -/

/-- The index is one of a sample of the buffer, and the sample the next firing stores
there lies inside the buffer. -/
structure InBounds (n : Int32) (s : Capture) : Prop where
  nsample_lt : (s.nsample : Int) < n.toInt
  inside : sampleOffset s.nsample + 2 ≤ bufferSize

/-- **Capture stays inside its buffers, exactly.** After `capture_setup(n, k)` every store
of every run lies inside its buffer if and only if the `n` samples and the header do. -/
theorem captureInBounds_iff (mem : BufId → Netstruct) (n k : Int32) (hn : 1 ≤ n) :
    (∀ ops, InBounds n (afterOps (captureSetup mem n k) ops)) ↔ n.toInt ≤ 986 := by
  have hpos : (1 : Int) ≤ n.toInt := Int32.le_iff_toInt_le.mp hn
  constructor
  · -- the last store of a buffer tells
    intro h
    by_contra hbig
    have hinside := (h (List.replicate 986 (.isr 0))).inside
    rw [afterOps_firings mem hn (by omega)] at hinside
    exact absurd hinside (by decide)
  · intro hfits ops
    have hlt := afterOps_nsample_lt mem (k := k) hn ops
    refine ⟨hlt, ?_⟩
    unfold sampleOffset bufferSize maxSamples
    omega

/-- The board captures 500 samples a buffer. -/
theorem captureInBounds_board :
    InBounds 500 (afterOps (captureSetup (fun _ => .zero) 500 20000)
      (List.replicate 1200 (.isr 7))) :=
  (captureInBounds_iff (fun _ => .zero) 500 20000 (by decide)).mpr (by decide) _

/-- With `MAX_SAMPLES` samples a buffer the 987th goes over its end. -/
theorem not_captureInBounds_maxSamples :
    (1000 : Int32).toInt = maxSamples ∧
      ¬ ∀ ops, InBounds 1000 (afterOps (captureSetup (fun _ => .zero) 1000 0) ops) := by
  refine ⟨by decide, fun h => ?_⟩
  have hinside := (h (List.replicate 986 (.isr 0))).inside
  rw [afterOps_firings (fun _ => .zero) (by decide) (by decide)] at hinside
  exact absurd hinside (by decide)

end Datalogger
