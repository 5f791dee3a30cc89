import Datalogger.Lib.Trace
import Datalogger.Wire.Netstruct

/-!
# The double buffer of `capture.c`

The trigger interrupt (`captureIsr`) stores one sample after another into the
current one of two static buffers and swaps them when `samples_per_buffer` are in;
the main loop (`captureRead`) asks for a full buffer. The two share the file's
globals, which are the fields of `Capture`.

`Capture` is the state from the first `capture_setup` on: `cur_buf` is one of
the two buffers. Before it `cur_buf` is `NULL` and the interrupt is not started,
so a board that has not started holds no `Capture` at all.

Mirroring notes:
- `nsample` never goes negative and stays below `INT_MAX` (it is compared with the
  `int` `samples_per_buffer` after every increment), so it is a `Nat`.
- `buf_full` and `buf_overflow` only ever hold 0 and 1.
- The argument of `captureIsr` is the value `dspi_no_fifo_3(1)` returns.
-/

namespace Datalogger

/-- The two static buffers behind `buf0` and `buf1`. -/
inductive BufId where
  | buf0
  | buf1
  deriving DecidableEq, Repr

/-- The other half of the double buffer. -/
def BufId.other : BufId → BufId
  | .buf0 => .buf1
  | .buf1 => .buf0

theorem BufId.other_ne (b : BufId) : b.other ≠ b := by cases b <;> decide

@[simp] theorem BufId.other_other (b : BufId) : b.other.other = b := by cases b <;> rfl

/-- The globals of `capture.c`. -/
structure Capture where
  mem : BufId → Netstruct
  curBuf : BufId
  nsample : Nat
  bufFull : Bool
  bufOverflow : Bool
  samplesPerBuffer : Int32
  buffersToIgnore : Int32

/-- `capture_setup`: the contents of the two buffers are left as they are. -/
def captureSetup (mem : BufId → Netstruct) (n ignoreBuffers : Int32) : Capture :=
  { mem := mem
    curBuf := .buf0
    nsample := 0
    bufFull := false
    bufOverflow := false
    samplesPerBuffer := n
    buffersToIgnore := ignoreBuffers }

/-- `cur_buf->data[nsample] = sample`. -/
def Capture.storeSample (s : Capture) (sample : UInt16) : Capture :=
  { s with mem := fun b =>
      if b = s.curBuf then (s.mem b).store s.nsample sample else s.mem b }

/-- The `if (nsample >= samples_per_buffer)` body of the interrupt: swap, restart,
count the ignored buffers down or look for an overrun, and raise the flag. -/
def Capture.swapBuffers (s : Capture) : Capture :=
  { s with
    curBuf := if s.curBuf = .buf0 then .buf1 else .buf0
    nsample := 0
    buffersToIgnore := if s.buffersToIgnore ≠ 0 then s.buffersToIgnore - 1 else s.buffersToIgnore
    bufOverflow := if s.buffersToIgnore ≠ 0 then s.bufOverflow else s.bufFull || s.bufOverflow
    bufFull := true }

/-- `capture_isr`. -/
def captureIsr (s : Capture) (sample : UInt16) : Capture :=
  let stored := { s.storeSample sample with nsample := s.nsample + 1 }
  if stored.samplesPerBuffer.toInt ≤ stored.nsample then stored.swapBuffers else stored

/-- What `capture_read` writes through its two pointers. -/
structure ReadOut where
  buf : BufId
  ignoreBuffer : Int32
  deriving DecidableEq, Repr

/-- The result of `capture_read`; `out` is `none` when the pointers are not written. -/
structure CaptureRead where
  ret : Int32
  out : Option ReadOut
  state : Capture

/-- `capture_read`. -/
def captureRead (s : Capture) : CaptureRead :=
  if s.bufFull then
    { ret := s.samplesPerBuffer
      out := some { buf := s.curBuf, ignoreBuffer := s.buffersToIgnore }
      state := { s with bufFull := false } }
  else
    { ret := 0, out := none, state := s }

theorem captureRead_full {s : Capture} (h : s.bufFull = true) :
    captureRead s =
      { ret := s.samplesPerBuffer
        out := some { buf := s.curBuf, ignoreBuffer := s.buffersToIgnore }
        state := { s with bufFull := false } } := if_pos h

theorem captureRead_empty {s : Capture} (h : s.bufFull = false) :
    captureRead s = { ret := 0, out := none, state := s } :=
  if_neg (by rw [h]; decide)

/-- `capture_set_empty`. -/
def captureSetEmpty (s : Capture) : Capture := { s with bufFull := false }

/-! ## What one interrupt does -/

/-- The firing fills the current buffer. -/
def Capture.Completes (s : Capture) : Prop := s.samplesPerBuffer.toInt ≤ s.nsample + 1

instance (s : Capture) : Decidable s.Completes := inferInstanceAs (Decidable (_ ≤ _))

/-- A firing inside a buffer stores its sample and moves on. -/
theorem captureIsr_of_not_completes {s : Capture} (x : UInt16) (h : ¬ s.Completes) :
    captureIsr s x = { s.storeSample x with nsample := s.nsample + 1 } := by
  unfold captureIsr
  rw [if_neg]
  exact h

/-- A firing that fills the buffer stores its sample and swaps. -/
theorem captureIsr_of_completes {s : Capture} (x : UInt16) (h : s.Completes) :
    captureIsr s x = ({ s.storeSample x with nsample := s.nsample + 1 } : Capture).swapBuffers := by
  unfold captureIsr
  rw [if_pos]
  exact h

@[simp] theorem storeSample_cur (s : Capture) (x : UInt16) :
    (s.storeSample x).mem s.curBuf = (s.mem s.curBuf).store s.nsample x := by
  simp [Capture.storeSample]

@[simp] theorem storeSample_other (s : Capture) (x : UInt16) :
    (s.storeSample x).mem s.curBuf.other = s.mem s.curBuf.other := by
  simp [Capture.storeSample, BufId.other_ne]

@[simp] theorem swapBuffers_curBuf (s : Capture) : s.swapBuffers.curBuf = s.curBuf.other := by
  unfold Capture.swapBuffers
  cases h : s.curBuf <;> rfl

theorem captureIsr_samplesPerBuffer (s : Capture) (x : UInt16) :
    (captureIsr s x).samplesPerBuffer = s.samplesPerBuffer := by
  by_cases h : s.Completes
  · rw [captureIsr_of_completes x h]
    rfl
  · rw [captureIsr_of_not_completes x h]
    rfl

/-! ## Runs of interrupts and reads -/

/-- One call: the interrupt with the sample it takes, or a read. -/
inductive CaptureOp where
  | isr (sample : UInt16)
  | read
  deriving DecidableEq, Repr

/-- One call of a run; a read that finds a full buffer emits what it hands out. -/
def captureStep (s : Capture) : CaptureOp → Capture × List ReadOut
  | .isr x => (captureIsr s x, [])
  | .read => ((captureRead s).state, (captureRead s).out.toList)

/-- The samples the interrupts of a run stored, in order. -/
def isrSamples : List CaptureOp → List UInt16
  | [] => []
  | .isr x :: ops => x :: isrSamples ops
  | .read :: ops => isrSamples ops

theorem isrSamples_append (as bs : List CaptureOp) :
    isrSamples (as ++ bs) = isrSamples as ++ isrSamples bs := by
  induction as with
  | nil => rfl
  | cons a as ih => cases a <;> simp [isrSamples, ih]

/-- The state after the calls `ops`. -/
def afterOps (s : Capture) (ops : List CaptureOp) : Capture := (Lib.run captureStep s ops).1

end Datalogger
