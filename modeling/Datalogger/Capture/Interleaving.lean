import Datalogger.Lib.Interleave
import Datalogger.Capture.Buffers

/-!
# `capture_read` and `capture_set_empty` statement by statement

Nothing disables the trigger interrupt while the main loop is inside `capture_read`
or `capture_set_empty`, so it may fire between any two of their statements. Here
the two functions are lists of their statements (`readerExec` is one of them),
interleaved with whole runs of `captureIsr`; executed without an interrupt they are
`captureRead` and `captureSetEmpty` again (`read_uninterrupted`,
`setEmpty_uninterrupted`).

`capture_accounted` is what survives every interleaving: no completed buffer goes
missing. `capture_read` tests `buf_full` in one statement and lowers it two
statements later, but only the main loop ever lowers it, so a read that saw it
raised still finds it raised (`flagSeen`).

Mirroring note: what a local or the target of a pointer argument holds stands in
the statements that are left once it is assigned.
-/

namespace Datalogger

open Lib (Frame Interruptible)

/-- The statements of `capture_read` and `capture_set_empty`. -/
inductive ReaderStmt where
  | testBufFull
  | storeBuf
  | lowerBufFull (buf : BufId)
  | storeIgnore (buf : BufId)
  | returnRead (out : Option ReadOut)
  | setEmpty
  deriving DecidableEq, Repr

/-- The calls of a main loop that is capturing. -/
inductive ReaderCall where
  | read
  | setEmpty
  deriving DecidableEq, Repr

/-- What an observer of a run sees: each sample with the place it is stored at, each
buffer that completes (what `data[0 .. n-1]` then holds, and the `buf_full` and
`buffers_to_ignore` the interrupt finds), each change of `cur_buf`, each read that
returns, and each `capture_set_empty` that finds `buf_full` raised. -/
inductive CaptureEvent where
  | stored (buf : BufId) (slot : Nat) (sample : UInt16)
  | completed (buf : BufId) (data : List UInt16) (full : Bool) (ignore : Int32)
  | current (buf : BufId)
  | readReturned (ret : Int32) (out : Option ReadOut)
  | discarded
  deriving DecidableEq, Repr

/-- The statement each call starts with. -/
def readerBody : ReaderCall → List ReaderStmt
  | .read => [.testBufFull]
  | .setEmpty => [.setEmpty]

/-- One statement: the globals after it, what the call goes on with, what is seen. -/
def readerExec (s : Capture) : ReaderStmt → Capture × List ReaderStmt × List CaptureEvent
  | .testBufFull => (s, if s.bufFull then [.storeBuf] else [.returnRead none], [])
  | .storeBuf => (s, [.lowerBufFull s.curBuf], [])
  | .lowerBufFull buf => ({ s with bufFull := false }, [.storeIgnore buf], [])
  | .storeIgnore buf =>
    (s, [.returnRead (some { buf := buf, ignoreBuffer := s.buffersToIgnore })], [])
  | .returnRead none => (s, [], [.readReturned 0 none])
  | .returnRead (some out) => (s, [], [.readReturned s.samplesPerBuffer (some out)])
  | .setEmpty => (captureSetEmpty s, [], if s.bufFull then [.discarded] else [])

/-- What is seen of one firing of the interrupt. -/
def isrEvents (s : Capture) (x : UInt16) : List CaptureEvent :=
  .stored s.curBuf s.nsample x ::
    if s.Completes then
      [.completed s.curBuf (((captureIsr s x).mem s.curBuf).samples s.samplesPerBuffer.toInt.toNat)
          s.bufFull s.buffersToIgnore,
        .current s.curBuf.other]
    else []

/-- The main loop that reads while the trigger interrupt fires. -/
def readerProgram : Interruptible Capture ReaderStmt ReaderCall UInt16 CaptureEvent where
  body := readerBody
  exec := readerExec
  interrupt s x := (captureIsr s x, isrEvents s x)

theorem read_uninterrupted (s : Capture) :
    readerProgram.run ⟨s, []⟩ (.call .read :: List.replicate 5 .next)
      = (⟨(captureRead s).state, []⟩, [.readReturned (captureRead s).ret (captureRead s).out]) := by
  obtain ⟨mem, curBuf, nsample, bufFull, bufOverflow, samplesPerBuffer, buffersToIgnore⟩ := s
  cases bufFull <;> rfl

theorem setEmpty_uninterrupted (s : Capture) :
    (readerProgram.run ⟨s, []⟩ [.call .setEmpty, .next]).1 = ⟨captureSetEmpty s, []⟩ := rfl

/-! ## Counting completed buffers -/

/-- A buffer completed. -/
@[simp] def CaptureEvent.isCompleted : CaptureEvent → Bool
  | .completed .. => true
  | _ => false

/-- A buffer completed while `buf_full` was already 1. -/
@[simp] def CaptureEvent.isOverlap : CaptureEvent → Bool
  | .completed _ _ full _ => full
  | _ => false

/-- A `capture_set_empty` threw a full buffer away. -/
@[simp] def CaptureEvent.isDiscarded : CaptureEvent → Bool
  | .discarded => true
  | _ => false

/-- A `capture_read` returned with a buffer. -/
@[simp] def CaptureEvent.isHandedOver : CaptureEvent → Bool
  | .readReturned _ out => out.isSome
  | _ => false

/-- The read in progress has found `buf_full` raised and not lowered it yet. -/
def flagSeen : List ReaderStmt → Bool
  | .storeBuf :: _ => true
  | .lowerBufFull _ :: _ => true
  | _ => false

/-- The read in progress has lowered `buf_full` and not returned yet. -/
def flagTaken : List ReaderStmt → Bool
  | .storeIgnore _ :: _ => true
  | .returnRead (some _) :: _ => true
  | _ => false

/-- The successful `capture_read`s so far: those that returned with a buffer, and
the one in progress once it has taken its buffer, that is, lowered `buf_full`. -/
def successfulReads (events : List CaptureEvent) (todo : List ReaderStmt) : Nat :=
  events.countP CaptureEvent.isHandedOver + (flagTaken todo).toNat

/-- Every completed buffer has been read, discarded or overtaken by the next one,
or is the one `buf_full` stands for. -/
def Balanced (events : List CaptureEvent) (m : Frame Capture ReaderStmt) : Prop :=
  events.countP CaptureEvent.isCompleted
    = successfulReads events m.todo + events.countP CaptureEvent.isDiscarded
      + events.countP CaptureEvent.isOverlap + m.state.bufFull.toNat

/-- `buf_overflow` tells whether some buffer completed with `buf_full` raised and
none left to ignore. -/
def OverflowTold (events : List CaptureEvent) (s : Capture) : Prop :=
  s.bufOverflow = true ↔ ∃ buf data, CaptureEvent.completed buf data true 0 ∈ events

/-- What a read returned is `samples_per_buffer` if it handed a buffer over, else 0. -/
def ReturnsTold (n : Int32) (events : List CaptureEvent) : Prop :=
  ∀ ret out, CaptureEvent.readReturned ret out ∈ events → ret = if out.isSome then n else 0

/-- The accounts of a capture with `n` samples per buffer. -/
structure ReadingInv (n : Int32) (events : List CaptureEvent) (m : Frame Capture ReaderStmt) :
    Prop where
  balanced : Balanced events m
  overflow : OverflowTold events m.state
  returns : ReturnsTold n events
  spb : m.state.samplesPerBuffer = n
  todo_le : m.todo.length ≤ 1
  raised : flagSeen m.todo = true → m.state.bufFull = true

theorem captureSetup_readingInv (mem : BufId → Netstruct) (n k : Int32) :
    ReadingInv n [] ⟨captureSetup mem n k, []⟩ := by
  refine ⟨rfl, ?_, ?_, rfl, by simp, fun h => ?_⟩
  · simp [OverflowTold, captureSetup]
  · intro ret out h
    exact absurd h List.not_mem_nil
  · cases h

/-! ## One statement -/

theorem raised_of_not_seen {todo : List ReaderStmt} {full : Bool} (h : flagSeen todo = false) :
    flagSeen todo = true → full = true := by
  intro hseen
  rw [h] at hseen
  cases hseen

/-- An event that is no completed buffer changes nothing `buf_overflow` tells. -/
theorem OverflowTold.append {events more : List CaptureEvent} {s t : Capture}
    (h : OverflowTold events s) (ht : t.bufOverflow = s.bufOverflow)
    (hmore : ∀ buf data full ignore, CaptureEvent.completed buf data full ignore ∉ more) :
    OverflowTold (events ++ more) t := by
  unfold OverflowTold at h ⊢
  rw [ht, h]
  simp [hmore]

theorem ReturnsTold.append {n : Int32} {events more : List CaptureEvent} (h : ReturnsTold n events)
    (hmore : ReturnsTold n more) : ReturnsTold n (events ++ more) := by
  intro ret out hmem
  rcases List.mem_append.mp hmem with hold | hnew
  · exact h ret out hold
  · exact hmore ret out hnew

theorem returnsTold_of_no_return {n : Int32} {more : List CaptureEvent}
    (h : ∀ ret out, CaptureEvent.readReturned ret out ∉ more) : ReturnsTold n more :=
  fun ret out hmem => absurd hmem (h ret out)

/-- A call that starts sees nothing and has lowered nothing. -/
theorem readerBody_readingInv {n : Int32} {events : List CaptureEvent} {s : Capture}
    (h : ReadingInv n events ⟨s, []⟩) (c : ReaderCall) :
    ReadingInv n events ⟨s, readerBody c⟩ := by
  cases c with
  | read => exact ⟨h.balanced, h.overflow, h.returns, h.spb, Nat.le_refl 1, raised_of_not_seen rfl⟩
  | setEmpty =>
    exact ⟨h.balanced, h.overflow, h.returns, h.spb, Nat.le_refl 1, raised_of_not_seen rfl⟩

/-- One statement keeps the accounts. -/
theorem readerExec_readingInv {n : Int32} {events : List CaptureEvent} {s : Capture}
    {k : ReaderStmt} {ks : List ReaderStmt} (h : ReadingInv n events ⟨s, k :: ks⟩) :
    ReadingInv n (events ++ (readerExec s k).2.2)
      ⟨(readerExec s k).1, (readerExec s k).2.1 ++ ks⟩ := by
  obtain ⟨hbal, hover, hret, hspb, htodo, hraised⟩ := h
  have hks : ks = [] := by
    simp only [List.length_cons] at htodo
    exact List.eq_nil_of_length_eq_zero (by omega)
  subst hks
  simp only [Balanced, successfulReads] at hbal
  cases k with
  | testBufFull =>
    simp only [readerExec, List.append_nil]
    by_cases hfull : s.bufFull = true
    · rw [if_pos hfull]
      exact ⟨hbal, hover, hret, hspb, Nat.le_refl 1, fun _ => hfull⟩
    · rw [if_neg hfull]
      exact ⟨hbal, hover, hret, hspb, Nat.le_refl 1, raised_of_not_seen rfl⟩
  | storeBuf =>
    simp only [readerExec, List.append_nil]
    exact ⟨hbal, hover, hret, hspb, Nat.le_refl 1, fun _ => hraised rfl⟩
  | lowerBufFull buf =>
    simp only [readerExec, List.append_nil]
    -- the flag the test saw is still raised, so lowering it moves one unit to the reads
    have hfull : s.bufFull = true := hraised rfl
    refine ⟨?_, hover, hret, hspb, Nat.le_refl 1, raised_of_not_seen rfl⟩
    simp only [hfull, flagTaken, Bool.toNat_true, Bool.toNat_false] at hbal
    simp only [Balanced, successfulReads, flagTaken, Bool.toNat_true, Bool.toNat_false]
    omega
  | storeIgnore buf =>
    simp only [readerExec, List.append_nil]
    exact ⟨hbal, hover, hret, hspb, Nat.le_refl 1, raised_of_not_seen rfl⟩
  | returnRead out =>
    cases out with
    | none =>
      refine ⟨?_, hover.append rfl (by simp [readerExec]), hret.append ?_, hspb, Nat.zero_le 1,
        raised_of_not_seen rfl⟩
      · simp only [flagTaken, Bool.toNat_false] at hbal
        simp [Balanced, successfulReads, readerExec, flagTaken]
        omega
      · intro ret out hmem
        simp only [readerExec, List.mem_singleton, CaptureEvent.readReturned.injEq] at hmem
        rw [hmem.1, hmem.2]
        rfl
    | some out =>
      -- the read in progress becomes one that has returned
      refine ⟨?_, hover.append rfl (by simp [readerExec]), hret.append ?_, hspb, Nat.zero_le 1,
        raised_of_not_seen rfl⟩
      · simp only [flagTaken, Bool.toNat_true] at hbal
        simp [Balanced, successfulReads, readerExec, flagTaken]
        omega
      · intro ret out' hmem
        simp only [readerExec, List.mem_singleton, CaptureEvent.readReturned.injEq] at hmem
        rw [hmem.1, hmem.2]
        exact hspb
  | setEmpty =>
    refine ⟨?_, hover.append rfl ?_, hret.append (returnsTold_of_no_return ?_), hspb,
      Nat.zero_le 1, raised_of_not_seen rfl⟩
    · simp only [flagTaken, Bool.toNat_false] at hbal
      simp only [Balanced, successfulReads, readerExec, captureSetEmpty, flagTaken,
        List.append_nil, List.countP_append, Bool.toNat_false]
      by_cases hfull : s.bufFull = true
      · rw [hfull] at hbal
        simp [hfull] at hbal ⊢
        omega
      · rw [Bool.not_eq_true] at hfull
        rw [hfull] at hbal
        simp [hfull] at hbal ⊢
        omega
    · intro buf data full ignore
      simp only [readerExec]
      split <;> simp
    · intro ret out
      simp only [readerExec]
      split <;> simp

/-- A firing that fills the buffer sets `buf_overflow` exactly if it finds `buf_full`
raised and no buffer left to ignore. -/
theorem captureIsr_overflowTold {events : List CaptureEvent} {s : Capture}
    (h : OverflowTold events s) (x : UInt16) :
    OverflowTold (events ++ isrEvents s x) (captureIsr s x) := by
  by_cases hc : s.Completes
  · unfold OverflowTold at h ⊢
    have hmem : (∃ buf data, CaptureEvent.completed buf data true 0 ∈ events ++ isrEvents s x) ↔
        (∃ buf data, CaptureEvent.completed buf data true 0 ∈ events) ∨
          (s.bufFull = true ∧ s.buffersToIgnore = 0) := by
      simp only [isrEvents, if_pos hc, List.mem_append, List.mem_cons, List.not_mem_nil, or_false,
        reduceCtorEq, false_or, CaptureEvent.completed.injEq, exists_or, eq_comm (a := true),
        eq_comm (a := (0 : Int32))]
      simp
    have hover : (captureIsr s x).bufOverflow =
        if s.buffersToIgnore ≠ 0 then s.bufOverflow else s.bufFull || s.bufOverflow := by
      rw [captureIsr_of_completes x hc]
      rfl
    rw [hmem, ← h, hover]
    by_cases hk : s.buffersToIgnore = 0
    · rw [if_neg (not_not_intro hk), Bool.or_eq_true]
      simp [hk, or_comm]
    · rw [if_pos hk]
      simp [hk]
  · rw [captureIsr_of_not_completes x hc]
    refine h.append rfl ?_
    simp [isrEvents, if_neg hc]

/-- A firing that fills the buffer raises the flag, or is counted as overtaking the
buffer the flag stood for. -/
theorem captureIsr_balanced {events : List CaptureEvent} {s : Capture} {ks : List ReaderStmt}
    (h : Balanced events ⟨s, ks⟩) (x : UInt16) :
    Balanced (events ++ isrEvents s x) ⟨captureIsr s x, ks⟩ := by
  simp only [Balanced, successfulReads] at h ⊢
  by_cases hc : s.Completes
  · have hfull : (captureIsr s x).bufFull = true := by
      rw [captureIsr_of_completes x hc]
      rfl
    have hevents : isrEvents s x = [.stored s.curBuf s.nsample x,
        .completed s.curBuf
          (((captureIsr s x).mem s.curBuf).samples s.samplesPerBuffer.toInt.toNat) s.bufFull
          s.buffersToIgnore,
        .current s.curBuf.other] := by
      rw [isrEvents, if_pos hc]
    have hover : (isrEvents s x).countP CaptureEvent.isOverlap = s.bufFull.toNat := by
      rw [hevents]
      cases s.bufFull <;> rfl
    have hdone : (isrEvents s x).countP CaptureEvent.isCompleted = 1 := by rw [hevents]; rfl
    have hread : (isrEvents s x).countP CaptureEvent.isHandedOver = 0 := by rw [hevents]; rfl
    have hdisc : (isrEvents s x).countP CaptureEvent.isDiscarded = 0 := by rw [hevents]; rfl
    simp only [List.countP_append, hdone, hover, hread, hdisc, hfull, Bool.toNat_true]
    omega
  · have hfull : (captureIsr s x).bufFull = s.bufFull := by
      rw [captureIsr_of_not_completes x hc]
      rfl
    rw [hfull]
    simpa [isrEvents, hc] using h

/-- One firing keeps the accounts. -/
theorem captureIsr_readingInv {n : Int32} {events : List CaptureEvent} {s : Capture}
    {ks : List ReaderStmt} (h : ReadingInv n events ⟨s, ks⟩) (x : UInt16) :
    ReadingInv n (events ++ isrEvents s x) ⟨captureIsr s x, ks⟩ := by
  refine ⟨captureIsr_balanced h.balanced x, captureIsr_overflowTold h.overflow x,
    h.returns.append (returnsTold_of_no_return ?_), ?_, h.todo_le, fun hseen => ?_⟩
  · intro ret out
    simp only [isrEvents]
    split <;> simp
  · exact (captureIsr_samplesPerBuffer s x).trans h.spb
  · -- the interrupt never lowers the flag
    have hfull : s.bufFull = true := h.raised hseen
    by_cases hc : s.Completes
    · rw [captureIsr_of_completes x hc]
      rfl
    · rw [captureIsr_of_not_completes x hc]
      exact hfull

/-- **The accounts of the double buffer balance.** In every interleaving of
`capture_read`s and `capture_set_empty`s with the interrupt after `capture_setup(n, k)`,
the buffers completed are those handed over by a successful `capture_read`, those
discarded by `capture_set_empty` and those that completed while `buf_full` was
already 1, plus one if it is 1 now; `buf_overflow` is 1 exactly if some buffer
completed with `buf_full = 1` and `buffers_to_ignore = 0`; and a read that returned
has returned `n` if it was successful, else 0. -/
theorem capture_accounted (mem : BufId → Netstruct) (n k : Int32)
    (moves : List (Lib.Move ReaderCall UInt16)) :
    let r := readerProgram.run ⟨captureSetup mem n k, []⟩ moves
    Balanced r.2 r.1 ∧ OverflowTold r.2 r.1.state ∧ ReturnsTold n r.2 := by
  have h := Interruptible.run_history (p := readerProgram) (G := fun _ => True) (ReadingInv n)
    (captureSetup_readingInv mem n k)
    (fun _ _ c h => readerBody_readingInv h c) (fun _ _ _ _ h _ => readerExec_readingInv h)
    (fun _ _ _ x h => captureIsr_readingInv h x) moves (fun _ _ _ => trivial)
  exact ⟨h.balanced, h.overflow, h.returns⟩

end Datalogger
