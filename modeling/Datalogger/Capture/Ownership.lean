import Datalogger.Lib.Blocks
import Datalogger.Capture.Buffers

/-!
# Who owns which half of the double buffer

What the double buffer is for: the stream of samples is cut into blocks of
`samples_per_buffer`; the half being written holds the open block and the other
half holds the last complete one (`FillInv`, kept by every interrupt and every
read). So after a swap there is always one half the sender may read.

`capture_read` does not hand out that half. It copies `cur_buf`, which the swap
has already moved on, so the buffer it returns is the one the interrupt writes
next (`captureRead_hands_out_current`): a read owns its buffer exactly when it
returns nothing (`runOwned_iff`). The half it leaves behind is the one to hand out
(`handsOutCompleted_other`).
-/

namespace Datalogger

open Lib (openBlock lastBlock)

/-! ## The block invariant -/

/-- The capture state after the samples `xs` since `capture_setup(n, _)`: the
current buffer starts with the open block, the other one holds the last complete
block once there is one, and a raised flag means that there is one. -/
structure FillInv (n : Nat) (xs : List UInt16) (s : Capture) : Prop where
  spb : s.samplesPerBuffer.toInt = n
  open_cur : (s.mem s.curBuf).samples s.nsample = openBlock n xs
  last_other : n ≤ xs.length → (s.mem s.curBuf.other).samples n = lastBlock n xs
  full_le : s.bufFull = true → n ≤ xs.length

theorem FillInv.nsample_eq {n : Nat} {xs : List UInt16} {s : Capture} (h : FillInv n xs s) :
    s.nsample = (openBlock n xs).length := by
  rw [← h.open_cur, Netstruct.length_samples]

theorem captureSetup_fillInv (mem : BufId → Netstruct) {n : Nat} {n' k : Int32}
    (hn' : n'.toInt = n) (hn : 0 < n) : FillInv n [] (captureSetup mem n' k) := by
  refine ⟨hn', ?_, ?_, ?_⟩
  · rw [Lib.openBlock_nil]
    rfl
  · intro hle
    exact absurd hle (by simp; omega)
  · intro hfull
    cases hfull

/-- One interrupt extends the stream by its sample. -/
theorem captureIsr_fillInv {n : Nat} {xs : List UInt16} {s : Capture} (hn : 0 < n)
    (h : FillInv n xs s) (x : UInt16) : FillInv n (xs ++ [x]) (captureIsr s x) := by
  have hlt := Lib.length_openBlock_lt hn xs
  have hns := h.nsample_eq
  have hcur : ((s.storeSample x).mem s.curBuf).samples (s.nsample + 1) = openBlock n xs ++ [x] := by
    rw [storeSample_cur, Netstruct.samples_store_succ, h.open_cur]
  by_cases hc : s.Completes
  · -- the open block becomes the last block and the roles of the halves swap
    have heq : (openBlock n xs).length + 1 = n := by
      have := h.spb
      unfold Capture.Completes at hc
      omega
    have hnlen : n ≤ (xs ++ [x]).length := by
      have hopen : (openBlock n xs).length ≤ xs.length := by
        rw [openBlock, List.length_drop]
        omega
      rw [List.length_append, List.length_singleton]
      omega
    rw [captureIsr_of_completes x hc]
    refine ⟨h.spb, ?_, fun _ => ?_, fun _ => hnlen⟩
    · rw [Lib.openBlock_snoc_eq x heq]
      rfl
    · rw [Lib.lastBlock_snoc_eq x heq, swapBuffers_curBuf, BufId.other_other, ← hcur, hns, heq]
      rfl
  · have hlt' : (openBlock n xs).length + 1 < n := by
      have := h.spb
      unfold Capture.Completes at hc
      omega
    have hlen : n ≤ (xs ++ [x]).length → n ≤ xs.length := by
      intro hle
      have hmod := Lib.length_openBlock n xs
      rw [List.length_append, List.length_singleton] at hle
      by_contra hgt
      rw [Nat.mod_eq_of_lt (by omega)] at hmod
      omega
    rw [captureIsr_of_not_completes x hc]
    refine ⟨h.spb, ?_, ?_, ?_⟩
    · rw [Lib.openBlock_snoc_lt x hlt']
      exact hcur
    · intro hle
      rw [Lib.lastBlock_snoc_lt x hlt', ← h.last_other (hlen hle)]
      exact congrArg (fun p => Netstruct.samples p n) (storeSample_other s x)
    · intro hfull
      have hle := h.full_le hfull
      rw [List.length_append]
      omega

/-- A read stores no sample and only lowers the flag. -/
theorem captureRead_fillInv {n : Nat} {xs : List UInt16} {s : Capture} (h : FillInv n xs s) :
    FillInv n xs (captureRead s).state := by
  unfold captureRead
  split
  · refine ⟨h.spb, h.open_cur, h.last_other, ?_⟩
    intro hfull
    cases hfull
  · exact h

/-- The block invariant holds after every run of interrupts and reads. -/
theorem afterOps_fillInv (mem : BufId → Netstruct) {n : Nat} {n' k : Int32}
    (hn' : n'.toInt = n) (hn : 0 < n) (ops : List CaptureOp) :
    FillInv n (isrSamples ops) (afterOps (captureSetup mem n' k) ops) := by
  refine Lib.run_history (fun as _ s => FillInv n (isrSamples as) s)
    (captureSetup_fillInv mem hn' hn) ?_ ops
  intro as _ s a h
  cases a with
  | isr x =>
    rw [isrSamples_append]
    exact captureIsr_fillInv hn h x
  | read =>
    rw [isrSamples_append]
    show FillInv n (isrSamples as ++ []) _
    rw [List.append_nil]
    exact captureRead_fillInv h

/-! ## What a read should hand out -/

/-- The state after a block of further interrupts. -/
def afterIsrs (s : Capture) (ys : List UInt16) : Capture := ys.foldl captureIsr s

/-- `b` may be sent while capture goes on: it holds the last complete block of the
stream `xs`, it is not the buffer the interrupt writes next, and fewer than `n`
further interrupts leave its samples alone. -/
structure HandsOutCompleted (n : Nat) (xs : List UInt16) (s : Capture) (b : BufId) : Prop where
  completed : n ≤ xs.length ∧ (s.mem b).samples n = lastBlock n xs
  not_next : b ≠ s.curBuf
  unchanged : ∀ ys : List UInt16, ys.length < n →
    ((afterIsrs s ys).mem b).samples n = (s.mem b).samples n

/-- A `capture_read` in state `s`, after the samples `xs`, returns 0 or hands out a
completed buffer. -/
def ReadOwned (n : Int32) (xs : List UInt16) (s : Capture) : Prop :=
  (captureRead s).ret ≠ 0 →
    ∃ out, (captureRead s).out = some out ∧
      HandsOutCompleted n.toInt.toNat xs (captureRead s).state out.buf

/-- Every `capture_read` of the run `ops` after `capture_setup(n, k)` is owned. -/
def RunOwned (mem : BufId → Netstruct) (n k : Int32) (ops : List CaptureOp) : Prop :=
  ∀ pre post, ops = pre ++ .read :: post →
    ReadOwned n (isrSamples pre) (afterOps (captureSetup mem n k) pre)

theorem afterOps_samplesPerBuffer (s : Capture) (ops : List CaptureOp) :
    (afterOps s ops).samplesPerBuffer = s.samplesPerBuffer := by
  refine Lib.run_invariant
    (I := fun t : Capture => t.samplesPerBuffer = s.samplesPerBuffer) rfl ?_ ops
  intro t a ht
  cases a with
  | isr x => rw [← ht]; exact captureIsr_samplesPerBuffer t x
  | read =>
    rw [← ht]
    show (captureRead t).state.samplesPerBuffer = _
    unfold captureRead
    split <;> rfl

/-- A read that returns anything returns the buffer the interrupt writes next. -/
theorem captureRead_hands_out_current {s : Capture} {out : ReadOut}
    (h : (captureRead s).out = some out) : out.buf = (captureRead s).state.curBuf := by
  unfold captureRead at h ⊢
  by_cases hfull : s.bufFull
  · rw [if_pos hfull] at h ⊢
    obtain rfl := Option.some.inj h
    rfl
  · rw [if_neg hfull] at h
    cases h

/-- **A read never owns what it hands out.** In every run after
`capture_setup(n, k)`, the reads are owned if and only if each of them is made
while `buf_full` is 0, that is, hands out nothing. -/
theorem runOwned_iff (mem : BufId → Netstruct) (n k : Int32) (hn : 1 ≤ n) (ops : List CaptureOp) :
    RunOwned mem n k ops ↔
      ∀ pre post, ops = pre ++ .read :: post →
        (afterOps (captureSetup mem n k) pre).bufFull = false := by
  have hn' : (1 : Int) ≤ n.toInt := Int32.le_iff_toInt_le.mp hn
  constructor
  · intro howned pre post hops
    have hread := howned pre post hops
    have hspb := afterOps_samplesPerBuffer (captureSetup mem n k) pre
    generalize afterOps (captureSetup mem n k) pre = s at hread hspb ⊢
    -- a read of a full buffer returns `n` and hands out the buffer written next
    by_contra hfull
    have hfull : s.bufFull = true := by simpa using hfull
    have hret : (captureRead s).ret ≠ 0 := by
      unfold captureRead
      rw [if_pos hfull]
      show s.samplesPerBuffer ≠ 0
      rw [hspb]
      rintro rfl
      exact absurd hn' (by decide)
    obtain ⟨out, hout, hcompleted⟩ := hread hret
    exact hcompleted.not_next (captureRead_hands_out_current hout)
  · intro hempty pre post hops hret
    have hfull := hempty pre post hops
    exfalso
    apply hret
    unfold captureRead
    rw [hfull]
    rfl

/-- `runOwned_iff` at a run that reads before anything was completed. -/
theorem runOwned_before_first_swap :
    (1 : Int32) ≤ 2 ∧ RunOwned (fun _ => .zero) 2 0 [.isr 7, .read] := by
  refine ⟨by decide, (runOwned_iff (fun _ => .zero) 2 0 (by decide) [.isr 7, .read]).mpr ?_⟩
  intro pre post hops
  rcases pre with _ | ⟨a, _ | ⟨b, pre⟩⟩
  · cases hops
  · obtain ⟨rfl, -⟩ := List.cons.inj hops
    rfl
  · exact absurd (congrArg List.length hops) (by simp)

/-- One buffer of one sample, completed and read: the half handed out is the one
written next, not the one that holds the sample. -/
theorem not_runOwned_one_sample : ¬ RunOwned (fun _ => .zero) 1 0 [.isr 7, .read] := by
  intro howned
  have hread := howned [.isr 7] [] rfl
  obtain ⟨out, hout, hcompleted⟩ := hread (by decide)
  exact hcompleted.not_next (captureRead_hands_out_current hout)

/-! ## The half that is complete -/

/-- At every read that finds a full buffer, the half `capture_read` does not return
holds the last complete block and is not written next. -/
theorem otherHalf_completed (mem : BufId → Netstruct) {n : Nat} {n' k : Int32}
    (hn' : n'.toInt = n) (hn : 0 < n) (ops : List CaptureOp) {s : Capture}
    (hs : s = afterOps (captureSetup mem n' k) ops) (hfull : s.bufFull = true) :
    (s.mem s.curBuf.other).samples n = lastBlock n (isrSamples ops) ∧
      s.curBuf.other ≠ s.curBuf := by
  have hinv := afterOps_fillInv mem (k := k) hn' hn ops
  rw [← hs] at hinv
  exact ⟨hinv.last_other (hinv.full_le hfull), BufId.other_ne _⟩

/-- The complete half is left alone until the next swap, and by the swap itself. -/
theorem otherHalf_stable {n : Nat} {s : Capture} (hspb : s.samplesPerBuffer.toInt = n) :
    ∀ (ys : List UInt16), s.nsample + ys.length ≤ n →
      (afterIsrs s ys).mem s.curBuf.other = s.mem s.curBuf.other := by
  intro ys
  induction ys generalizing s with
  | nil => intro _; rfl
  | cons y ys ih =>
    intro hlen
    rw [List.length_cons] at hlen
    show (afterIsrs (captureIsr s y) ys).mem s.curBuf.other = _
    -- a firing that swaps is the last of the block, and it writes the current half
    by_cases hc : s.Completes
    · have hnil : ys = [] := by
        apply List.length_eq_zero_iff.mp
        unfold Capture.Completes at hc
        omega
      subst hnil
      show (captureIsr s y).mem s.curBuf.other = _
      rw [captureIsr_of_completes y hc]
      exact storeSample_other s y
    · have hstep := captureIsr_of_not_completes y hc
      have hcur : (captureIsr s y).curBuf = s.curBuf := by rw [hstep]; rfl
      rw [← hcur, ih (by rw [captureIsr_samplesPerBuffer]; exact hspb)
        (by rw [hstep]; show s.nsample + 1 + ys.length ≤ n; omega), hcur, hstep]
      exact storeSample_other s y

/-- **The half a read should return.** With `buf_full` raised and at most one sample since,
the other half is all that `runOwned_iff` finds missing in the one handed out. -/
theorem handsOutCompleted_other (mem : BufId → Netstruct) {n : Nat} {n' k : Int32}
    (hn' : n'.toInt = n) (hn : 0 < n) (ops : List CaptureOp) {s : Capture}
    (hs : s = afterOps (captureSetup mem n' k) ops) (hfull : s.bufFull = true)
    (hnext : s.nsample ≤ 1) : HandsOutCompleted n (isrSamples ops) s s.curBuf.other := by
  obtain ⟨hlast, hother⟩ := otherHalf_completed mem hn' hn ops hs hfull
  have hinv := afterOps_fillInv mem (k := k) hn' hn ops
  rw [← hs] at hinv
  refine ⟨⟨hinv.full_le hfull, hlast⟩, hother, fun ys hlt => ?_⟩
  rw [otherHalf_stable hinv.spb ys (by omega)]

end Datalogger
