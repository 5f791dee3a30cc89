import Mathlib.Data.List.Infix
import Datalogger.Capture.Interleaving

/-!
# START while capture is running

`netprot_cmd_start` calls `capture_setup` whether or not the trigger interrupt is
already enabled, and `capture_setup` assigns its six globals one by one. Here it is
a list of statements too, next to those of the two readers, and the question is
what a buffer holds when it completes (`Unmixed`): the last `n` samples, in order,
all stored since that buffer became the current one.

`nsample` is reset two statements before `cur_buf`. An interrupt in between counts
a sample that it stores in the old current buffer; if that is `buf1`, `buf0` then
becomes the current buffer with `nsample` already past its first slots, which keep
what an earlier capture left there (`restart_mixes`). `restart_unmixed` shows that
nothing else goes wrong: buffers are unmixed in every run in which `cur_buf = buf0`
is only executed with `nsample` 0 or `buf0` current (`RestartInPlace`).
-/

namespace Datalogger

open Lib (Frame Interruptible)

/-- The statements of `capture_setup`. -/
inductive SetupStmt where
  | setSamplesPerBuffer (n : Int32)
  | setBuffersToIgnore (ignoreBuffers : Int32)
  | resetNsample
  | resetBufFull
  | resetCurBuf
  | resetBufOverflow
  deriving DecidableEq, Repr

/-- `capture_setup(n, ignore_buffers)`. -/
def captureSetupBody (n ignoreBuffers : Int32) : List SetupStmt :=
  [.setSamplesPerBuffer n, .setBuffersToIgnore ignoreBuffers, .resetNsample, .resetBufFull,
    .resetCurBuf, .resetBufOverflow]

/-- One statement of `capture_setup`. -/
def setupExec (s : Capture) : SetupStmt → Capture × List CaptureEvent
  | .setSamplesPerBuffer n => ({ s with samplesPerBuffer := n }, [])
  | .setBuffersToIgnore k => ({ s with buffersToIgnore := k }, [])
  | .resetNsample => ({ s with nsample := 0 }, [])
  | .resetBufFull => ({ s with bufFull := false }, [])
  | .resetCurBuf => ({ s with curBuf := .buf0 }, if s.curBuf = .buf0 then [] else [.current .buf0])
  | .resetBufOverflow => ({ s with bufOverflow := false }, [])

/-- A statement of the main loop. -/
inductive MainStmt where
  | setup (stmt : SetupStmt)
  | reader (stmt : ReaderStmt)
  deriving DecidableEq, Repr

/-- A call of the main loop: START, with the delay it reads from the store, or one
of the two readers. -/
inductive MainCall where
  | start (ignoreBuffers : Int32)
  | reader (c : ReaderCall)
  deriving DecidableEq, Repr

/-- The main loop of a board with `n` samples per buffer, and the trigger interrupt. -/
def captureProgram (n : Int32) : Interruptible Capture MainStmt MainCall UInt16 CaptureEvent where
  body
    | .start ignoreBuffers => (captureSetupBody n ignoreBuffers).map .setup
    | .reader c => (readerBody c).map .reader
  exec s
    | .setup stmt => ((setupExec s stmt).1, [], (setupExec s stmt).2)
    | .reader stmt =>
      ((readerExec s stmt).1, (readerExec s stmt).2.1.map .reader, (readerExec s stmt).2.2)
  interrupt s x := (captureIsr s x, isrEvents s x)

theorem setup_uninterrupted (s : Capture) (n ignoreBuffers : Int32) :
    ((captureProgram n).run ⟨s, []⟩ (.call (.start ignoreBuffers) :: List.replicate 6 .next)).1
      = ⟨captureSetup s.mem n ignoreBuffers, []⟩ := rfl

/-! ## What a completed buffer should hold -/

/-- The stores since `cur_buf` last changed, as buffer, slot and sample. -/
def writesSinceCurrent (events : List CaptureEvent) : List (BufId × Nat × UInt16) :=
  events.foldl
    (fun writes event =>
      match event with
      | .stored buf slot sample => writes ++ [(buf, slot, sample)]
      | .current _ => []
      | _ => writes) []

/-- The stores that fill `data[0 ..]` of `buf` with `data`, in order. -/
def fillWrites (buf : BufId) (data : List UInt16) : List (BufId × Nat × UInt16) :=
  data.zipIdx.map fun p => (buf, p.2, p.1)

/-- A buffer that completes after the events `before` holds `n` samples, and the
last stores since it became the current one are those that put them there, slot
by slot. -/
def CompletesUnmixed (n : Nat) (before : List CaptureEvent) : CaptureEvent → Prop
  | .completed buf data _ _ =>
    data.length = n ∧ fillWrites buf data <:+ writesSinceCurrent before
  | _ => True

/-- Every buffer that completes in a run holds one capture only. -/
def Unmixed (n : Nat) (events : List CaptureEvent) : Prop :=
  ∀ before event after, events = before ++ event :: after → CompletesUnmixed n before event

theorem length_fillWrites (buf : BufId) (data : List UInt16) :
    (fillWrites buf data).length = data.length := by
  simp [fillWrites]

theorem fillWrites_snoc (buf : BufId) (data : List UInt16) (x : UInt16) :
    fillWrites buf (data ++ [x]) = fillWrites buf data ++ [(buf, data.length, x)] := by
  simp [fillWrites, List.zipIdx_append]

theorem writesSinceCurrent_stored (events : List CaptureEvent) (buf : BufId) (slot : Nat)
    (x : UInt16) :
    writesSinceCurrent (events ++ [.stored buf slot x])
      = writesSinceCurrent events ++ [(buf, slot, x)] := by
  simp [writesSinceCurrent, List.foldl_append]

theorem writesSinceCurrent_current (events : List CaptureEvent) (buf : BufId) :
    writesSinceCurrent (events ++ [.current buf]) = [] := by
  simp [writesSinceCurrent, List.foldl_append]

theorem unmixed_nil (n : Nat) : Unmixed n [] := by
  intro before event after h
  simp at h

/-- The events up to the last one are judged without it. -/
theorem unmixed_snoc {n : Nat} {events : List CaptureEvent} {event : CaptureEvent} :
    Unmixed n (events ++ [event]) ↔ Unmixed n events ∧ CompletesUnmixed n events event := by
  constructor
  · intro h
    refine ⟨fun before e after hsplit => h before e (after ++ [event]) ?_, h events event [] rfl⟩
    rw [hsplit, List.append_assoc, List.cons_append]
  · rintro ⟨hold, hlast⟩ before e after hsplit
    rcases Lib.snoc_eq_append_cons.mp hsplit with ⟨-, rfl, rfl⟩ | ⟨after', -, rfl⟩
    · exact hlast
    · exact hold before e after' rfl

/-- What the readers see: no store, no swap and no completed buffer. -/
def CaptureEvent.isReaders : CaptureEvent → Bool
  | .readReturned .. => true
  | .discarded => true
  | _ => false

theorem readers_append {n : Nat} (events : List CaptureEvent) {more : List CaptureEvent}
    (hmore : ∀ e ∈ more, e.isReaders = true) :
    writesSinceCurrent (events ++ more) = writesSinceCurrent events ∧
      (Unmixed n events → Unmixed n (events ++ more)) := by
  induction more using List.reverseRecOn with
  | nil => simp
  | append_singleton more e ih =>
    obtain ⟨hwrites, hunmixed⟩ := ih fun a ha => hmore a (List.mem_append_left _ ha)
    have he := hmore e (by simp)
    rw [← List.append_assoc, unmixed_snoc]
    cases e with
    | readReturned ret out =>
      refine ⟨?_, fun h => ⟨hunmixed h, trivial⟩⟩
      rw [← hwrites]
      simp [writesSinceCurrent, List.foldl_append]
    | discarded =>
      refine ⟨?_, fun h => ⟨hunmixed h, trivial⟩⟩
      rw [← hwrites]
      simp [writesSinceCurrent, List.foldl_append]
    | _ => cases he

/-! ## The place of the next store -/

/-- `cur_buf = buf0` is only executed at the first slot of a buffer, or in `buf0`. -/
def RestartInPlace (m : Frame Capture MainStmt) : Prop :=
  m.todo.head? = some (.setup .resetCurBuf) → m.state.nsample = 0 ∨ m.state.curBuf = .buf0

instance (m : Frame Capture MainStmt) : Decidable (RestartInPlace m) :=
  inferInstanceAs (Decidable (_ → _))

/-- The first `nsample` slots of the current buffer were filled since it became the
current one, by the last stores. -/
structure PlaceInv (n : Int32) (events : List CaptureEvent) (m : Frame Capture MainStmt) :
    Prop where
  unmixed : Unmixed n.toInt.toNat events
  filled : fillWrites m.state.curBuf ((m.state.mem m.state.curBuf).samples m.state.nsample)
    <:+ writesSinceCurrent events
  open_lt : m.state.nsample = 0 ∨ (m.state.nsample : Int) < n.toInt
  spb : m.state.samplesPerBuffer = n
  todo_spb : ∀ n', MainStmt.setup (.setSamplesPerBuffer n') ∈ m.todo → n' = n

theorem captureSetup_placeInv (mem : BufId → Netstruct) (n k : Int32) :
    PlaceInv n [] ⟨captureSetup mem n k, []⟩ :=
  ⟨unmixed_nil _, List.nil_suffix, Or.inl rfl, rfl, fun _ h => absurd h List.not_mem_nil⟩

theorem mainBody_placeInv {n : Int32} {events : List CaptureEvent} {s : Capture}
    (h : PlaceInv n events ⟨s, []⟩) (c : MainCall) :
    PlaceInv n events ⟨s, (captureProgram n).body c⟩ := by
  refine ⟨h.unmixed, h.filled, h.open_lt, h.spb, fun n' hmem => ?_⟩
  cases c with
  | start k =>
    simp [captureProgram, captureSetupBody] at hmem
    exact hmem
  | reader c => cases c <;> simp [captureProgram, readerBody] at hmem

/-- The readers move nothing but the flag. -/
theorem readerExec_frame (s : Capture) (stmt : ReaderStmt) :
    ∃ full, (readerExec s stmt).1 = { s with bufFull := full } := by
  cases stmt with
  | lowerBufFull buf => exact ⟨false, rfl⟩
  | setEmpty => exact ⟨false, rfl⟩
  | returnRead out => cases out <;> exact ⟨s.bufFull, rfl⟩
  | _ => exact ⟨s.bufFull, rfl⟩

theorem readerExec_events (s : Capture) (stmt : ReaderStmt) :
    ∀ e ∈ (readerExec s stmt).2.2, e.isReaders = true := by
  intro e he
  cases stmt with
  | returnRead out =>
    cases out <;> rw [List.mem_singleton.mp he] <;> rfl
  | setEmpty =>
    by_cases hfull : s.bufFull = true
    · simp only [readerExec, if_pos hfull, List.mem_singleton] at he
      rw [he]
      rfl
    · simp [readerExec, hfull] at he
  | _ => exact absurd he List.not_mem_nil

/-- One statement of the main loop keeps the place, `cur_buf = buf0` where it is
executed in place. -/
theorem mainExec_placeInv {n : Int32} {events : List CaptureEvent} {s : Capture}
    {k : MainStmt} {ks : List MainStmt} (h : PlaceInv n events ⟨s, k :: ks⟩)
    (hplace : RestartInPlace ⟨s, k :: ks⟩) :
    PlaceInv n (events ++ ((captureProgram n).exec s k).2.2)
      ⟨((captureProgram n).exec s k).1, ((captureProgram n).exec s k).2.1 ++ ks⟩ := by
  obtain ⟨hunmixed, hfilled, hopen, hspb, htodo⟩ := h
  have hks : ∀ n', MainStmt.setup (.setSamplesPerBuffer n') ∈ ks → n' = n :=
    fun n' hmem => htodo n' (List.mem_cons_of_mem _ hmem)
  cases k with
  | setup stmt =>
    cases stmt with
    | setSamplesPerBuffer n' =>
      simp only [captureProgram, setupExec, List.append_nil, List.nil_append]
      exact ⟨hunmixed, hfilled, hopen, htodo n' List.mem_cons_self, hks⟩
    | setBuffersToIgnore k =>
      simp only [captureProgram, setupExec, List.append_nil, List.nil_append]
      exact ⟨hunmixed, hfilled, hopen, hspb, hks⟩
    | resetNsample =>
      simp only [captureProgram, setupExec, List.append_nil, List.nil_append]
      exact ⟨hunmixed, List.nil_suffix, Or.inl rfl, hspb, hks⟩
    | resetBufFull =>
      simp only [captureProgram, setupExec, List.append_nil, List.nil_append]
      exact ⟨hunmixed, hfilled, hopen, hspb, hks⟩
    | resetCurBuf =>
      simp only [captureProgram, setupExec, List.nil_append]
      by_cases hcur : s.curBuf = .buf0
      · rw [if_pos hcur, List.append_nil]
        refine ⟨hunmixed, ?_, hopen, hspb, hks⟩
        rw [← hcur]
        exact hfilled
      · -- `buf1` was current, so nothing may have been counted yet
        have hzero : s.nsample = 0 := (hplace rfl).resolve_right hcur
        rw [if_neg hcur]
        refine ⟨unmixed_snoc.mpr ⟨hunmixed, trivial⟩, ?_, Or.inl hzero, hspb, hks⟩
        simp only [hzero, Netstruct.samples_zero]
        exact List.nil_suffix
    | resetBufOverflow =>
      simp only [captureProgram, setupExec, List.append_nil, List.nil_append]
      exact ⟨hunmixed, hfilled, hopen, hspb, hks⟩
  | reader stmt =>
    obtain ⟨hwrites, hkeep⟩ := readers_append (n := n.toInt.toNat) events
      (readerExec_events s stmt)
    obtain ⟨full, hframe⟩ := readerExec_frame s stmt
    simp only [captureProgram, hframe]
    refine ⟨hkeep hunmixed, ?_, hopen, hspb, fun n' hmem => ?_⟩
    · rw [hwrites]
      exact hfilled
    · rcases List.mem_append.mp hmem with hnew | hold
      · simp at hnew
      · exact hks n' hold

/-- One firing stores at the place the invariant names; if that fills the buffer,
it holds one capture only. -/
theorem captureIsr_placeInv {n : Int32} {events : List CaptureEvent} {s : Capture}
    {ks : List MainStmt} (h : PlaceInv n events ⟨s, ks⟩) (x : UInt16) :
    PlaceInv n (events ++ isrEvents s x) ⟨captureIsr s x, ks⟩ := by
  obtain ⟨hunmixed, hfilled, hopen, hspb, htodo⟩ := h
  simp only at hfilled hopen hspb
  have hstored : fillWrites s.curBuf (((s.storeSample x).mem s.curBuf).samples (s.nsample + 1))
      <:+ writesSinceCurrent (events ++ [.stored s.curBuf s.nsample x]) := by
    rw [writesSinceCurrent_stored, storeSample_cur, Netstruct.samples_store_succ, fillWrites_snoc,
      Netstruct.length_samples]
    exact List.suffix_append_self_iff.mpr hfilled
  have hfirst : Unmixed n.toInt.toNat (events ++ [.stored s.curBuf s.nsample x]) :=
    unmixed_snoc.mpr ⟨hunmixed, trivial⟩
  by_cases hc : s.Completes
  · have hmem : (captureIsr s x).mem = (s.storeSample x).mem := by
      rw [captureIsr_of_completes x hc]
      rfl
    have hspb' : (captureIsr s x).samplesPerBuffer = n := by
      rw [captureIsr_samplesPerBuffer]
      exact hspb
    have hwhole : CompletesUnmixed n.toInt.toNat (events ++ [.stored s.curBuf s.nsample x])
        (.completed s.curBuf (((s.storeSample x).mem s.curBuf).samples n.toInt.toNat) s.bufFull
          s.buffersToIgnore) := by
      refine ⟨Netstruct.length_samples _ _, ?_⟩
      rcases Int.lt_or_le 0 n.toInt with hpos | hneg
      · -- the open buffer was one short of full
        have hfull : n.toInt.toNat = s.nsample + 1 := by
          unfold Capture.Completes at hc
          rw [hspb] at hc
          omega
        rw [hfull]
        exact hstored
      · rw [Int.toNat_of_nonpos hneg, Netstruct.samples_zero]
        exact List.nil_suffix
    have hevents : events ++ isrEvents s x = ((events ++ [.stored s.curBuf s.nsample x])
        ++ [.completed s.curBuf (((s.storeSample x).mem s.curBuf).samples n.toInt.toNat) s.bufFull
          s.buffersToIgnore]) ++ [.current s.curBuf.other] := by
      simp only [isrEvents, if_pos hc, hmem, hspb, List.append_assoc, List.cons_append,
        List.nil_append]
    have hzero : (captureIsr s x).nsample = 0 := by
      rw [captureIsr_of_completes x hc]
      rfl
    rw [hevents]
    refine ⟨unmixed_snoc.mpr ⟨unmixed_snoc.mpr ⟨hfirst, hwhole⟩, trivial⟩, ?_, Or.inl hzero, hspb',
      htodo⟩
    simp only [hzero, Netstruct.samples_zero]
    exact List.nil_suffix
  · have hlt : (s.nsample + 1 : Int) < n.toInt := by
      rw [← hspb]
      exact Int.not_le.mp hc
    rw [captureIsr_of_not_completes x hc]
    simp only [isrEvents, if_neg hc]
    exact ⟨hfirst, hstored, Or.inr (by push_cast; exact hlt), hspb, htodo⟩

/-- **A restart in place mixes nothing.** In every run of STARTs, readers and
interrupts in which `cur_buf = buf0` is only executed with `nsample` 0 or `buf0`
current, every buffer that completes holds `n` consecutive samples in the order
taken, all stored since it became the current one. -/
theorem restart_unmixed (mem : BufId → Netstruct) (n k : Int32)
    (moves : List (Lib.Move MainCall UInt16))
    (h : (captureProgram n).Guarded RestartInPlace ⟨captureSetup mem n k, []⟩ moves) :
    Unmixed n.toInt.toNat ((captureProgram n).run ⟨captureSetup mem n k, []⟩ moves).2 := by
  have hinv := Interruptible.run_history (PlaceInv n) (captureSetup_placeInv mem n k)
    (fun _ _ c h => mainBody_placeInv h c) (fun _ _ _ _ h hG => mainExec_placeInv h hG)
    (fun _ _ _ x h => captureIsr_placeInv h x) moves h
  exact hinv.unmixed

/-- A START after three triggers of a capture with two samples per buffer, and a
trigger in the middle of it while `buf1` has no sample counted. -/
theorem restart_unmixed_midway :
    Unmixed 2 ((captureProgram 2).run ⟨captureSetup (fun _ => .zero) 2 0, []⟩
      [.fire 1, .fire 2, .fire 3, .call (.start 1), .next, .next, .fire 4, .next, .next, .next,
        .next, .fire 5, .fire 6]).2 :=
  restart_unmixed (fun _ => .zero) 2 0 _ (by decide)

/-! ## What a restart out of place leaves behind -/

/-- The firings of the interrupt with the samples `xs`. -/
def firings (xs : List UInt16) : List (Lib.Move MainCall UInt16) := xs.map .fire

theorem run_fire (n : Int32) (s : Capture) (ks : List MainStmt) (x : UInt16) :
    (captureProgram n).run ⟨s, ks⟩ [.fire x] = (⟨captureIsr s x, ks⟩, isrEvents s x) := by
  exact congrArg (Prod.mk _) (List.append_nil _)

/-- Firings that do not fill the buffer store one sample each and stay in it. -/
theorem run_firings (n : Int32) (ks : List MainStmt) (xs : List UInt16) :
    ∀ s : Capture, (s.nsample + xs.length : Int) < s.samplesPerBuffer.toInt →
      ∃ t events, (captureProgram n).run ⟨s, ks⟩ (firings xs) = (⟨t, ks⟩, events) ∧
        t.nsample = s.nsample + xs.length ∧ t.curBuf = s.curBuf ∧
        t.samplesPerBuffer = s.samplesPerBuffer ∧
        ∀ before, (writesSinceCurrent (before ++ events)).length
          = (writesSinceCurrent before).length + xs.length := by
  induction xs with
  | nil =>
    intro s _
    exact ⟨s, [], rfl, rfl, rfl, rfl, fun before => by simp⟩
  | cons x xs ih =>
    intro s hlt
    simp only [List.length_cons] at hlt
    push_cast at hlt
    have hopen : ¬ s.Completes := by
      unfold Capture.Completes
      omega
    have hisr := captureIsr_of_not_completes x hopen
    have hevents : isrEvents s x = [.stored s.curBuf s.nsample x] := by
      simp [isrEvents, hopen]
    obtain ⟨t, events, hrun, hns, hcur, hspb, hwrites⟩ := ih (captureIsr s x) (by
      rw [hisr]
      show ((s.nsample + 1 : Nat) + xs.length : Int) < s.samplesPerBuffer.toInt
      push_cast
      omega)
    refine ⟨t, isrEvents s x ++ events, ?_, ?_, ?_, ?_, fun before => ?_⟩
    · exact Interruptible.run_trans (run_fire n s ks x) hrun
    · rw [hns, hisr, List.length_cons]
      show s.nsample + 1 + xs.length = _
      omega
    · rw [hcur, hisr]
      rfl
    · rw [hspb, hisr]
      rfl
    · rw [hevents, ← List.append_assoc, hwrites, writesSinceCurrent_stored, List.length_append,
        List.length_singleton, List.length_cons]
      omega

/-- The firing that fills the buffer, seen with what was stored before it. -/
theorem not_unmixed_of_short {n : Nat} {s : Capture} (x : UInt16) {events : List CaptureEvent}
    (hc : s.Completes) (hn : s.samplesPerBuffer.toInt.toNat = n)
    (hshort : (writesSinceCurrent events).length + 1 < n) :
    ¬ Unmixed n (events ++ isrEvents s x) := by
  intro h
  obtain ⟨hlen, hfill⟩ := h (events ++ [.stored s.curBuf s.nsample x])
    (.completed s.curBuf (((captureIsr s x).mem s.curBuf).samples n) s.bufFull s.buffersToIgnore)
    [.current s.curBuf.other] (by simp [isrEvents, hc, ← hn])
  have hle := hfill.length_le
  rw [length_fillWrites, hlen, writesSinceCurrent_stored, List.length_append,
    List.length_singleton] at hle
  omega

/-- The end of a `capture_setup` that finds `buf1` current. -/
theorem finish_restart (n : Int32) {s : Capture} (hcur : s.curBuf = .buf1) :
    (captureProgram n).run ⟨s, [.setup .resetCurBuf, .setup .resetBufOverflow]⟩ [.next, .next]
      = (⟨{ s with curBuf := .buf0, bufOverflow := false }, []⟩, [.current .buf0]) := by
  obtain ⟨mem, curBuf, nsample, bufFull, bufOverflow, samplesPerBuffer, buffersToIgnore⟩ := s
  simp only at hcur
  subst hcur
  rfl

/-- **A restart out of place mixes.** If `cur_buf = buf0` is executed with `buf1`
current and samples already counted, then the next buffer to complete holds slots
nobody wrote since it became the current one, whatever the samples are. -/
theorem restart_mixes {n : Int32} {s : Capture} (before : List CaptureEvent)
    (hspb : s.samplesPerBuffer = n) (hcur : s.curBuf = .buf1) (hns : 0 < s.nsample)
    (xs : List UInt16) (x : UInt16) (hfill : (s.nsample + xs.length + 1 : Int) = n.toInt) :
    ¬ Unmixed n.toInt.toNat (before ++ ((captureProgram n).run
        ⟨s, [.setup .resetCurBuf, .setup .resetBufOverflow]⟩
        ([.next, .next] ++ firings xs ++ [.fire x])).2) := by
  let s₀ : Capture := { s with curBuf := .buf0, bufOverflow := false }
  have hstart := finish_restart n hcur
  obtain ⟨t, events, hrun, htns, -, htspb, hwrites⟩ := run_firings n [] xs s₀ (by
    show (s.nsample + xs.length : Int) < s.samplesPerBuffer.toInt
    rw [hspb]
    omega)
  have hall := Interruptible.run_trans (Interruptible.run_trans hstart hrun) (run_fire n t [] x)
  have htspb' : t.samplesPerBuffer = n := htspb.trans hspb
  rw [hall, ← List.append_assoc, ← List.append_assoc]
  refine not_unmixed_of_short x ?_ (by rw [htspb']) ?_
  · unfold Capture.Completes
    rw [htspb', htns]
    show n.toInt ≤ ((s.nsample + xs.length : Nat) : Int) + 1
    push_cast
    omega
  · rw [hwrites, writesSinceCurrent_current]
    simp only [List.length_nil]
    omega

/-- START, one buffer of triggers, START again with a trigger between `nsample = 0`
and `buf_full = 0`, and triggers until the next buffer is full. -/
def mixingSchedule (n : Nat) : List (Lib.Move MainCall UInt16) :=
  firings (List.replicate (n - 1) 1) ++ [.fire 1]
    ++ [.call (.start 0), .next, .next, .next, .fire 2, .next]
    ++ ([.next, .next] ++ firings (List.replicate (n - 2) 3) ++ [.fire 3])

/-- A START up to its `buf_full = 0`, with one trigger after `nsample = 0`. -/
theorem start_with_trigger {n k : Int32} {s : Capture} (x : UInt16) (hn : 2 ≤ n.toInt) :
    ∃ t events, (captureProgram n).run ⟨s, []⟩
        [.call (.start k), .next, .next, .next, .fire x, .next]
        = (⟨t, [.setup .resetCurBuf, .setup .resetBufOverflow]⟩, events) ∧
      t.samplesPerBuffer = n ∧ t.curBuf = s.curBuf ∧ t.nsample = 1 := by
  let reset : Capture := { s with samplesPerBuffer := n, buffersToIgnore := k, nsample := 0 }
  have hopen : ¬ reset.Completes := by
    show ¬ n.toInt ≤ ((0 : Nat) : Int) + 1
    push_cast
    omega
  have hisr := captureIsr_of_not_completes x hopen
  refine ⟨{ captureIsr reset x with bufFull := false }, _, rfl, ?_, ?_, ?_⟩
  · exact captureIsr_samplesPerBuffer reset x
  · show (captureIsr reset x).curBuf = _
    rw [hisr]
    rfl
  · show (captureIsr reset x).nsample = _
    rw [hisr]

theorem mixingSchedule_mixes (mem : BufId → Netstruct) {n k : Int32} (hn : 2 ≤ n.toInt) :
    ¬ Unmixed n.toInt.toNat ((captureProgram n).run ⟨captureSetup mem n k, []⟩
        (mixingSchedule n.toInt.toNat)).2 := by
  obtain ⟨t, first, hrun, hns, hcur, hspb, -⟩ :=
    run_firings n [] (List.replicate (n.toInt.toNat - 1) 1) (captureSetup mem n k) (by
      rw [List.length_replicate]
      show (((0 : Nat) : Int) + ((n.toInt.toNat - 1 : Nat) : Int)) < n.toInt
      omega)
  have hcompletes : t.Completes := by
    unfold Capture.Completes
    rw [hns, hspb, List.length_replicate]
    show n.toInt ≤ ((0 + (n.toInt.toNat - 1) : Nat) : Int) + 1
    omega
  obtain ⟨u, second, hrestart, huspb, hucur, huns⟩ :=
    start_with_trigger (n := n) (k := 0) (s := captureIsr t 1) 2 hn
  have hbuf1 : u.curBuf = .buf1 := by
    rw [hucur, captureIsr_of_completes 1 hcompletes, swapBuffers_curBuf]
    show t.curBuf.other = _
    rw [hcur]
    rfl
  have hstart := Interruptible.run_trans (Interruptible.run_trans hrun (run_fire n t [] 1)) hrestart
  have hmix := restart_mixes (first ++ isrEvents t 1 ++ second) huspb hbuf1 (by omega)
    (List.replicate (n.toInt.toNat - 2) 3) 3 (by
      rw [huns, List.length_replicate]
      omega)
  rw [mixingSchedule, Interruptible.run_trans hstart rfl]
  exact hmix

/-- With the board's 500 samples per buffer a trigger between two statements of
`capture_setup` leaves a stale slot in a buffer that completes afterwards. -/
theorem restart_mixes_board :
    ¬ Unmixed 500 ((captureProgram 500).run ⟨captureSetup (fun _ => .zero) 500 0, []⟩
        (mixingSchedule 500)).2 :=
  mixingSchedule_mixes (fun _ => .zero) (by decide)

end Datalogger
