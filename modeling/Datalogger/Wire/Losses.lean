import Mathlib.Data.List.Infix
import Datalogger.Wire.Delivery
import Datalogger.Wire.Packets

/-!
# Buffers the server never gets

A buffer is lost when it has been completed and no packet can carry it any more. To say
which samples a packet carries, a session is followed with a ghost beside the state: for
each place of the two halves the number of the interrupt that stored the sample there
(`watchStep`). The ghost tells the truth about memory (`handed_data`).

`capture_read` hands out the half that is filled next. So a completed buffer waits until
the buffer behind it is complete as well; from there on the next call takes it, and the
next interrupt overwrites it (`carried_iff`, `lost_iff`). An overrun is recorded in
`buf_overflow`, which nothing reads, and packets are numbered when they are sent: once the
ignore phase is over a loss leaves no trace in the packets (`not_tellsLoss_past_ignore`),
and a session reports its losses exactly if it has none (`noSilentLoss_iff`).

Buffers and interrupts are counted from 0. A packet that carries a part of a buffer,
because the interrupt has begun to overwrite the half, does not carry the buffer.
-/

namespace Datalogger

open Lib (run)

/-! ## A session with a ghost -/

/-- A session, and for each place of the two halves the number of the interrupt whose
sample lies there: `none` for what memory held before the session. -/
structure Watched where
  sender : Sender
  fired : Nat
  origin : BufId → Nat → Option Nat

/-- A packet, and where its samples come from. -/
structure Handed where
  packet : Netstruct
  origins : List (Option Nat)

/-- The session before its first event. -/
def Watched.start (s : Sender) : Watched := { sender := s, fired := 0, origin := fun _ _ => none }

/-- One event. The interrupt stores its sample at `cur_buf->data[nsample]`; a packet is the
buffer that `capture_read` hands out. -/
def watchStep (w : Watched) : SessionOp → Watched × List Handed
  | .isr x =>
    ({ sender := (sessionStep w.sender (.isr x)).1
       fired := w.fired + 1
       origin := fun b i =>
         if b = w.sender.capture.curBuf ∧ i = w.sender.capture.nsample then some w.fired
         else w.origin b i }, [])
  | .sendCapture accepted =>
    let read := captureRead w.sender.capture
    let r := sessionStep w.sender (.sendCapture accepted)
    ({ w with sender := r.1 },
      (r.2.zip read.out.toList).map fun (packet, out) =>
        { packet := packet, origins := (List.range read.ret.toInt.toNat).map (w.origin out.buf) })

/-- The session after the events `ops`. -/
def watched (s : Sender) (ops : List SessionOp) : Watched := (run watchStep (.start s) ops).1

/-- Its packets. -/
def handed (s : Sender) (ops : List SessionOp) : List Handed := (run watchStep (.start s) ops).2

/-- How many samples a buffer has. -/
def Sender.samplesPerBuffer (s : Sender) : Nat := s.capture.samplesPerBuffer.toInt.toNat

/-- How many interrupts there are among the events. -/
def interrupts (ops : List SessionOp) : Nat := (sessionSamples ops).length

/-! ## Lost buffers -/

/-- The interrupts whose samples are buffer `m` of the session. -/
def bufferOrigins (n m : Nat) : List (Option Nat) := (List.range n).map fun i => some (m * n + i)

/-- A packet carries buffer `m`. -/
def Carried (s₀ : Sender) (ops : List SessionOp) (m : Nat) : Prop :=
  ∃ h ∈ handed s₀ ops, h.origins = bufferOrigins s₀.samplesPerBuffer m

/-- Buffer `m` has been completed, no packet carries it, and none will, however the session
goes on. -/
def Lost (s₀ : Sender) (ops : List SessionOp) (m : Nat) : Prop :=
  (m + 1) * s₀.samplesPerBuffer ≤ interrupts ops ∧ ∀ rest, ¬ Carried s₀ (ops ++ rest) m

/-- The interrupt that completed buffer `m` found nothing left to ignore. -/
def PastIgnore (s₀ : Sender) (ops : List SessionOp) (m : Nat) : Prop :=
  ∃ pre x post, ops = pre ++ .isr x :: post ∧
    interrupts pre + 1 = (m + 1) * s₀.samplesPerBuffer ∧
    (afterEvents s₀ pre).capture.buffersToIgnore = 0

/-- Packet `j` tells the server that data is missing: it carries `DATA_INVALID` or its
count leaves a gap to the preceding packet's. -/
def TellsLoss (count₀ : Int32) (ps : List Netstruct) (j : Nat) : Prop :=
  ∃ p, ps[j]? = some p ∧ (p.Invalid ∨ fnetNtohl p.count ≠ precedingCount count₀ ps j + 1)

/-- Behind every interrupt of the session by which a buffer past the ignore phase is lost,
some packet tells the server. -/
def NoSilentLoss (s₀ : Sender) (ops : List SessionOp) : Prop :=
  ∀ pre x post m, ops = pre ++ .isr x :: post → PastIgnore s₀ pre m → ¬ Lost s₀ pre m →
    Lost s₀ (pre ++ [.isr x]) m →
    ∃ j, (packets s₀ pre).length ≤ j ∧ TellsLoss s₀.count (packets s₀ ops) j

/-- When buffers `m` and `m + 1` have been completed and `m` is not to be ignored, a call
is made before the next interrupt. The number of buffers to ignore is counted down from its
32-bit pattern, so a negative one is a large one. -/
def TakesInTime (n k : Int32) (ops : List SessionOp) : Prop :=
  ∀ pre x post m, ops = pre ++ .isr x :: post → k.toUInt32.toNat ≤ m →
    interrupts pre = (m + 2) * n.toInt.toNat →
    ∃ front accepted, pre = front ++ [.sendCapture accepted]

/-! ## The ghost and the session -/

theorem sessionSamples_append (as bs : List SessionOp) :
    sessionSamples (as ++ bs) = sessionSamples as ++ sessionSamples bs := by
  induction as with
  | nil => rfl
  | cons a as ih => cases a <;> simp [sessionSamples, ih]

theorem interrupts_append (as bs : List SessionOp) :
    interrupts (as ++ bs) = interrupts as + interrupts bs := by
  unfold interrupts
  rw [sessionSamples_append, List.length_append]

theorem interrupts_replicate (d : Nat) : interrupts (List.replicate d (.isr 0)) = d := by
  induction d with
  | zero => rfl
  | succ d ih => exact congrArg (· + 1) ih

theorem exists_interrupt {ops : List SessionOp} {j : Nat} (h : j < interrupts ops) :
    ∃ pre x post, ops = pre ++ .isr x :: post ∧ interrupts pre = j := by
  induction ops using List.reverseRecOn with
  | nil => exact absurd h (Nat.not_lt_zero j)
  | append_singleton as a ih =>
    rw [interrupts_append] at h
    by_cases hlt : j < interrupts as
    · obtain ⟨pre, x, post, rfl, hcount⟩ := ih hlt
      exact ⟨pre, x, post ++ [a], by simp, hcount⟩
    · -- the interrupt is the last event
      cases a with
      | isr x =>
        have hone : interrupts [SessionOp.isr x] = 1 := rfl
        exact ⟨as, x, [], rfl, by omega⟩
      | sendCapture accepted =>
        have hnone : interrupts [SessionOp.sendCapture accepted] = 0 := rfl
        omega

theorem int32_eq_zero_of_toNat {x : Int32} (h : x.toUInt32.toNat = 0) : x = 0 := by
  have hzero : x.toUInt32 = (0 : Int32).toUInt32 := UInt32.toNat_inj.mp h
  exact Int32.toBitVec.inj (congrArg UInt32.toBitVec hzero)

theorem int32_pred_toNat {x : Int32} (h : x ≠ 0) :
    (x - 1).toUInt32.toNat = x.toUInt32.toNat - 1 := by
  have hpos : x.toUInt32.toNat ≠ 0 := fun hzero => h (int32_eq_zero_of_toNat hzero)
  have hone : (1 : UInt32).toNat = 1 := rfl
  rw [Int32.toUInt32_sub, show (1 : Int32).toUInt32 = 1 from rfl,
    UInt32.toNat_sub_of_le _ _ (UInt32.le_iff_toNat_le.mpr (by omega)), hone]

/-- A call that finds a full buffer hands out the current half. -/
theorem watchStep_full {w : Watched} (hfull : w.sender.capture.bufFull = true)
    (hspb : w.sender.capture.samplesPerBuffer ≠ 0) (accepted : List Nat) :
    watchStep w (.sendCapture accepted) = ({ w with sender := w.sender.behindPacket },
      [⟨capturePacket w.sender,
        (List.range w.sender.samplesPerBuffer).map (w.origin w.sender.capture.curBuf)⟩]) := by
  simp only [watchStep, sessionStep_full hfull hspb, captureRead_full hfull]
  rfl

/-- One that finds none hands out nothing. -/
theorem watchStep_empty {w : Watched} (hfull : w.sender.capture.bufFull = false)
    (accepted : List Nat) : watchStep w (.sendCapture accepted) = (w, []) := by
  simp only [watchStep, sessionStep_empty hfull]
  rfl

/-- What the half of block `m` held before it: the block two before, or nothing of this
session. -/
def heldOrigin (n m i : Nat) : Option Nat := if m < 2 then none else some ((m - 2) * n + i)

/-- The ghost after the samples `xs`: the current half holds the open block, as far as it
has come, and behind it what it held before. -/
structure WatchInv (mem : BufId → Netstruct) (n : Nat) (xs : List UInt16) (w : Watched) : Prop where
  halves : HalvesInv mem n xs w.sender.capture
  fired : w.fired = xs.length
  current : ∀ i < n, w.origin w.sender.capture.curBuf i
    = if i < xs.length % n then some (xs.length / n * n + i) else heldOrigin n (xs.length / n) i
  other : ∀ i < n, w.origin w.sender.capture.curBuf.other i = heldOrigin n (xs.length / n + 1) i
  stored : ∀ b i t, w.origin b i = some t → xs[t]? = some ((w.sender.capture.mem b).data i)
  untouched : ∀ b i, w.origin b i = none → (w.sender.capture.mem b).data i = (mem b).data i

theorem start_watchInv (mem : BufId → Netstruct) {n : Nat} {n' : Int32} (k count : Int32)
    (hn' : n'.toInt = n) : WatchInv mem n [] (.start (sessionStart mem n' k count)) := by
  refine ⟨captureSetup_halvesInv mem k hn', rfl, ?_, ?_, nofun, fun _ _ _ => rfl⟩
  · intro i _
    rw [List.length_nil, Nat.zero_mod, Nat.zero_div, if_neg (Nat.not_lt_zero i)]
    rfl
  · intro i _
    rw [List.length_nil, Nat.zero_div]
    rfl

/-- What the interrupt leaves in the two halves. -/
theorem captureIsr_data (s : Capture) (x : UInt16) (b : BufId) (i : Nat) :
    ((captureIsr s x).mem b).data i
      = if b = s.curBuf ∧ i = s.nsample then x else (s.mem b).data i := by
  have hmem : (captureIsr s x).mem = (s.storeSample x).mem := by
    by_cases hc : s.Completes
    · rw [captureIsr_of_completes x hc]
      rfl
    · rw [captureIsr_of_not_completes x hc]
  rw [hmem]
  unfold Capture.storeSample Netstruct.store
  by_cases hb : b = s.curBuf
  · simp [hb]
  · simp [hb]

/-- **One interrupt**: the open block is one longer, or complete and the halves swap. -/
theorem WatchInv.isr {mem : BufId → Netstruct} {n : Nat} {xs : List UInt16} {w : Watched}
    (hn : 0 < n) (h : WatchInv mem n xs w) (x : UInt16) :
    WatchInv mem n (xs ++ [x]) (watchStep w (.isr x)).1 := by
  have hhalves := captureIsr_halvesInv hn h.halves x
  have hns := h.halves.nsample
  have hmod := Nat.div_add_mod' xs.length n
  have horigin : ∀ b i, (watchStep w (.isr x)).1.origin b i
      = if b = w.sender.capture.curBuf ∧ i = w.sender.capture.nsample then some w.fired
        else w.origin b i := fun _ _ => rfl
  have hlen : (xs ++ [x]).length = xs.length + 1 := by simp
  -- the half the sample goes to, behind it
  have hstored : ∀ i < n, (watchStep w (.isr x)).1.origin w.sender.capture.curBuf i
      = if i < xs.length % n + 1 then some (xs.length / n * n + i)
        else heldOrigin n (xs.length / n) i := by
    intro i hi
    rw [horigin, h.fired, hns]
    by_cases hlast : i = xs.length % n
    · rw [if_pos ⟨rfl, hlast⟩, if_pos (by omega)]
      exact congrArg some (by omega)
    · rw [if_neg (fun hboth => hlast hboth.2), h.current i hi]
      have hiff : i < xs.length % n ↔ i < xs.length % n + 1 := by omega
      simp only [hiff]
  have hkept : ∀ i < n, (watchStep w (.isr x)).1.origin w.sender.capture.curBuf.other i
      = heldOrigin n (xs.length / n + 1) i := by
    intro i hi
    rw [horigin, if_neg (fun hboth => BufId.other_ne _ hboth.1)]
    exact h.other i hi
  refine ⟨hhalves, by rw [hlen]; exact congrArg (· + 1) h.fired, ?_, ?_, ?_, ?_⟩
  · intro i hi
    show (watchStep w (.isr x)).1.origin (captureIsr w.sender.capture x).curBuf i = _
    by_cases hc : w.sender.capture.Completes
    · obtain ⟨-, hq, hr⟩ := h.halves.of_completes hn hc x
      rw [captureIsr_of_completes x hc, swapBuffers_curBuf, hq, hr, if_neg (Nat.not_lt_zero i)]
      exact hkept i hi
    · obtain ⟨-, hq, hr⟩ := h.halves.of_not_completes hc x
      rw [captureIsr_of_not_completes x hc, hq, hr]
      exact hstored i hi
  · intro i hi
    show (watchStep w (.isr x)).1.origin (captureIsr w.sender.capture x).curBuf.other i = _
    by_cases hc : w.sender.capture.Completes
    · obtain ⟨hfull, hq, -⟩ := h.halves.of_completes hn hc x
      rw [captureIsr_of_completes x hc, swapBuffers_curBuf, hq]
      show (watchStep w (.isr x)).1.origin w.sender.capture.curBuf.other.other i = _
      rw [BufId.other_other, hstored i hi, if_pos (by omega)]
      unfold heldOrigin
      rw [if_neg (Nat.not_lt.mpr (Nat.le_add_left 2 _))]
      rfl
    · obtain ⟨-, hq, -⟩ := h.halves.of_not_completes hc x
      rw [captureIsr_of_not_completes x hc, hq]
      exact hkept i hi
  · intro b i t ht
    show (xs ++ [x])[t]? = some (((captureIsr w.sender.capture x).mem b).data i)
    rw [horigin] at ht
    rw [captureIsr_data]
    split at ht
    next hplace =>
      obtain rfl := Option.some.inj ht
      rw [if_pos hplace, h.fired, List.getElem?_concat_length]
    next hplace =>
      have hold := h.stored b i t ht
      obtain ⟨hlt, -⟩ := List.getElem?_eq_some_iff.mp hold
      rw [if_neg hplace, List.getElem?_append_left hlt, hold]
  · intro b i hnone
    show ((captureIsr w.sender.capture x).mem b).data i = (mem b).data i
    rw [horigin] at hnone
    rw [captureIsr_data]
    split at hnone
    next => cases hnone
    next hplace =>
      rw [if_neg hplace]
      exact h.untouched b i hnone

/-- A call leaves the samples where they are. -/
theorem WatchInv.sendCapture {mem : BufId → Netstruct} {n : Nat} {xs : List UInt16} {w : Watched}
    (hspb : w.sender.capture.samplesPerBuffer ≠ 0) (h : WatchInv mem n xs w)
    (accepted : List Nat) : WatchInv mem n xs (watchStep w (.sendCapture accepted)).1 := by
  cases hfull : w.sender.capture.bufFull with
  | false =>
    rw [watchStep_empty hfull]
    exact h
  | true =>
    have hhalves := netprotSendCapture_halvesInv h.halves (accepted.map SendResult.accepted)
    rw [(netprotSendCapture_full hfull hspb _).2] at hhalves
    have hdata : ∀ b i, (w.sender.behindPacket.capture.mem b).data i
        = (w.sender.capture.mem b).data i := by
      intro b i
      show Netstruct.data (if b = w.sender.capture.curBuf then _ else _) i = _
      split
      next hb => rw [hb]; rfl
      next => rfl
    rw [watchStep_full hfull hspb]
    refine ⟨hhalves, h.fired, h.current, h.other, ?_, ?_⟩
    · intro b i t ht
      show xs[t]? = some ((w.sender.behindPacket.capture.mem b).data i)
      rw [hdata]
      exact h.stored b i t ht
    · intro b i hnone
      show (w.sender.behindPacket.capture.mem b).data i = (mem b).data i
      rw [hdata]
      exact h.untouched b i hnone

/-- The interrupt in front of a boundary completes its buffer. -/
theorem HalvesInv.completes {mem : BufId → Netstruct} {n c : Nat} {xs : List UInt16} {s : Capture}
    (hn : 0 < n) (h : HalvesInv mem n xs s) (hlen : xs.length + 1 = c * n) : s.Completes := by
  obtain ⟨c, rfl⟩ : ∃ c', c = c' + 1 := Nat.exists_eq_succ_of_ne_zero fun hzero => by
    rw [hzero, Nat.zero_mul] at hlen
    cases hlen
  have hsplit : xs.length = c * n + (n - 1) := by
    rw [Nat.add_mul, Nat.one_mul] at hlen
    omega
  have hmod : xs.length % n = n - 1 := by
    rw [hsplit, Nat.mul_add_mod', Nat.mod_eq_of_lt (by omega)]
  have hspb := h.spb
  have hns := h.nsample
  unfold Capture.Completes
  omega

theorem WatchInv.spb_ne {mem : BufId → Netstruct} {n : Nat} {xs : List UInt16} {w : Watched}
    (hn : 0 < n) (h : WatchInv mem n xs w) : w.sender.capture.samplesPerBuffer ≠ 0 := by
  intro hzero
  have hspb := h.halves.spb
  rw [hzero] at hspb
  exact absurd hspb (by show ¬ (0 : Int) = n; omega)

/-- What a call hands out: the current half, if a buffer is waiting. -/
theorem WatchInv.mem_handed {mem : BufId → Netstruct} {n : Nat} {xs : List UInt16} {w : Watched}
    (hn : 0 < n) (h : WatchInv mem n xs w) {accepted : List Nat} {out : Handed} :
    out ∈ (watchStep w (.sendCapture accepted)).2 ↔ w.sender.capture.bufFull = true ∧
      out = ⟨capturePacket w.sender, (List.range n).map (w.origin w.sender.capture.curBuf)⟩ := by
  have hspb : w.sender.samplesPerBuffer = n := by
    unfold Sender.samplesPerBuffer
    rw [h.halves.spb, Int.toNat_natCast]
  cases hfull : w.sender.capture.bufFull with
  | false =>
    rw [watchStep_empty hfull]
    exact iff_of_false nofun fun hboth => Bool.false_ne_true hboth.1
  | true =>
    rw [watchStep_full hfull (h.spb_ne hn), hspb, List.mem_singleton]
    exact ⟨fun hout => ⟨rfl, hout⟩, And.right⟩

/-- The current half holds buffer `m` exactly when `m + 2` buffers have been completed and
no sample of the next one is in. -/
theorem WatchInv.origins_eq_iff {mem : BufId → Netstruct} {n : Nat} {xs : List UInt16}
    {w : Watched} (hn : 0 < n) (h : WatchInv mem n xs w) (m : Nat) :
    (List.range n).map (w.origin w.sender.capture.curBuf) = bufferOrigins n m ↔
      xs.length = (m + 2) * n := by
  have hmod := Nat.div_add_mod' xs.length n
  have hlt := Nat.mod_lt xs.length hn
  have hsum : (m + 2) * n = m * n + 2 * n := Nat.add_mul m 2 n
  unfold bufferOrigins
  rw [List.map_inj_left]
  constructor
  · intro heq
    have hfirst := heq 0 (List.mem_range.mpr hn)
    have hlast := heq (n - 1) (List.mem_range.mpr (by omega))
    rw [h.current 0 hn] at hfirst
    rw [h.current (n - 1) (by omega), if_neg (by omega)] at hlast
    unfold heldOrigin at hfirst hlast
    by_cases hold : xs.length / n < 2
    · rw [if_pos hold] at hlast
      cases hlast
    · rw [if_neg hold, Option.some.injEq] at hlast
      have hsub : (xs.length / n - 2) * n = xs.length / n * n - 2 * n := Nat.sub_mul _ _ _
      have hge : 2 * n ≤ xs.length / n * n := Nat.mul_le_mul_right n (Nat.not_lt.mp hold)
      by_cases hopen : 0 < xs.length % n
      · rw [if_pos hopen, Option.some.injEq] at hfirst
        omega
      · omega
  · intro hlen i hi
    have hq : xs.length / n = m + 2 := by rw [hlen, Nat.mul_div_cancel _ hn]
    have hr : xs.length % n = 0 := by rw [hlen, Nat.mul_mod_left]
    rw [h.current i (List.mem_range.mp hi), hq, hr, if_neg (Nat.not_lt_zero i), heldOrigin,
      if_neg (Nat.not_lt.mpr (Nat.le_add_left 2 m)), Nat.add_sub_cancel]

/-- An interrupt carries nothing away. -/
theorem carried_snoc_isr (s₀ : Sender) (ops : List SessionOp) (x : UInt16) (m : Nat) :
    Carried s₀ (ops ++ [.isr x]) m ↔ Carried s₀ ops m := by
  have hsame : handed s₀ (ops ++ [.isr x]) = handed s₀ ops := by
    rw [handed, Lib.run_snoc]
    exact List.append_nil _
  unfold Carried
  rw [hsame]

section Session

variable (mem : BufId → Netstruct) {n : Int32} (k count : Int32) (hn : 1 ≤ n)
include hn

theorem samplesPerBuffer_pos : 0 < n.toInt.toNat ∧ n.toInt = (n.toInt.toNat : Int) ∧ n ≠ 0 := by
  have hpos : (1 : Int) ≤ n.toInt := Int32.le_iff_toInt_le.mp hn
  refine ⟨by omega, by omega, ?_⟩
  rintro rfl
  exact absurd hn (by decide)

/-- **The run**: the ghost follows every session, and changes nothing of it. -/
theorem watched_session (ops : List SessionOp) :
    WatchInv mem n.toInt.toNat (sessionSamples ops) (watched (sessionStart mem n k count) ops) ∧
      (watched (sessionStart mem n k count) ops).sender
        = afterEvents (sessionStart mem n k count) ops ∧
      (handed (sessionStart mem n k count) ops).map Handed.packet
        = packets (sessionStart mem n k count) ops := by
  obtain ⟨hpos, hint, hne⟩ := samplesPerBuffer_pos hn
  refine Lib.run_history
    (fun as outs w => WatchInv mem n.toInt.toNat (sessionSamples as) w ∧
      w.sender = afterEvents (sessionStart mem n k count) as ∧
      outs.map Handed.packet = packets (sessionStart mem n k count) as)
    ⟨start_watchInv mem k count hint, rfl, rfl⟩ ?_ ops
  rintro as outs w a ⟨hinv, hsender, houts⟩
  have hspb := hinv.spb_ne hpos
  rw [sessionSamples_append, packets, afterEvents, Lib.run_snoc]
  show WatchInv mem n.toInt.toNat _ _ ∧ _ = (sessionStep (afterEvents _ as) a).1 ∧
    _ = packets _ as ++ (sessionStep (afterEvents _ as) a).2
  rw [← hsender, ← houts]
  cases a with
  | isr x =>
    refine ⟨hinv.isr hpos x, rfl, ?_⟩
    show (outs ++ []).map Handed.packet = outs.map Handed.packet ++ []
    rw [List.append_nil, List.append_nil]
  | sendCapture accepted =>
    have hstep := hinv.sendCapture hspb accepted
    refine ⟨by simpa [sessionSamples] using hstep, rfl, ?_⟩
    cases hfull : w.sender.capture.bufFull with
    | false =>
      rw [watchStep_empty hfull, sessionStep_empty hfull, List.append_nil, List.append_nil]
    | true => rw [watchStep_full hfull hspb, sessionStep_full hfull hspb, List.map_append]; rfl

/-- **The ghost tells the truth**: what a packet carries is the samples of the interrupts
that are named. -/
theorem handed_data (ops : List SessionOp) {h : Handed}
    (hmem : h ∈ handed (sessionStart mem n k count) ops) {i t : Nat}
    (ht : h.origins[i]? = some (some t)) : (sessionSamples ops)[t]? = some (h.packet.data i) := by
  obtain ⟨before, a, since, rfl, hstep⟩ := Lib.mem_run_iff.mp hmem
  obtain ⟨hinv, -, -⟩ := watched_session mem k count hn before
  obtain ⟨hpos, -, -⟩ := samplesPerBuffer_pos hn
  cases a with
  | isr x => cases hstep
  | sendCapture accepted =>
    obtain ⟨-, rfl⟩ := (hinv.mem_handed hpos).mp hstep
    rw [List.getElem?_map, Option.map_eq_some_iff] at ht
    obtain ⟨i', hi', horigin⟩ := ht
    obtain ⟨hi, rfl⟩ := List.getElem?_eq_some_iff.mp hi'
    rw [List.getElem_range] at horigin
    have hstored := hinv.stored _ i t horigin
    obtain ⟨hlt, -⟩ := List.getElem?_eq_some_iff.mp hstored
    rw [sessionSamples_append, List.getElem?_append_left hlt, hstored]
    rfl

/-- Behind a completed buffer one is waiting, unless a call has taken it since. -/
theorem bufFull_or_taken {c : Nat} (hc : 0 < c) (pre : List SessionOp) :
    interrupts pre = c * n.toInt.toNat →
      (afterEvents (sessionStart mem n k count) pre).capture.bufFull = true ∨
      ∃ front accepted since, pre = front ++ .sendCapture accepted :: since ∧
        interrupts front = c * n.toInt.toNat ∧
        (afterEvents (sessionStart mem n k count) front).capture.bufFull = true := by
  obtain ⟨hpos, -, -⟩ := samplesPerBuffer_pos hn
  induction pre using List.reverseRecOn with
  | nil =>
    intro hzero
    exact absurd hzero (Nat.ne_of_lt (Nat.mul_pos hc hpos))
  | append_singleton as a ih =>
    intro hcount
    rw [interrupts_append] at hcount
    cases a with
    | isr x =>
      -- the interrupt is the one that completes the buffer
      left
      obtain ⟨hinv, hsender, -⟩ := watched_session mem k count hn as
      have hcompletes : (afterEvents (sessionStart mem n k count) as).capture.Completes := by
        rw [← hsender]
        exact hinv.halves.completes hpos hcount
      rw [afterEvents, Lib.run_snoc]
      show (captureIsr (afterEvents _ as).capture x).bufFull = true
      rw [captureIsr_bufFull, decide_eq_true hcompletes, Bool.true_or]
    | sendCapture accepted =>
      rcases ih hcount with hfull | ⟨front, accepted', since, rfl, hfront, hfull⟩
      · exact Or.inr ⟨as, accepted, [], rfl, hcount, hfull⟩
      · exact Or.inr ⟨front, accepted', since ++ [.sendCapture accepted], by simp, hfront, hfull⟩

/-- **When a buffer goes out**: a call is made when the buffer behind it has been completed
and no further sample has come in. -/
theorem carried_iff (ops : List SessionOp) (m : Nat) :
    Carried (sessionStart mem n k count) ops m ↔
      ∃ pre accepted post, ops = pre ++ .sendCapture accepted :: post ∧
        interrupts pre = (m + 2) * n.toInt.toNat := by
  obtain ⟨hpos, -, -⟩ := samplesPerBuffer_pos hn
  constructor
  · rintro ⟨h, hmem, horigins⟩
    obtain ⟨pre, a, post, rfl, hstep⟩ := Lib.mem_run_iff.mp hmem
    obtain ⟨hinv, -, -⟩ := watched_session mem k count hn pre
    cases a with
    | isr x => cases hstep
    | sendCapture accepted =>
      obtain ⟨-, rfl⟩ := (hinv.mem_handed hpos).mp hstep
      exact ⟨pre, accepted, post, rfl, (hinv.origins_eq_iff hpos m).mp horigins⟩
  · rintro ⟨pre, accepted, post, rfl, hcount⟩
    -- the first of the calls there finds the buffer waiting
    have hfirst : ∃ front accepted' since, pre ++ .sendCapture accepted :: post
        = front ++ .sendCapture accepted' :: since ∧ interrupts front = (m + 2) * n.toInt.toNat ∧
          (afterEvents (sessionStart mem n k count) front).capture.bufFull = true := by
      rcases bufFull_or_taken mem k count hn (Nat.succ_pos (m + 1)) pre hcount with
        hfull | ⟨front, accepted', since, rfl, hfront, hfull⟩
      · exact ⟨pre, accepted, post, rfl, hcount, hfull⟩
      · exact ⟨front, accepted', since ++ .sendCapture accepted :: post, by simp, hfront, hfull⟩
    obtain ⟨front, accepted', since, heq, hfront, hfull⟩ := hfirst
    rw [heq]
    obtain ⟨hinv, hsender, -⟩ := watched_session mem k count hn front
    rw [← hsender] at hfull
    exact ⟨_, Lib.mem_run_iff.mpr ⟨front, _, since, rfl, (hinv.mem_handed hpos).mpr ⟨hfull, rfl⟩⟩,
      (hinv.origins_eq_iff hpos m).mpr hfront⟩

/-- A buffer is still to come while no sample has been stored behind the next boundary. -/
theorem exists_carried {ops : List SessionOp} {m : Nat}
    (h : interrupts ops ≤ (m + 2) * n.toInt.toNat) :
    ∃ rest, Carried (sessionStart mem n k count) (ops ++ rest) m := by
  obtain ⟨d, hd⟩ := Nat.exists_eq_add_of_le h
  refine ⟨List.replicate d (.isr 0) ++ [.sendCapture []], ?_⟩
  rw [carried_iff mem k count hn]
  refine ⟨ops ++ List.replicate d (.isr 0), [], [], by simp, ?_⟩
  rw [interrupts_append, interrupts_replicate, ← hd]

/-- **A buffer is lost** when a sample has been stored behind the next boundary and no call
was made at the boundary. -/
theorem lost_iff (ops : List SessionOp) (m : Nat) :
    Lost (sessionStart mem n k count) ops m ↔
      (m + 2) * n.toInt.toNat < interrupts ops ∧ ¬ Carried (sessionStart mem n k count) ops m := by
  constructor
  · rintro ⟨-, hnever⟩
    constructor
    · by_contra hle
      obtain ⟨rest, hcarried⟩ := exists_carried mem k count hn (Nat.not_lt.mp hle)
      exact hnever rest hcarried
    · have hnow := hnever []
      rwa [List.append_nil] at hnow
  · rintro ⟨hbehind, hnot⟩
    have hmono : (m + 1) * n.toInt.toNat ≤ (m + 2) * n.toInt.toNat :=
      Nat.mul_le_mul_right _ (Nat.le_succ _)
    refine ⟨by show (m + 1) * n.toInt.toNat ≤ _; omega, fun rest hcarried => hnot ?_⟩
    -- the call is one of those already made
    rw [carried_iff mem k count hn] at hcarried ⊢
    obtain ⟨pre, accepted, post, heq, hcount⟩ := hcarried
    rcases List.append_eq_append_iff.mp heq with ⟨more, rfl, -⟩ | ⟨more, rfl, hmore⟩
    · rw [interrupts_append] at hcount
      omega
    · cases more with
      | nil =>
        rw [List.append_nil] at hbehind
        omega
      | cons a more =>
        obtain ⟨rfl, -⟩ := List.cons.inj hmore
        exact ⟨pre, accepted, more, rfl, hcount⟩

/-- At the boundary a buffer has been carried exactly if the last event was a call. -/
theorem carried_at_boundary {pre : List SessionOp} {m : Nat}
    (hcount : interrupts pre = (m + 2) * n.toInt.toNat) :
    Carried (sessionStart mem n k count) pre m ↔
      ∃ front accepted, pre = front ++ [.sendCapture accepted] := by
  rw [carried_iff mem k count hn]
  constructor
  · rintro ⟨front, accepted, post, rfl, hfront⟩
    rw [interrupts_append] at hcount
    rcases List.eq_nil_or_concat post with rfl | ⟨post, a, rfl⟩
    · exact ⟨front, accepted, rfl⟩
    · cases a with
      | isr x =>
        rw [List.concat_eq_append, ← List.cons_append, interrupts_append] at hcount
        have hone : interrupts [SessionOp.isr x] = 1 := rfl
        omega
      | sendCapture accepted' =>
        exact ⟨front ++ .sendCapture accepted :: post, accepted', by simp⟩
  · rintro ⟨front, accepted, rfl⟩
    rw [interrupts_append] at hcount
    exact ⟨front, accepted, [], rfl, hcount⟩

/-- **The interrupt by which a buffer is lost**: the first one behind the boundary, if no
call was made there. -/
theorem loses_iff (pre : List SessionOp) (x : UInt16) (m : Nat) :
    (¬ Lost (sessionStart mem n k count) pre m ∧
        Lost (sessionStart mem n k count) (pre ++ [.isr x]) m) ↔
      interrupts pre = (m + 2) * n.toInt.toNat ∧
        ¬ ∃ front accepted, pre = front ++ [.sendCapture accepted] := by
  have hnext : interrupts (pre ++ [.isr x]) = interrupts pre + 1 := by
    rw [interrupts_append]
    rfl
  rw [lost_iff mem k count hn, lost_iff mem k count hn, carried_snoc_isr, hnext]
  constructor
  · rintro ⟨hbefore, hlater, hnot⟩
    have hcount : interrupts pre = (m + 2) * n.toInt.toNat := by
      by_contra hne
      exact hbefore ⟨by omega, hnot⟩
    exact ⟨hcount, fun hcall => hnot ((carried_at_boundary mem k count hn hcount).mpr hcall)⟩
  · rintro ⟨hcount, hcall⟩
    have hnot : ¬ Carried (sessionStart mem n k count) pre m := fun hcarried =>
      hcall ((carried_at_boundary mem k count hn hcount).mp hcarried)
    exact ⟨fun hlost => by omega, by omega, hnot⟩

/-! ## The ignore phase -/

/-- The counter goes down by one with every completed buffer, as far as zero. -/
theorem buffersToIgnore_eq (ops : List SessionOp) :
    (afterEvents (sessionStart mem n k count) ops).capture.buffersToIgnore.toUInt32.toNat
      = k.toUInt32.toNat - interrupts ops / n.toInt.toNat := by
  obtain ⟨hpos, -, -⟩ := samplesPerBuffer_pos hn
  induction ops using List.reverseRecOn with
  | nil =>
    show k.toUInt32.toNat = k.toUInt32.toNat - 0 / _
    rw [Nat.zero_div, Nat.sub_zero]
  | append_singleton as a ih =>
    obtain ⟨hinv, hsender, -⟩ := watched_session mem k count hn as
    have hhalves := hinv.halves
    rw [hsender] at hhalves
    rw [afterEvents, Lib.run_snoc, interrupts_append]
    show (sessionStep (afterEvents _ as) a).1.capture.buffersToIgnore.toUInt32.toNat = _
    cases a with
    | isr x =>
      show (captureIsr (afterEvents _ as).capture x).buffersToIgnore.toUInt32.toNat
        = _ - (interrupts as + 1) / _
      have hlen : interrupts as + 1 = (sessionSamples as ++ [x]).length := by
        rw [List.length_append]
        rfl
      rw [captureIsr_buffersToIgnore, hlen]
      by_cases hc : (afterEvents (sessionStart mem n k count) as).capture.Completes
      · obtain ⟨-, hq, -⟩ := hhalves.of_completes hpos hc x
        have hq : (sessionSamples as ++ [x]).length / n.toInt.toNat
          = interrupts as / n.toInt.toNat + 1 := hq
        rw [hq]
        by_cases hzero : (afterEvents (sessionStart mem n k count) as).capture.buffersToIgnore = 0
        · rw [if_neg (fun hboth => hboth.2 hzero)]
          rw [hzero] at ih ⊢
          have hnone : (0 : Int32).toUInt32.toNat = 0 := rfl
          omega
        · rw [if_pos ⟨hc, hzero⟩, int32_pred_toNat hzero]
          omega
      · obtain ⟨-, hq, -⟩ := hhalves.of_not_completes hc x
        rw [if_neg (fun hboth => hc hboth.1), hq]
        exact ih
    | sendCapture accepted =>
      show UInt32.toNat (Int32.toUInt32
          (sessionStep (afterEvents _ as) (.sendCapture accepted)).1.capture.buffersToIgnore)
        = _ - interrupts as / _
      rw [← ih]
      cases hfull : (afterEvents (sessionStart mem n k count) as).capture.bufFull with
      | false => rw [sessionStep_empty hfull]
      | true =>
        rw [sessionStep_full hfull (by rw [← hsender]; exact hinv.spb_ne hpos)]
        rfl

/-- The buffers past the ignore phase are those from number `k` on. -/
theorem pastIgnore_iff (ops : List SessionOp) (m : Nat) :
    PastIgnore (sessionStart mem n k count) ops m ↔
      (m + 1) * n.toInt.toNat ≤ interrupts ops ∧ k.toUInt32.toNat ≤ m := by
  obtain ⟨hpos, -, -⟩ := samplesPerBuffer_pos hn
  have hquot : ∀ pre, interrupts pre + 1 = (m + 1) * n.toInt.toNat →
      interrupts pre / n.toInt.toNat = m := by
    intro pre hcount
    rw [Nat.add_mul, Nat.one_mul] at hcount
    refine Nat.div_eq_of_lt_le (by omega) ?_
    rw [Nat.add_mul, Nat.one_mul]
    omega
  constructor
  · rintro ⟨pre, x, post, rfl, hcount, hzero⟩
    have hcount : interrupts pre + 1 = (m + 1) * n.toInt.toNat := hcount
    have hcounter := buffersToIgnore_eq mem k count hn pre
    rw [hzero, hquot pre hcount] at hcounter
    have hnone : (0 : Int32).toUInt32.toNat = 0 := rfl
    refine ⟨?_, by omega⟩
    rw [← List.singleton_append, interrupts_append, interrupts_append]
    have hone : interrupts [SessionOp.isr x] = 1 := rfl
    omega
  · rintro ⟨hle, hk⟩
    have hmul : 0 < (m + 1) * n.toInt.toNat := Nat.mul_pos (Nat.succ_pos m) hpos
    have hlast : (m + 1) * n.toInt.toNat - 1 < interrupts ops := by omega
    obtain ⟨pre, x, post, rfl, hcount⟩ := exists_interrupt hlast
    have hcount : interrupts pre + 1 = (m + 1) * n.toInt.toNat := by omega
    refine ⟨pre, x, post, rfl, hcount, ?_⟩
    have hcounter := buffersToIgnore_eq mem k count hn pre
    rw [hquot pre hcount, Nat.sub_eq_zero_of_le hk] at hcounter
    exact int32_eq_zero_of_toNat hcounter

end Session

/-- **Past the ignore phase no packet tells the server.** -/
theorem not_tellsLoss_past_ignore {s₀ : Sender} (hspb : s₀.capture.samplesPerBuffer ≠ 0)
    {pre rest : List SessionOp} (hzero : (afterEvents s₀ pre).capture.buffersToIgnore = 0)
    {j : Nat} (hj : (packets s₀ pre).length ≤ j) :
    ¬ TellsLoss s₀.count (packets s₀ (pre ++ rest)) j := by
  -- no packet is marked, and no count leaves a gap
  rintro ⟨p, hp, hinvalid | hgap⟩
  · have hsplit : packets s₀ (pre ++ rest)
        = packets s₀ pre ++ packets (afterEvents s₀ pre) rest := by
      rw [packets, Lib.run_append]
      rfl
    rw [hsplit, List.getElem?_append_right hj] at hp
    have hspb' := (countInv s₀ hspb pre).spb
    exact not_invalid_past_ignore hspb' hzero rest p (List.mem_of_getElem? hp) hinvalid
  · exact hgap (count_eq_succ_preceding s₀ hspb _ hp)

/-- **No silent data loss, exactly.** After `capture_setup(n, k)` a session reports its
losses if and only if it has none past the ignore phase: whenever `m + 2` buffers have been
completed, with `m` at least `k`, a call is made before the next interrupt. -/
theorem noSilentLoss_iff (mem : BufId → Netstruct) (n k count : Int32) (hn : 1 ≤ n)
    (ops : List SessionOp) :
    NoSilentLoss (sessionStart mem n k count) ops ↔ TakesInTime n k ops := by
  obtain ⟨hpos, -, hne⟩ := samplesPerBuffer_pos hn
  constructor
  · intro hreport pre x post m hops hk hcount
    by_contra hcall
    -- otherwise the interrupt loses buffer `m`, and nothing tells the server
    obtain ⟨hnot, hlost⟩ := (loses_iff mem k count hn pre x m).mpr ⟨hcount, hcall⟩
    have hmono : (m + 1) * n.toInt.toNat ≤ (m + 2) * n.toInt.toNat :=
      Nat.mul_le_mul_right _ (Nat.le_succ _)
    have hpast := (pastIgnore_iff mem k count hn pre m).mpr ⟨by omega, hk⟩
    obtain ⟨j, hj, htells⟩ := hreport pre x post m hops hpast hnot hlost
    have hcounter := buffersToIgnore_eq mem k count hn pre
    rw [hcount, Nat.mul_div_cancel _ hpos, Nat.sub_eq_zero_of_le (by omega)] at hcounter
    rw [hops] at htells
    have hnone : ¬ TellsLoss (sessionStart mem n k count).count
        (packets (sessionStart mem n k count) (pre ++ .isr x :: post)) j :=
      not_tellsLoss_past_ignore hne (int32_eq_zero_of_toNat hcounter) hj
    exact hnone htells
  · intro hintime pre x post m hops hpast hnot hlost
    obtain ⟨hcount, hcall⟩ := (loses_iff mem k count hn pre x m).mp ⟨hnot, hlost⟩
    have hk := ((pastIgnore_iff mem k count hn pre m).mp hpast).2
    exact absurd (hintime pre x post m hops hk hcount) hcall

/-- Buffers of one sample, the first of which is to be ignored. -/
def lossInIgnorePhase : List SessionOp :=
  [.isr 1, .isr 2, .isr 3, .sendCapture [30], .isr 4, .sendCapture [30]]

/-- Buffer 0 is lost there while it is to be ignored, and the others are taken in time. -/
theorem noSilentLoss_ignorePhase :
    NoSilentLoss (sessionStart (fun _ => .zero) 1 1 0) lossInIgnorePhase := by
  refine (noSilentLoss_iff (fun _ => .zero) 1 1 0 (by decide) lossInIgnorePhase).mpr ?_
  intro pre x post m hops hk hcount
  -- from the third interrupt on, a call stands in front of each one
  have hall : ∀ pre ∈ lossInIgnorePhase.inits, interrupts pre < 3 ∨
      pre.getLast? = some (.sendCapture [30]) ∨
      lossInIgnorePhase[pre.length]? = some (.sendCapture [30]) := by decide
  have hone : (1 : Int32).toUInt32.toNat = 1 := rfl
  have hcount : interrupts pre = (m + 2) * 1 := hcount
  rcases hall pre ((List.mem_inits pre _).mpr ⟨_, hops.symm⟩) with hfew | hlast | hnext
  · omega
  · obtain ⟨front, hfront⟩ := List.getLast?_eq_some_iff.mp hlast
    exact ⟨front, [30], hfront⟩
  · rw [hops, List.getElem?_append_right (Nat.le_refl _), Nat.sub_self] at hnext
    cases hnext

/-- The third interrupt overwrites the sample of the first before it was handed out. The
packet that is sent then carries the second one, with the next number and no mark. -/
theorem not_noSilentLoss_overrun :
    ¬ NoSilentLoss (sessionStart (fun _ => .zero) 1 0 0)
      [.isr 7, .isr 8, .isr 9, .sendCapture [30]] := by
  intro hreport
  have hn : (1 : Int32) ≤ 1 := by decide
  have hcall : ¬ ∃ front accepted,
      [SessionOp.isr 7, .isr 8] = front ++ [.sendCapture accepted] := by
    rintro ⟨front, accepted, heq⟩
    have hlast := congrArg List.getLast? heq
    rw [List.getLast?_concat] at hlast
    cases hlast
  obtain ⟨hnot, hlost⟩ := (loses_iff (fun _ => .zero) 0 0 hn [.isr 7, .isr 8] 9 0).mpr ⟨rfl, hcall⟩
  have hpast := (pastIgnore_iff (fun _ => .zero) 0 0 hn [.isr 7, .isr 8] 0).mpr
    ⟨by decide, by decide⟩
  obtain ⟨j, hj, htells⟩ := hreport [.isr 7, .isr 8] 9 [.sendCapture [30]] 0 rfl hpast hnot hlost
  have hnone : ¬ TellsLoss 0 (packets (sessionStart (fun _ => .zero) 1 0 0)
      ([.isr 7, .isr 8] ++ [.isr 9, .sendCapture [30]])) j :=
    not_tellsLoss_past_ignore (by decide) (by decide) hj
  exact hnone htells

end Datalogger
