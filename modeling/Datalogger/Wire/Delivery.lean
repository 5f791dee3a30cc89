import Datalogger.Wire.SendStatements

/-!
# What the other end gets of the samples

`Ownership.lean` shows that `capture_read` hands out the wrong half of the double buffer.
This file follows the samples of a session to the other end and says what arrives
instead. A half holds the samples of the block that is stored in it, as far as they have come, and
behind them what it held before, which is the block two before (`HalvesInv`); that is what
a packet carries (`session_delivers`).

Of a session that sends every buffer before the next interrupt no sample is lost all the
same: the packets carry one buffer of whatever memory held before the session, and
behind it all the samples in order, one buffer late (`session_one_buffer_late`).

The calls are made between the interrupts, and the sends take every packet
in one or two steps (`InAtMostTwoSends`, which is what the send loop is right for).
-/

namespace Datalogger

open Lib (run leBytes openBlock)

/-! ## The bytes of a session -/

/-- The bytes `send()` took in one call. -/
def SendCapture.taken (c : SendCapture) : List UInt8 :=
  match c.packet with
  | none => []
  | some p => takenBytes (p.bytes ((netprotHeaderGetsize p).toInt.toNat - 28)) c.calls

/-- One event, and the bytes it puts into the stream. -/
def streamStep (s : Sender) : SessionOp → Sender × List UInt8
  | .isr x => ({ s with capture := captureIsr s.capture x }, [])
  | .sendCapture accepted =>
    let c := netprotSendCapture s (accepted.map SendResult.accepted)
    (c.sender, c.taken)

/-- The stream of a session. -/
def sessionStream (s : Sender) (ops : List SessionOp) : List UInt8 := (run streamStep s ops).2

/-- The samples the interrupts of a session stored. -/
def sessionSamples : List SessionOp → List UInt16
  | [] => []
  | .isr x :: ops => x :: sessionSamples ops
  | .sendCapture _ :: ops => sessionSamples ops

/-- The samples stored in front of each call that finds a full buffer; `xs` are those stored
so far. -/
def sentBehind (s : Sender) (xs : List UInt16) : List SessionOp → List (List UInt16)
  | [] => []
  | .isr x :: ops => sentBehind (streamStep s (.isr x)).1 (xs ++ [x]) ops
  | .sendCapture accepted :: ops =>
    (if s.capture.bufFull then [xs] else [])
      ++ sentBehind (streamStep s (.sendCapture accepted)).1 xs ops

/-- Samples as they lie in memory. -/
def sampleBytes (xs : List UInt16) : List UInt8 := xs.flatMap fun x => leBytes 2 x.toNat

/-! ## The halves -/

/-- The half that block number `m` of the samples is stored in. -/
def halfOf (m : Nat) : BufId := if m % 2 = 0 then .buf0 else .buf1

/-- What that half holds before: the block two before, or what was in memory. -/
def heldBefore (mem : BufId → Netstruct) (n : Nat) (xs : List UInt16) (m : Nat) : List UInt16 :=
  if m < 2 then (mem (halfOf m)).samples n else (xs.drop ((m - 2) * n)).take n

/-- What the current half holds after the samples `xs`. -/
def handedOut (mem : BufId → Netstruct) (n : Nat) (xs : List UInt16) : List UInt16 :=
  openBlock n xs ++ (heldBefore mem n xs (xs.length / n)).drop (xs.length % n)

/-- The double buffer after the samples `xs`. -/
structure HalvesInv (mem : BufId → Netstruct) (n : Nat) (xs : List UInt16)
    (s : Capture) : Prop where
  spb : s.samplesPerBuffer.toInt = n
  nsample : s.nsample = xs.length % n
  cur : s.curBuf = halfOf (xs.length / n)
  current : (s.mem s.curBuf).samples n = handedOut mem n xs
  other : (s.mem s.curBuf.other).samples n = heldBefore mem n xs (xs.length / n + 1)

theorem halfOf_succ (m : Nat) : halfOf (m + 1) = (halfOf m).other := by
  unfold halfOf
  rcases Nat.mod_two_eq_zero_or_one m with h | h
  · have hsucc : ¬ (m + 1) % 2 = 0 := by omega
    rw [if_pos h, if_neg hsucc]
    rfl
  · have hsucc : (m + 1) % 2 = 0 := by omega
    have hodd : ¬ m % 2 = 0 := by omega
    rw [if_neg hodd, if_pos hsucc]
    rfl

theorem length_heldBefore (mem : BufId → Netstruct) {n : Nat} {xs : List UInt16} {m : Nat}
    (h : (m - 1) * n ≤ xs.length) : (heldBefore mem n xs m).length = n := by
  unfold heldBefore
  split
  next => exact Netstruct.length_samples _ n
  next hm =>
    have hmul : (m - 1) * n = (m - 2) * n + n := by
      rw [show m - 1 = m - 2 + 1 by omega, Nat.add_mul, Nat.one_mul]
    rw [List.length_take, List.length_drop]
    omega

/-- Later samples are stored elsewhere. -/
theorem heldBefore_append (mem : BufId → Netstruct) {n : Nat} {xs : List UInt16} (ys : List UInt16)
    {m : Nat} (h : (m - 1) * n ≤ xs.length) :
    heldBefore mem n (xs ++ ys) m = heldBefore mem n xs m := by
  unfold heldBefore
  split
  next => rfl
  next hm =>
    have hmul : (m - 1) * n = (m - 2) * n + n := by
      rw [show m - 1 = m - 2 + 1 by omega, Nat.add_mul, Nat.one_mul]
    rw [List.drop_append_of_le_length (by omega),
      List.take_append_of_le_length (by rw [List.length_drop]; omega)]

/-- A store at the end of the open block. -/
theorem Netstruct.samples_store_open {p : Netstruct} {n i : Nat} {front old : List UInt16}
    (x : UInt16) (h : p.samples n = front ++ old.drop i) (hfront : front.length = i) (hi : i < n) :
    (p.store i x).samples n = (front ++ [x]) ++ old.drop (i + 1) := by
  obtain ⟨before, behind, hlen, hbefore, hafter⟩ := p.samples_store x hi
  rw [h] at hbefore
  obtain ⟨rfl, hrest⟩ := List.append_inj hbefore (by omega)
  have hbehind : behind = old.drop (i + 1) := by
    have hdrop := congrArg (List.drop 1) hrest
    rw [List.drop_drop, List.drop_one, List.tail_cons] at hdrop
    exact hdrop.symm
  rw [hafter, hbehind, List.append_assoc, List.singleton_append]

theorem captureSetup_halvesInv (mem : BufId → Netstruct) {n : Nat} {n' : Int32} (k : Int32)
    (hn' : n'.toInt = n) : HalvesInv mem n [] (captureSetup mem n' k) := by
  have hq : ([] : List UInt16).length / n = 0 := Nat.zero_div n
  have hr : ([] : List UInt16).length % n = 0 := Nat.zero_mod n
  refine ⟨hn', hr.symm, by rw [hq]; rfl, ?_, by rw [hq]; rfl⟩
  rw [handedOut, hq, hr, Lib.openBlock_nil, List.nil_append, List.drop_zero]
  rfl

/-- The sample that fills the buffer completes a block. -/
theorem HalvesInv.of_completes {mem : BufId → Netstruct} {n : Nat} {xs : List UInt16} {s : Capture}
    (hn : 0 < n) (h : HalvesInv mem n xs s) (hc : s.Completes) (x : UInt16) :
    xs.length % n + 1 = n ∧ (xs ++ [x]).length / n = xs.length / n + 1 ∧
      (xs ++ [x]).length % n = 0 := by
  have hmod := Nat.div_add_mod' xs.length n
  have hlt := Nat.mod_lt xs.length hn
  have hspb := h.spb
  have hns := h.nsample
  unfold Capture.Completes at hc
  have hmul : (xs.length / n + 1) * n = xs.length / n * n + n := by rw [Nat.add_mul, Nat.one_mul]
  have hlen : (xs ++ [x]).length = (xs.length / n + 1) * n := by
    rw [List.length_append, List.length_singleton]
    omega
  exact ⟨by omega, by rw [hlen, Nat.mul_div_cancel _ hn], by rw [hlen, Nat.mul_mod_left]⟩

/-- Any other extends the open one. -/
theorem HalvesInv.of_not_completes {mem : BufId → Netstruct} {n : Nat} {xs : List UInt16}
    {s : Capture} (h : HalvesInv mem n xs s) (hc : ¬ s.Completes) (x : UInt16) :
    xs.length % n + 1 < n ∧ (xs ++ [x]).length / n = xs.length / n ∧
      (xs ++ [x]).length % n = xs.length % n + 1 := by
  have hmod := Nat.div_add_mod' xs.length n
  have hspb := h.spb
  have hns := h.nsample
  unfold Capture.Completes at hc
  have hlen : (xs ++ [x]).length = xs.length + 1 := by
    rw [List.length_append, List.length_singleton]
  have hroom : xs.length % n + 1 < n := by omega
  have hq : (xs ++ [x]).length / n = xs.length / n := by
    rw [hlen]
    refine Nat.div_eq_of_lt_le (by omega) ?_
    rw [Nat.add_mul, Nat.one_mul]
    omega
  have hdiv := Nat.div_add_mod' (xs ++ [x]).length n
  rw [hq] at hdiv
  exact ⟨hroom, hq, by omega⟩

/-- One more sample: it extends the open block, or completes it and the halves swap. -/
theorem captureIsr_halvesInv {mem : BufId → Netstruct} {n : Nat} {xs : List UInt16} {s : Capture}
    (hn : 0 < n) (h : HalvesInv mem n xs s) (x : UInt16) :
    HalvesInv mem n (xs ++ [x]) (captureIsr s x) := by
  have hmod := Nat.div_add_mod' xs.length n
  have hlt := Nat.mod_lt xs.length hn
  have hopen := Lib.length_openBlock n xs
  have hheld : (xs.length / n - 1) * n ≤ xs.length :=
    Nat.le_trans (Nat.mul_le_mul_right n (Nat.sub_le _ 1)) (Nat.div_mul_le_self _ n)
  have hcur : ((s.storeSample x).mem s.curBuf).samples n
      = openBlock n xs ++ [x]
        ++ (heldBefore mem n xs (xs.length / n)).drop (xs.length % n + 1) := by
    rw [storeSample_cur, h.nsample]
    exact Netstruct.samples_store_open x h.current hopen hlt
  by_cases hc : s.Completes
  · -- the open block is complete and the other half becomes the current one
    obtain ⟨hfull, hq, hr⟩ := h.of_completes hn hc x
    rw [captureIsr_of_completes x hc]
    refine ⟨h.spb, hr.symm, ?_, ?_, ?_⟩
    · rw [swapBuffers_curBuf, hq, halfOf_succ]
      exact congrArg BufId.other h.cur
    · rw [swapBuffers_curBuf, handedOut, hr, Lib.openBlock_snoc_eq x (by omega), List.nil_append,
        List.drop_zero, hq, heldBefore_append mem [x] (by rw [Nat.add_sub_cancel]; omega),
          ← h.other]
      exact congrArg (fun p => Netstruct.samples p n) (storeSample_other s x)
    · rw [swapBuffers_curBuf, BufId.other_other, hq, heldBefore,
        if_neg (Nat.not_lt.mpr (Nat.le_add_left 2 _)),
        show xs.length / n + 1 + 1 - 2 = xs.length / n from rfl]
      have hdrop : (heldBefore mem n xs (xs.length / n)).drop (xs.length % n + 1) = [] :=
        List.drop_of_length_le (by rw [length_heldBefore mem hheld]; omega)
      rw [hdrop, List.append_nil] at hcur
      have hblock : (xs ++ [x]).drop (xs.length / n * n) = openBlock n xs ++ [x] :=
        List.drop_append_of_le_length (by omega)
      rw [hblock, List.take_of_length_le (by rw [List.length_append, List.length_singleton]; omega)]
      exact hcur
  · obtain ⟨hroom, hq, hr⟩ := h.of_not_completes hc x
    rw [captureIsr_of_not_completes x hc]
    refine ⟨h.spb, ?_, ?_, ?_, ?_⟩
    · rw [hr, ← h.nsample]
    · rw [hq]
      exact h.cur
    · rw [handedOut, hr, hq, Lib.openBlock_snoc_lt x (by omega), heldBefore_append mem [x] hheld]
      exact hcur
    · rw [hq, heldBefore_append mem [x] (by rw [Nat.add_sub_cancel]; omega), ← h.other]
      exact congrArg (fun p => Netstruct.samples p n) (storeSample_other s x)

/-- Reading changes nothing of it, and neither does a header. -/
theorem netprotSendCapture_halvesInv {mem : BufId → Netstruct} {n : Nat} {xs : List UInt16}
    {s : Sender} (h : HalvesInv mem n xs s.capture) (results : List SendResult) :
    HalvesInv mem n xs (netprotSendCapture s results).sender.capture := by
  cases hfull : s.capture.bufFull with
  | false =>
    rw [(netprotSendCapture_empty hfull results).2]
    exact h
  | true =>
    by_cases hspb : s.capture.samplesPerBuffer = 0
    · rw [(netprotSendCapture_noSamples hfull hspb results).2]
      exact ⟨h.spb, h.nsample, h.cur, h.current, h.other⟩
    · rw [(netprotSendCapture_full hfull hspb results).2]
      refine ⟨h.spb, h.nsample, h.cur, ?_, ?_⟩
      · rw [← h.current]
        show Netstruct.samples (if s.capture.curBuf = s.capture.curBuf then _ else _) n = _
        rw [if_pos rfl]
        rfl
      · rw [← h.other]
        show Netstruct.samples (if s.capture.curBuf.other = s.capture.curBuf then _ else _) n = _
        rw [if_neg (BufId.other_ne _)]

/-! ## What a session puts into the stream -/

/-- Every packet of the session goes out in one send or two. -/
def WholeSends (size : Nat) (ops : List SessionOp) : Prop :=
  ∀ accepted, SessionOp.sendCapture accepted ∈ ops →
    InAtMostTwoSends size (accepted.map SendResult.accepted)

/-- A loop that is given such results ends with the packet sent. -/
theorem sendLoop_whole {S : Nat} (hS : 0 < S) {rs : List SendResult} (h : InAtMostTwoSends S rs) :
    (sendLoop 0 S rs).2 = .done S := by
  have hzeros : ∀ (z : Nat) (tail : List SendResult), (sendLoop 0 S tail).2 = .done S →
      (sendLoop 0 S (List.replicate z (.accepted 0) ++ tail)).2 = .done S := by
    intro z tail htail
    induction z with
    | zero => exact htail
    | succ z ih =>
      rw [List.replicate_succ, List.cons_append, sendLoop_accepted (by omega), Nat.add_zero,
        Int.natCast_zero, Int.sub_zero]
      exact ih
  obtain ⟨z, rest, rfl | ⟨a, ha, haS, rfl⟩⟩ := h
  · refine hzeros z _ ?_
    rw [sendLoop_accepted (by omega), sendLoop_of_nonpos (by omega), Nat.zero_add]
  · refine hzeros z _ ?_
    rw [sendLoop_accepted (by omega), sendLoop_accepted (by omega), sendLoop_of_nonpos (by omega)]
    exact congrArg LoopExit.done (by omega)

/-- The bytes of a packet behind which its size is found. -/
theorem taken_of_packet {c : SendCapture} {p : Netstruct} (hpacket : c.packet = some p) {S : Nat}
    (hS : 0 < S) (hsize : (netprotHeaderGetsize p).toInt = S) {rs : List SendResult}
    (hcalls : c.calls = (sendLoop 0 (netprotHeaderGetsize p).toInt rs).1)
    (hwhole : InAtMostTwoSends S rs) (hmin : 28 ≤ S) : c.taken = p.bytes (S - 28) := by
  have hdone := sendLoop_whole hS hwhole
  obtain ⟨-, htaken⟩ := takenBytes_sendLoop (p.bytes (S - 28)) rs hdone
  have hlen : (p.bytes (S - 28)).length = S := by
    rw [Netstruct.bytes, List.length_append, Netstruct.length_header, Netstruct.length_payload]
    omega
  rw [SendCapture.taken, hpacket]
  dsimp only
  rw [hcalls, hsize, Int.toNat_natCast, htaken, List.drop_zero, Nat.sub_zero,
    List.take_of_length_le (by omega)]

/-- The packet of a call that finds a full buffer, as it lies in the stream. -/
theorem capturePacket_isPacket {mem : BufId → Netstruct} {n : Nat} {xs : List UInt16} {s : Sender}
    (hfits : n ≤ 986) (h : HalvesInv mem n xs s.capture) :
    ∃ a, IsPacket a ((capturePacket s).bytes (2 * n)) ∧
      a.payload = sampleBytes (handedOut mem n xs) := by
  have hspb := h.spb
  have hsize := announced_toInt (n := s.capture.samplesPerBuffer) (by omega) (by omega)
  have hpayload : (capturePacket s).payload (2 * n) = sampleBytes (handedOut mem n xs) := by
    rw [Netstruct.payload_two_mul, ← h.current]
    rfl
  have hlen : (sampleBytes (handedOut mem n xs)).length = 2 * n := by
    rw [← hpayload, Netstruct.length_payload]
  refine ⟨⟨s.count, _, sampleBytes (handedOut mem n xs)⟩,
    ⟨(capturePacket s).header, announced s.capture.samplesPerBuffer,
      ⟨s.capture.mem s.capture.curBuf, rfl⟩,
      ?_, ?_, ?_⟩, rfl⟩
  · rw [Netstruct.bytes, hpayload]
  · show (announced s.capture.samplesPerBuffer).toInt = (sampleBytes (handedOut mem n xs)).length
    omega
  · show (sampleBytes (handedOut mem n xs)).length ≤ 2147483619
    omega

/-- What a call that finds a full buffer puts into the stream. -/
theorem netprotSendCapture_taken {n : Nat} {s : Sender} (hn : 0 < n) (hfits : n ≤ 986)
    (hspb : s.capture.samplesPerBuffer.toInt = n) (hfull : s.capture.bufFull = true)
    {rs : List SendResult} (hwhole : InAtMostTwoSends (28 + 2 * n) rs) :
    (netprotSendCapture s rs).taken = (capturePacket s).bytes (2 * n) := by
  have hne : s.capture.samplesPerBuffer ≠ 0 := by
    intro hzero
    rw [hzero] at hspb
    exact absurd hspb (by show ¬ (0 : Int) = n; omega)
  obtain ⟨hpacket, -⟩ := netprotSendCapture_full hfull hne rs
  obtain ⟨hcalls, -⟩ := netprotSendCapture_loop hfull hne rs
  have hsize := announced_toInt (n := s.capture.samplesPerBuffer) (by omega) (by omega)
  have htotal : (netprotHeaderGetsize (capturePacket s)).toInt = (28 + 2 * n : Nat) := by
    have hheader : HeaderFor s.count (announced s.capture.samplesPerBuffer)
        (if s.capture.buffersToIgnore ≠ 0 then (0 : UInt8) ||| dataInvalid else 0)
        (capturePacket s).header := ⟨s.capture.mem s.capture.curBuf, rfl⟩
    have happend := netprotHeaderGetsize_of_header hheader (by omega) (by omega)
    refine happend.trans ?_
    omega
  rw [taken_of_packet hpacket (by omega) htotal hcalls hwhole (by omega), Nat.add_sub_cancel_left]

/-- The stream of a session is a packet for each call that finds a full buffer. -/
theorem streamStep_packets {mem : BufId → Netstruct} {n : Nat} (hn : 0 < n) (hfits : n ≤ 986) :
    ∀ (ops : List SessionOp) (xs : List UInt16) (s : Sender), HalvesInv mem n xs s.capture →
      WholeSends (28 + 2 * n) ops →
      ∃ as ws, List.Forall₂ IsPacket as ws ∧ sessionStream s ops = ws.flatten ∧
        as.map Packet.payload
          = (sentBehind s xs ops).map fun ys => sampleBytes (handedOut mem n ys) := by
  intro ops
  induction ops with
  | nil =>
    intro xs s _ _
    exact ⟨[], [], .nil, rfl, rfl⟩
  | cons op ops ih =>
    intro xs s h hwhole
    have hrest : WholeSends (28 + 2 * n) ops := fun a ha => hwhole a (List.mem_cons_of_mem _ ha)
    cases op with
    | isr x => exact ih (xs ++ [x]) _ (captureIsr_halvesInv hn h x) hrest
    | sendCapture accepted =>
      obtain ⟨as, ws, hframes, hstream, hpayloads⟩ :=
        ih xs _ (netprotSendCapture_halvesInv h (accepted.map .accepted)) hrest
      have hsplit : sessionStream s (.sendCapture accepted :: ops)
          = (netprotSendCapture s (accepted.map .accepted)).taken ++ ws.flatten := by
        rw [← hstream]
        rfl
      rw [hsplit, sentBehind]
      cases hfull : s.capture.bufFull with
      | false =>
        have hnone : (netprotSendCapture s (accepted.map .accepted)).taken = [] := by
          rw [SendCapture.taken, (netprotSendCapture_empty hfull _).1]
        rw [hnone]
        exact ⟨as, ws, hframes, rfl, hpayloads⟩
      | true =>
        obtain ⟨a, hpacket, hpayload⟩ := capturePacket_isPacket hfits h
        rw [netprotSendCapture_taken hn hfits h.spb hfull (hwhole accepted (List.mem_cons_self ..))]
        refine ⟨a :: as, _ :: ws, .cons hpacket hframes, rfl, ?_⟩
        rw [List.map_cons, hpayload, hpayloads]
        rfl

/-- **What a session delivers.** The stream of a session that starts with `capture_setup(n, k)`
is read back as one packet for each call that finds a full buffer, and the packet carries the open
block and behind it what the half held before. -/
theorem session_delivers (mem : BufId → Netstruct) (n k count : Int32) (hn : 1 ≤ n)
    (hfits : n.toInt ≤ 986) (ops : List SessionOp)
    (hwhole : WholeSends (28 + 2 * n.toInt.toNat) ops) :
    let s₀ := sessionStart mem n k count
    (readPackets (sessionStream s₀ ops)).1.map Packet.payload
        = (sentBehind s₀ [] ops).map (fun xs => sampleBytes (handedOut mem n.toInt.toNat xs)) ∧
      (readPackets (sessionStream s₀ ops)).2 = [] := by
  intro s₀
  have hpos : (1 : Int) ≤ n.toInt := Int32.le_iff_toInt_le.mp hn
  have hstart : HalvesInv mem n.toInt.toNat [] s₀.capture := captureSetup_halvesInv mem k (by omega)
  obtain ⟨as, ws, hframes, hstream, hpayloads⟩ :=
    streamStep_packets (by omega) (by omega) ops [] s₀ hstart hwhole
  have hread := readPackets_of_packets hframes (Or.inl rfl)
  rw [List.append_nil] at hread
  rw [hstream, hread]
  exact ⟨hpayloads, rfl⟩

/-! ## Sessions that send in time -/

/-- No interrupt finds a full buffer: each one is sent before the next sample. -/
def SentInTime (s₀ : Sender) (ops : List SessionOp) : Prop :=
  ∀ pre x post, ops = pre ++ .isr x :: post → (run streamStep s₀ pre).1.capture.bufFull = false

theorem sentInTime_cons {s : Sender} {op : SessionOp} {ops : List SessionOp} :
    SentInTime s (op :: ops) ↔
      (∀ x, op = .isr x → s.capture.bufFull = false) ∧ SentInTime (streamStep s op).1 ops := by
  constructor
  · intro h
    refine ⟨fun x hop => h [] x ops (by rw [hop]; rfl), fun pre x post hops => ?_⟩
    exact h (op :: pre) x post (by rw [hops]; rfl)
  · rintro ⟨hhead, hrest⟩ pre x post hops
    cases pre with
    | nil =>
      obtain ⟨rfl, -⟩ := List.cons.inj hops
      exact hhead x rfl
    | cons a pre =>
      obtain ⟨rfl, htail⟩ := List.cons.inj hops
      exact hrest pre x post htail

/-- At a boundary the current half holds all of the block two before. -/
theorem handedOut_boundary (mem : BufId → Netstruct) {n : Nat} (hn : 0 < n) {all : List UInt16}
    {j : Nat} (hj : j * n ≤ all.length) :
    handedOut mem n (all.take (j * n)) = heldBefore mem n all j := by
  have hlen : (all.take (j * n)).length = j * n := by
    rw [List.length_take]
    omega
  have hq : (all.take (j * n)).length / n = j := by rw [hlen, Nat.mul_div_cancel j hn]
  have hr : (all.take (j * n)).length % n = 0 := by rw [hlen, Nat.mul_mod_left]
  have hopen : openBlock n (all.take (j * n)) = [] :=
    List.eq_nil_of_length_eq_zero (by rw [Lib.length_openBlock, hr])
  have hheld : heldBefore mem n (all.take (j * n) ++ all.drop (j * n)) j
      = heldBefore mem n (all.take (j * n)) j :=
    heldBefore_append mem _ (by rw [hlen]; exact Nat.mul_le_mul_right n (Nat.sub_le j 1))
  rw [List.take_append_drop] at hheld
  rw [handedOut, hopen, hq, hr, List.drop_zero, List.nil_append, hheld]

/-- One block after another: the memory, and all blocks but the last. -/
theorem flatMap_heldBefore (mem : BufId → Netstruct) {n : Nat} (all : List UInt16) (q : Nat)
    (hq : q * n ≤ all.length) :
    (List.range' 1 q).flatMap (heldBefore mem n all)
      = ((mem .buf1).samples n ++ all).take (q * n) := by
  induction q with
  | zero => rw [Nat.zero_mul]; rfl
  | succ q ih =>
    have hmul : (q + 1) * n = q * n + n := by rw [Nat.add_mul, Nat.one_mul]
    have hmem := Netstruct.length_samples (mem .buf1) n
    rw [List.range'_concat, List.flatMap_append, ih (by omega), hmul, List.take_add]
    congr 1
    rw [List.flatMap_cons, List.flatMap_nil, List.append_nil, heldBefore]
    split
    next hlt =>
      have hzero : q = 0 := by omega
      subst hzero
      rw [Nat.zero_mul, List.drop_zero, List.take_left' hmem]
      rfl
    next hge =>
      have hpred : (1 + 1 * q - 2) * n = q * n - n := by
        rw [show 1 + 1 * q - 2 = q - 1 by omega, Nat.sub_mul, Nat.one_mul]
      have hle : n ≤ q * n := Nat.le_mul_of_pos_left n (by omega)
      have hgone : ((mem .buf1).samples n).drop (q * n) = [] :=
        List.drop_of_length_le (by rw [hmem]; exact hle)
      rw [hpred, List.drop_append, hmem, hgone, List.nil_append]

/-- A session that sends in time sends at the boundaries, and at each of them once. -/
theorem sentBehind_inTime {mem : BufId → Netstruct} {n : Nat} (hn : 0 < n) :
    ∀ (ops : List SessionOp) (xs : List UInt16) (s : Sender), HalvesInv mem n xs s.capture →
      SentInTime s ops → (s.capture.bufFull = true → xs.length % n = 0) →
      (run streamStep s ops).1.capture.bufFull = false →
      sentBehind s xs ops
        = (List.range' (xs.length / n + 1 - s.capture.bufFull.toNat)
            ((xs ++ sessionSamples ops).length / n - xs.length / n + s.capture.bufFull.toNat)).map
          fun j => (xs ++ sessionSamples ops).take (j * n) := by
  intro ops
  induction ops with
  | nil =>
    intro xs s _ _ _ hend
    have hempty : s.capture.bufFull = false := hend
    rw [hempty, sessionSamples, List.append_nil, Nat.sub_self]
    rfl
  | cons op ops ih =>
    intro xs s h hintime hboundary hend
    obtain ⟨hisr, hrest⟩ := sentInTime_cons.mp hintime
    cases op with
    | isr x =>
      have hempty : s.capture.bufFull = false := hisr x rfl
      have hstep := captureIsr_halvesInv hn h x
      have hfull := captureIsr_bufFull s.capture x
      rw [hempty, Bool.or_false] at hfull
      have hall : xs ++ sessionSamples (.isr x :: ops) = xs ++ [x] ++ sessionSamples ops := by
        rw [List.append_assoc]
        rfl
      have hnext := ih (xs ++ [x]) (streamStep s (.isr x)).1 hstep hrest
      rw [show (streamStep s (.isr x)).1.capture.bufFull = decide s.capture.Completes from hfull]
        at hnext
      show sentBehind (streamStep s (.isr x)).1 (xs ++ [x]) ops = _
      rw [hall, hempty, Bool.toNat_false]
      by_cases hc : s.capture.Completes
      · -- the block that is complete now is the first that is sent
        obtain ⟨-, hq, hr⟩ := h.of_completes hn hc x
        have hmono : (xs ++ [x]).length / n ≤ (xs ++ [x] ++ sessionSamples ops).length / n :=
          Nat.div_le_div_right (by simp only [List.length_append]; omega)
        rw [hnext (fun _ => hr) hend, decide_eq_true hc, Bool.toNat_true, hq]
        rw [hq] at hmono
        congr 2
        omega
      · obtain ⟨-, hq, -⟩ := h.of_not_completes hc x
        rw [hnext (fun hc' => absurd (of_decide_eq_true hc') hc) hend, decide_eq_false hc,
          Bool.toNat_false, hq]
    | sendCapture accepted =>
      have hstep := netprotSendCapture_halvesInv h (accepted.map .accepted)
      obtain ⟨hlowered, -⟩ := netprotSendCapture_waiting s (accepted.map .accepted)
      have hnext := ih xs (streamStep s (.sendCapture accepted)).1 hstep hrest
      rw [show (streamStep s (.sendCapture accepted)).1.capture.bufFull = false from hlowered]
        at hnext
      have hlater := hnext nofun hend
      rw [Bool.toNat_false] at hlater
      show (if s.capture.bufFull then [xs] else []) ++ sentBehind _ xs ops = _
      rw [hlater, show xs ++ sessionSamples (.sendCapture accepted :: ops)
        = xs ++ sessionSamples ops from rfl]
      cases hfull : s.capture.bufFull with
      | false => rfl
      | true =>
        have hr := hboundary hfull
        have hmod := Nat.div_add_mod' xs.length n
        have hhead : (xs ++ sessionSamples ops).take (xs.length / n * n) = xs :=
          List.take_left' (by omega)
        rw [Bool.toNat_true, Nat.add_sub_cancel, List.range'_succ, List.map_cons, hhead]
        rfl

/-- **One buffer late.** Of a session that sends every buffer before the next interrupt the
other end gets a buffer of what was in memory, and behind it all samples in order but those of
the last complete buffer and the one after it. -/
theorem session_one_buffer_late (mem : BufId → Netstruct) (n k count : Int32) (hn : 1 ≤ n)
    (hfits : n.toInt ≤ 986) (ops : List SessionOp)
    (hwhole : WholeSends (28 + 2 * n.toInt.toNat) ops)
    (hintime : SentInTime (sessionStart mem n k count) ops)
    (hend : (run streamStep (sessionStart mem n k count) ops).1.capture.bufFull = false) :
    let xs := sessionSamples ops
    (readPackets (sessionStream (sessionStart mem n k count) ops)).1.flatMap Packet.payload
      = sampleBytes (((mem .buf1).samples n.toInt.toNat ++ xs).take
          (xs.length / n.toInt.toNat * n.toInt.toNat)) := by
  intro xs
  have hpos : (1 : Int) ≤ n.toInt := Int32.le_iff_toInt_le.mp hn
  obtain ⟨N, hN⟩ : ∃ N, N = n.toInt.toNat := ⟨_, rfl⟩
  have hNpos : 0 < N := by omega
  have hstart : HalvesInv mem N [] (sessionStart mem n k count).capture :=
    captureSetup_halvesInv mem k (by omega)
  obtain ⟨as, ws, hframes, hstream, hpayloads⟩ :=
    streamStep_packets hNpos (by omega) ops [] _ hstart (by rw [hN]; exact hwhole)
  have hread := readPackets_of_packets hframes (Or.inl rfl)
  rw [List.append_nil] at hread
  have hsent := sentBehind_inTime hNpos ops [] _ hstart hintime nofun hend
  have hzero : ([] : List UInt16).length / N = 0 := Nat.zero_div N
  have hnone : (sessionStart mem n k count).capture.bufFull = false := rfl
  rw [hnone, hzero, Bool.toNat_false, List.nil_append, Nat.zero_add, Nat.sub_zero, Nat.sub_zero,
    Nat.add_zero] at hsent
  have hblocks : ∀ j ∈ List.range' 1 (xs.length / N),
      handedOut mem N (xs.take (j * N)) = heldBefore mem N xs j := by
    intro j hj
    obtain ⟨-, hlt⟩ := List.mem_range'_1.mp hj
    exact handedOut_boundary mem hNpos
      (Nat.le_trans (Nat.mul_le_mul_right N (by omega)) (Nat.div_mul_le_self xs.length N))
  rw [hstream, hread, ← hN]
  calc as.flatMap Packet.payload
      = (as.map Packet.payload).flatten := List.flatMap_def ..
    _ = ((List.range' 1 (xs.length / N)).map fun j =>
      sampleBytes (heldBefore mem N xs j)).flatten := by
        rw [hpayloads, hsent, List.map_map]
        congr 1
        refine List.map_congr_left fun j hj => ?_
        exact congrArg sampleBytes (hblocks j hj)
    _ = sampleBytes ((List.range' 1 (xs.length / N)).flatMap (heldBefore mem N xs)) := by
        rw [sampleBytes, List.flatMap_assoc, List.flatMap_def]
        rfl
    _ = _ := by rw [flatMap_heldBefore mem xs _ (Nat.div_mul_le_self xs.length N)]

/-- Two samples a buffer, two buffers and a sample more. -/
def promptSession : List SessionOp :=
  [.isr 1, .isr 2, .sendCapture [32], .isr 3, .isr 4, .sendCapture [20, 12], .isr 5]

theorem promptSession_wholeSends : WholeSends (28 + 2 * (2 : Int32).toInt.toNat) promptSession := by
  intro accepted hmem
  simp only [promptSession, List.mem_cons, reduceCtorEq, SessionOp.sendCapture.injEq, false_or,
    List.not_mem_nil, or_false] at hmem
  rcases hmem with rfl | rfl
  · exact ⟨0, [], Or.inl rfl⟩
  · exact ⟨0, [], Or.inr ⟨20, by decide, by decide, rfl⟩⟩

theorem promptSession_sentInTime :
    SentInTime (sessionStart (fun _ => .zero) 2 0 0) promptSession := by
  simp only [promptSession, sentInTime_cons]
  refine ⟨fun _ _ => rfl, fun _ _ => rfl, nofun, fun _ _ => rfl, fun _ _ => rfl, nofun,
    fun _ _ => rfl, ?_⟩
  intro pre x post hops
  simp at hops

theorem session_delivers_prompt :
    let s₀ := sessionStart (fun _ => .zero) 2 0 0
    (readPackets (sessionStream s₀ promptSession)).1.map Packet.payload
        = (sentBehind s₀ [] promptSession).map
            (fun xs => sampleBytes (handedOut (fun _ => .zero) (2 : Int32).toInt.toNat xs)) ∧
      (readPackets (sessionStream s₀ promptSession)).2 = [] :=
  session_delivers (fun _ => .zero) 2 0 0 (by decide) (by decide) promptSession
    promptSession_wholeSends

/-- Two zeros from memory arrive, and the first two samples. -/
theorem session_one_buffer_late_prompt :
    (readPackets (sessionStream (sessionStart (fun _ => .zero) 2 0 0) promptSession)).1.flatMap
      Packet.payload = sampleBytes [0, 0, 1, 2] :=
  session_one_buffer_late (fun _ => .zero) 2 0 0 (by decide) (by decide) promptSession
    promptSession_wholeSends promptSession_sentInTime rfl

end Datalogger
