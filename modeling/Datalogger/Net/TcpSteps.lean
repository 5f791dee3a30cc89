import Datalogger.Net.Tcp

/-!
# What a step of a TCP socket leaves alone

The functions that send touch the variables of the sending direction, the timers and the
log of the segments; the functions that receive touch the variables of the receiving
direction. `Sends` and `Receives` say so once for every function, together with what the
segments that are sent have in common.
-/

namespace Datalogger

open Lib

/-! ## Sequence numbers -/

/-- The difference of two sequence numbers, around the end of the numbers too. -/
theorem fnetTcpGetsize_eq (pos1 pos2 : UInt32) : fnetTcpGetsize pos1 pos2 = pos2 - pos1 := by
  unfold fnetTcpGetsize
  split
  next => rfl
  next =>
    apply UInt32.toNat.inj
    simp only [UInt32.toNat_add, UInt32.toNat_sub, UInt32.reduceToNat]
    have := pos1.toNat_lt
    have := pos2.toNat_lt
    omega

/-- `fnet_tcp_hit` counts on from the start, also past the end of the numbers. -/
theorem fnetTcpHit_iff (startpos endpos pos : UInt32) :
    fnetTcpHit startpos endpos pos ↔ serialDist startpos pos ≤ serialDist startpos endpos := by
  have := startpos.toNat_lt
  have := endpos.toNat_lt
  have := pos.toNat_lt
  unfold fnetTcpHit
  simp only [serialDist_eq]
  split
  next h =>
    rw [UInt32.le_iff_toNat_le] at h
    simp only [Bool.not_eq_true', Bool.or_eq_false_iff, decide_eq_false_iff_not,
      UInt32.lt_iff_toNat_lt]
    omega
  next h =>
    rw [UInt32.le_iff_toNat_le] at h
    simp only [Bool.not_eq_true', Bool.and_eq_false_iff, decide_eq_false_iff_not,
      UInt32.lt_iff_toNat_lt]
    omega

/-- `FNET_TCP_COMP_GE` looks an eighth of the numbers ahead. -/
theorem fnetTcpCompGe_iff (a b : UInt32) : fnetTcpCompGe a b ↔ serialDist b a ≤ 536870912 := by
  have := a.toNat_lt
  have := b.toNat_lt
  unfold fnetTcpCompGe
  rw [fnetTcpHit_iff]
  simp only [serialDist_eq, UInt32.toNat_add, UInt32.reduceToNat]
  omega

theorem fnetTcpCompG_iff (a b : UInt32) : fnetTcpCompG a b ↔ SerialAfter 536870912 b a := by
  have := a.toNat_lt
  have := b.toNat_lt
  unfold fnetTcpCompG SerialAfter
  rw [fnetTcpHit_iff]
  simp only [serialDist_eq, UInt32.toNat_add, UInt32.reduceToNat]
  omega

/-! ## Sending -/

/-- A socket without what the functions that send may change. -/
def TcpSocket.apartFromSending (sk : TcpSocket) : TcpSocket :=
  { sk with
    connectionState := .established
    snd.sndseq := 0
    snd.maxrcvack := 0
    rcv.rcvwnd := 0
    rcv.newfreercvsize := 0
    timing.timingack := 0
    timing.cprto := 0
    timing.timingState := .segmentLost
    timers.retransmission := 0
    timers.persist := 0
    timers.delayedAck := 0
    timers.roundTrip := 0
    flags.finSent := false
    flags.sendTimeout := false
    asked := 0
    out := [] }

/-- The final segment has been asked for. -/
def TcpSocket.Finishes (sk : TcpSocket) : Prop :=
  sk.sendBuffer.isShutdown = true ∨ sk.connectionState = .finWait1 ∨ sk.connectionState = .lastAck

/-- A segment that tells the other side how far `sk` has received. -/
structure TcpSegment.Tells (segment : TcpSegment) (sk : TcpSocket) : Prop where
  ack : segment.ack = sk.rcv.sndack
  ackFlag : segment.ackFlag = true
  rst : segment.rst = false
  syn : segment.syn = false
  urg : segment.urg = false
  fin : segment.fin = true → sk.Finishes

/-- What the functions that send make of a socket. -/
structure TcpSocket.Sends (sk sk' : TcpSocket) : Prop where
  frame : sk'.apartFromSending = sk.apartFromSending
  state : sk.sendBuffer.isShutdown = false → sk'.connectionState = sk.connectionState
  kept : sk.out ⊆ sk'.out
  tells : ∀ segment ∈ sk'.out, segment ∈ sk.out ∨ segment.Tells sk

variable {sk sk' sk'' : TcpSocket}

namespace TcpSocket.Sends

theorem refl
    (sk : TcpSocket) : sk.Sends sk := ⟨rfl, fun _ => rfl, List.Subset.refl _, fun _ => .inl⟩

/-- Whatever does not depend on what sending may change is kept. -/
theorem keeps {α : Type} (h : sk.Sends sk') (f : TcpSocket → α)
    (hf : ∀ s, f s.apartFromSending = f s) : f sk' = f sk := by
  rw [← hf sk', ← hf sk, h.frame]

/-- Sending leaves the output buffer alone: only an acknowledgment takes from it. -/
theorem sendBuffer (h : sk.Sends sk') : sk'.sendBuffer = sk.sendBuffer :=
  h.keeps (·.sendBuffer) fun _ => rfl

theorem sndack (h : sk.Sends sk') : sk'.rcv.sndack = sk.rcv.sndack :=
  h.keeps (·.rcv.sndack) fun _ => rfl

/-- Sending asks for no final segment that was not asked for. -/
theorem finishes (h : sk.Sends sk') (hf : sk'.Finishes) : sk.Finishes := by
  unfold TcpSocket.Finishes at hf ⊢
  rw [h.sendBuffer] at hf
  cases hs : sk.sendBuffer.isShutdown with
  | true => exact .inl rfl
  | false =>
    rw [h.state hs, hs] at hf
    exact hf

theorem trans (h : sk.Sends sk') (h' : sk'.Sends sk'') : sk.Sends sk'' where
  frame := h'.frame.trans h.frame
  state hs := (h'.state (h.sendBuffer ▸ hs)).trans (h.state hs)
  kept := List.Subset.trans h.kept h'.kept
  tells segment hm := by
    rcases h'.tells segment hm with hm | ht
    · exact h.tells segment hm
    · exact .inr { ht with ack := ht.ack.trans h.sndack, fin := fun hf => h.finishes (ht.fin hf) }

/-- What changes no more than sending may change, but sends nothing. -/
theorem quiet (h : sk.Sends sk') (frame : sk''.apartFromSending = sk'.apartFromSending)
    (state : sk''.connectionState = sk'.connectionState) (out : sk''.out = sk'.out) :
    sk.Sends sk'' :=
  h.trans ⟨frame, fun _ => state, out ▸ List.Subset.refl _, fun _ hm => .inl (out ▸ hm)⟩

/-- A segment goes out, if there is memory for it. -/
theorem sendseg {segment : TcpSegment} (h : sk.Sends sk') (ht : segment.Tells sk) :
    sk.Sends (fnetTcpSendseg sk' segment) where
  frame := h.frame
  state := h.state
  kept := by
    show sk.out ⊆ if sk'.room sk'.asked then sk'.out ++ [segment] else sk'.out
    split
    next => exact List.subset_append_of_subset_left _ h.kept
    next => exact h.kept
  tells s hm := by
    have hm : s ∈ if sk'.room sk'.asked then sk'.out ++ [segment] else sk'.out := hm
    split at hm
    next =>
      rcases List.mem_append.1 hm with hm | hm
      · exact h.tells s hm
      · rw [List.mem_singleton.1 hm]
        exact .inr ht
    next => exact h.tells s hm

/-- The states change with a final segment that was asked for. -/
theorem finSent (h : sk.Sends sk') {fin : Bool} (hf : fin = true → sk.Finishes) :
    sk.Sends (sk'.finSent fin) := by
  refine ⟨h.frame, fun hs => ?_, h.kept, h.tells⟩
  have hsame := h.state hs
  cases fin with
  | false => exact hsame
  | true =>
    have hfin := hf rfl
    unfold TcpSocket.Finishes at hfin
    rw [hs, ← hsame] at hfin
    rcases hfin with hfin | hfin | hfin
    · exact absurd hfin (by decide)
    · rw [← hsame, hfin]
      simp only [TcpSocket.finSent, hfin]
    · rw [← hsame, hfin]
      simp only [TcpSocket.finSent, hfin]

theorem setRcvwnd (h : sk.Sends sk') : sk.Sends sk'.setRcvwnd := h.quiet rfl rfl rfl

theorem setSndseq (h : sk.Sends sk') (seq : UInt32) : sk.Sends (sk'.setSndseq seq) :=
  h.quiet rfl rfl rfl

theorem sent (h : sk.Sends sk') (seq : UInt32) : sk.Sends (sk'.sent seq) := h.quiet rfl rfl rfl

/-- `fnet_tcp_sendheadseg`, with a final segment that was asked for. -/
theorem sendheadseg (h : sk.Sends sk') {fin : Bool} (hf : fin = true → sk.Finishes) :
    sk.Sends (fnetTcpSendheadseg sk' fin) := by
  have hfin := h.setRcvwnd.finSent hf
  refine sent (hfin.sendseg ?_) _
  exact ⟨hfin.sndack, rfl, rfl, rfl, rfl, hf⟩

theorem copyOutput (h : sk.Sends sk') (offset len : UInt32) :
    sk.Sends (sk'.copyOutput offset len).2 := h.quiet rfl rfl rfl

/-- `fnet_tcp_senddataseg`: the last bytes take the final segment with them. -/
theorem senddataseg (h : sk.Sends sk') (datasize : UInt32) :
    sk.Sends (fnetTcpSenddataseg sk' datasize) := by
  unfold fnetTcpSenddataseg
  extract_lets seq newdatasize datasize psh fin nextseq sk₂ copied
  have hf : fin = true → sk.Finishes := fun hfin =>
    .inl (h.sendBuffer ▸ (Bool.and_eq_true_iff.1 hfin).1)
  have h₂ : sk.Sends sk₂ := (h.finSent hf).setRcvwnd
  have hcopied : sk.Sends copied.2 := by
    show sk.Sends (if datasize = 0 then (some [], sk₂) else _).2
    split
    next => exact h₂
    next => exact h₂.copyOutput _ _
  split
  next => exact hcopied.setSndseq _
  next =>
    refine sent (hcopied.sendseg ?_) _
    exact ⟨h₂.sndack, rfl, rfl, rfl, rfl, hf⟩

/-- `fnet_tcp_sendack`: a final segment that was sent is sent again. -/
theorem sendack (h : sk.Sends sk') : sk.Sends (fnetTcpSendack sk') := by
  unfold fnetTcpSendack
  refine quiet ?_ rfl rfl rfl
  split
  next hs => exact (h.setSndseq _).sendheadseg fun _ => h.finishes (.inr (.inl hs))
  next hs => exact (h.setSndseq _).sendheadseg fun _ => h.finishes (.inr (.inr hs))
  next => exact h.sendheadseg fun hfin => absurd hfin Bool.false_ne_true

/-- The rest waits for the persist timer. -/
theorem avoidSilly (h : sk.Sends sk') : sk.Sends sk'.avoidSilly := by
  unfold TcpSocket.avoidSilly
  extract_lets _ sk₁
  split
  next => exact h.quiet rfl rfl rfl
  next => exact h.quiet rfl rfl rfl

/-- The loop of `fnet_tcp_sendanydata`, turn after turn. -/
theorem sendloop {datasize : UInt32} {oneexec : Bool} {fuel : Nat} :
    ∀ {sk' : TcpSocket} {sndwnd : Int} {sntdata : UInt32}, sk.Sends sk' →
      sk.Sends (fnetTcpSendloop datasize oneexec fuel sk' sndwnd sntdata).1 := by
  induction fuel with
  | zero => exact fun h => h
  | succ fuel ih =>
    intro sk' sndwnd sntdata h
    unfold fnetTcpSendloop
    split
    next => exact h
    next =>
    split
    next =>
      dsimp only
      split
      next => exact h.senddataseg _
      next => exact ih (h.senddataseg _)
    next =>
    dsimp only
    split
    next => exact h.senddataseg _
    next =>
    split
    next =>
      split
      next => exact h.senddataseg _
      next => exact h.avoidSilly
    next => exact h

theorem startRetransmission (h : sk.Sends sk') : sk.Sends sk'.startRetransmission :=
  h.quiet rfl rfl rfl

theorem startRoundTrip (h : sk.Sends sk') : sk.Sends sk'.startRoundTrip := by
  unfold TcpSocket.startRoundTrip
  split
  next => exact h.quiet rfl rfl rfl
  next => exact h

theorem dataSent (h : sk.Sends sk') : sk.Sends sk'.dataSent :=
  h.startRoundTrip.startRetransmission.quiet rfl rfl rfl

theorem sendwindow (h : sk.Sends sk') (oneexec : Bool) (sntdata wnd : UInt32) :
    sk.Sends (fnetTcpSendwindow sk' oneexec sntdata wnd).2 := by
  unfold fnetTcpSendwindow
  extract_lets datasize mss cwnd sndwnd₁ sndwnd r
  split
  next =>
    split
    next hfin =>
      have hs : sk'.sendBuffer.isShutdown = true :=
        (Bool.and_eq_true_iff.1 (Bool.and_eq_true_iff.1 hfin).1).1
      exact (h.sendheadseg fun _ => .inl (h.sendBuffer ▸ hs)).startRetransmission
    next => exact h
  next =>
    split
    next => exact h.sendloop.dataSent
    next => exact h.sendloop

theorem sendanydata (h : sk.Sends sk') (oneexec : Bool) :
    sk.Sends (fnetTcpSendanydata sk' oneexec).2 := by
  unfold fnetTcpSendanydata
  extract_lets sk₁ sntdata wnd
  have h₁ : sk.Sends sk₁ := h.quiet rfl rfl rfl
  split
  next =>
    have h₂ : sk.Sends (sk₁.shrinkWindow wnd) := h₁.quiet rfl rfl rfl
    exact h₂.sendwindow _ _ _
  next => exact h₁.sendwindow _ _ _

end TcpSocket.Sends

/-! ## Timers of a socket that sends -/

/-- The timers without that of the delayed acknowledgment, which every segment stops. -/
def TcpTimers.apartFromAck (timers : TcpTimers) : TcpTimers := { timers with delayedAck := 0 }

/-- A data segment may take the place of a delayed acknowledgment. -/
theorem fnetTcpSenddataseg_timers (sk : TcpSocket) (datasize : UInt32) :
    (fnetTcpSenddataseg sk datasize).timers.apartFromAck = sk.timers.apartFromAck := by
  unfold fnetTcpSenddataseg
  extract_lets seq newdatasize size psh fin nextseq sk₂ copied
  have hcopied : copied.2.timers.apartFromAck = sk.timers.apartFromAck := by
    show (if size = 0 then (some [], sk₂) else _).2.timers.apartFromAck = _
    split
    next => rfl
    next => rfl
  clear_value copied
  split
  next => exact hcopied
  next => exact hcopied

/-- So does an acknowledgment. -/
theorem fnetTcpSendack_timers (sk : TcpSocket) :
    (fnetTcpSendack sk).timers.apartFromAck = sk.timers.apartFromAck := by
  unfold fnetTcpSendack
  split
  next => rfl
  next => rfl
  next => rfl

/-! ## Receiving -/

/-- A socket without what the functions that receive may change. -/
def TcpSocket.apartFromReceiving (sk : TcpSocket) : TcpSocket :=
  { sk with
    connectionState := .established
    receiveBuffer := { sk.receiveBuffer with data := [], count := 0 }
    rcv := { sk.rcv with rcvchain := [], count := 0, sndack := 0 }
    timers.connection := 0
    timers.keepalive := 0
    flags.finRcvd := false }

/-- What the functions that receive make of a socket. -/
def TcpSocket.Receives (sk sk' : TcpSocket) : Prop := sk'.apartFromReceiving = sk.apartFromReceiving

namespace TcpSocket.Receives

theorem refl (sk : TcpSocket) : sk.Receives sk := rfl

theorem trans (h : sk.Receives sk') (h' : sk'.Receives sk'') : sk.Receives sk'' := Eq.trans h' h

/-- Whatever does not depend on what receiving may change is kept. -/
theorem keeps {α : Type} (h : sk.Receives sk') (f : TcpSocket → α)
    (hf : ∀ s, f s.apartFromReceiving = f s) : f sk' = f sk := by
  rw [← hf sk', ← hf sk, h]

theorem finprocessing (h : sk.Receives sk') (ack : UInt32) :
    sk.Receives (fnetTcpFinprocessing sk' ack) := by
  unfold fnetTcpFinprocessing
  split
  next => exact h
  next =>
    split
    next => exact h
    next => exact h
  next => exact h
  next => exact h

theorem moveSegment (h : sk.Receives sk') (buf : TcpSegment) (size : UInt32) :
    sk.Receives (sk'.moveSegment buf size) := by
  unfold TcpSocket.moveSegment
  extract_lets sk₁ sk₂
  have h₁ : sk.Receives sk₁ := h
  have h₂ : sk.Receives sk₂ := by
    show sk.Receives (if buf.fin then _ else _)
    split
    next => exact h₁.finprocessing _
    next => exact h₁
  exact h₂

/-- All segments whose turn it is. -/
theorem moveloop (chain : List TcpSegment) : ∀ {sk' : TcpSocket} {ackparam : TcpAckparam},
    sk.Receives sk' → sk.Receives (fnetTcpMoveloop chain sk' ackparam).1 := by
  induction chain with
  | nil => exact fun h => h
  | cons buf rest ih =>
    intro sk' ackparam h
    unfold fnetTcpMoveloop
    extract_lets seq
    split
    next =>
      split
      next => exact ih (h.moveSegment buf _)
      next => exact ih h
    next => exact h

/-- A segment that came in order. -/
theorem addinorder (h : sk.Receives sk') (insegment : TcpSegment) (ackparam : TcpAckparam) :
    sk.Receives (fnetTcpAddinorder sk' insegment ackparam).sk := by
  unfold fnetTcpAddinorder
  extract_lets sk₁ ackparam
  have h₁ : sk.Receives sk₁ := by
    show sk.Receives (if insegment.fin then _ else _)
    split
    next => exact h.finprocessing _
    next => exact h
  split
  next => exact h₁
  next => exact h₁

theorem addoutoforder (h : sk.Receives sk') (insegment : TcpSegment) (ackparam : TcpAckparam) :
    sk.Receives (fnetTcpAddoutoforder sk' insegment ackparam).sk := by
  unfold fnetTcpAddoutoforder
  extract_lets ackparam place sk₁ moved
  have h₁ : sk.Receives sk₁ := h
  split
  next =>
    split
    next => exact h₁.moveloop _
    next => exact h₁
  next => exact h

theorem addinpbuf (h : sk.Receives sk') (insegment : TcpSegment) (ackparam : TcpAckparam) :
    sk.Receives (fnetTcpAddinpbuf sk' insegment ackparam).sk := by
  unfold fnetTcpAddinpbuf
  split
  next => exact h
  next =>
    split
    next => exact h.addinorder _ _
    next => exact h.addoutoforder _ _

theorem processData (h : sk.Receives sk') (insegment : TcpSegment) (ackparam : TcpAckparam) :
    sk.Receives (sk'.processData insegment ackparam).sk := by
  unfold TcpSocket.processData
  split
  next => exact h
  next => exact h.addinpbuf _ _

/-- Input that nobody will read is deleted. -/
theorem dropInput (h : sk.Receives sk') : sk.Receives sk'.dropInput := by
  unfold TcpSocket.dropInput
  split
  next => exact h
  next => exact h

end TcpSocket.Receives

/-! ## Cutting a segment to the window -/

/-- What is left of a segment has its header's flags and acknowledgment. -/
structure TcpSegment.CutFrom (cut segment : TcpSegment) : Prop where
  ack : cut.ack = segment.ack
  fin : cut.fin = segment.fin
  rst : cut.rst = segment.rst
  ackFlag : cut.ackFlag = segment.ackFlag
  urg : segment.urg = false → cut.urg = false

/-- What is left without the repeated part. -/
theorem TcpSocket.cutRepeated_from {insegment : TcpSegment} {cut : TcpSegment × TcpAckparam}
    (h : sk.cutRepeated insegment = some cut) : cut.1.CutFrom insegment := by
  unfold TcpSocket.cutRepeated at h
  split at h
  next =>
    split at h
    next =>
      rw [← Option.some.inj h]
      refine ⟨rfl, rfl, rfl, rfl, fun hurg => ?_⟩
      show (insegment.urg && _) = false
      rw [hurg, Bool.false_and]
    next => cases h
  next =>
    rw [← Option.some.inj h]
    exact ⟨rfl, rfl, rfl, rfl, id⟩

/-- What is left inside of the window starts where the segment started. -/
theorem TcpSocket.cutWindow_from {insegment : TcpSegment} {ackparam : TcpAckparam}
    {cut : TcpSegment × TcpAckparam} (h : sk.cutWindow insegment ackparam = some cut) :
    cut.1.CutFrom insegment ∧ cut.1.seq = insegment.seq ∧ cut.1.data <+: insegment.data := by
  unfold TcpSocket.cutWindow at h
  dsimp only at h
  split at h
  next => cases h
  next =>
  split at h
  next =>
    rw [← Option.some.inj h]
    refine ⟨⟨rfl, rfl, rfl, rfl, id⟩, rfl, ?_⟩
    -- the number of bytes to trim is not positive
    show trimBytes _ insegment.data <+: insegment.data
    unfold trimBytes
    split
    next => exact List.prefix_rfl
    next =>
      rw [if_neg (by omega)]
      exact List.take_prefix _ _
  next =>
    rw [← Option.some.inj h]
    exact ⟨⟨rfl, rfl, rfl, rfl, id⟩, rfl, List.prefix_rfl⟩

/-- What is left of a segment is a part of it. -/
theorem TcpSocket.inWindow_from {insegment : TcpSegment} {cut : TcpSegment × TcpAckparam}
    (h : sk.inWindow insegment = some cut) : cut.1.CutFrom insegment := by
  unfold TcpSocket.inWindow at h
  obtain ⟨cut₁, h₁, h₂⟩ := Option.bind_eq_some_iff.1 h
  have hfrom := TcpSocket.cutRepeated_from h₁
  obtain ⟨hfrom₂, -⟩ := TcpSocket.cutWindow_from h₂
  exact ⟨hfrom₂.ack.trans hfrom.ack, hfrom₂.fin.trans hfrom.fin, hfrom₂.rst.trans hfrom.rst,
    hfrom₂.ackFlag.trans hfrom.ackFlag, fun hurg => hfrom₂.urg (hfrom.urg hurg)⟩

/-! ## The slow timer -/

/-- What a slow tick does to a connected socket: the abort timer closes it, or the connection
timer does, or the other timers tick. -/
theorem fnetTcpSlowtimosk_cases (hc : sk.state = .connected) :
    sk.abortTick.2 = true ∧ fnetTcpSlowtimosk sk = sk.abortTick.1
      ∨ sk.abortTick.2 = false ∧ sk.abortTick.1.connectionTick.2 = true
        ∧ fnetTcpSlowtimosk sk = sk.abortTick.1.connectionTick.1
      ∨ sk.abortTick.2 = false ∧ sk.abortTick.1.connectionTick.2 = false
        ∧ fnetTcpSlowtimosk sk = TcpSocket.roundTripTick
          sk.abortTick.1.connectionTick.1.retransmissionTick.keepaliveTick.persistTick := by
  unfold fnetTcpSlowtimosk
  rw [if_pos hc]
  dsimp only
  cases habort : sk.abortTick.2 with
  | true => exact .inl ⟨rfl, if_pos rfl⟩
  | false =>
    rw [if_neg Bool.false_ne_true]
    cases hconnection : sk.abortTick.1.connectionTick.2 with
    | true => exact .inr (.inl ⟨rfl, rfl, if_pos rfl⟩)
    | false => exact .inr (.inr ⟨rfl, rfl, if_neg Bool.false_ne_true⟩)

end Datalogger
