import Datalogger.Net.TcpSender

/-!
# A run of a TCP socket sends the stream

`TcpSender.lean` says what the functions that send do to the places in the stream. Here
are the segments that come in, the timers and the calls; each moves the start of the output
buffer forward at most. A socket that is closed in between sends no more data, and what it
has sent stays right.
-/

namespace Datalogger

open Lib

variable {base : UInt32} {written : List UInt8} {sk sk' : TcpSocket} {a s m : Nat}

/-- The persist timer runs only while there is data to send. -/
def TcpSocket.Waits (sk : TcpSocket) : Prop :=
  sk.timers.persist ≠ fnetTcpTimerOff → sk.sendBuffer.count ≠ 0

/-- What holds of the sending direction of a socket, connected or not. -/
structure SenderSafe (base : UInt32) (written : List UInt8) (sk : TcpSocket) (a : Nat) : Prop where
  rcvack : sk.snd.rcvack = serial base a
  carries : ∀ segment ∈ sk.out, segment.Carries base written a
  connected : sk.state = .connected → (∃ s m, SenderInv base written sk a s m) ∧ sk.Waits

/-! ## The persist timer -/

/-- An acknowledgment does not touch the persist timer. -/
theorem fnetTcpSendack_persist (sk : TcpSocket) :
    (fnetTcpSendack sk).timers.persist = sk.timers.persist := by
  have h := congrArg TcpTimers.persist (fnetTcpSendack_timers sk)
  exact h

namespace SenderInv

/-- There is data in the buffer while the stream is not acknowledged. -/
theorem count_ne_zero (inv : SenderInv base written sk a s m) (h : a < written.length) :
    sk.sendBuffer.count ≠ 0 := by
  have := inv.size
  rw [inv.count]
  intro hzero
  have := congrArg UInt32.toNat hzero
  rw [toNat_ofNat_of_lt (by omega)] at this
  have : written.length - a = 0 := this
  omega

theorem lt_of_count_ne_zero (inv : SenderInv base written sk a s m)
    (h : sk.sendBuffer.count ≠ 0) : a < written.length := by
  by_contra hle
  rw [inv.count, Nat.sub_eq_zero_of_le (Nat.not_lt.1 hle)] at h
  exact h rfl

end SenderInv

/-- `fnet_tcp_sendanydata` from where the window is known: the loop runs only if there is
data, and nothing else starts the persist timer or avoids a silly window. -/
theorem fnetTcpSendwindow_waits (inv : SenderInv base written sk a s m) {sntdata : UInt32}
    (hsnt : sntdata = UInt32.ofNat (s - a)) (oneexec : Bool) (wnd : UInt32) :
    sk.sendBuffer.count ≠ 0
      ∨ (fnetTcpSendwindow sk oneexec sntdata wnd).2.timers.persist = sk.timers.persist
        ∧ (fnetTcpSendwindow sk oneexec sntdata wnd).2.flags.sendTimeout
          = sk.flags.sendTimeout := by
  have hle := inv.le_s
  have hflight := inv.sntdata_le
  unfold fnetTcpSendwindow
  extract_lets datasize mss cwnd sndwnd₁ sndwnd r
  split
  next =>
    split
    next => exact .inr ⟨rfl, rfl⟩
    next => exact .inr ⟨rfl, rfl⟩
  next hpos =>
    -- with an empty buffer the size of the data is 0, or negative behind the final segment
    refine .inl fun hzero => hpos ?_
    have hsndwnd : sndwnd ≤ long datasize := by
      show (if long datasize < sndwnd₁ then _ else _) ≤ _
      split <;> omega
    have hdatasize : datasize.toNat = (4294967296 - (s - a)) % 4294967296 := by
      show (sk.sendBuffer.count - sntdata).toNat = _
      rw [hzero, hsnt, UInt32.toNat_sub, toNat_ofNat_of_lt (by omega)]
      rfl
    by_cases hs : s - a = 0
    · rw [long_of_lt (by omega)] at hsndwnd
      omega
    · rw [long_of_le (by omega)] at hsndwnd
      omega

/-- `fnet_tcp_sendanydata` starts the persist timer only for data that is there. -/
theorem fnetTcpSendanydata_waits (inv : SenderInv base written sk a s m) (oneexec : Bool) :
    (sk.Waits → (fnetTcpSendanydata sk oneexec).2.Waits)
      ∧ ((fnetTcpSendanydata sk oneexec).2.flags.sendTimeout = true →
        (fnetTcpSendanydata sk oneexec).2.sendBuffer.count ≠ 0) := by
  obtain ⟨sk₁, s₁, inv₁, -, heq, hsends, htimers, hsilly⟩ := inv.shrunk oneexec
  have hbuffer := ((TcpSocket.Sends.refl sk).sendanydata oneexec).sendBuffer
  unfold TcpSocket.Waits
  rw [hbuffer, heq]
  rcases fnetTcpSendwindow_waits inv₁ rfl oneexec (UInt32.ofNat (sk.snd.sndwnd.toNat - (s₁ - a)))
    with hcount | ⟨hpersist, hflag⟩
  · rw [hsends.sendBuffer] at hcount
    exact ⟨fun _ _ => hcount, fun _ => hcount⟩
  · rw [hpersist, hflag, htimers, hsilly]
    exact ⟨id, fun h => absurd h Bool.false_ne_true⟩

/-! ## Segments that come in -/

namespace SenderInv

theorem safe (inv : SenderInv base written sk a s m) (hwaits : sk.Waits) :
    SenderSafe base written sk a :=
  ⟨inv.rcvack, inv.carries, fun _ => ⟨⟨s, m, inv⟩, hwaits⟩⟩

/-- The persist timer starts for data only. -/
theorem setTimers (inv : SenderInv base written sk a s m)
    (hsilly : sk.flags.sendTimeout = true → sk.sendBuffer.count ≠ 0) :
    SenderInv base written sk.setTimers a s m ∧ sk.setTimers.Waits := by
  have hpersist : SenderInv base written sk.setPersist a s m ∧ sk.setPersist.Waits := by
    unfold TcpSocket.setPersist
    split
    next h => exact ⟨inv.congr rfl rfl rfl, fun _ => h.2⟩
    next =>
      split
      next h => exact ⟨inv, fun _ => hsilly h⟩
      next => exact ⟨inv.congr rfl rfl rfl, fun h => absurd rfl h⟩
  exact ⟨hpersist.1.congr rfl rfl rfl, hpersist.2⟩

theorem acknowledge (inv : SenderInv base written sk a s m) (hwaits : sk.Waits)
    (ackparam : TcpAckparam) :
    (∃ m', SenderInv base written (sk.acknowledge ackparam) a s m')
      ∧ (sk.acknowledge ackparam).Waits := by
  unfold TcpSocket.acknowledge
  split
  next => exact ⟨⟨m, inv⟩, hwaits⟩
  next =>
    split
    next =>
      refine ⟨inv.sendack, ?_⟩
      unfold TcpSocket.Waits
      rw [fnetTcpSendack_persist, ((TcpSocket.Sends.refl sk).sendack).sendBuffer]
      exact hwaits
    next =>
      split
      next => exact ⟨⟨m, inv.congr rfl rfl rfl⟩, hwaits⟩
      next => exact ⟨⟨m, inv⟩, hwaits⟩

theorem processOutput (inv : SenderInv base written sk a s m) (ackparam : TcpAckparam)
    (psh : Bool) : SenderSafe base written (sk.processOutput ackparam psh) a := by
  unfold TcpSocket.processOutput
  extract_lets sk₁ sent
  have inv₁ : ∃ m₁, SenderInv base written sk₁ a s m₁ := by
    show ∃ m₁, SenderInv base written
      (if ackparam.finAck || psh then fnetTcpSendack sk else sk) a s m₁
    split
    next => exact inv.sendack
    next => exact ⟨m, inv⟩
  obtain ⟨m₁, inv₁⟩ := inv₁
  obtain ⟨s₂, m₂, inv₂, -⟩ := inv₁.sendanydata sk₁.flags.insnd
  have hsilly := (fnetTcpSendanydata_waits inv₁ sk₁.flags.insnd).2
  obtain ⟨inv₃, hwaits⟩ := inv₂.setTimers hsilly
  obtain ⟨⟨m₄, inv₄⟩, hwaits'⟩ := inv₃.acknowledge hwaits
    { ackparam with noSending := ackparam.noSending || sent.1 }
  exact inv₄.safe hwaits'

/-- `fnet_tcp_dataprocess`: the start of the buffer moves, and more is sent. -/
theorem dataprocess (inv : SenderInv base written sk a s m) {insegment : TcpSegment} {a' : Nat}
    (hle : a ≤ a') (hm : a' ≤ m) (hack : insegment.ack = serial base a')
    (ackparam : TcpAckparam) (headerRead : Bool) :
    SenderSafe base written (fnetTcpDataprocess sk insegment ackparam headerRead) a' := by
  unfold fnetTcpDataprocess
  extract_lets acked added
  obtain ⟨s₁, m₁, inv₁⟩ := inv.processAck hle hm ackparam
  rw [← hack] at inv₁
  have inv₂ : SenderInv base written added.sk a' s₁ m₁ :=
    inv₁.receives ((TcpSocket.Receives.refl _).processData _ _)
  exact inv₂.processOutput _ _

theorem setWindow (inv : SenderInv base written sk a s m) (wnd : UInt16) :
    SenderInv base written (sk.setWindow wnd) a s m := by
  refine { inv with sndwnd := ?_ }
  have hwnd := wnd.toNat_lt
  -- 16 bits, shifted by no more than 12
  have hshift : wnd.toNat <<< sk.snd.sendscale.toNat ≤ 65535 * 2 ^ 12 := by
    rw [Nat.shiftLeft_eq]
    exact Nat.mul_le_mul (by omega) (Nat.pow_le_pow_right (by decide) inv.sendscale)
  show (UInt32.ofNat (wnd.toNat <<< sk.snd.sendscale.toNat)).toNat < _
  rw [toNat_ofNat_of_lt (by omega)]
  omega

end SenderInv

namespace SenderSafe

/-- What does not touch the sending direction keeps it safe. -/
theorem congr (h : SenderSafe base written sk a) (hsnd : sk'.snd = sk.snd)
    (hbuffer : sk'.sendBuffer = sk.sendBuffer) (hout : sk'.out = sk.out)
    (hstate : sk'.state = sk.state) (hpersist : sk'.timers.persist = sk.timers.persist) :
    SenderSafe base written sk' a where
  rcvack := hsnd ▸ h.rcvack
  carries := hout ▸ h.carries
  connected hc := by
    obtain ⟨⟨s, m, inv⟩, hwaits⟩ := h.connected (hstate ▸ hc)
    refine ⟨⟨s, m, inv.congr hsnd hbuffer hout⟩, ?_⟩
    unfold TcpSocket.Waits
    rw [hpersist, hbuffer]
    exact hwaits

theorem receives (h : SenderSafe base written sk a) (hr : sk.Receives sk') :
    SenderSafe base written sk' a :=
  h.congr (hr.keeps (·.snd) fun _ => rfl) (hr.keeps (·.sendBuffer) fun _ => rfl)
    (hr.keeps (·.out) fun _ => rfl) (hr.keeps (·.state) fun _ => rfl)
    (hr.keeps (·.timers.persist) fun _ => rfl)

/-- A socket that is closed keeps what it has sent. -/
theorem closesk (h : SenderSafe base written sk a) : SenderSafe base written
    (fnetTcpClosesk sk) a := by
  unfold fnetTcpClosesk
  split
  next => exact ⟨h.rcvack, h.carries, fun hc => by cases hc⟩
  next => exact ⟨h.rcvack, h.carries, fun hc => by cases hc⟩

/-- A segment without data is no matter. -/
theorem sendseg (h : SenderSafe base written sk a) {segment : TcpSegment}
    (hcarries : segment.Carries base written a) :
    SenderSafe base written (fnetTcpSendseg sk segment) a where
  rcvack := h.rcvack
  connected hc := by
    obtain ⟨⟨s, m, inv⟩, hwaits⟩ := h.connected hc
    exact ⟨⟨s, m, inv.sendseg hcarries⟩, hwaits⟩
  carries segment' hm := by
    have hm : segment' ∈ if sk.room sk.asked then sk.out ++ [segment] else sk.out := hm
    split at hm
    next =>
      rcases List.mem_append.1 hm with hm | hm
      · exact h.carries segment' hm
      · rw [List.mem_singleton.1 hm]
        exact hcarries
    next => exact h.carries segment' hm

/-- A segment with `RST` carries no data. -/
theorem sendrst (h : SenderSafe base written sk a) (insegment : TcpSegment) :
    SenderSafe base written (fnetTcpSendrst sk insegment) a := by
  unfold fnetTcpSendrst
  split
  next => exact h.sendseg (.of_nil rfl)
  next => exact h.sendseg (.of_nil rfl)

theorem sendack (h : SenderSafe base written sk a) (hc : sk.state = .connected) :
    SenderSafe base written (fnetTcpSendack sk) a := by
  obtain ⟨⟨s, m, inv⟩, hwaits⟩ := h.connected hc
  obtain ⟨m', inv'⟩ := inv.sendack
  refine inv'.safe ?_
  unfold TcpSocket.Waits
  rw [fnetTcpSendack_persist, ((TcpSocket.Sends.refl sk).sendack).sendBuffer]
  exact hwaits

end SenderSafe

/-- In each state of the connection: the start of the buffer moves, or it stays. -/
theorem SenderInv.mainprocess (inv : SenderInv base written sk a s m) (hwaits : sk.Waits)
    {insegment : TcpSegment} {a' : Nat} (hle : a ≤ a') (hm : a' ≤ m)
    (hack : insegment.ack = serial base a') (ackparam : TcpAckparam) (headerRead : Bool) :
    ∃ a₁, (a₁ = a ∨ a₁ = a') ∧
      SenderSafe base written (fnetTcpMainprocess sk insegment ackparam headerRead) a₁ := by
  have hsafe := inv.safe hwaits
  have hdata := inv.dataprocess hle hm hack ackparam headerRead
  unfold fnetTcpMainprocess
  split
  next => exact ⟨a', .inr rfl, hdata.receives (TcpSocket.Receives.refl _).dropInput⟩
  next => exact ⟨a', .inr rfl, hdata.receives (TcpSocket.Receives.refl _).dropInput⟩
  next => exact ⟨a', .inr rfl, hdata.receives (TcpSocket.Receives.refl _).dropInput⟩
  next =>
    -- `FIN_WAIT_1`: the final segment may be acknowledged
    extract_lets sk₁ sk₂
    have h₂ : SenderSafe base written sk₂ a' := by
      show SenderSafe base written (if sk₁.snd.sndseq = sk₁.snd.rcvack ∧
        sk₁.connectionState = .finWait1 then
          { sk₁ with connectionState := .finWait2 } else sk₁) a'
      split
      next => exact hdata.congr rfl rfl rfl rfl rfl
      next => exact hdata
    exact ⟨a', .inr rfl, h₂.receives (TcpSocket.Receives.refl _).dropInput⟩
  next =>
    -- `LAST_ACK`, `CLOSING` and `TIME_WAIT` take no acknowledgment of data
    split
    next => exact ⟨a, .inl rfl, hsafe.closesk⟩
    next => exact ⟨a, .inl rfl, hsafe⟩
  next =>
    extract_lets _ sk₁
    have h₁ : SenderSafe base written sk₁ a := by
      show SenderSafe base written (if insegment.ack = sk.snd.sndseq then _ else sk) a
      split
      next => exact hsafe.congr rfl rfl rfl rfl rfl
      next => exact hsafe
    exact ⟨a, .inl rfl, h₁.receives (TcpSocket.Receives.refl _).dropInput⟩
  next =>
    exact ⟨a, .inl rfl, (hsafe.sendrst insegment).receives (TcpSocket.Receives.refl _).dropInput⟩

/-- How a segment moves the start of the output buffer: not at all, or to the place in the
stream that it acknowledges. -/
structure TcpSegment.Moves (segment : TcpSegment) (base : UInt32) (written : List UInt8)
    (sk : TcpSocket) (a a' : Nat) : Prop where
  le : a ≤ a'
  acknowledged : a' = a ∨ segment.rst = false ∧ segment.ack = serial base a'
    ∧ a' ≤ sendLimit written a sk.sendBuffer.isShutdown

/-- A segment that is not taken. -/
theorem TcpSegment.Moves.stays {segment : TcpSegment} : segment.Moves base written sk a a :=
  ⟨Nat.le_refl a, .inl rfl⟩

namespace SenderSafe

/-- Whatever segment comes in: only an acknowledgment of what was sent moves the start of
the output buffer. -/
theorem inputsk (h : SenderSafe base written sk a) (hc : sk.state = .connected)
    (insegment : TcpSegment) (headerRead : Bool) :
    ∃ a', insegment.Moves base written sk a a' ∧
      SenderSafe base written (fnetTcpInputsk sk insegment headerRead) a' := by
  unfold fnetTcpInputsk
  split
  next => exact ⟨a, .stays, h.sendack hc⟩
  next cut ackparam hcut =>
  have hfrom := TcpSocket.inWindow_from hcut
  split
  next =>
    split
    next => exact ⟨a, .stays, h⟩
    next =>
      have herror : SenderSafe base written { sk with options.localError := some .connreset } a :=
        h.congr rfl rfl rfl rfl rfl
      exact ⟨a, .stays, herror.closesk⟩
  next hrst =>
  split
  next => exact ⟨a, .stays, (h.sendrst cut).closesk⟩
  next =>
  split
  next =>
    split
    next hhit =>
      obtain ⟨⟨s, m, inv⟩, hwaits⟩ := h.connected hc
      -- the acknowledgment is of a place between the start of the buffer and the farthest one sent
      obtain ⟨a', hle, hm, hack⟩ := inv.acked hhit
      obtain ⟨a₁, ha₁, hsafe⟩ :=
        (inv.setWindow cut.wnd).mainprocess hwaits hle hm hack ackparam headerRead
      refine ⟨a₁, ?_, hsafe⟩
      rcases ha₁ with rfl | rfl
      · exact .stays
      · exact ⟨hle, .inr ⟨hfrom.rst ▸ Bool.eq_false_iff.2 hrst, hfrom.ack ▸ hack,
          Nat.le_trans hm inv.m_le⟩⟩
    next =>
      split
      next => exact ⟨a, .stays, h.sendack hc⟩
      next => exact ⟨a, .stays, h⟩
  next => exact ⟨a, .stays, h⟩

/-- **Any segment that comes in** moves the start of the buffer, or leaves it. -/
theorem input (h : SenderSafe base written sk a) (insegment : TcpSegment) (headerRead : Bool) :
    ∃ a', insegment.Moves base written sk a a' ∧
      SenderSafe base written (fnetTcpInput sk insegment headerRead) a' := by
  unfold fnetTcpInput
  split
  next hc => exact h.inputsk hc insegment headerRead
  next =>
    split
    next => exact ⟨a, .stays, h⟩
    next => exact ⟨a, .stays, h.sendrst insegment⟩

theorem ctrlinput (h : SenderSafe base written sk a) (command : TcpNotify) :
    SenderSafe base written (fnetTcpCtrlinput sk command) a := by
  have herror (error : TcpError) :
      SenderSafe base written { sk with options.localError := some error } a :=
    h.congr rfl rfl rfl rfl rfl
  unfold fnetTcpCtrlinput
  split
  next =>
    cases command with
    | quench => exact h.congr rfl rfl rfl rfl rfl
    | msgsize => exact herror .msgsize
    | unreach => exact herror .hostunreach
    | paramprob => exact herror .noprotoopt
    | unreachPort => exact (herror .connreset).closesk
  next => exact h

end SenderSafe

/-! ## Timers -/

namespace SenderInv

/-- What is sent in small segments is the stream all the same. -/
theorem forceSend (inv : SenderInv base written sk a s m) (hwaits : sk.Waits) :
    SenderSafe base written sk.forceSend a := by
  have inv₁ : SenderInv base written { sk with flags.forceSend := true } a s m :=
    inv.congr rfl rfl rfl
  obtain ⟨s', m', inv₂, -⟩ := inv₁.sendanydata false
  have hwaits₂ := (fnetTcpSendanydata_waits inv₁ false).1 hwaits
  exact (inv₂.safe hwaits₂).congr rfl rfl rfl rfl rfl

/-- The retransmission goes on from the last acknowledgment. -/
theorem rtimeo (inv : SenderInv base written sk a s m) (hwaits : sk.Waits) :
    SenderSafe base written (fnetTcpRtimeo sk) a := by
  have inv₁ : SenderInv base written sk.startAbort.startAgain a a m := by
    -- the sequence number goes back, the farthest place does not
    have inv₂ : SenderInv base written (sk.setSndseq sk.snd.rcvack) a a m := by
      rw [inv.rcvack]
      exact inv.setSndseq (Nat.le_refl a) (Nat.le_trans inv.le_s inv.s_le)
    exact inv₂.congr rfl rfl rfl
  exact (inv₁.forceSend hwaits).congr rfl rfl rfl rfl rfl

/-- Behind the final segment there is no data to copy; only the sequence number moves. -/
theorem senddataseg_beyond (inv : SenderInv base written sk a s m) (h : s = written.length + 1)
    (ha : a < written.length) :
    ∃ sk₁, fnetTcpSenddataseg sk 1 = sk₁.setSndseq (serial base (s + 1))
      ∧ SenderInv base written sk₁ a s m := by
  have hsize := inv.size
  -- the size of what has not been sent is -1
  have hnew : sk.newdatasize.toNat = 4294967295 := by
    unfold TcpSocket.newdatasize
    rw [inv.sntdata, inv.count, UInt32.toNat_sub, toNat_ofNat_of_lt (by omega),
      toNat_ofNat_of_lt (by omega)]
    omega
  have hsegment : sk.segmentSize 1 = 1 := by
    have hnot : ¬ sk.newdatasize < 1 := by
      rw [UInt32.lt_iff_toNat_lt, hnew]
      decide
    unfold TcpSocket.segmentSize
    rw [if_neg hnot]
    rfl
  unfold fnetTcpSenddataseg
  extract_lets seq newdatasize size psh fin nextseq sk₂ copied
  have hone : size = 1 := hsegment
  have hnext : nextseq = serial base (s + 1) := by
    have hlast : (newdatasize == size) = false := by
      rw [beq_eq_false_iff_ne]
      intro heq
      have : newdatasize.toNat = 1 := by rw [heq, hone]; rfl
      have : newdatasize.toNat = 4294967295 := hnew
      omega
    show (if sk.sendBuffer.isShutdown && newdatasize == size then seq + 1 else seq) + size = _
    rw [hlast, Bool.and_false, if_neg Bool.false_ne_true, hone, ← serial_succ]
    exact congrArg (· + 1) inv.sndseq
  have hcopied : copied.1 = none ∧ SenderInv base written copied.2 a s m := by
    have hcopy : copied = sk₂.copyOutput (sk₂.sendBuffer.count - newdatasize) size := by
      show (if size = 0 then (some [], sk₂) else _) = _
      rw [if_neg (by rw [hone]; decide)]
    rw [hcopy]
    refine ⟨?_, inv.congr rfl rfl rfl⟩
    -- the copy would start behind the end of the buffer, and is refused
    have hoffset : (sk₂.sendBuffer.count - newdatasize).toNat = written.length - a + 1 := by
      have hcount : sk₂.sendBuffer.count = UInt32.ofNat (written.length - a) := inv.count
      have hnew' : newdatasize.toNat = 4294967295 := hnew
      rw [hcount, UInt32.toNat_sub, hnew', toNat_ofNat_of_lt (by omega)]
      omega
    have hdata : sk₂.sendBuffer.data = written.drop a := inv.data
    show (if sk₂.room sk₂.asked then copiedBytes _ (.bytes size.toNat) sk₂.sendBuffer.data
      else none) = none
    rw [hoffset, hdata, hone]
    split
    next =>
      show (if (written.drop a).length - (written.length - a + 1) < 1 then none else _) = none
      rw [if_pos (by rw [List.length_drop]; omega)]
    next => rfl
  rw [hnext]
  split
  next => exact ⟨copied.2, rfl, hcopied.2⟩
  next data hdata => exact absurd (hcopied.1.symm.trans hdata) (Option.some_ne_none data).symm

/-- A probe of the window: the byte that it sends is sent again, as its sequence number is
taken back. -/
theorem probed (inv : SenderInv base written sk a s m) (ha : a < written.length) :
    ∃ s' m', SenderInv base written
      ((fnetTcpSenddataseg sk 1).setSndseq ((fnetTcpSenddataseg sk 1).snd.sndseq - 1)) a s' m' := by
  have hle := inv.le_s
  have hlimit := inv.s_le
  have hlimit_le := sendLimit_le written a sk.sendBuffer.isShutdown
  -- behind the final segment there is no byte to send, but the sequence number moves as well
  by_cases hs : s ≤ written.length
  · obtain ⟨m', inv₁⟩ := inv.senddataseg hs 1 rfl
    have hone : (1 : UInt32).toNat = 1 := rfl
    rw [hone] at inv₁
    generalize hs' : s + min (min 1 (written.length - s)) 10160 + finStep
      sk.sendBuffer.isShutdown (written.length - s - min (min 1 (written.length - s)) 10160)
      = s' at inv₁
    have hpos : s' - 1 + 1 = s' := by omega
    refine ⟨s' - 1, m', ?_⟩
    rw [inv₁.sndseq, ← hpos, serial_pred, hpos]
    exact inv₁.setSndseq (by omega) (Nat.le_trans (Nat.sub_le s' 1) inv₁.s_le)
  · obtain ⟨sk₁, heq, inv₁⟩ := inv.senddataseg_beyond (by omega) ha
    have hseq : (fnetTcpSenddataseg sk 1).snd.sndseq = serial base (s + 1) := by
      rw [heq]
      rfl
    refine ⟨s, m, ?_⟩
    rw [hseq, serial_pred, heq]
    exact { inv₁ with sndseq := rfl }

/-- A window probe carries the next byte of the stream. -/
theorem ptimeo (inv : SenderInv base written sk a s m) (hwaits : sk.Waits)
    (ha : a < written.length) : SenderSafe base written (fnetTcpPtimeo sk) a := by
  unfold fnetTcpPtimeo
  split
  next =>
    obtain ⟨s', m', inv₁⟩ := inv.probed ha
    -- the timer runs on: there is still data in the buffer
    have hcount : (fnetTcpSenddataseg sk 1).sendBuffer.count ≠ 0 := by
      rw [((TcpSocket.Sends.refl sk).senddataseg 1).sendBuffer]
      exact inv.count_ne_zero ha
    generalize fnetTcpSenddataseg sk 1 = sk₁ at inv₁ hcount
    exact SenderInv.safe (inv₁.congr rfl rfl rfl) fun _ => hcount
  next => exact inv.forceSend hwaits

end SenderInv

namespace SenderSafe

theorem sendrstsk (h : SenderSafe base written sk a) :
    SenderSafe base written (fnetTcpSendrstsk sk) a := by
  unfold fnetTcpSendrstsk
  split
  next => exact h.sendseg (.of_nil rfl)
  next => exact h

theorem abortsk (h : SenderSafe base written sk a) : SenderSafe base written
    (fnetTcpAbortsk sk) a :=
  h.sendrstsk.closesk

/-- A keepalive segment repeats the number of a byte that was acknowledged. -/
theorem ktimeo (h : SenderSafe base written sk a) : SenderSafe base written
    (fnetTcpKtimeo sk) a := by
  have hasked : SenderSafe base written { sk with asked := sk.asked + 1 } a :=
    h.congr rfl rfl rfl rfl rfl
  unfold fnetTcpKtimeo
  split
  next =>
    refine SenderSafe.congr (hasked.sendseg (.inr ⟨rfl, a, Nat.le_refl a, ?_⟩)) rfl rfl rfl rfl rfl
    show sk.snd.rcvack - 1 + 1 = _
    rw [UInt32.sub_add_cancel, h.rcvack]
  next => exact hasked

theorem abortTick
    (h : SenderSafe base written sk a) : SenderSafe base written sk.abortTick.1 a := by
  unfold TcpSocket.abortTick
  split
  next => exact h
  next =>
  split
  next => exact SenderSafe.closesk (h.congr rfl rfl rfl rfl rfl)
  next => exact h.congr rfl rfl rfl rfl rfl

theorem connectionTick (h : SenderSafe base written sk a) :
    SenderSafe base written sk.connectionTick.1 a := by
  have hoff : SenderSafe base written { sk with timers.connection := fnetTcpTimerOff } a :=
    h.congr rfl rfl rfl rfl rfl
  unfold TcpSocket.connectionTick
  split
  next => exact h
  next =>
  split
  next =>
    dsimp only
    split
    next =>
      split
      next => exact hoff.closesk
      next => exact hoff.abortsk
    next => exact SenderSafe.closesk (hoff.congr rfl rfl rfl rfl rfl)
  next => exact h.congr rfl rfl rfl rfl rfl

/-- The retransmission timer goes back to the start of the buffer. -/
theorem retransmissionTick (h : SenderSafe base written sk a) (hc : sk.state = .connected) :
    SenderSafe base written sk.retransmissionTick a := by
  unfold TcpSocket.retransmissionTick
  split
  next => exact h
  next =>
  split
  next =>
    obtain ⟨⟨s, m, inv⟩, hwaits⟩ := h.connected hc
    have inv₁ : SenderInv base written { sk with timers.retransmission := fnetTcpTimerOff } a s m :=
      inv.congr rfl rfl rfl
    exact inv₁.rtimeo hwaits
  next => exact h.congr rfl rfl rfl rfl rfl

/-- The keepalive timer, whose probe ends where the stream is acknowledged. -/
theorem keepaliveTick (h : SenderSafe base written sk a) :
    SenderSafe base written sk.keepaliveTick a := by
  unfold TcpSocket.keepaliveTick
  split
  next => exact h
  next =>
  split
  next => exact SenderSafe.ktimeo (h.congr rfl rfl rfl rfl rfl)
  next => exact h.congr rfl rfl rfl rfl rfl

/-- The persist timer has run only for data that is there to be sent. -/
theorem persistTick (h : SenderSafe base written sk a) (hc : sk.state = .connected) :
    SenderSafe base written sk.persistTick a := by
  obtain ⟨⟨s, m, inv⟩, hwaits⟩ := h.connected hc
  unfold TcpSocket.persistTick
  split
  next => exact h
  next hon =>
  split
  next =>
    have inv₁ : SenderInv base written { sk with timers.persist := fnetTcpTimerOff } a s m :=
      inv.congr rfl rfl rfl
    exact inv₁.ptimeo (fun hoff => absurd rfl hoff) (inv.lt_of_count_ne_zero (hwaits hon))
  next =>
    have inv₁ : SenderInv base written { sk with timers.persist := sk.timers.persist - 1 } a s m :=
      inv.congr rfl rfl rfl
    exact inv₁.safe fun _ => hwaits hon

theorem roundTripTick (h : SenderSafe base written sk a) :
    SenderSafe base written sk.roundTripTick a := by
  unfold TcpSocket.roundTripTick
  split
  next => exact h
  next => exact h.congr rfl rfl rfl rfl rfl

end SenderSafe

/-! The ticks that leave the socket open leave it connected. -/

/-- A socket that the abort timer does not close. -/
theorem TcpSocket.abortTick_state
    (h : sk.abortTick.2 = false) : sk.abortTick.1.state = sk.state := by
  unfold TcpSocket.abortTick at h ⊢
  split
  next => rfl
  next hoff =>
    rw [if_neg hoff] at h
    split
    next hlast =>
      rw [if_pos hlast] at h
      exact absurd h.symm Bool.false_ne_true
    next => rfl

/-- A socket that the timer of the connection does not close. -/
theorem TcpSocket.connectionTick_state (h : sk.connectionTick.2 = false) :
    sk.connectionTick.1.state = sk.state := by
  unfold TcpSocket.connectionTick at h ⊢
  split
  next => rfl
  next hoff =>
    rw [if_neg hoff] at h
    split
    next hlast =>
      rw [if_pos hlast] at h
      dsimp only at h
      split at h
      next => exact absurd h.symm Bool.false_ne_true
      next => exact absurd h.symm Bool.false_ne_true
    next => rfl

/-- A retransmission does not change the state. -/
theorem fnetTcpRtimeo_state (sk : TcpSocket) : (fnetTcpRtimeo sk).state = sk.state :=
  ((TcpSocket.Sends.refl { sk.startAbort.startAgain with flags.forceSend := true }).sendanydata
    false).keeps (·.state) fun _ => rfl

theorem TcpSocket.retransmissionTick_state (sk : TcpSocket) :
    sk.retransmissionTick.state = sk.state := by
  unfold TcpSocket.retransmissionTick
  split
  next => rfl
  next =>
  split
  next => exact fnetTcpRtimeo_state _
  next => rfl

theorem TcpSocket.keepaliveTick_state (sk : TcpSocket) : sk.keepaliveTick.state = sk.state := by
  unfold TcpSocket.keepaliveTick
  split
  next => rfl
  next =>
  split
  next =>
    unfold fnetTcpKtimeo
    split
    next => rfl
    next => rfl
  next => rfl

namespace SenderSafe

/-- `fnet_tcp_slowtimosk`: the timers in their order, until one closes the socket. -/
theorem slowtimosk (h : SenderSafe base written sk a) :
    SenderSafe base written (fnetTcpSlowtimosk sk) a := by
  by_cases hc : sk.state = .connected
  · rcases fnetTcpSlowtimosk_cases hc with
      ⟨-, heq⟩ | ⟨-, -, heq⟩ | ⟨habort, hconnection, heq⟩
    · rw [heq]
      exact h.abortTick
    · rw [heq]
      exact h.abortTick.connectionTick
    · rw [heq]
      have hstate : sk.abortTick.1.connectionTick.1.state = .connected := by
        rw [TcpSocket.connectionTick_state hconnection, TcpSocket.abortTick_state habort, hc]
      have hkeepalive :
          sk.abortTick.1.connectionTick.1.retransmissionTick.keepaliveTick.state = .connected := by
        rw [TcpSocket.keepaliveTick_state, TcpSocket.retransmissionTick_state, hstate]
      have hticked := (h.abortTick.connectionTick.retransmissionTick hstate).keepaliveTick
      exact (hticked.persistTick hkeepalive).roundTripTick
  · unfold fnetTcpSlowtimosk
    rw [if_neg hc]
    exact h

theorem fasttimosk (h : SenderSafe base written sk a) :
    SenderSafe base written (fnetTcpFasttimosk sk) a := by
  unfold fnetTcpFasttimosk
  split
  next hc =>
    split
    next => exact h
    next =>
    split
    next =>
      have hoff : SenderSafe base written { sk with timers.delayedAck := fnetTcpTimerOff } a :=
        h.congr rfl rfl rfl rfl rfl
      exact hoff.sendack hc
    next => exact h.congr rfl rfl rfl rfl rfl
  next => exact h

end SenderSafe

/-! ## Calls -/

namespace SenderInv

/-- The bytes that `send` takes are behind those it has taken before. -/
theorem addOutput (inv : SenderInv base written sk a s m)
    (hopen : sk.sendBuffer.isShutdown = false) {data : List UInt8}
    (hdata : data.length ≤ 268369920)
    (hroom : ¬ sk.sendBuffer.countMax < UInt32.ofNat data.length + sk.sendBuffer.count) :
    SenderInv base (written ++ data) (sk.addOutput data) a s m := by
  have hsize := inv.size
  have hmax := inv.countMax
  have hle := inv.le_s
  have hs := inv.s_le
  have hm := inv.m_le
  rw [hopen] at hs hm
  have hs : s ≤ written.length := hs
  have hm : m ≤ written.length := hm
  have hlength : (written ++ data).length = written.length + data.length := List.length_append
  -- the buffer is so small that the counter does not overflow
  have hcount : sk.sendBuffer.count + UInt32.ofNat data.length
      = UInt32.ofNat ((written ++ data).length - a) := by
    apply UInt32.toNat.inj
    rw [inv.count, UInt32.toNat_add, toNat_ofNat_of_lt (by omega), toNat_ofNat_of_lt (by omega),
      hlength, UInt32.toNat_ofNat']
    omega
  have hsize' : written.length - a + data.length ≤ 268369920 := by
    rw [UInt32.lt_iff_toNat_lt, inv.count, UInt32.toNat_add, toNat_ofNat_of_lt (by omega),
      toNat_ofNat_of_lt (by omega)] at hroom
    omega
  refine { inv with
    data := ?_, count := hcount, size := by omega
    s_le := ?_, m_le := ?_, carries := fun segment hmem => (inv.carries segment hmem).append data }
  · show sk.sendBuffer.data ++ data = _
    rw [inv.data, List.drop_append_of_le_length (by omega)]
  · have := le_sendLimit (written ++ data) a sk.sendBuffer.isShutdown
    exact Nat.le_trans (by omega) this
  · have := le_sendLimit (written ++ data) a sk.sendBuffer.isShutdown
    exact Nat.le_trans (by omega) this

theorem trysend (fuel : Nat) : ∀ {sk : TcpSocket} {s m : Nat},
    SenderInv base written sk a s m → sk.Waits →
      (∃ s' m', SenderInv base written (fnetTcpTrysend fuel sk) a s' m')
        ∧ (fnetTcpTrysend fuel sk).Waits := by
  induction fuel with
  | zero => exact fun inv hwaits => ⟨⟨_, _, inv.congr rfl rfl rfl⟩, hwaits⟩
  | succ fuel ih =>
    intro sk s m inv hwaits
    obtain ⟨s₁, m₁, inv₁, -⟩ := inv.sendanydata true
    have hwaits₁ := (fnetTcpSendanydata_waits inv true).1 hwaits
    unfold fnetTcpTrysend
    dsimp only
    split
    next => exact ih inv₁ hwaits₁
    next => exact ⟨⟨s₁, m₁, inv₁.congr rfl rfl rfl⟩, hwaits₁⟩

/-- What `send` sends of the bytes it has added. -/
theorem sendAdded (inv : SenderInv base written sk a s m) (hwaits : sk.Waits)
    (hcount : sk.sendBuffer.count ≠ 0) : SenderSafe base written sk.sendAdded a := by
  unfold TcpSocket.sendAdded
  split
  next =>
    split
    next =>
      have inv₁ : SenderInv base written sk.startPersist a s m := inv.congr rfl rfl rfl
      exact inv₁.safe fun _ => hcount
    next => exact inv.safe hwaits
  next =>
    obtain ⟨⟨s', m', inv₁⟩, hwaits₁⟩ := inv.trysend sk.sendBuffer.count.toNat hwaits
    exact inv₁.safe hwaits₁

/-- The end of the writing adds the final segment to the stream. -/
theorem shutdownWrite (inv : SenderInv base written sk a s m) (hwaits : sk.Waits) :
    SenderSafe base written sk.shutdownWrite a := by
  -- there is one number more to be sent
  have hmono : sendLimit written a sk.sendBuffer.isShutdown ≤ sendLimit written a true :=
    sendLimit_le written a sk.sendBuffer.isShutdown
  unfold TcpSocket.shutdownWrite
  split
  next => exact inv.safe hwaits
  next =>
    have inv₁ : SenderInv base written { sk with sendBuffer.isShutdown := true } a s m :=
      { inv with s_le := Nat.le_trans inv.s_le hmono, m_le := Nat.le_trans inv.m_le hmono }
    obtain ⟨s₂, m₂, inv₂, -⟩ := inv₁.sendanydata true
    exact inv₂.safe ((fnetTcpSendanydata_waits inv₁ true).1 hwaits)

end SenderInv

/-- At least one byte is added, and no more than there are. -/
theorem TcpSocket.currentlen_bounds {len : Nat} {mallocMax : UInt32} (hlen : 0 < len)
    (hfree : ¬ (long (sk.freespace mallocMax) < len ∧ long (sk.freespace mallocMax) ≤ 0)) :
    0 < sk.currentlen len mallocMax ∧ sk.currentlen len mallocMax ≤ len := by
  unfold TcpSocket.currentlen
  split
  next hlt =>
    have hpos : 0 < long (sk.freespace mallocMax) := Int.not_le.1 fun hle => hfree ⟨hlt, hle⟩
    -- a free space of half a turn would be negative as a `long`
    have hsmall : (sk.freespace mallocMax).toNat < 2147483648 := by
      by_contra hge
      have := (sk.freespace mallocMax).toNat_lt
      rw [long_of_le (Nat.not_lt.1 hge)] at hpos
      omega
    rw [long_of_lt hsmall] at hlt hpos
    omega
  next => exact ⟨hlen, Nat.le_refl len⟩

namespace SenderSafe

/-- What a call of `send` adds to the stream is what it says to have added. -/
theorem send (h : SenderSafe base written sk a) (hopen : sk.sendBuffer.isShutdown = false)
    (buf : List UInt8) (mallocMax : UInt32) :
    SenderSafe base (written ++ buf.take ((fnetTcpSnd sk buf mallocMax).1.getD 0))
      (fnetTcpSnd sk buf mallocMax).2 a := by
  have hnone {sk' : TcpSocket} (h' : SenderSafe base written sk' a) :
      SenderSafe base (written ++ buf.take 0) sk' a := by
    rw [List.take_zero, List.append_nil]
    exact h'
  have hstart : SenderSafe base written sk.startSnd a := h.congr rfl rfl rfl rfl rfl
  unfold fnetTcpSnd
  extract_lets freespace currentlen
  split
  next => exact hnone h
  next hargs =>
  obtain ⟨hmax, hstate⟩ := not_or.1 hargs
  split
  next => exact hnone h
  next hbuf =>
  split
  next => exact hnone h
  next hfree =>
  split
  next =>
    split
    next => exact hnone hstart
    next hroom =>
      -- there is memory and place: `currentlen` bytes are added, and sending is tried
      have hcurrent : 0 < currentlen ∧ currentlen ≤ buf.length :=
        TcpSocket.currentlen_bounds (List.length_pos_iff.2 hbuf) hfree
      have hlen : (buf.take currentlen).length = currentlen := by
        rw [List.length_take, Nat.min_eq_left hcurrent.2]
      have hmax' : buf.length ≤ 268369920 := Nat.not_lt.1 hmax
      obtain ⟨⟨s, m, inv⟩, hwaits⟩ := hstart.connected (not_not.1 hstate)
      have inv₁ := inv.addOutput hopen (by omega) (hlen ▸ hroom)
      have hs : s ≤ written.length := by
        have := inv.s_le
        rw [show sk.startSnd.sendBuffer.isShutdown = false from hopen] at this
        exact this
      have hcount := inv₁.count_ne_zero (by
        have := inv.le_s
        rw [List.length_append, hlen]
        omega)
      exact inv₁.sendAdded (fun _ => hcount) hcount
  next => exact hnone hstart

theorem tellOpened (h : SenderSafe base written sk a) :
    SenderSafe base written sk.tellOpened a := by
  unfold TcpSocket.tellOpened
  split
  next hopens => exact h.sendack hopens.2
  next => exact h

/-- `recv` is about the other direction. -/
theorem recv (h : SenderSafe base written sk a) (len : Nat) (remove : Bool) :
    SenderSafe base written (fnetTcpRcv sk len remove).2 a := by
  unfold fnetTcpRcv
  extract_lets len buf sk₁
  have h₁ : SenderSafe base written sk₁ a := by
    show SenderSafe base written (if remove then (sk.removeInput len).tellOpened else sk) a
    split
    next => exact SenderSafe.tellOpened (h.congr rfl rfl rfl rfl rfl)
    next => exact h
  split
  next => exact h₁
  next =>
    split
    next => exact h₁
    next => exact h₁

/-- The end of the writing, for any socket. -/
theorem shutdownWrite (h : SenderSafe base written sk a) (hc : sk.state = .connected) :
    SenderSafe base written sk.shutdownWrite a := by
  obtain ⟨⟨s, m, inv⟩, hwaits⟩ := h.connected hc
  exact inv.shutdownWrite hwaits

theorem shutdown (h : SenderSafe base written sk a) (read write : Bool) :
    SenderSafe base written (fnetTcpShutdown sk read write) a := by
  unfold fnetTcpShutdown
  split
  next hc =>
    extract_lets sk₁
    have h₁ : SenderSafe base written sk₁ a := by
      show SenderSafe base written (if write then sk.shutdownWrite else sk) a
      split
      next => exact h.shutdownWrite hc
      next => exact h
    split
    next => exact h₁.congr rfl rfl rfl rfl rfl
    next => exact h₁
  next => exact h

/-- `close` shuts down the writing, or gives the socket up. -/
theorem close (h : SenderSafe base written sk a) : SenderSafe base written (fnetTcpClose sk) a := by
  have hclose : SenderSafe base written { sk with flags.close := true } a :=
    h.congr rfl rfl rfl rfl rfl
  unfold fnetTcpClose
  split
  next => exact hclose.closesk
  next hstate =>
  split
  next => exact hclose.abortsk
  next =>
    have h₁ := h.shutdownWrite (not_not.1 hstate)
    dsimp only
    split
    next => exact h₁.congr rfl rfl rfl rfl rfl
    next => exact h₁.congr rfl rfl rfl rfl rfl

end SenderSafe

/-! ## Runs -/

/-- The socket as the handshake leaves it: the sequence numbers start behind the `SYN`
segments, and nothing has been sent or received. The output buffer is no larger than
`FNET_TCP_MAX_BUFFER`; `SO_SNDBUF` does not check that. -/
structure TcpSocket.Opened (sk : TcpSocket) (base rbase : UInt32) : Prop where
  state : sk.state = .connected
  connectionState : sk.connectionState = .established
  sndseq : sk.snd.rcvack = base ∧ sk.snd.sndseq = base ∧ sk.snd.maxrcvack = base
  sendBuffer : sk.sendBuffer.data = [] ∧ sk.sendBuffer.count = 0
  countMax : sk.sendBuffer.countMax ≤ fnetTcpMaxBuffer
  sndmss : sk.snd.sndmss ≠ 0
  sndwnd : sk.snd.sndwnd.toNat ≤ 65535 * 4096
  sendscale : sk.snd.sendscale ≤ 12
  sndack : sk.rcv.sndack = rbase
  rcvchain : sk.rcv.rcvchain = [] ∧ sk.rcv.count = 0
  rcvwnd : sk.rcv.rcvwnd ≤ fnetTcpMaxBuffer ∧ sk.rcv.rcvcountmax ≤ fnetTcpMaxBuffer
  receiveBuffer : sk.receiveBuffer.data = [] ∧ sk.receiveBuffer.count = 0
  isShutdown : sk.sendBuffer.isShutdown = false ∧ sk.receiveBuffer.isShutdown = false
  persist : sk.timers.persist = fnetTcpTimerOff
  finRcvd : sk.flags.finRcvd = false
  out : sk.out = []

/-- The handshake leaves a socket that has sent nothing. -/
theorem TcpSocket.Opened.safe {rbase : UInt32} (h : sk.Opened base rbase) :
    SenderSafe base [] sk 0 := by
  have inv : SenderInv base [] sk 0 0 0 := {
    rcvack := by rw [h.sndseq.1, serial_zero]
    sndseq := by rw [h.sndseq.2.1, serial_zero]
    maxrcvack := by rw [h.sndseq.2.2, serial_zero]
    data := h.sendBuffer.1
    count := h.sendBuffer.2
    size := Nat.zero_le _
    countMax := UInt32.le_iff_toNat_le.1 h.countMax
    le_s := Nat.le_refl 0
    le_m := Nat.le_refl 0
    s_le := Nat.zero_le _
    m_le := Nat.zero_le _
    sndmss := Nat.pos_of_ne_zero fun hz => h.sndmss (UInt16.toNat.inj hz)
    sndwnd := Nat.lt_of_le_of_lt h.sndwnd (by decide)
    sendscale := UInt8.le_iff_toNat_le.1 h.sendscale
    carries := fun segment hm => by rw [h.out] at hm; cases hm }
  exact inv.safe fun hon => absurd h.persist hon

/-- How an event moves the start of the output buffer: only a segment does. -/
def TcpEvent.Moves (base : UInt32) (p : TcpParty) (a a' : Nat) : TcpEvent → Prop
  | .input segment _ => segment.Moves base p.written p.sk a a'
  | _ => a' = a

/-- The start of the buffer does not go back. -/
theorem TcpEvent.Moves.le {p : TcpParty} {a' : Nat} {event : TcpEvent}
    (h : event.Moves base p a a') : a ≤ a' := by
  cases event with
  | input segment headerRead => exact TcpSegment.Moves.le h
  | ctrlinput command => exact Nat.le_of_eq (Eq.symm h)
  | slowtimo => exact Nat.le_of_eq (Eq.symm h)
  | fasttimo => exact Nat.le_of_eq (Eq.symm h)
  | accept => exact Nat.le_of_eq (Eq.symm h)
  | send buf mallocMax => exact Nat.le_of_eq (Eq.symm h)
  | recv len remove => exact Nat.le_of_eq (Eq.symm h)
  | shutdown read write => exact Nat.le_of_eq (Eq.symm h)
  | close => exact Nat.le_of_eq (Eq.symm h)

/-- Every event keeps the sending direction safe. -/
theorem SenderSafe.step {p : TcpParty} (h : SenderSafe base p.written p.sk a) (event : TcpEvent) :
    ∃ a', event.Moves base p a a' ∧
      SenderSafe base (p.step event).written (p.step event).sk a' := by
  have stays {p' : TcpParty} (h' : SenderSafe base p'.written p'.sk a) :
      ∃ a', a' = a ∧ SenderSafe base p'.written p'.sk a' := ⟨a, rfl, h'⟩
  unfold TcpParty.step
  cases event with
  | input segment headerRead => exact h.input segment headerRead
  | ctrlinput command => exact stays (h.ctrlinput command)
  | slowtimo => exact stays h.slowtimosk
  | fasttimo => exact stays h.fasttimosk
  | accept =>
    dsimp only
    split
    next => exact stays (h.congr rfl rfl rfl rfl rfl)
    next => exact stays h
  | send buf mallocMax =>
    dsimp only
    split
    next => exact stays h
    next hopen =>
      rw [Bool.or_eq_true, not_or] at hopen
      exact stays (h.send (Bool.eq_false_iff.2 hopen.2) buf mallocMax)
  | recv len remove =>
    dsimp only
    split
    next => exact stays h
    next => exact stays (h.recv len remove)
  | shutdown read write =>
    dsimp only
    split
    next => exact stays h
    next => exact stays (h.shutdown read write)
  | close =>
    dsimp only
    split
    next => exact stays h
    next => exact stays h.close

/-- Over a run, whatever comes in. -/
theorem SenderSafe.run (events : List TcpEvent) : ∀ {p : TcpParty} {a : Nat},
    SenderSafe base p.written p.sk a →
      ∃ a', a ≤ a' ∧ SenderSafe base (p.run events).written (p.run events).sk a' := by
  induction events with
  | nil => exact fun h => ⟨_, Nat.le_refl _, h⟩
  | cons event events ih =>
    intro p a h
    obtain ⟨a₁, hmoves, h₁⟩ := h.step event
    obtain ⟨a₂, hle₂, h₂⟩ := ih h₁
    exact ⟨a₂, Nat.le_trans hmoves.le hle₂, h₂⟩

/-- A party right after the handshake, with the sizes of the default configuration. -/
def TcpParty.opened (base rbase : UInt32) : TcpParty where
  sk := {
    state := .connected
    connectionState := .established
    headCon := false
    sendBuffer := { data := [], count := 0, countMax := 20480, isShutdown := false }
    receiveBuffer := { data := [], count := 0, countMax := 2048, isShutdown := false }
    options := {
      keepalive := true, keepIdle := 14400, keepIntvl := 150, keepCnt := 8, nodelay := true
      linger := none, localError := none }
    snd := {
      rcvack := base, maxrcvack := base, sndseq := base, sndwnd := 2048, maxwnd := 2048
      sndmss := 536, sendscale := 0 }
    rcv := {
      rcvchain := [], count := 0, rcvcountmax := 2048, sndack := rbase, rcvwnd := 2048
      rcvmss := 536, recvscale := 0, newfreercvsize := 0 }
    congestion := { cwnd := 536, pcount := 0, ssthresh := fnetTcpMaxBuffer, fastretrcounter := 0 }
    timing := {
      timingack := base, rto := 12, crto := 12, cprto := 12, retrseq := base, srtt := 0
      rttvar := 0, timingState := .ackReceived }
    timers := {
      abort := -1, keepalive := 14400, connection := -1, retransmission := -1, persist := -1
      delayedAck := -1, roundTrip := -1 }
    flags := {
      close := false, finSent := false, finRcvd := false, forceSend := false
      sendTimeout := false, insnd := false }
    room := fun _ => true
    asked := 0
    nullLoad := 0
    junk := 0
    out := [] }
  written := []
  read := []

/-- It is as the handshake leaves a socket. -/
theorem TcpParty.opened_opened (base rbase : UInt32) :
    (TcpParty.opened base rbase).sk.Opened base rbase where
  state := rfl
  connectionState := rfl
  sndseq := ⟨rfl, rfl, rfl⟩
  sendBuffer := ⟨rfl, rfl⟩
  countMax := (by decide : (20480 : UInt32) ≤ fnetTcpMaxBuffer)
  sndmss := (by decide : (536 : UInt16) ≠ 0)
  sndwnd := (by decide : (2048 : UInt32).toNat ≤ 65535 * 4096)
  sendscale := (by decide : (0 : UInt8) ≤ 12)
  sndack := rfl
  rcvchain := ⟨rfl, rfl⟩
  rcvwnd :=
    have hle : (2048 : UInt32) ≤ fnetTcpMaxBuffer := by decide
    ⟨hle, hle⟩
  receiveBuffer := ⟨rfl, rfl⟩
  isShutdown := ⟨rfl, rfl⟩
  persist := rfl
  finRcvd := rfl
  out := rfl

end Datalogger
