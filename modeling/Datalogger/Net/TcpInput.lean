import Datalogger.Net.TcpOutput

/-!
# `fnet_tcp.c`: receiving

What `fnet_tcp_inputsk` does with a segment of a connection that stands: it cuts the
segment to the window, takes its acknowledgment, and adds its data to the input buffer or
keeps it in the temporary buffer until what is before it has come.
-/

namespace Datalogger

/-! ## Closing -/

/-- A socket's memory is given back by `fnet_tcp_delsk`. -/
def fnetTcpDelsk (sk : TcpSocket) : TcpSocket :=
  { sk with
    state := .deleted
    sendBuffer := { sk.sendBuffer with data := [], count := 0 }
    receiveBuffer := { sk.receiveBuffer with data := [], count := 0 }
    rcv := { sk.rcv with rcvchain := [], count := 0 } }

/-- `fnet_tcp_closesk`. -/
def fnetTcpClosesk (sk : TcpSocket) : TcpSocket :=
  if sk.headCon || sk.flags.close then fnetTcpDelsk sk
  else
    { sk with
      rcv := { sk.rcv with rcvchain := [], count := 0 }
      sendBuffer := { sk.sendBuffer with data := [], count := 0 }
      state := .unconnected }

/-- `fnet_tcp_sendrstsk`. -/
def fnetTcpSendrstsk (sk : TcpSocket) : TcpSocket :=
  if sk.state ≠ .unconnected ∧ sk.connectionState ≠ .timeWait then
    fnetTcpSendseg sk { seq := sk.snd.rcvack, ack := 0, rst := true }
  else sk

/-- `fnet_tcp_abortsk`. -/
def fnetTcpAbortsk (sk : TcpSocket) : TcpSocket := fnetTcpClosesk (fnetTcpSendrstsk sk)

/-! ## Receiving -/

/-- The acknowledgment parameter. -/
structure TcpAckparam where
  noSending : Bool := false
  sendImmediately : Bool := false
  sendWithDelay : Bool := false
  finAck : Bool := false
  deriving DecidableEq, Repr

/-- The state after both final segments. -/
def TcpSocket.enterTimeWait (sk : TcpSocket) : TcpSocket :=
  { sk with
    connectionState := .timeWait
    timers.connection :=
      if sk.timers.connection ≤ 0 then fnetTcpTimeWait else sk.timers.connection
    timers.keepalive := fnetTcpTimerOff
    flags.finRcvd := true }

/-- `fnet_tcp_finprocessing`. -/
def fnetTcpFinprocessing (sk : TcpSocket) (ack : UInt32) : TcpSocket :=
  match sk.connectionState with
  | .established => { sk with connectionState := .closeWait, flags.finRcvd := true }
  | .finWait1 =>
    if ack ≠ sk.snd.sndseq then { sk with connectionState := .closing, flags.finRcvd := true }
    else sk.enterTimeWait
  | .finWait2 => sk.enterTimeWait
  | _ => sk

/-- `cb->tcpcb_sndack += size`. -/
def TcpSocket.addSndack (sk : TcpSocket) (size : UInt32) : TcpSocket :=
  { sk with rcv.sndack := sk.rcv.sndack + size }

/-- Data is added to the input buffer of the socket. -/
def TcpSocket.addData (sk : TcpSocket) (data : List UInt8) : TcpSocket :=
  { sk with
    receiveBuffer :=
      { sk.receiveBuffer with
        data := sk.receiveBuffer.data ++ data
        count := sk.receiveBuffer.count + UInt32.ofNat data.length } }

/-- `cb->tcpcb_count -= size`. -/
def TcpSocket.takeCount (sk : TcpSocket) (size : UInt32) : TcpSocket :=
  { sk with rcv.count := sk.rcv.count - size }

/-- `cb->tcpcb_sndack = seq`. -/
def TcpSocket.setSndack (sk : TcpSocket) (seq : UInt32) : TcpSocket := { sk with rcv.sndack := seq }

/-- A segment is moved from the temporary buffer to the input buffer; `size` bytes of it
are repeated. -/
def TcpSocket.moveSegment (sk : TcpSocket) (buf : TcpSegment) (size : UInt32) : TcpSocket :=
  let sk := sk.takeCount buf.totalLength
  let sk := if buf.fin then fnetTcpFinprocessing sk buf.ack else sk
  (sk.addData (trimBytes size.toNat buf.data)).setSndack
    (if buf.fin then buf.endSeq + 1 else buf.endSeq)

/-- `cb->tcpcb_rcvchain->total_length` once the first segment is taken off. -/
def TcpSocket.nextTotalLength (sk : TcpSocket) : List TcpSegment → UInt32
  | [] => sk.nullLoad
  | buf :: _ => buf.totalLength

/-- The loop of `fnet_tcp_addinpbuf` that moves the data from the temporary buffer to the
input buffer, over the chain of the temporary buffer. -/
def fnetTcpMoveloop : List TcpSegment → TcpSocket → TcpAckparam → TcpSocket × TcpAckparam
  | [], sk, ackparam => ({ sk with rcv.rcvchain := [] }, ackparam)
  | buf :: rest, sk, ackparam =>
    let seq := sk.rcv.sndack
    if fnetTcpCompGe seq buf.seq then
      if fnetTcpCompGe buf.endSeq seq then
        fnetTcpMoveloop rest (sk.moveSegment buf (fnetTcpGetsize buf.seq seq))
          { ackparam with finAck := ackparam.finAck || buf.fin }
      else
        -- the repeated segment is deleted, and the size of the next one is taken off
        fnetTcpMoveloop rest (sk.takeCount (sk.nextTotalLength rest)) ackparam
    else ({ sk with rcv.rcvchain := buf :: rest }, ackparam)

/-- What `fnet_tcp_addinpbuf` leaves behind; `added` is what it returns, and `headerGone`
says that the segment's header is no longer there to be read. -/
structure TcpAdded where
  sk : TcpSocket
  ackparam : TcpAckparam
  added : Bool
  headerGone : Bool

/-- `fnet_tcp_addinpbuf` for a segment that came in order. -/
def fnetTcpAddinorder (sk : TcpSocket) (insegment : TcpSegment) (ackparam : TcpAckparam) :
    TcpAdded :=
  let sk :=
    if insegment.fin then (fnetTcpFinprocessing sk insegment.ack).addSndack 1 else sk
  let ackparam := { ackparam with finAck := ackparam.finAck || insegment.fin }
  if insegment.data = [] then ⟨sk, ackparam, true, true⟩
  else
    ⟨(sk.addSndack (UInt32.ofNat insegment.data.length)).addData insegment.data,
      { ackparam with sendWithDelay := true }, true, true⟩

/-- The temporary buffer with a segment of `size` bytes added. -/
def TcpSocket.setRcvchain (sk : TcpSocket) (chain : List TcpSegment) (size : UInt32) : TcpSocket :=
  { sk with rcv.rcvchain := chain, rcv.count := sk.rcv.count + size }

/-- `fnet_tcp_addinpbuf` for a segment that goes through the temporary buffer. -/
def fnetTcpAddoutoforder (sk : TcpSocket) (insegment : TcpSegment) (ackparam : TcpAckparam) :
    TcpAdded :=
  if sk.rcv.count + insegment.totalLength ≤ sk.rcv.rcvcountmax ∨ insegment.seq = sk.rcv.sndack then
    let ackparam := { ackparam with sendImmediately := true }
    let place := sk.rcv.rcvchain.span fun buf => !fnetTcpCompG buf.seq insegment.seq
    let sk := sk.setRcvchain (place.1 ++ insegment :: place.2) insegment.totalLength
    if insegment.seq = sk.rcv.sndack then
      let moved := fnetTcpMoveloop sk.rcv.rcvchain sk ackparam
      ⟨moved.1, moved.2, true, moved.1.rcv.rcvchain.length ≤ place.2.length⟩
    else ⟨sk, ackparam, true, false⟩
  else ⟨sk, ackparam, false, false⟩

/-- `fnet_tcp_addinpbuf`. -/
def fnetTcpAddinpbuf (sk : TcpSocket) (insegment : TcpSegment) (ackparam : TcpAckparam) :
    TcpAdded :=
  if insegment.data = [] ∧ ¬ insegment.urg ∧ ¬ insegment.fin then ⟨sk, ackparam, false, false⟩
  else if insegment.seq = sk.rcv.sndack ∧ sk.rcv.count = 0 then
    fnetTcpAddinorder sk insegment ackparam
  else fnetTcpAddoutoforder sk insegment ackparam

/-! ## Acknowledgments -/

/-- The congestion window and the slow start threshold when data is lost. -/
def TcpSocket.shrinkThreshold (sk : TcpSocket) : UInt32 :=
  let ssthresh :=
    if sk.snd.sndwnd < sk.congestion.cwnd then sk.snd.sndwnd >>> 1 else sk.congestion.cwnd >>> 1
  let two := sk.snd.sndmss.toUInt32 <<< 1
  if ssthresh < two then two else ssthresh

/-- The fast retransmission. -/
def TcpSocket.fastRetransmission (sk : TcpSocket) : TcpSocket :=
  let ssthresh := sk.shrinkThreshold
  let congestion :=
    { sk.congestion with
      fastretrcounter := sk.congestion.fastretrcounter + 1
      ssthresh := ssthresh
      cwnd := ssthresh }
  let seq := sk.snd.sndseq
  let sk := (sk.setCongestion congestion).setSndseq sk.snd.rcvack
  ((fnetTcpSenddataseg sk sk.snd.sndmss.toUInt32).setSndseq seq).loseRoundTrip

/-- One more repeated acknowledgment. -/
def TcpSocket.countRepeated (sk : TcpSocket) : TcpSocket :=
  sk.setCongestion
    { sk.congestion with fastretrcounter := sk.congestion.fastretrcounter + 1 }

/-- A repeated acknowledgment. -/
def TcpSocket.repeatedAck (sk : TcpSocket) (ackparam : TcpAckparam) : TcpSocket × TcpAckparam :=
  if sk.snd.sndseq ≠ sk.snd.rcvack ∧ sk.sendBuffer.count ≠ 0 then
    let sk := sk.countRepeated
    if sk.congestion.fastretrcounter = 3 then
      (sk.fastRetransmission, { ackparam with noSending := true })
    else (sk, ackparam)
  else (sk, ackparam)

/-- The congestion window opens when `size` bytes are acknowledged. -/
def TcpCongestion.opened (c : TcpCongestion) (mss : UInt16) (size : UInt32) : TcpCongestion :=
  if c.cwnd < fnetTcpMaxBuffer then
    let c :=
      if c.ssthresh < c.cwnd then { c with pcount := c.pcount + size }
      else if c.ssthresh < c.cwnd + size then
        { c with pcount := c.pcount + c.cwnd + size - c.ssthresh, cwnd := c.ssthresh }
      else { c with cwnd := c.cwnd + size }
    if c.cwnd ≤ c.pcount then
      { c with pcount := c.pcount - c.cwnd, cwnd := c.cwnd + mss.toUInt32 }
    else c
  else c

/-- The smoothed round trip time and its variance after a round trip of `rtt` ticks. -/
def TcpTiming.measured (t : TcpTiming) (rtt : Int) : TcpTiming :=
  let t :=
    if t.srtt ≠ 0 then
      let err := rtt - t.srtt / 8
      let srtt := if t.srtt + err ≤ 0 then 1 else t.srtt + err
      let err := (if err < 0 then -err else err) - t.rttvar / 4
      { t with srtt := srtt, rttvar := if t.rttvar + err ≤ 0 then 1 else t.rttvar + err }
    else { t with srtt := (rtt + 1) * 8, rttvar := (rtt + 1) * 2 }
  { t with timingState := .ackReceived, rto := t.srtt / 8 + t.rttvar }

/-- The acknowledged data is deleted, and the number of the acknowledgment is kept. -/
def TcpSocket.dropAcked (sk : TcpSocket) (ack size : UInt32) : TcpSocket :=
  { sk with
    sendBuffer :=
      { sk.sendBuffer with
        data := trimBytes size.toNat sk.sendBuffer.data
        count := sk.sendBuffer.count - size }
    snd.rcvack := ack
    snd.sndseq := if fnetTcpCompG ack sk.snd.sndseq then ack else sk.snd.sndseq }

/-- The end of the measurement of a round trip. -/
def TcpSocket.stopRoundTrip (sk : TcpSocket) : TcpSocket :=
  if fnetTcpCompGe sk.snd.rcvack sk.timing.timingack ∧ sk.timing.timingState = .segmentSent then
    { sk with
      timing := sk.timing.measured sk.timers.roundTrip
      timers.roundTrip := fnetTcpTimerOff }
  else sk

/-- An acknowledgment of new data. -/
def TcpSocket.newAck (sk : TcpSocket) (ack : UInt32) : TcpSocket :=
  let acked := fnetTcpGetsize sk.snd.rcvack ack
  let size := if sk.sendBuffer.count < acked then sk.sendBuffer.count else acked
  let congestion := { sk.congestion with fastretrcounter := 0 }.opened sk.snd.sndmss size
  ((sk.setCongestion congestion).dropAcked ack size).stopRoundTrip

/-- The persist timer in `fnet_tcp_dataprocess`. -/
def TcpSocket.setPersist (sk : TcpSocket) : TcpSocket :=
  if sk.snd.sndwnd = 0 ∧ sk.sendBuffer.count ≠ 0 then
    let cprto := if sk.timers.persist = fnetTcpTimerOff then sk.timing.rto else sk.timing.cprto
    { sk with timing.cprto := cprto, timers.persist := cprto }
  else if sk.flags.sendTimeout then sk
  else { sk with timers.persist := fnetTcpTimerOff }

/-- The timers of retransmission and persist in `fnet_tcp_dataprocess`. -/
def TcpSocket.setTimers (sk : TcpSocket) : TcpSocket :=
  { sk.setPersist with
    timers.retransmission :=
      if sk.snd.rcvack = sk.snd.sndseq then fnetTcpTimerOff else sk.timing.rto }

/-- The acknowledgment at the end of `fnet_tcp_dataprocess`. -/
def TcpSocket.acknowledge (sk : TcpSocket) (ackparam : TcpAckparam) : TcpSocket :=
  if ackparam.noSending || ackparam.finAck then sk
  else if ackparam.sendImmediately then fnetTcpSendack sk
  else if ackparam.sendWithDelay then { sk with timers.delayedAck := 1 }
  else sk

/-- The other side is there: the keepalive timer starts again and the abort timer stops. -/
def TcpSocket.heardFrom (sk : TcpSocket) : TcpSocket :=
  { sk with
    timers.keepalive := if sk.options.keepalive then sk.options.keepIdle.toInt else fnetTcpTimerOff
    timers.abort := fnetTcpTimerOff }

/-- What `fnet_tcp_dataprocess` does with the acknowledgment of a segment. -/
def TcpSocket.processAck (sk : TcpSocket) (ack : UInt32) (ackparam : TcpAckparam) :
    TcpSocket × TcpAckparam :=
  let sk := sk.heardFrom
  if sk.snd.rcvack = ack then sk.repeatedAck ackparam else (sk.newAck ack, ackparam)

/-- What `fnet_tcp_dataprocess` does with the data of a segment: if the final segment is
received, it takes no more of them. -/
def TcpSocket.processData (sk : TcpSocket) (insegment : TcpSegment) (ackparam : TcpAckparam) :
    TcpAdded :=
  if sk.flags.finRcvd then
    let ackparam :=
      { ackparam with sendImmediately := ackparam.sendImmediately || insegment.data != [] }
    ⟨sk, ackparam, false, false⟩
  else fnetTcpAddinpbuf sk insegment ackparam

/-- What `fnet_tcp_dataprocess` sends. -/
def TcpSocket.processOutput (sk : TcpSocket) (ackparam : TcpAckparam) (psh : Bool) : TcpSocket :=
  let sk := if ackparam.finAck || psh then fnetTcpSendack sk else sk
  let sent := fnetTcpSendanydata sk sk.flags.insnd
  sent.2.setTimers.acknowledge { ackparam with noSending := ackparam.noSending || sent.1 }

/-- `fnet_tcp_dataprocess`; `headerRead` is what the flag `FNET_TCP_SGT_PSH` reads when
the header of the segment is gone. -/
def fnetTcpDataprocess (sk : TcpSocket) (insegment : TcpSegment) (ackparam : TcpAckparam)
    (headerRead : Bool) : TcpSocket :=
  let acked := sk.processAck insegment.ack ackparam
  let added := acked.1.processData insegment acked.2
  added.sk.processOutput added.ackparam (if added.headerGone then headerRead else insegment.psh)

/-! ## Segments -/

/-- The left repeated part of a segment is deleted. -/
def TcpSegment.cutLeft (insegment : TcpSegment) (repsize seq : UInt32) : TcpSegment :=
  let keepsUrg : Bool := repsize.toNat ≤ insegment.urgpointer.toNat
  { insegment with
    seq := seq
    data := cutBytes 0 repsize.toNat insegment.data
    urg := insegment.urg && keepsUrg
    urgpointer :=
      if insegment.urg && keepsUrg then UInt16.ofNat (insegment.urgpointer.toNat - repsize.toNat)
      else insegment.urgpointer }

/-- The left part of a segment that was received before is cut off; `none` if that is all. -/
def TcpSocket.cutRepeated (sk : TcpSocket) (insegment : TcpSegment) :
    Option (TcpSegment × TcpAckparam) :=
  if fnetTcpCompG sk.rcv.sndack insegment.seq then
    if fnetTcpCompG insegment.endSeq sk.rcv.sndack then
      some (insegment.cutLeft (fnetTcpGetsize insegment.seq sk.rcv.sndack) sk.rcv.sndack,
        { sendImmediately := true })
    else none
  else some (insegment, {})

/-- The right part of a segment that is not in the window is cut off; `none` if the segment
starts behind the window. -/
def TcpSocket.cutWindow (sk : TcpSocket) (insegment : TcpSegment) (ackparam : TcpAckparam) :
    Option (TcpSegment × TcpAckparam) :=
  let edge := sk.rcv.sndack + sk.rcv.rcvwnd
  if fnetTcpCompG insegment.seq edge then none
  else if fnetTcpCompG insegment.endSeq edge then
    let data := trimBytes (-(fnetTcpGetsize edge insegment.endSeq).toNat) insegment.data
    some ({ insegment with data := data }, { ackparam with sendImmediately := true })
  else some (insegment, ackparam)

/-- The check of the sequence number in `fnet_tcp_inputsk`: the part of the segment that is
in the window, unless there is nothing to go on with. -/
def TcpSocket.inWindow (sk : TcpSocket) (insegment : TcpSegment) :
    Option (TcpSegment × TcpAckparam) :=
  (sk.cutRepeated insegment).bind fun cut => sk.cutWindow cut.1 cut.2

/-- The window size of the other side. -/
def TcpSocket.setWindow (sk : TcpSocket) (wnd : UInt16) : TcpSocket :=
  let sndwnd := UInt32.ofNat (wnd.toNat <<< sk.snd.sendscale.toNat)
  { sk with
    snd.sndwnd := sndwnd
    snd.maxwnd := if sk.snd.maxwnd < sndwnd then sndwnd else sk.snd.maxwnd }

/-- If the input buffer is closed, the input data is deleted. -/
def TcpSocket.dropInput (sk : TcpSocket) : TcpSocket :=
  if sk.receiveBuffer.isShutdown && sk.receiveBuffer.count != 0 then
    { sk with receiveBuffer := { sk.receiveBuffer with data := [], count := 0 } }
  else sk

/-- The main processing of `fnet_tcp_inputsk`. -/
def fnetTcpMainprocess (sk : TcpSocket) (insegment : TcpSegment) (ackparam : TcpAckparam)
    (headerRead : Bool) : TcpSocket :=
  match sk.connectionState with
  | .established | .finWait2 | .closeWait =>
    (fnetTcpDataprocess sk insegment ackparam headerRead).dropInput
  | .finWait1 =>
    let sk := fnetTcpDataprocess sk insegment ackparam headerRead
    let sk :=
      if sk.snd.sndseq = sk.snd.rcvack ∧ sk.connectionState = .finWait1 then
        { sk with connectionState := .finWait2 }
      else sk
    sk.dropInput
  | .lastAck => if insegment.ack = sk.snd.sndseq then fnetTcpClosesk sk else sk
  | .closing =>
    let sk :=
      if insegment.ack = sk.snd.sndseq then
        { sk with
          connectionState := .timeWait
          timers.connection := fnetTcpTimeWait
          timers.retransmission := fnetTcpTimerOff
          timers.keepalive := fnetTcpTimerOff }
      else sk
    sk.dropInput
  | .timeWait => (fnetTcpSendrst sk insegment).dropInput

/-- `fnet_tcp_inputsk`. -/
def fnetTcpInputsk (sk : TcpSocket) (insegment : TcpSegment) (headerRead : Bool) : TcpSocket :=
  match sk.inWindow insegment with
  | none => fnetTcpSendack sk
  | some (insegment, ackparam) =>
    if insegment.rst then
      if insegment.ackFlag then sk
      else fnetTcpClosesk { sk with options.localError := some .connreset }
    else if insegment.syn then fnetTcpClosesk (fnetTcpSendrst sk insegment)
    else if insegment.ackFlag then
      if fnetTcpHit sk.snd.rcvack sk.snd.maxrcvack insegment.ack then
        fnetTcpMainprocess (sk.setWindow insegment.wnd) insegment ackparam headerRead
      else if fnetTcpCompG insegment.ack sk.snd.maxrcvack then fnetTcpSendack sk
      else sk
    else sk

/-- `fnet_tcp_input` for a segment of this connection; a socket that is not connected is
not found. -/
def fnetTcpInput (sk : TcpSocket) (insegment : TcpSegment) (headerRead : Bool) : TcpSocket :=
  if sk.state = .connected then fnetTcpInputsk sk insegment headerRead
  else if insegment.rst then sk
  else fnetTcpSendrst sk insegment

/-- `fnet_prot_notify_t`. -/
inductive TcpNotify where
  | quench
  | msgsize
  | unreach
  | paramprob
  | unreachPort
  deriving DecidableEq, Repr

/-- `fnet_tcp_ctrlinput`. -/
def fnetTcpCtrlinput (sk : TcpSocket) (command : TcpNotify) : TcpSocket :=
  if sk.state = .connected then
    match command with
    | .quench => { sk with congestion.cwnd := sk.snd.sndmss.toUInt32 }
    | .msgsize => { sk with options.localError := some .msgsize }
    | .unreach => { sk with options.localError := some .hostunreach }
    | .paramprob => { sk with options.localError := some .noprotoopt }
    | .unreachPort => fnetTcpClosesk { sk with options.localError := some .connreset }
  else sk

end Datalogger
