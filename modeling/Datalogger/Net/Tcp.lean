import Datalogger.Net.TcpInput

/-!
# `fnet_tcp.c`: timers and calls

What the slow and the fast timer do to a socket, and the calls of the application. An event
is one of these, or a segment that comes in; each runs with the interrupts locked, so that
a run is a list of events in any order.
-/

namespace Datalogger

/-! ## Timers -/

/-- A timeout is doubled, up to `FNET_TCP_TIMERS_LIMIT`. -/
def fnetTcpBackoff (timeout : Int) : Int :=
  if timeout ≠ fnetTcpTimersLimit then
    if fnetTcpTimersLimit < timeout * 2 then fnetTcpTimersLimit else timeout * 2
  else timeout

/-- `fnet_tcp_sendanydata` with `FNET_TCP_CBF_FORCE_SEND`. -/
def TcpSocket.forceSend (sk : TcpSocket) : TcpSocket :=
  let sk := (fnetTcpSendanydata { sk with flags.forceSend := true } false).2
  { sk with flags.forceSend := false }

/-- The abort timer is started, unless it runs. -/
def TcpSocket.startAbort (sk : TcpSocket) : TcpSocket :=
  { sk with
    timers.abort :=
      if sk.timers.abort = fnetTcpTimerOff then fnetTcpAbortInterval else sk.timers.abort }

/-- The retransmission starts again from the last acknowledgment, with the smallest
congestion window. -/
def TcpSocket.startAgain (sk : TcpSocket) : TcpSocket :=
  let congestion :=
    { sk.congestion with ssthresh := sk.shrinkThreshold, cwnd := sk.snd.sndmss.toUInt32 }
  { ((sk.setCongestion congestion).setSndseq sk.snd.rcvack).loseRoundTrip with
    flags.finSent := false }

/-- The timeout of the retransmission timer: the first one, or twice the last one. -/
def TcpSocket.nextTimeout (sk : TcpSocket) : TcpSocket :=
  let crto :=
    fnetTcpBackoff
      (if sk.timing.retrseq ≠ sk.snd.rcvack then sk.timing.rto else sk.timing.crto)
  { sk with
    timing.retrseq := sk.snd.rcvack
    timing.crto := crto
    timers.retransmission := crto }

/-- `fnet_tcp_rtimeo`. -/
def fnetTcpRtimeo (sk : TcpSocket) : TcpSocket := sk.startAbort.startAgain.forceSend.nextTimeout

/-- `fnet_tcp_ktimeo`. -/
def fnetTcpKtimeo (sk : TcpSocket) : TcpSocket :=
  if sk.room sk.asked then
    let sk := { sk with asked := sk.asked + 1 }
    let rcvwnd := fnetTcpGetrcvwnd sk
    let sk := fnetTcpSendseg sk
      { seq := sk.snd.rcvack - 1, ack := sk.rcv.sndack, ackFlag := true, data := [sk.junk]
        wnd := UInt16.ofNat (rcvwnd.toNat >>> sk.rcv.recvscale.toNat) }
    let limit := (sk.options.keepCnt * sk.options.keepIntvl).toInt
    { sk with
      timers.keepalive := sk.options.keepIntvl.toInt
      timers.abort :=
        if sk.timers.abort = fnetTcpTimerOff ∨ limit < sk.timers.abort then limit
        else sk.timers.abort }
  else { sk with asked := sk.asked + 1 }

/-- `fnet_tcp_ptimeo`. -/
def fnetTcpPtimeo (sk : TcpSocket) : TcpSocket :=
  if sk.snd.sndwnd = 0 then
    let sk := fnetTcpSenddataseg sk 1
    let cprto := fnetTcpBackoff sk.timing.cprto
    { sk.startAbort with
      snd.sndseq := sk.snd.sndseq - 1
      timing.cprto := cprto
      timers.persist := cprto }
  else sk.forceSend

/-- The abort timer in `fnet_tcp_slowtimosk`, and whether it closes the socket. -/
def TcpSocket.abortTick (sk : TcpSocket) : TcpSocket × Bool :=
  if sk.timers.abort = fnetTcpTimerOff then (sk, false)
  else if sk.timers.abort = 1 then
    let error :=
      if sk.options.localError = some .hostunreach then sk.options.localError
      else some .connaborted
    (fnetTcpClosesk { sk with timers.abort := fnetTcpTimerOff, options.localError := error }, true)
  else ({ sk with timers.abort := sk.timers.abort - 1 }, false)

/-- The connection timer in `fnet_tcp_slowtimosk`. -/
def TcpSocket.connectionTick (sk : TcpSocket) : TcpSocket × Bool :=
  if sk.timers.connection = fnetTcpTimerOff then (sk, false)
  else if sk.timers.connection = 1 then
    let sk := { sk with timers.connection := fnetTcpTimerOff }
    if sk.flags.close then
      (if sk.connectionState = .timeWait then fnetTcpClosesk sk else fnetTcpAbortsk sk, true)
    else
      let error :=
        if sk.options.localError = some .hostunreach ∨ sk.options.localError = some .noprotoopt then
          sk.options.localError
        else some .timedout
      (fnetTcpClosesk { sk with options.localError := error }, true)
  else ({ sk with timers.connection := sk.timers.connection - 1 }, false)

/-- The retransmission timer in `fnet_tcp_slowtimosk`. -/
def TcpSocket.retransmissionTick (sk : TcpSocket) : TcpSocket :=
  if sk.timers.retransmission = fnetTcpTimerOff then sk
  else if sk.timers.retransmission = 1 then
    fnetTcpRtimeo { sk with timers.retransmission := fnetTcpTimerOff }
  else { sk with timers.retransmission := sk.timers.retransmission - 1 }

/-- The keepalive timer in `fnet_tcp_slowtimosk`. -/
def TcpSocket.keepaliveTick (sk : TcpSocket) : TcpSocket :=
  if sk.timers.keepalive = fnetTcpTimerOff then sk
  else if sk.timers.keepalive = 1 then fnetTcpKtimeo { sk with timers.keepalive := fnetTcpTimerOff }
  else { sk with timers.keepalive := sk.timers.keepalive - 1 }

/-- The persist timer in `fnet_tcp_slowtimosk`. -/
def TcpSocket.persistTick (sk : TcpSocket) : TcpSocket :=
  if sk.timers.persist = fnetTcpTimerOff then sk
  else if sk.timers.persist = 1 then fnetTcpPtimeo { sk with timers.persist := fnetTcpTimerOff }
  else { sk with timers.persist := sk.timers.persist - 1 }

/-- The round trip timer in `fnet_tcp_slowtimosk`. -/
def TcpSocket.roundTripTick (sk : TcpSocket) : TcpSocket :=
  if sk.timers.roundTrip = fnetTcpTimerOff then sk
  else { sk with timers.roundTrip := sk.timers.roundTrip + 1 }

/-- `fnet_tcp_slowtimosk`. -/
def fnetTcpSlowtimosk (sk : TcpSocket) : TcpSocket :=
  if sk.state = .connected then
    let (sk, closed) := sk.abortTick
    if closed then sk
    else
      let (sk, closed) := sk.connectionTick
      if closed then sk
      else sk.retransmissionTick.keepaliveTick.persistTick.roundTripTick
  else sk

/-- `fnet_tcp_fasttimosk`. -/
def fnetTcpFasttimosk (sk : TcpSocket) : TcpSocket :=
  if sk.state = .connected then
    if sk.timers.delayedAck = fnetTcpTimerOff then sk
    else if sk.timers.delayedAck = 1 then
      fnetTcpSendack { sk with timers.delayedAck := fnetTcpTimerOff }
    else { sk with timers.delayedAck := sk.timers.delayedAck - 1 }
  else sk

/-! ## Calls -/

/-- `FNET_CFG_CPU_ETH0_MTU*1.5`. -/
def fnetTcpMallocMin : UInt32 := 2250

/-- The loop of `fnet_tcp_snd` that tries to send the data. Every turn but the last sends a
byte at least, so that there are no more of them than bytes to send (`fuel`). -/
def fnetTcpTrysend : Nat → TcpSocket → TcpSocket
  | 0, sk => { sk with flags.insnd := false }
  | fuel + 1, sk =>
    let r := fnetTcpSendanydata sk true
    if r.1 then fnetTcpTrysend fuel r.2 else { r.2 with flags.insnd := false }

/-- The free space of the output buffer, as `fnet_tcp_snd` reckons it; `mallocMax` is what
`fnet_malloc_max_netbuf` returns. -/
def TcpSocket.freespace (sk : TcpSocket) (mallocMax : UInt32) : UInt32 :=
  let freespace := sk.sendBuffer.countMax - sk.sendBuffer.count
  if mallocMax < fnetTcpMallocMin then 0 else if mallocMax < freespace then mallocMax else freespace

/-- How many of `len` bytes `fnet_tcp_snd` adds to the output buffer. -/
def TcpSocket.currentlen (sk : TcpSocket) (len : Nat) (mallocMax : UInt32) : Nat :=
  if long (sk.freespace mallocMax) < len then (sk.freespace mallocMax).toNat else len

/-- `fnet_tcp_snd` starts: the flag is set, and memory is asked for. -/
def TcpSocket.startSnd (sk : TcpSocket) : TcpSocket :=
  { sk with flags.insnd := true, asked := sk.asked + 1 }

/-- Data is added to the output buffer of the socket. -/
def TcpSocket.addOutput (sk : TcpSocket) (data : List UInt8) : TcpSocket :=
  { sk with
    sendBuffer :=
      { sk.sendBuffer with
        data := sk.sendBuffer.data ++ data
        count := sk.sendBuffer.count + UInt32.ofNat data.length } }

/-- What `fnet_tcp_snd` does once the data is in the output buffer: if the window of the other
side is closed, it sets the persist timer, otherwise it tries to send. -/
def TcpSocket.sendAdded (sk : TcpSocket) : TcpSocket :=
  if sk.snd.sndwnd = 0 then
    if sk.timers.persist = fnetTcpTimerOff then sk.startPersist else sk
  else fnetTcpTrysend sk.sendBuffer.count.toNat sk

/-- `fnet_tcp_snd`: `none` is `FNET_ERR`, otherwise how many bytes of `buf` were added. -/
def fnetTcpSnd (sk : TcpSocket) (buf : List UInt8) (mallocMax : UInt32) : Option Nat × TcpSocket :=
  let freespace := long (sk.freespace mallocMax)
  let currentlen := sk.currentlen buf.length mallocMax
  if fnetTcpMaxBuffer.toNat < buf.length ∨ sk.state ≠ .connected then (none, sk)
  else if buf = [] then (some 0, sk)
  else if freespace < buf.length ∧ freespace ≤ 0 then (some 0, sk)
  else if sk.room sk.asked then
    if sk.sendBuffer.countMax < UInt32.ofNat currentlen + sk.sendBuffer.count then
      (some 0, sk.startSnd)
    else (some currentlen, (sk.startSnd.addOutput (buf.take currentlen)).sendAdded)
  else (some 0, sk.startSnd)

/-- What `recv` returns: an error, or the bytes that were read. -/
inductive TcpRead where
  | notconn
  | connclosed
  | bytes (buf : List UInt8)
  deriving DecidableEq, Repr

/-- So much of the input buffer is free again that the other side is told. -/
def TcpSocket.windowOpens (sk : TcpSocket) : Bool :=
  let newfree := sk.rcv.newfreercvsize
  (sk.rcv.rcvmss.toUInt32 <<< 1) ≤ newfree || (sk.rcv.rcvcountmax >>> 1) ≤ newfree
    || (sk.rcv.rcvwnd == 0 && newfree != 0)

/-- How many of the `len` bytes asked for are there to be read. -/
def TcpSocket.rcvlen (sk : TcpSocket) (len : Nat) : Nat :=
  let len := if sk.receiveBuffer.count.toNat < len then sk.receiveBuffer.count.toNat else len
  if sk.receiveBuffer.data.length < len then sk.receiveBuffer.data.length else len

/-- Data that was read is taken out of the input buffer. -/
def TcpSocket.removeInput (sk : TcpSocket) (len : Nat) : TcpSocket :=
  { sk with
    receiveBuffer :=
      { sk.receiveBuffer with
        data := sk.receiveBuffer.data.drop len
        count := sk.receiveBuffer.count - UInt32.ofNat len }
    rcv.newfreercvsize := sk.rcv.newfreercvsize + UInt32.ofNat len }

/-- If the window is opened, an acknowledgment tells of it. -/
def TcpSocket.tellOpened (sk : TcpSocket) : TcpSocket :=
  if sk.windowOpens ∧ sk.state = .connected then fnetTcpSendack sk else sk

/-- `fnet_tcp_rcv`; `remove` is false for `MSG_PEEK`. -/
def fnetTcpRcv (sk : TcpSocket) (len : Nat) (remove : Bool) : TcpRead × TcpSocket :=
  let len := sk.rcvlen len
  let buf := sk.receiveBuffer.data.take len
  let sk := if remove then (sk.removeInput len).tellOpened else sk
  if len = 0 ∧ sk.state ≠ .connected then (.notconn, sk)
  else if len = 0 ∧ sk.flags.finRcvd then (.connclosed, sk)
  else (.bytes buf, sk)

/-- Shutting down the writing half sends what can be sent. -/
def TcpSocket.shutdownWrite (sk : TcpSocket) : TcpSocket :=
  if sk.sendBuffer.isShutdown then sk
  else (fnetTcpSendanydata { sk with sendBuffer.isShutdown := true } true).2

/-- The input data is deleted and none is taken any more. -/
def TcpSocket.shutdownRead (sk : TcpSocket) : TcpSocket :=
  { sk with receiveBuffer := { sk.receiveBuffer with data := [], count := 0, isShutdown := true } }

/-- `fnet_tcp_shutdown`, for `SD_READ` and `SD_WRITE`. -/
def fnetTcpShutdown (sk : TcpSocket) (read write : Bool) : TcpSocket :=
  if sk.state = .connected then
    let sk := if write then sk.shutdownWrite else sk
    if read && !sk.receiveBuffer.isShutdown then sk.shutdownRead else sk
  else sk

/-- `fnet_tcp_close`. -/
def fnetTcpClose (sk : TcpSocket) : TcpSocket :=
  if sk.state ≠ .connected then fnetTcpClosesk { sk with flags.close := true }
  else if sk.options.linger = some 0 then fnetTcpAbortsk { sk with flags.close := true }
  else
    let sk := sk.shutdownWrite
    let sk := { sk with flags.close := true }
    if sk.connectionState = .timeWait then
      { sk with receiveBuffer := { sk.receiveBuffer with data := [], count := 0 } }
    else
      { sk.shutdownRead with
        timers.connection := match sk.options.linger with
          | some linger => linger * 100 / 500
          | none => fnetTcpAbortInterval }

/-! ## Runs -/

/-- What can happen to a socket: a segment or a notification comes in, a timer ticks, or the
application calls. -/
inductive TcpEvent where
  | input (segment : TcpSegment) (headerRead : Bool)
  | ctrlinput (command : TcpNotify)
  | slowtimo
  | fasttimo
  | accept
  | send (buf : List UInt8) (mallocMax : UInt32)
  | recv (len : Nat) (remove : Bool)
  | shutdown (read write : Bool)
  | close
  deriving DecidableEq, Repr

/-- A socket with the bytes that `send` has taken and those that `recv` has handed out. -/
structure TcpParty where
  sk : TcpSocket
  written : List UInt8
  read : List UInt8

/-- The bytes that a call of `recv` takes out of the socket. -/
def TcpRead.taken : TcpRead → Bool → List UInt8
  | .bytes buf, true => buf
  | _, _ => []

/-- One event. The descriptor of a socket is gone once it is closed, and `send` and `recv`
refuse a direction that is shut down. -/
def TcpParty.step (p : TcpParty) : TcpEvent → TcpParty
  | .input segment headerRead => { p with sk := fnetTcpInput p.sk segment headerRead }
  | .ctrlinput command => { p with sk := fnetTcpCtrlinput p.sk command }
  | .slowtimo => { p with sk := fnetTcpSlowtimosk p.sk }
  | .fasttimo => { p with sk := fnetTcpFasttimosk p.sk }
  | .accept => if p.sk.state = .connected then { p with sk.headCon := false } else p
  | .send buf mallocMax =>
    if p.sk.flags.close || p.sk.headCon || p.sk.sendBuffer.isShutdown then p
    else
      let r := fnetTcpSnd p.sk buf mallocMax
      { p with sk := r.2, written := p.written ++ buf.take (r.1.getD 0) }
  | .recv len remove =>
    if p.sk.flags.close || p.sk.headCon || p.sk.receiveBuffer.isShutdown then p
    else
      let r := fnetTcpRcv p.sk len remove
      { p with sk := r.2, read := p.read ++ r.1.taken remove }
  | .shutdown read write =>
    if p.sk.flags.close || p.sk.headCon then p else { p with sk := fnetTcpShutdown p.sk read write }
  | .close =>
    if p.sk.flags.close || p.sk.headCon then p else { p with sk := fnetTcpClose p.sk }

/-- A run. -/
def TcpParty.run (p : TcpParty) (events : List TcpEvent) : TcpParty := events.foldl TcpParty.step p

end Datalogger
