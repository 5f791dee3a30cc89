import Datalogger.Lib.CInt
import Datalogger.Lib.SerialNumber
import Datalogger.Net.NetbufCopies

/-!
# `fnet_tcp.c`: sending

One party of a connection once it stands. Here are its variables and the functions that
send segments; `TcpInput.lean` has what `fnet_tcp_inputsk` does with a segment, and
`Tcp.lean` what the timers do and the calls `send`, `recv`, `shutdown` and `closesocket`.

Mirroring notes:
- A socket is here from the end of the handshake on, with the variables of its control
  block in groups. A segment that is asked of `fnet_tcp_sendseg` and finds memory is in
  `out`; below that, the IP layer and the network may lose it.
- A segment is its header's fields and its data; a chain is its bytes (`trimBytes`,
  `cutBytes` and `copiedBytes` are what the functions of `fnet_netbuf.c` make of them).
- `fnet_tcp_input` refuses a data offset behind the end of the segment, and not one below
  five words. Of a segment with such an offset `fnet_tcp_inputsk` may cut bytes of the header
  and read the header's fields again from what has moved there; such segments are left out
  (`TcpSegment.whole`).
- `unsigned long` is `UInt32`, and `long` is the value of an `Int32`. Timers and the
  round trip time are integers; no timer runs for `2 ^ 31` ticks. The options that
  `setsockopt` takes from its caller are `Int32`, and so is their product.
- `FNET_CFG_TCP_URGENT` and `FNET_CFG_TCP_DISCARD_OUT_OF_ORDER` are 0,
  `FNET_CFG_IP4_FRAGMENTATION` is 1.
- `room` tells of each request for memory whether it is granted, `nullLoad` is what
  `total_length` of the null pointer reads, `junk` the byte of a new net_buf.
- `fnet_tcp_dataprocess` looks at the flags of a segment whose header it may have given
  away; what it reads then is an input (`headerRead`).
-/

namespace Datalogger

/-- A header without options. -/
theorem headerWhole : 20 ≤ 20 := Nat.le_refl 20

/-- A segment, as `fnet_tcp_input` hands it on and as `fnet_tcp_sendseg` sends it;
`length` is `FNET_TCP_LENGTH`, the length of the header, and the header is whole. -/
structure TcpSegment where
  seq : UInt32
  ack : UInt32
  fin : Bool := false
  syn : Bool := false
  rst : Bool := false
  psh : Bool := false
  ackFlag : Bool := false
  urg : Bool := false
  wnd : UInt16 := 0
  urgpointer : UInt16 := 0
  length : Nat := 20
  data : List UInt8 := []
  whole : 20 ≤ length := by exact headerWhole
  deriving DecidableEq, Repr

/-- `total_length` of the segment's chain. -/
def TcpSegment.totalLength (segment : TcpSegment) : UInt32 :=
  UInt32.ofNat (segment.length + segment.data.length)

/-- `FNET_TCP_SEQ(segment) + total_length - FNET_TCP_LENGTH(segment)`. -/
def TcpSegment.endSeq (segment : TcpSegment) : UInt32 :=
  segment.seq + UInt32.ofNat segment.data.length

/-- `fnet_socket_state_t`, with the sockets that `fnet_socket_release` has deleted. -/
inductive TcpSocketState where
  | unconnected
  | connected
  | deleted
  deriving DecidableEq, Repr

/-- `fnet_tcp_connection_state_t` from the end of the handshake on. -/
inductive TcpConnectionState where
  | established
  | finWait1
  | finWait2
  | closeWait
  | closing
  | lastAck
  | timeWait
  deriving DecidableEq, Repr

/-- `fnet_tcp_timing_state_t`. -/
inductive TcpTimingState where
  | ackReceived
  | segmentSent
  | segmentLost
  deriving DecidableEq, Repr

/-- The errors a socket is left with. -/
inductive TcpError where
  | msgsize
  | hostunreach
  | noprotoopt
  | connreset
  | connaborted
  | timedout
  deriving DecidableEq, Repr

/-- `fnet_socket_buffer_t`. -/
structure SocketBuffer where
  data : List UInt8
  count : UInt32
  countMax : UInt32
  isShutdown : Bool
  deriving DecidableEq, Repr

/-- The control block's variables of the sending direction. -/
structure TcpSnd where
  rcvack : UInt32
  maxrcvack : UInt32
  sndseq : UInt32
  sndwnd : UInt32
  maxwnd : UInt32
  sndmss : UInt16
  sendscale : UInt8
  deriving DecidableEq, Repr

/-- The control block's variables of the receiving direction. -/
structure TcpRcv where
  rcvchain : List TcpSegment
  count : UInt32
  rcvcountmax : UInt32
  sndack : UInt32
  rcvwnd : UInt32
  rcvmss : UInt16
  recvscale : UInt8
  newfreercvsize : UInt32
  deriving DecidableEq, Repr

/-- The congestion window. -/
structure TcpCongestion where
  cwnd : UInt32
  pcount : UInt32
  ssthresh : UInt32
  fastretrcounter : Int
  deriving DecidableEq, Repr

/-- The retransmission variables. -/
structure TcpTiming where
  timingack : UInt32
  rto : Int
  crto : Int
  cprto : Int
  retrseq : UInt32
  srtt : Int
  rttvar : Int
  timingState : TcpTimingState
  deriving DecidableEq, Repr

/-- `fnet_tcp_timers_t`. -/
structure TcpTimers where
  abort : Int
  keepalive : Int
  connection : Int
  retransmission : Int
  persist : Int
  delayedAck : Int
  roundTrip : Int
  deriving DecidableEq, Repr

/-- The flags of the control block. -/
structure TcpFlags where
  close : Bool
  finSent : Bool
  finRcvd : Bool
  forceSend : Bool
  sendTimeout : Bool
  insnd : Bool
  deriving DecidableEq, Repr

/-- The socket's options. -/
structure TcpOptions where
  keepalive : Bool
  keepIdle : Int32
  keepIntvl : Int32
  keepCnt : Int32
  nodelay : Bool
  linger : Option Nat
  localError : Option TcpError
  deriving DecidableEq, Repr

/-- A socket with its control block, what it finds when it asks for memory, and the
segments it has sent. `headCon` is set until the socket is accepted. -/
structure TcpSocket where
  state : TcpSocketState
  connectionState : TcpConnectionState
  headCon : Bool
  sendBuffer : SocketBuffer
  receiveBuffer : SocketBuffer
  options : TcpOptions
  snd : TcpSnd
  rcv : TcpRcv
  congestion : TcpCongestion
  timing : TcpTiming
  timers : TcpTimers
  flags : TcpFlags
  room : Nat → Bool
  asked : Nat
  nullLoad : UInt32
  junk : UInt8
  out : List TcpSegment

/-- `FNET_TCP_TIMER_OFF`. -/
def fnetTcpTimerOff : Int := -1

/-- `FNET_TCP_TIMERS_LIMIT`. -/
def fnetTcpTimersLimit : Int := 120

/-- `FNET_TCP_ABORT_INTERVAL`. -/
def fnetTcpAbortInterval : Int := 48

/-- `FNET_TCP_TIME_WAIT`. -/
def fnetTcpTimeWait : Int := 48

/-- `FNET_TCP_MAX_BUFFER`. -/
def fnetTcpMaxBuffer : UInt32 := 0xfff0000

/-- `fnet_ip_maximum_packet`. -/
def fnetIpMaximumPacket : UInt32 := 10180

/-- `FNET_TCP_SIZE_HEADER`. -/
def fnetTcpSizeHeader : UInt32 := 20

/-- A conversion to `long`. -/
def long (x : UInt32) : Int := x.toInt32.toInt

/-! ## Sequence numbers -/

/-- `fnet_tcp_hit`. -/
def fnetTcpHit (startpos endpos pos : UInt32) : Bool :=
  if startpos ≤ endpos then !(pos < startpos || endpos < pos)
  else !(pos < startpos && endpos < pos)

/-- `fnet_tcp_getsize`. -/
def fnetTcpGetsize (pos1 pos2 : UInt32) : UInt32 :=
  if pos1 ≤ pos2 then pos2 - pos1 else 0xffffffff - pos1 + pos2 + 1

/-- `FNET_TCP_COMP_GE`. -/
def fnetTcpCompGe (a b : UInt32) : Bool := fnetTcpHit b (b + 0x20000000) a

/-- `FNET_TCP_COMP_G`. -/
def fnetTcpCompG (a b : UInt32) : Bool := fnetTcpHit (b + 1) (b + 0x20000000) a

/-! ## Sending -/

/-- `fnet_tcp_getrcvwnd`. -/
def fnetTcpGetrcvwnd (sk : TcpSocket) : UInt32 :=
  let rcvwnd := sk.rcv.rcvwnd
  let free := sk.rcv.rcvcountmax - sk.receiveBuffer.count
  let wnd := if long free < 0 then 0 else free
  if rcvwnd < wnd then
    -- the window is opened by no small steps
    if sk.rcv.rcvmss.toUInt32 ≤ wnd - rcvwnd ∨ sk.rcv.rcvcountmax >>> 1 ≤ wnd - rcvwnd
        ∨ rcvwnd = 0 then wnd
    else rcvwnd
  else wnd

/-- `fnet_tcp_sendseg`. -/
def fnetTcpSendseg (sk : TcpSocket) (segment : TcpSegment) : TcpSocket :=
  { sk with
    asked := sk.asked + 1
    out := if sk.room sk.asked then sk.out ++ [segment] else sk.out }

/-- The window that is advertised. -/
def TcpSocket.window (sk : TcpSocket) : UInt16 :=
  UInt16.ofNat (sk.rcv.rcvwnd.toNat >>> sk.rcv.recvscale.toNat)

/-- The states change after the sending of the final segment. -/
def TcpSocket.finSent (sk : TcpSocket) (fin : Bool) : TcpSocket :=
  { sk with
    connectionState :=
      match fin, sk.connectionState with
      | true, .established => .finWait1
      | true, .closeWait => .lastAck
      | _, state => state
    flags.finSent := sk.flags.finSent || fin }

/-- What `fnet_tcp_sendheadseg` and `fnet_tcp_senddataseg` end with. -/
def TcpSocket.sent (sk : TcpSocket) (seq : UInt32) : TcpSocket :=
  { sk with
    timers.delayedAck := fnetTcpTimerOff
    rcv.newfreercvsize := 0
    snd.sndseq := seq
    snd.maxrcvack := if fnetTcpCompG seq sk.snd.maxrcvack then seq else sk.snd.maxrcvack }

/-- `cb->tcpcb_rcvwnd = fnet_tcp_getrcvwnd(sk)`. -/
def TcpSocket.setRcvwnd (sk : TcpSocket) : TcpSocket :=
  { sk with rcv.rcvwnd := fnetTcpGetrcvwnd sk }

/-- `cb->tcpcb_sndseq = seq`. -/
def TcpSocket.setSndseq (sk : TcpSocket) (seq : UInt32) : TcpSocket := { sk with snd.sndseq := seq }

/-- The congestion variables are set. -/
def TcpSocket.setCongestion (sk : TcpSocket) (congestion : TcpCongestion) : TcpSocket :=
  { sk with congestion := congestion }

/-- The round trip time cannot be measured. -/
def TcpSocket.loseRoundTrip (sk : TcpSocket) : TcpSocket :=
  { sk with timers.roundTrip := fnetTcpTimerOff, timing.timingState := .segmentLost }

/-- `fnet_tcp_sendheadseg` with `FNET_TCP_SGT_ACK`, and with `FNET_TCP_SGT_FIN` if `fin`. -/
def fnetTcpSendheadseg (sk : TcpSocket) (fin : Bool) : TcpSocket :=
  let seq := sk.snd.sndseq
  let sk := sk.setRcvwnd.finSent fin
  let sk := fnetTcpSendseg sk
    { seq := seq, ack := sk.rcv.sndack, ackFlag := true, fin := fin, wnd := sk.window }
  sk.sent (if fin then seq + 1 else seq)

/-- The data of the output buffer behind the sequence number. -/
def TcpSocket.newdatasize (sk : TcpSocket) : UInt32 :=
  sk.sendBuffer.count - fnetTcpGetsize sk.snd.rcvack sk.snd.sndseq

/-- How much of `datasize` goes into one segment. -/
def TcpSocket.segmentSize (sk : TcpSocket) (datasize : UInt32) : UInt32 :=
  let datasize := if sk.newdatasize < datasize then sk.newdatasize else datasize
  if fnetIpMaximumPacket < datasize + fnetTcpSizeHeader then
    fnetIpMaximumPacket - fnetTcpSizeHeader
  else datasize

/-- `fnet_netbuf_copy` of a part of the output buffer. -/
def TcpSocket.copyOutput (sk : TcpSocket) (offset len : UInt32) :
    Option (List UInt8) × TcpSocket :=
  (if sk.room sk.asked then copiedBytes offset.toNat (.bytes len.toNat) sk.sendBuffer.data
    else none,
    { sk with asked := sk.asked + 1 })

/-- `fnet_tcp_senddataseg`. -/
def fnetTcpSenddataseg (sk : TcpSocket) (datasize : UInt32) : TcpSocket :=
  let seq := sk.snd.sndseq
  let newdatasize := sk.newdatasize
  let datasize := sk.segmentSize datasize
  let psh := newdatasize == datasize && datasize != 0
  let fin := sk.sendBuffer.isShutdown && newdatasize == datasize
  let nextseq := (if fin then seq + 1 else seq) + datasize
  let sk := (sk.finSent fin).setRcvwnd
  let copied :=
    if datasize = 0 then (some [], sk)
    else sk.copyOutput (sk.sendBuffer.count - newdatasize) datasize
  match copied.1 with
  | none => copied.2.setSndseq nextseq
  | some data =>
    let sk := fnetTcpSendseg copied.2
      { seq := seq, ack := sk.rcv.sndack, ackFlag := true, fin := fin, psh := psh
        wnd := sk.window, data := data }
    sk.sent nextseq

/-- `fnet_tcp_sendack`. -/
def fnetTcpSendack (sk : TcpSocket) : TcpSocket :=
  let sk := match sk.connectionState with
    | .finWait1 | .lastAck => fnetTcpSendheadseg (sk.setSndseq (sk.snd.sndseq - 1)) true
    | _ => fnetTcpSendheadseg sk false
  { sk with timers.delayedAck := fnetTcpTimerOff }

/-- `fnet_tcp_sendrst`. -/
def fnetTcpSendrst (sk : TcpSocket) (insegment : TcpSegment) : TcpSocket :=
  if insegment.ackFlag then fnetTcpSendseg sk { seq := insegment.ack, ack := 0, rst := true }
  else
    let fin := if insegment.fin then 1 else 0
    let syn := if insegment.syn then 1 else 0
    fnetTcpSendseg sk
      { seq := 0, ack := insegment.endSeq + fin + syn, rst := true, ackFlag := true }

/-- The persist timer is started. -/
def TcpSocket.startPersist (sk : TcpSocket) : TcpSocket :=
  { sk with timing.cprto := sk.timing.rto, timers.persist := sk.timing.rto }

/-- The silly window is avoided: the rest waits for the persist timer. -/
def TcpSocket.avoidSilly (sk : TcpSocket) : TcpSocket :=
  let sk := { sk with flags.sendTimeout := true }
  if sk.timers.persist = fnetTcpTimerOff ∨ sk.timing.rto < sk.timers.persist then sk.startPersist
  else sk

/-- The loop of `fnet_tcp_sendanydata`, with the size of the data that is sent. `fuel` is
the first `sndwnd`: every turn sends at least one byte or is the last. -/
def fnetTcpSendloop (datasize : UInt32) (oneexec : Bool) :
    Nat → TcpSocket → Int → UInt32 → TcpSocket × UInt32
  | 0, sk, _, sntdata => (sk, sntdata)
  | fuel + 1, sk, sndwnd, sntdata =>
    if sndwnd ≤ 0 then (sk, sntdata)
    else if (sk.snd.sndmss.toNat : Int) ≤ sndwnd then
      let mss := sk.snd.sndmss.toUInt32
      let sk := fnetTcpSenddataseg sk mss
      if oneexec then (sk, sntdata + mss)
      else fnetTcpSendloop datasize oneexec fuel sk (sndwnd - mss.toNat) (sntdata + mss)
    else
      let size := UInt32.ofNat sndwnd.toNat
      if sk.snd.maxwnd >>> 1 < size || sk.flags.forceSend then
        (fnetTcpSenddataseg sk size, sntdata + size)
      else if sk.snd.rcvack == sk.snd.sndseq || sk.options.nodelay then
        if sntdata + size = datasize then (fnetTcpSenddataseg sk size, sntdata + size)
        else (sk.avoidSilly, sntdata)
      else (sk, sntdata)

/-- The retransmission timer is started, unless it runs. -/
def TcpSocket.startRetransmission (sk : TcpSocket) : TcpSocket :=
  { sk with
    timers.retransmission :=
      if sk.timers.retransmission = fnetTcpTimerOff then sk.timing.rto
      else sk.timers.retransmission }

/-- The measurement of a round trip starts, unless one is being measured. -/
def TcpSocket.startRoundTrip (sk : TcpSocket) : TcpSocket :=
  if sk.timing.timingState = .ackReceived ∨ sk.timing.timingState = .segmentLost
      ∧ fnetTcpCompG sk.snd.sndseq sk.timing.timingack then
    { sk with
      timing.timingack := sk.snd.sndseq
      timers.roundTrip := 0
      timing.timingState := .segmentSent }
  else sk

/-- The timers after the loop of `fnet_tcp_sendanydata`. -/
def TcpSocket.dataSent (sk : TcpSocket) : TcpSocket :=
  { sk.startRoundTrip.startRetransmission with timers.persist := fnetTcpTimerOff }

/-- `fnet_tcp_sendanydata` from where the window is known: `sntdata` bytes are in flight
and the other side takes `wnd` more. -/
def fnetTcpSendwindow (sk : TcpSocket) (oneexec : Bool) (sntdata wnd : UInt32) :
    Bool × TcpSocket :=
  let datasize := sk.sendBuffer.count - sntdata
  let mss := sk.snd.sndmss.toUInt32
  let cwnd := (sk.congestion.cwnd - sntdata) / mss * mss
  let sndwnd := if cwnd < wnd then long cwnd else long wnd
  let sndwnd := if long datasize < sndwnd then long datasize else sndwnd
  if sndwnd ≤ 0 then
    if sk.sendBuffer.isShutdown && datasize == 0 && !sk.flags.finSent then
      (true, (fnetTcpSendheadseg sk true).startRetransmission)
    else (false, sk)
  else
    let r := fnetTcpSendloop datasize oneexec sndwnd.toNat sk sndwnd 0
    if 0 < r.2 then (true, r.1.dataSent) else (false, r.1)

/-- The window is shrinked, by more than is left of it: `wnd` is negative. -/
def TcpSocket.shrinkWindow (sk : TcpSocket) (wnd : UInt32) : TcpSocket :=
  { sk.setSndseq (sk.snd.sndseq + wnd) with timing.timingState := .segmentLost }

/-- The silly window avoidance flag is reset. -/
def TcpSocket.resetSilly (sk : TcpSocket) : TcpSocket := { sk with flags.sendTimeout := false }

/-- `fnet_tcp_sendanydata`. -/
def fnetTcpSendanydata (sk : TcpSocket) (oneexec : Bool) : Bool × TcpSocket :=
  let sk := sk.resetSilly
  let sntdata := fnetTcpGetsize sk.snd.rcvack sk.snd.sndseq
  let wnd := sk.snd.sndwnd - sntdata
  if long wnd < 0 then
    fnetTcpSendwindow (sk.shrinkWindow wnd) oneexec (sntdata + wnd) 0
  else fnetTcpSendwindow sk oneexec sntdata wnd

end Datalogger
