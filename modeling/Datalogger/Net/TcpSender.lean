import Datalogger.Net.TcpSteps

/-!
# What a TCP socket sends

Whatever comes in from the network, and whenever: a segment that a socket sends carries
the bytes that the application wrote at the place its sequence number names. The socket
keeps no copy of a segment for the retransmission; it finds the bytes in its output buffer
by the distance of the sequence numbers, and every acknowledgment moves that buffer's
start.

`SenderInv` has the places that the sequence numbers of the control block stand for: the
bytes before `a` are acknowledged, `s` is where the socket goes on sending and `m` the
farthest place it has sent to. `tcp_sends_stream` is the result over whole runs.
-/

namespace Datalogger

open Lib

/-- What a segment carries: the bytes of the stream at its sequence number, or the one byte
of a keepalive segment, which ends where the stream is acknowledged (or was). -/
def TcpSegment.Carries (segment : TcpSegment) (base : UInt32) (written : List UInt8) (a : Nat) :
    Prop :=
  (∃ p, segment.seq = serial base p ∧ segment.data <+: written.drop p)
    ∨ segment.data.length = 1 ∧ ∃ p ≤ a, segment.endSeq = serial base p

/-- The farthest place to send to: the end of the stream, and behind it the number of the
final segment. -/
def sendLimit (written : List UInt8) (a : Nat) (isShutdown : Bool) : Nat :=
  if isShutdown then max written.length a + 1 else written.length

/-- What holds of the sending direction of a connected socket. -/
structure SenderInv (base : UInt32) (written : List UInt8) (sk : TcpSocket)
    (a s m : Nat) : Prop where
  rcvack : sk.snd.rcvack = serial base a
  sndseq : sk.snd.sndseq = serial base s
  maxrcvack : sk.snd.maxrcvack = serial base m
  data : sk.sendBuffer.data = written.drop a
  count : sk.sendBuffer.count = UInt32.ofNat (written.length - a)
  size : written.length - a ≤ 268369920
  countMax : sk.sendBuffer.countMax.toNat ≤ 268369920
  le_s : a ≤ s
  le_m : a ≤ m
  s_le : s ≤ sendLimit written a sk.sendBuffer.isShutdown
  m_le : m ≤ sendLimit written a sk.sendBuffer.isShutdown
  sndmss : 0 < sk.snd.sndmss.toNat
  sndwnd : sk.snd.sndwnd.toNat < 268435456
  sendscale : sk.snd.sendscale.toNat ≤ 12
  carries : ∀ segment ∈ sk.out, segment.Carries base written a

variable {base : UInt32} {written : List UInt8} {sk sk' : TcpSocket} {a s m n : Nat}

/-! ## Numbers and places -/

/-- The final segment has one number. -/
theorem sendLimit_le (written : List UInt8) (a : Nat) (isShutdown : Bool) :
    sendLimit written a isShutdown ≤ max written.length a + 1 := by
  unfold sendLimit
  split <;> omega

theorem le_sendLimit (written : List UInt8) (a : Nat) (isShutdown : Bool) :
    written.length ≤ sendLimit written a isShutdown := by
  unfold sendLimit
  split <;> omega

theorem toNat_ofNat_of_lt (h : n < 4294967296) : (UInt32.ofNat n).toNat = n := by
  rw [UInt32.toNat_ofNat', Nat.mod_eq_of_lt h]

/-- A number that is not negative as a `long`. -/
theorem long_of_lt {x : UInt32} (h : x.toNat < 2147483648) : long x = x.toNat := toInt32_of_lt h

theorem long_of_le {x : UInt32} (h : 2147483648 ≤ x.toNat) : long x = x.toNat - 4294967296 :=
  toInt32_of_le h

namespace SenderInv

/-- What does not touch the sending direction keeps its invariant. -/
theorem congr (inv : SenderInv base written sk a s m) (hsnd : sk'.snd = sk.snd)
    (hbuffer : sk'.sendBuffer = sk.sendBuffer) (hout : sk'.out = sk.out) :
    SenderInv base written sk' a s m := by
  obtain ⟨h₁, h₂, h₃, h₄, h₅, h₆, h₇, h₈, h₉, h₁₀, h₁₁, h₁₂, h₁₃, h₁₄, h₁₅⟩ := inv
  rw [← hsnd] at h₁ h₂ h₃ h₁₂ h₁₃ h₁₄
  rw [← hbuffer] at h₄ h₅ h₇ h₁₀ h₁₁
  rw [← hout] at h₁₅
  exact ⟨h₁, h₂, h₃, h₄, h₅, h₆, h₇, h₈, h₉, h₁₀, h₁₁, h₁₂, h₁₃, h₁₄, h₁₅⟩

/-- Receiving leaves the sending direction alone. -/
theorem receives (inv : SenderInv base written sk a s m) (h : sk.Receives sk') :
    SenderInv base written sk' a s m :=
  inv.congr (h.keeps (·.snd) fun _ => rfl) (h.keeps (·.sendBuffer) fun _ => rfl)
    (h.keeps (·.out) fun _ => rfl)

/-- The bytes in flight. -/
theorem sntdata (inv : SenderInv base written sk a s m) :
    fnetTcpGetsize sk.snd.rcvack sk.snd.sndseq = UInt32.ofNat (s - a) := by
  rw [fnetTcpGetsize_eq, inv.rcvack, inv.sndseq, serial_sub base inv.le_s]

/-- The bytes in flight fit into the largest buffer, with the final segment. -/
theorem sntdata_le (inv : SenderInv base written sk a s m) : s - a ≤ 268369921 := by
  have := inv.s_le
  have := sendLimit_le written a sk.sendBuffer.isShutdown
  have := inv.size
  omega

/-- What has not been sent yet. -/
theorem newdatasize (inv : SenderInv base written sk a s m) (h : s ≤ written.length) :
    sk.newdatasize = UInt32.ofNat (written.length - s) := by
  have hle := inv.le_s
  unfold TcpSocket.newdatasize
  rw [inv.sntdata, inv.count]
  apply UInt32.toNat.inj
  have := inv.size
  rw [UInt32.toNat_sub, UInt32.toNat_ofNat', UInt32.toNat_ofNat', UInt32.toNat_ofNat']
  omega

/-- The size of the segment's data. -/
theorem segmentSize (inv : SenderInv base written sk a s m) (h : s ≤ written.length)
    (datasize : UInt32) :
    sk.segmentSize datasize
      = UInt32.ofNat (min (min datasize.toNat (written.length - s)) 10160) := by
  have hsize := inv.size
  have hle := inv.le_s
  have hnew : (UInt32.ofNat (written.length - s)).toNat = written.length - s :=
    toNat_ofNat_of_lt (by omega)
  have hmin_le := Nat.min_le_right datasize.toNat (written.length - s)
  unfold TcpSocket.segmentSize
  extract_lets size
  have hmin : size.toNat = min datasize.toNat (written.length - s) := by
    show (if sk.newdatasize < datasize then sk.newdatasize else datasize).toNat = _
    rw [inv.newdatasize h]
    split
    next hlt =>
      rw [UInt32.lt_iff_toNat_lt, hnew] at hlt
      omega
    next hlt =>
      rw [UInt32.lt_iff_toNat_lt, hnew] at hlt
      omega
  -- the size with the header does not overflow, and is compared with the largest packet
  have hadd : (size + fnetTcpSizeHeader).toNat = size.toNat + 20 := by
    rw [UInt32.toNat_add]
    show (size.toNat + 20) % 4294967296 = _
    omega
  have hpacket : fnetIpMaximumPacket < size + fnetTcpSizeHeader ↔ 10160 < size.toNat := by
    rw [UInt32.lt_iff_toNat_lt, hadd]
    show 10180 < size.toNat + 20 ↔ _
    omega
  apply UInt32.toNat.inj
  rw [toNat_ofNat_of_lt (by omega), ← hmin]
  split
  next hlt =>
    have := hpacket.1 hlt
    show 10160 = _
    omega
  next hlt =>
    have := mt hpacket.2 hlt
    omega

/-- The socket goes on sending from another place, up to the limit. -/
theorem setSndseq (inv : SenderInv base written sk a s m) {s' : Nat} (hle : a ≤ s')
    (hlimit : s' ≤ sendLimit written a sk.sendBuffer.isShutdown) :
    SenderInv base written (sk.setSndseq (serial base s')) a s' m :=
  { inv with sndseq := rfl, le_s := hle, s_le := hlimit }

/-- The end of sending a segment: the farthest place is kept. -/
theorem sent (inv : SenderInv base written sk a s m) {s' : Nat} (hle : a ≤ s')
    (hlimit : s' ≤ sendLimit written a sk.sendBuffer.isShutdown) :
    ∃ m', SenderInv base written (sk.sent (serial base s')) a s' m' := by
  by_cases h : fnetTcpCompG (serial base s') sk.snd.maxrcvack
  · exact ⟨s', { inv with
      sndseq := rfl, le_s := hle, s_le := hlimit, le_m := hle, m_le := hlimit
      maxrcvack := by simp only [TcpSocket.sent, h, if_true] }⟩
  · exact ⟨m, { inv with
      sndseq := rfl, le_s := hle, s_le := hlimit
      maxrcvack := by
        simp only [TcpSocket.sent, h]
        exact inv.maxrcvack }⟩

/-- A segment that carries its part of the stream goes out. -/
theorem sendseg (inv : SenderInv base written sk a s m) {segment : TcpSegment}
    (hcarries : segment.Carries base written a) :
    SenderInv base written (fnetTcpSendseg sk segment) a s m := by
  refine { inv with carries := fun segment' hm => ?_ }
  have hm : segment' ∈ if sk.room sk.asked then sk.out ++ [segment] else sk.out := hm
  split at hm
  next =>
    rcases List.mem_append.1 hm with hm | hm
    · exact inv.carries segment' hm
    · rw [List.mem_singleton.1 hm]
      exact hcarries
  next => exact inv.carries segment' hm

end SenderInv

/-! ## One segment -/

/-- A segment without data carries nothing. -/
theorem TcpSegment.Carries.of_nil {segment : TcpSegment} (h : segment.data = []) :
    segment.Carries base written a :=
  .inl ⟨serialDist base segment.seq, (serial_serialDist _ _).symm, h ▸ List.nil_prefix⟩

/-- The part of the output buffer that is copied for a segment. -/
theorem copiedBytes_prefix {offset n : Nat} {data : List UInt8}
    (h : copiedBytes offset (.bytes n) (written.drop a) = some data) :
    data <+: written.drop (a + offset) := by
  have hsome : (if (written.drop a).length - offset < n then none
      else some (((written.drop a).drop offset).take n)) = some data := h
  split at hsome
  next => exact absurd hsome.symm (Option.some_ne_none data)
  next =>
    rw [← Option.some.inj hsome, List.drop_drop]
    exact List.take_prefix _ _

/-- The socket has gone on with the stream from `s`, and farther than that if `sent`. -/
def SendsOn (base : UInt32) (written : List UInt8) (sk : TcpSocket) (a s : Nat)
    (sent : Prop) : Prop :=
  ∃ s' m', SenderInv base written sk a s' m' ∧ s ≤ s' ∧ (sent → s < s')

/-- The number of the final segment, once it is shut down and nothing else is left. -/
def finStep (isShutdown : Bool) (rest : Nat) : Nat := if isShutdown && rest == 0 then 1 else 0

/-- A final segment counts one at most. -/
theorem finStep_le_one (isShutdown : Bool) (rest : Nat) : finStep isShutdown rest ≤ 1 := by
  unfold finStep
  split <;> omega

/-- There is place for the bytes that are left and for the final segment. -/
theorem add_finStep_le (isShutdown : Bool) {rest : Nat} (h : s + n + rest = written.length) :
    s + n + finStep isShutdown rest ≤ sendLimit written a isShutdown := by
  have hle := finStep_le_one isShutdown rest
  cases isShutdown with
  | false =>
    show s + n + 0 ≤ written.length
    omega
  | true =>
    show s + n + _ ≤ max written.length a + 1
    omega

namespace SenderInv

/-- If nothing is sent, there is nothing to be shown of it. -/
theorem sendsOn (inv : SenderInv base written sk a s m) {sent : Prop} (h : ¬ sent) :
    SendsOn base written sk a s sent := ⟨s, m, inv, Nat.le_refl s, fun hs => absurd hs h⟩

/-- A segment without data, sent with the sequence number `seq`, moves it only for the final
segment. -/
theorem sendheadseg (inv : SenderInv base written sk a s m) {seq : UInt32} {fin : Bool} {s' : Nat}
    (hseq : (if fin then seq + 1 else seq) = serial base s') (hle : a ≤ s')
    (hlimit : s' ≤ sendLimit written a sk.sendBuffer.isShutdown) :
    ∃ m', SenderInv base written (fnetTcpSendheadseg (sk.setSndseq seq) fin) a s' m' := by
  -- the sequence number is set again at the end, so that its value in between is no matter
  have h₂ : SenderInv base written (sk.setRcvwnd.finSent fin) a s m := inv.congr rfl rfl rfl
  have hcarries : TcpSegment.Carries
      { seq := seq, ack := sk.rcv.sndack, ackFlag := true, fin := fin
        wnd := (sk.setRcvwnd.finSent fin).window } base written a := .of_nil rfl
  obtain ⟨m', h₃⟩ := (h₂.sendseg hcarries).sent hle hlimit
  rw [← hseq] at h₃
  exact ⟨m', h₃⟩

/-- Sending data: the segment holds as much as was asked for and is there, up to the
largest packet, and the number of the final segment is behind the last byte. -/
theorem senddataseg (inv : SenderInv base written sk a s m) (h : s ≤ written.length)
    (datasize : UInt32) (hn : n = min (min datasize.toNat (written.length - s)) 10160) :
    ∃ m', SenderInv base written (fnetTcpSenddataseg sk datasize) a
      (s + n + finStep sk.sendBuffer.isShutdown (written.length - s - n)) m' := by
  have hsize := inv.size
  have hle := inv.le_s
  unfold fnetTcpSenddataseg
  extract_lets seq newdatasize size psh fin nextseq sk₂ copied
  have hnew : newdatasize = UInt32.ofNat (written.length - s) := inv.newdatasize h
  have hsegment : size = UInt32.ofNat n := hn ▸ inv.segmentSize h datasize
  have hn_le : n ≤ written.length - s ∧ n ≤ 10160 := by omega
  have hn_nat : size.toNat = n := hsegment ▸ toNat_ofNat_of_lt (by omega)
  have hnew_nat : newdatasize.toNat = written.length - s :=
    hnew ▸ toNat_ofNat_of_lt (by omega)
  -- the final segment goes with the last byte
  have hlast : (newdatasize == size) = (written.length - s - n == 0) := by
    rw [Bool.eq_iff_iff, beq_iff_eq, beq_iff_eq, ← UInt32.toNat_inj, hnew_nat, hn_nat]
    omega
  have hnext : nextseq
      = serial base (s + n + finStep sk.sendBuffer.isShutdown (written.length - s - n)) := by
    have hseq : seq = serial base s := inv.sndseq
    show (if sk.sendBuffer.isShutdown && newdatasize == size then seq + 1 else seq) + size = _
    unfold finStep
    rw [hlast, hsegment, hseq]
    split
    next => rw [serial_succ, serial_add, Nat.add_right_comm]
    next => rw [serial_add, Nat.add_zero]
  have inv₂ : SenderInv base written sk₂ a s m := inv.congr rfl rfl rfl
  -- what is copied stands at the sequence number: `s - a` bytes into the buffer
  have hcopied : SenderInv base written copied.2 a s m ∧
      ∀ data, copied.1 = some data → data <+: written.drop s := by
    show SenderInv _ _ (if size = 0 then (some [], sk₂) else _).2 _ _ _ ∧
      ∀ data, (if size = 0 then (some [], sk₂) else _).1 = some data → _
    split
    next => exact ⟨inv₂, fun data hdata => Option.some.inj hdata ▸ List.nil_prefix⟩
    next =>
      refine ⟨inv₂.congr rfl rfl rfl, fun data hdata => ?_⟩
      have hoffset : (sk₂.sendBuffer.count - newdatasize).toNat = s - a := by
        rw [inv₂.count, UInt32.toNat_sub, hnew_nat, UInt32.toNat_ofNat']
        omega
      have hread : (if sk₂.room sk₂.asked then
          copiedBytes (sk₂.sendBuffer.count - newdatasize).toNat (.bytes size.toNat)
            sk₂.sendBuffer.data
          else none) = some data := hdata
      rw [hoffset, inv₂.data] at hread
      split at hread
      next =>
        rw [← Nat.add_sub_cancel' hle]
        exact copiedBytes_prefix hread
      next => exact absurd hread.symm (Option.some_ne_none data)
  have hlimit : s + n + finStep sk.sendBuffer.isShutdown (written.length - s - n)
      ≤ sendLimit written a copied.2.sendBuffer.isShutdown := by
    have hbuffer : copied.2.sendBuffer = sk.sendBuffer := by
      show (if size = 0 then (some [], sk₂) else _).2.sendBuffer = _
      split
      next => rfl
      next => rfl
    rw [hbuffer]
    exact add_finStep_le _ (by omega)
  rw [hnext]
  split
  -- without memory for a copy only the sequence number moves, as if the segment were lost
  next => exact ⟨m, hcopied.1.setSndseq (by omega) hlimit⟩
  next data hdata =>
    have hcarries : TcpSegment.Carries
        { seq := seq, ack := sk₂.rcv.sndack, ackFlag := true, fin := fin, psh := psh
          wnd := sk₂.window, data := data } base written a :=
      .inl ⟨s, inv.sndseq, hcopied.2 data hdata⟩
    exact (hcopied.1.sendseg hcarries).sent (by omega) hlimit

/-- An acknowledgment carries no data, and stands where the socket goes on sending. -/
theorem sendack (inv : SenderInv base written sk a s m) :
    ∃ m', SenderInv base written (fnetTcpSendack sk) a s m' := by
  -- a final segment that was sent goes out again, with the number before
  have hback : sk.snd.sndseq - 1 + 1 = serial base s := by
    rw [UInt32.sub_add_cancel, inv.sndseq]
  have hfin : ∃ m', SenderInv base written
      (fnetTcpSendheadseg (sk.setSndseq (sk.snd.sndseq - 1)) true) a s m' :=
    inv.sendheadseg hback inv.le_s inv.s_le
  have hplain : ∃ m', SenderInv base written (fnetTcpSendheadseg sk false) a s m' :=
    inv.sendheadseg inv.sndseq inv.le_s inv.s_le
  unfold fnetTcpSendack
  split
  next => exact hfin.imp fun _ h => h.congr rfl rfl rfl
  next => exact hfin.imp fun _ h => h.congr rfl rfl rfl
  next => exact hplain.imp fun _ h => h.congr rfl rfl rfl

/-! ## As much as the window takes -/

/-- A turn of the loop that sends: it goes on only with bytes that are there. -/
theorem sendturn (inv : SenderInv base written sk a s m) (datasize : UInt32) {sndwnd : Int}
    (hpos : 0 < datasize.toNat) (hsize : (datasize.toNat : Int) ≤ sndwnd)
    (hle : sndwnd ≤ (written.length : Int) - s) :
    ∃ s' m', SenderInv base written (fnetTcpSenddataseg sk datasize) a s' m' ∧ s < s'
      ∧ (0 < sndwnd - datasize.toNat →
          s' ≤ written.length ∧ sndwnd - datasize.toNat ≤ (written.length : Int) - s') := by
  obtain ⟨m', inv'⟩ := inv.senddataseg (by omega) datasize rfl
  refine ⟨_, m', inv', by omega, fun hmore => ?_⟩
  -- something is left, so that this was not the final segment
  have hfin : finStep sk.sendBuffer.isShutdown
      (written.length - s - min (min datasize.toNat (written.length - s)) 10160) = 0 := by
    unfold finStep
    rw [if_neg]
    rw [Bool.and_eq_true, beq_iff_eq]
    omega
  omega

/-- What the loop of `fnet_tcp_sendanydata` sends are the next bytes of the stream. -/
theorem sendloop {datasize : UInt32} {oneexec : Bool} (fuel : Nat) :
    ∀ {sk : TcpSocket} {sndwnd : Int} {sntdata : UInt32} {s m : Nat},
      SenderInv base written sk a s m →
      (0 < sndwnd → s ≤ written.length ∧ sndwnd ≤ (written.length : Int) - s) →
      SendsOn base written (fnetTcpSendloop datasize oneexec fuel sk sndwnd sntdata).1 a s
        ((fnetTcpSendloop datasize oneexec fuel sk sndwnd sntdata).2 ≠ sntdata) := by
  induction fuel with
  | zero => exact fun inv _ => inv.sendsOn fun h => absurd rfl h
  | succ fuel ih =>
    intro sk sndwnd sntdata s m inv hwnd
    unfold fnetTcpSendloop
    split
    next => exact inv.sendsOn fun h => absurd rfl h
    next hpos =>
    obtain ⟨hs, hle⟩ := hwnd (Int.not_le.1 hpos)
    split
    next hmss =>
      -- a whole segment; the loop may go on
      obtain ⟨s₁, m₁, inv₁, hlt, hmore⟩ :=
        inv.sendturn sk.snd.sndmss.toUInt32 inv.sndmss hmss hle
      dsimp only
      split
      next => exact ⟨_, _, inv₁, Nat.le_of_lt hlt, fun _ => hlt⟩
      next =>
        obtain ⟨s₂, m₂, inv₂, hle₂, -⟩ := ih inv₁ hmore
        exact ⟨_, _, inv₂, by omega, fun _ => by omega⟩
    next hmss =>
      -- the rest, which is sent in one segment, or waits for more
      have hsize : (UInt32.ofNat sndwnd.toNat).toNat = sndwnd.toNat := by
        have := inv.size
        have := inv.le_s
        exact toNat_ofNat_of_lt (by omega)
      obtain ⟨s₁, m₁, inv₁, hlt, -⟩ :=
        inv.sendturn (UInt32.ofNat sndwnd.toNat) (by omega) (by omega) hle
      have hsent : SendsOn base written (fnetTcpSenddataseg sk (UInt32.ofNat sndwnd.toNat)) a s
          (sntdata + UInt32.ofNat sndwnd.toNat ≠ sntdata) :=
        ⟨_, _, inv₁, Nat.le_of_lt hlt, fun _ => hlt⟩
      dsimp only
      split
      next => exact hsent
      next =>
      split
      next =>
        split
        next => exact hsent
        next =>
          have inv' : SenderInv base written sk.avoidSilly a s m := by
            unfold TcpSocket.avoidSilly
            extract_lets sk₁
            split
            next => exact inv.congr rfl rfl rfl
            next => exact inv.congr rfl rfl rfl
          exact inv'.sendsOn fun h => absurd rfl h
      next => exact inv.sendsOn fun h => absurd rfl h

theorem dataSent (inv : SenderInv base written sk a s m) :
    SenderInv base written sk.dataSent a s m := by
  have inv' : SenderInv base written sk.startRoundTrip a s m := by
    unfold TcpSocket.startRoundTrip
    split
    next => exact inv.congr rfl rfl rfl
    next => exact inv
  exact inv'.congr rfl rfl rfl

/-- `fnet_tcp_sendanydata` from where the window is known. -/
theorem sendwindow (inv : SenderInv base written sk a s m) {sntdata : UInt32}
    (hsnt : sntdata = UInt32.ofNat (s - a)) (oneexec : Bool) (wnd : UInt32) :
    SendsOn base written (fnetTcpSendwindow sk oneexec sntdata wnd).2 a s
      ((fnetTcpSendwindow sk oneexec sntdata wnd).1 = true) := by
  have hsize := inv.size
  have hle := inv.le_s
  have hflight := inv.sntdata_le
  have hlimit := inv.s_le
  have hcount := inv.count
  unfold fnetTcpSendwindow
  extract_lets datasize mss cwnd sndwnd₁ sndwnd r
  have hdatasize : datasize = UInt32.ofNat (written.length - a) - UInt32.ofNat (s - a) := by
    rw [← hcount, ← hsnt]
  have hdatasize_nat : datasize.toNat
      = (4294967296 - (s - a) + (written.length - a)) % 4294967296 := by
    rw [hdatasize, UInt32.toNat_sub, toNat_ofNat_of_lt (by omega), toNat_ofNat_of_lt (by omega)]
  split
  next =>
    split
    next hfin =>
      -- nothing is left but the final segment
      obtain ⟨⟨hshut, hzero⟩, -⟩ := (Bool.and_eq_true_iff.1 hfin).imp_left Bool.and_eq_true_iff.1
      have hnone : datasize.toNat = 0 := congrArg UInt32.toNat (beq_iff_eq.1 hzero)
      have hend : s + 1 ≤ sendLimit written a sk.sendBuffer.isShutdown := by
        rw [hshut]
        show s + 1 ≤ max written.length a + 1
        omega
      have hseq : (if true then sk.snd.sndseq + 1 else sk.snd.sndseq) = serial base (s + 1) := by
        rw [if_pos rfl, inv.sndseq, serial_succ]
      obtain ⟨m', inv'⟩ := inv.sendheadseg hseq (by omega) hend
      exact ⟨s + 1, m', inv'.congr rfl rfl rfl, Nat.le_succ s, fun _ => Nat.lt_succ_self s⟩
    next => exact inv.sendsOn fun h => absurd h Bool.false_ne_true
  next hpos =>
    have hsndwnd : sndwnd ≤ long datasize := by
      show (if long datasize < sndwnd₁ then _ else _) ≤ _
      split <;> omega
    -- behind the final segment the size of the data is -1 as a `long`, and the loop does not run
    have hlong : datasize.toNat < 2147483648 ∧ long datasize = datasize.toNat ∨
      long datasize < 0 := by
      by_cases h : datasize.toNat < 2147483648
      · exact .inl ⟨h, long_of_lt h⟩
      · have := datasize.toNat_lt
        rw [long_of_le (Nat.not_lt.1 h)]
        omega
    have hsends : SendsOn base written r.1 a s (r.2 ≠ 0) := inv.sendloop sndwnd.toNat (by omega)
    obtain ⟨s', m', inv', hs', hsent⟩ := hsends
    split
    next h =>
      refine ⟨s', m', inv'.dataSent, hs', fun _ => hsent ?_⟩
      exact fun h' => absurd (h' ▸ h) (by decide)
    next h => exact ⟨s', m', inv', hs', fun h => absurd h Bool.false_ne_true⟩

/-- What `fnet_tcp_sendanydata` starts from: behind the window that the other side has, which
may have shrunk, the data is to be sent again. -/
theorem shrunk (inv : SenderInv base written sk a s m) (oneexec : Bool) :
    ∃ sk₁ s₁, SenderInv base written sk₁ a s₁ m ∧ s₁ = min s (a + sk.snd.sndwnd.toNat)
      ∧ fnetTcpSendanydata sk oneexec
        = fnetTcpSendwindow sk₁ oneexec (UInt32.ofNat (s₁ - a))
          (UInt32.ofNat (sk.snd.sndwnd.toNat - (s₁ - a)))
      ∧ sk.Sends sk₁ ∧ sk₁.timers = sk.timers ∧ sk₁.flags.sendTimeout = false := by
  have hflight := inv.sntdata_le
  have hwnd := inv.sndwnd
  have hle := inv.le_s
  have inv₁ : SenderInv base written sk.resetSilly a s m := inv.congr rfl rfl rfl
  have hsends : sk.Sends sk.resetSilly := (TcpSocket.Sends.refl sk).quiet rfl rfl rfl
  unfold fnetTcpSendanydata
  extract_lets sk₁ sntdata wnd
  have hsnt : sntdata = UInt32.ofNat (s - a) := inv₁.sntdata
  have hwnd_nat : wnd.toNat = (4294967296 - (s - a) + sk.snd.sndwnd.toNat) % 4294967296 := by
    show (sk.snd.sndwnd - sntdata).toNat = _
    rw [hsnt, UInt32.toNat_sub, toNat_ofNat_of_lt (by omega)]
  split
  next hneg =>
    -- more is in flight than the window holds
    have hshrunk : sk.snd.sndwnd.toNat < s - a := by
      by_contra hge
      rw [long_of_lt (by omega)] at hneg
      omega
    have hseq : sk₁.snd.sndseq + wnd = serial base (a + sk.snd.sndwnd.toNat) := by
      apply UInt32.toNat.inj
      have := base.toNat_lt
      rw [inv₁.sndseq, UInt32.toNat_add, hwnd_nat, toNat_serial, toNat_serial]
      omega
    have hsnt' : sntdata + wnd = UInt32.ofNat (a + sk.snd.sndwnd.toNat - a) := by
      apply UInt32.toNat.inj
      rw [UInt32.toNat_add, hwnd_nat, hsnt, toNat_ofNat_of_lt (by omega),
        toNat_ofNat_of_lt (by omega)]
      omega
    have inv₂ : SenderInv base written (sk₁.shrinkWindow wnd) a (a + sk.snd.sndwnd.toNat) m := by
      unfold TcpSocket.shrinkWindow
      rw [hseq]
      have := inv₁.s_le
      exact (inv₁.setSndseq (Nat.le_add_right _ _) (by omega)).congr rfl rfl rfl
    refine ⟨_, _, inv₂, by omega, ?_, (hsends.setSndseq _).quiet rfl rfl rfl, rfl, rfl⟩
    rw [hsnt', Nat.add_sub_cancel_left, Nat.sub_self]
    rfl
  next hnonneg =>
    have hopen : s - a ≤ sk.snd.sndwnd.toNat := by
      by_contra hlt
      rw [long_of_le (by omega)] at hnonneg
      omega
    have hwnd' : wnd = UInt32.ofNat (sk.snd.sndwnd.toNat - (s - a)) := by
      apply UInt32.toNat.inj
      rw [hwnd_nat, toNat_ofNat_of_lt (by omega)]
      omega
    exact ⟨_, _, inv₁, by omega, by rw [hsnt, hwnd'], hsends, rfl, rfl⟩

/-- `fnet_tcp_sendanydata`, also when the other side has shrunk its window. -/
theorem sendanydata (inv : SenderInv base written sk a s m) (oneexec : Bool) :
    ∃ s' m', SenderInv base written (fnetTcpSendanydata sk oneexec).2 a s' m'
      ∧ ((fnetTcpSendanydata sk oneexec).1 = true → a < s') := by
  obtain ⟨sk₁, s₁, inv₁, -, heq, -⟩ := inv.shrunk oneexec
  rw [heq]
  obtain ⟨s', m', inv', -, hsent⟩ := inv₁.sendwindow rfl oneexec _
  exact ⟨s', m', inv', fun h => Nat.lt_of_le_of_lt inv₁.le_s (hsent h)⟩

end SenderInv

/-! ## Acknowledgments -/

theorem trimBytes_of_le {n : Nat} {data : List UInt8} (h : n ≤ data.length) :
    trimBytes n data = data.drop n := by
  unfold trimBytes
  rw [if_neg (by omega)]
  split
  next => rw [Int.toNat_natCast]
  next =>
    have hn : n = 0 := by omega
    rw [hn, List.drop_zero]
    exact List.take_of_length_le (by omega)

/-- What was acknowledged stays acknowledged. -/
theorem TcpSegment.Carries.mono {segment : TcpSegment} {a' : Nat}
    (h : segment.Carries base written a) (hle : a ≤ a') : segment.Carries base written a' :=
  h.imp_right fun h => h.imp_right fun ⟨p, hp, hend⟩ => ⟨p, Nat.le_trans hp hle, hend⟩

/-- What was written stays written. -/
theorem TcpSegment.Carries.append {segment : TcpSegment} (h : segment.Carries base written a)
    (more : List UInt8) : segment.Carries base (written ++ more) a := by
  refine h.imp_left fun ⟨p, hseq, hdata⟩ => ⟨p, hseq, hdata.trans ?_⟩
  rw [List.drop_append]
  exact List.prefix_append _ _

theorem sendLimit_mono (written : List UInt8) {a a' : Nat} (h : a ≤ a') (isShutdown : Bool) :
    sendLimit written a isShutdown ≤ sendLimit written a' isShutdown := by
  unfold sendLimit
  split <;> omega

namespace SenderInv

/-- The acknowledgments that are taken are those of places up to the farthest. -/
theorem acked (inv : SenderInv base written sk a s m) {ack : UInt32}
    (h : fnetTcpHit sk.snd.rcvack sk.snd.maxrcvack ack) :
    ∃ a', a ≤ a' ∧ a' ≤ m ∧ ack = serial base a' := by
  have := inv.m_le
  have := sendLimit_le written a sk.sendBuffer.isShutdown
  have := inv.size
  rw [fnetTcpHit_iff, inv.rcvack, inv.maxrcvack] at h
  exact (serialDist_le_iff inv.le_m (by omega) ack).1 h

theorem stopRoundTrip (inv : SenderInv base written sk a s m) :
    SenderInv base written sk.stopRoundTrip a s m := by
  unfold TcpSocket.stopRoundTrip
  split
  next => exact inv.congr rfl rfl rfl
  next => exact inv

/-- The acknowledged bytes leave the output buffer, and no others. -/
theorem dropAcked (inv : SenderInv base written sk a s m) {a' : Nat} (hle : a ≤ a') (hm : a' ≤ m)
    {size : UInt32} (hsize : size.toNat = min (written.length - a) (a' - a)) :
    SenderInv base written (sk.dropAcked (serial base a') size) a' (max s a') m := by
  have hlimit := inv.m_le
  have hlimit_le := sendLimit_le written a sk.sendBuffer.isShutdown
  have hmax := inv.size
  have hs := inv.le_s
  have hs_le := inv.s_le
  have hmono := sendLimit_mono written hle sk.sendBuffer.isShutdown
  have hafter : fnetTcpCompG (serial base a') sk.snd.sndseq ↔ s < a' := by
    rw [fnetTcpCompG_iff, inv.sndseq]
    exact serialAfter_serial_iff (by omega) (by omega) (by omega)
  refine { inv with
    rcvack := rfl, sndseq := ?_, data := ?_, count := ?_, size := ?_, le_s := Nat.le_max_right _ _
    le_m := hm, s_le := ?_, m_le := Nat.le_trans hlimit hmono
    carries := fun segment hmem => (inv.carries segment hmem).mono hle }
  · show (if fnetTcpCompG (serial base a') sk.snd.sndseq then serial base a' else sk.snd.sndseq) = _
    split
    next h => rw [Nat.max_eq_right (Nat.le_of_lt (hafter.1 h))]
    next h => rw [Nat.max_eq_left (Nat.not_lt.1 (mt hafter.2 h)), inv.sndseq]
  · show trimBytes size.toNat sk.sendBuffer.data = _
    rw [inv.data, trimBytes_of_le (by rw [List.length_drop]; omega), List.drop_drop, hsize]
    -- the number behind the final segment stands for no byte
    by_cases h : a' ≤ written.length
    · rw [Nat.min_eq_right (by omega), Nat.add_sub_cancel' hle]
    · rw [List.drop_of_length_le (by omega), List.drop_of_length_le (by omega)]
  · show sk.sendBuffer.count - size = _
    apply UInt32.toNat.inj
    rw [inv.count, UInt32.toNat_sub, hsize, toNat_ofNat_of_lt (by omega),
      toNat_ofNat_of_lt (by omega)]
    omega
  · omega
  · exact Nat.max_le.2 ⟨Nat.le_trans hs_le hmono, Nat.le_trans hm (Nat.le_trans hlimit hmono)⟩

/-- **An acknowledgment moves the start of the buffer** to the place it names. -/
theorem newAck (inv : SenderInv base written sk a s m) {a' : Nat} (hle : a ≤ a') (hm : a' ≤ m) :
    SenderInv base written (sk.newAck (serial base a')) a' (max s a') m := by
  have hlimit := inv.m_le
  have hlimit_le := sendLimit_le written a sk.sendBuffer.isShutdown
  have hmax := inv.size
  unfold TcpSocket.newAck
  extract_lets acked size _ congestion
  have inv₁ : SenderInv base written (sk.setCongestion congestion) a s m :=
    inv.congr rfl rfl rfl
  refine stopRoundTrip (inv₁.dropAcked hle hm ?_)
  have hacked : acked.toNat = a' - a := by
    show (fnetTcpGetsize sk.snd.rcvack (serial base a')).toNat = _
    rw [fnetTcpGetsize_eq, inv.rcvack, serial_sub base hle, toNat_ofNat_of_lt (by omega)]
  have hcount : sk.sendBuffer.count.toNat = written.length - a := by
    rw [inv.count, toNat_ofNat_of_lt (by omega)]
  show (if sk.sendBuffer.count < acked then sk.sendBuffer.count else acked).toNat = _
  split
  next h =>
    rw [UInt32.lt_iff_toNat_lt] at h
    omega
  next h =>
    rw [UInt32.lt_iff_toNat_lt] at h
    omega

/-- A repeated acknowledgment may send the first segment again; the place to go on from
stays. -/
theorem fastRetransmission (inv : SenderInv base written sk a s m) (h : a ≤ written.length) :
    ∃ m', SenderInv base written sk.fastRetransmission a s m' := by
  unfold TcpSocket.fastRetransmission
  extract_lets ssthresh _ congestion seq sk₁
  have inv₁ : SenderInv base written sk₁ a a m := by
    show SenderInv base written ((sk.setCongestion congestion).setSndseq sk.snd.rcvack) a a m
    rw [inv.rcvack]
    exact (inv.setSndseq (Nat.le_refl a) (Nat.le_trans inv.le_s inv.s_le)).congr rfl rfl rfl
  obtain ⟨m', inv₂⟩ := inv₁.senddataseg h sk₁.snd.sndmss.toUInt32 rfl
  have hbuffer : (fnetTcpSenddataseg sk₁ sk₁.snd.sndmss.toUInt32).sendBuffer = sk.sendBuffer :=
    ((TcpSocket.Sends.refl sk₁).senddataseg _).sendBuffer
  have hseq : seq = serial base s := inv.sndseq
  generalize fnetTcpSenddataseg sk₁ sk₁.snd.sndmss.toUInt32 = sk₂ at inv₂ hbuffer
  have inv₃ : SenderInv base written (sk₂.setSndseq (serial base s)) a s m' :=
    inv₂.setSndseq inv.le_s (by rw [hbuffer]; exact inv.s_le)
  rw [hseq]
  exact ⟨m', inv₃.congr rfl rfl rfl⟩

/-- A repeated acknowledgment; the third one sends the first bytes of the buffer again. -/
theorem repeatedAck (inv : SenderInv base written sk a s m) (ackparam : TcpAckparam) :
    ∃ m', SenderInv base written (sk.repeatedAck ackparam).1 a s m' := by
  unfold TcpSocket.repeatedAck
  extract_lets sk₁
  split
  next h =>
    split
    next =>
      have inv₁ : SenderInv base written sk.countRepeated a s m := inv.congr rfl rfl rfl
      -- the buffer is not empty, so that the stream is not acknowledged to its end
      refine inv₁.fastRetransmission ?_
      by_contra hlt
      exact h.2 (by rw [inv.count, Nat.sub_eq_zero_of_le (by omega)]; rfl)
    next => exact ⟨m, inv.congr rfl rfl rfl⟩
  next => exact ⟨m, inv⟩

/-- An acknowledgment of a place between the start and the farthest one sent. -/
theorem processAck (inv : SenderInv base written sk a s m) {a' : Nat} (hle : a ≤ a') (hm : a' ≤ m)
    (ackparam : TcpAckparam) :
    ∃ s' m', SenderInv base written (sk.processAck (serial base a') ackparam).1 a' s' m' := by
  unfold TcpSocket.processAck
  extract_lets sk₁
  have inv₁ : SenderInv base written sk₁ a s m := inv.congr rfl rfl rfl
  have hlimit := inv.m_le
  have hlimit_le := sendLimit_le written a sk.sendBuffer.isShutdown
  have hmax := inv.size
  split
  next h =>
    -- the places are less than a turn apart, so that the same number is the same place
    have ha : a = a' := serial_inj (by omega) (by omega) (inv₁.rcvack.symm.trans h)
    exact ⟨s, ha ▸ inv₁.repeatedAck ackparam⟩
  next => exact ⟨_, m, inv₁.newAck hle hm⟩

end SenderInv

end Datalogger
