import Datalogger.Net.TcpStream
import Mathlib.Data.List.Infix
import Mathlib.Data.List.TakeDrop

/-!
# What a TCP socket receives

The segments of a stream come in in any order, cut in any way, repeated, late or not at
all. Whatever comes, the bytes that the application has read, followed by those in the
input buffer, are the first bytes of the stream: none is missing, none stands twice, and
none is in another's place. The number that the socket acknowledges is the number of the
bytes it has.

`ReceiverInv` holds of the receiving direction alone, so that what a socket sends keeps it
(`sends`), and so does whatever leaves the variables of this direction as they are
(`congr`). `tcp_receives_stream` is the result over whole runs.
-/

namespace Datalogger

open Lib

/-- The segment's data stands in the stream at the segment's sequence number. -/
def TcpSegment.Placed (segment : TcpSegment) (rbase : UInt32) (stream : List UInt8) : Prop :=
  ∃ p, segment.seq = serial rbase p ∧ segment.data <+: stream.drop p

/-- A segment that may be kept in the temporary buffer. -/
structure TcpSegment.Stored (segment : TcpSegment) (rbase : UInt32)
    (stream : List UInt8) : Prop where
  placed : segment.Placed rbase stream
  data : segment.data ≠ []
  fin : segment.fin = false

/-- The variables of the receiving direction, with the states of the connection. -/
def TcpSocket.receiving (sk : TcpSocket) :
    TcpSocketState × UInt32 × List TcpSegment × SocketBuffer × Bool × TcpConnectionState × Bool :=
  (sk.state, sk.rcv.sndack, sk.rcv.rcvchain, sk.receiveBuffer, sk.flags.close, sk.connectionState,
    sk.sendBuffer.isShutdown)

/-- The application may still read from the socket. -/
def TcpSocket.Readable (sk : TcpSocket) : Prop :=
  sk.flags.close = false ∧ sk.receiveBuffer.isShutdown = false

/-- What holds of the receiving direction: `r` bytes of the stream have been taken, and `read`
is what the application has read of them. If it has not ended the writing (`writes`), the
connection is still established and no final segment was sent. -/
structure ReceiverInv (writes : Prop) (rbase : UInt32) (stream read : List UInt8) (sk : TcpSocket)
    (r : Nat) : Prop where
  sndack : sk.rcv.sndack = serial rbase r
  r_le : r ≤ stream.length
  rcvchain : ∀ segment ∈ sk.rcv.rcvchain, segment.Stored rbase stream
  handed : read <+: stream
  data : sk.Readable → sk.state ≠ .deleted → read ++ sk.receiveBuffer.data = stream.take r
  deleted : sk.state = .deleted → sk.receiveBuffer.data = []
  acks : ∀ segment ∈ sk.out, segment.rst = false → ∃ r' ≤ r, segment.ack = serial rbase r'
  unshut : writes → sk.sendBuffer.isShutdown = false
  established : writes → sk.connectionState = .established
  finless : writes → ∀ segment ∈ sk.out, segment.fin = false ∧ segment.urg = false

variable {writes : Prop} {rbase : UInt32} {stream read : List UInt8} {sk sk' : TcpSocket} {r : Nat}

namespace ReceiverInv

/-- What leaves the variables of the receiving direction as they are keeps the invariant. -/
theorem congr (inv : ReceiverInv writes rbase stream read sk r) (h : sk'.receiving = sk.receiving)
    (hout : sk'.out = sk.out) : ReceiverInv writes rbase stream read sk' r := by
  obtain ⟨hstate, h⟩ := Prod.mk.inj h
  obtain ⟨hsndack, h⟩ := Prod.mk.inj h
  obtain ⟨hchain, h⟩ := Prod.mk.inj h
  obtain ⟨hbuffer, h⟩ := Prod.mk.inj h
  obtain ⟨hclose, h⟩ := Prod.mk.inj h
  obtain ⟨hconnection, hshutdown⟩ := Prod.mk.inj h
  obtain ⟨h₁, h₂, h₃, h₄, h₅, h₆, h₇, h₈, h₉, h₁₀⟩ := inv
  unfold TcpSocket.Readable at h₅
  rw [← hclose, ← hbuffer, ← hstate] at h₅
  rw [← hstate, ← hbuffer] at h₆
  rw [← hshutdown] at h₈
  rw [← hconnection] at h₉
  exact ⟨hsndack ▸ h₁, h₂, hchain ▸ h₃, h₄, h₅, h₆, hout ▸ h₇, h₈, h₉, hout ▸ h₁₀⟩

/-- Sending keeps it: a segment acknowledges the bytes that have been taken. -/
theorem sends (inv : ReceiverInv writes rbase stream read sk r) (h : sk.Sends sk') :
    ReceiverInv writes rbase stream read sk' r := by
  have hview : { sk' with connectionState := sk.connectionState }.receiving = sk.receiving :=
    h.keeps (fun s => { s with connectionState := sk.connectionState }.receiving) fun _ => rfl
  have inv' : ReceiverInv writes rbase stream read
      { sk' with connectionState := sk.connectionState, out := sk.out } r := inv.congr hview rfl
  refine { inv' with acks := fun segment hm hrst => ?_, established := ?_, finless := ?_ }
  · rcases h.tells segment hm with hm | ht
    · exact inv.acks segment hm hrst
    · exact ⟨r, Nat.le_refl r, ht.ack.trans inv.sndack⟩
  · exact fun hw => (h.state (inv.unshut hw)).trans (inv.established hw)
  · intro hw segment hm
    rcases h.tells segment hm with hm | ht
    · exact inv.finless hw segment hm
    · refine ⟨Bool.eq_false_iff.2 fun hfin => ?_, ht.urg⟩
      -- nothing has asked for the final segment
      have hfinishes := ht.fin hfin
      unfold TcpSocket.Finishes at hfinishes
      rw [inv.unshut hw, inv.established hw] at hfinishes
      simp at hfinishes

/-- A segment with `RST` acknowledges nothing. -/
theorem sendseg (inv : ReceiverInv writes rbase stream read sk r) {segment : TcpSegment}
    (hack : segment.rst = false → segment.ack = sk.rcv.sndack)
    (hfin : segment.fin = false ∧ segment.urg = false) :
    ReceiverInv writes rbase stream read (fnetTcpSendseg sk segment) r := by
  have hmem {segment' : TcpSegment} (hm : segment' ∈ (fnetTcpSendseg sk segment).out) :
      segment' ∈ sk.out ∨ segment' = segment := by
    have hm : segment' ∈ if sk.room sk.asked then sk.out ++ [segment] else sk.out := hm
    split at hm
    next => exact (List.mem_append.1 hm).imp_right List.mem_singleton.1
    next => exact .inl hm
  refine { inv with
    acks := fun segment' hm hrst => ?_, finless := fun hw segment' hm => ?_ }
  · rcases hmem hm with hm | rfl
    · exact inv.acks segment' hm hrst
    · exact ⟨r, Nat.le_refl r, (hack hrst).trans inv.sndack⟩
  · rcases hmem hm with hm | rfl
    · exact inv.finless hw segment' hm
    · exact hfin

/-! ## Data -/

/-- The next bytes of the stream are added to the input buffer. -/
theorem taken (inv : ReceiverInv writes rbase stream read sk r) (hc : sk.state = .connected)
    {data : List UInt8} (hdata : data <+: stream.drop r)
    (h : sk'.receiving = ((sk.addData data).setSndack (serial rbase (r + data.length))).receiving)
    (hout : sk'.out = sk.out) : ReceiverInv writes rbase stream read sk' (r + data.length) := by
  have hle : r + data.length ≤ stream.length := by
    have := hdata.length_le
    have := inv.r_le
    rw [List.length_drop] at *
    omega
  have inv₁ : ReceiverInv writes rbase stream read
      ((sk.addData data).setSndack (serial rbase (r + data.length))) (r + data.length) := {
    sndack := rfl
    r_le := hle
    rcvchain := inv.rcvchain
    handed := inv.handed
    data := fun hread hstate => by
      show read ++ (sk.receiveBuffer.data ++ data) = _
      rw [← List.append_assoc, inv.data hread hstate, List.take_add,
        List.prefix_iff_eq_take.1 hdata, List.length_take]
      congr 1
      have := hdata.length_le
      rw [Nat.min_eq_left this]
    deleted := fun hstate => by
      rw [show sk.state = .deleted from hstate] at hc
      cases hc
    acks := fun segment hm hrst => by
      obtain ⟨r', hle', hack⟩ := inv.acks segment hm hrst
      exact ⟨r', by omega, hack⟩
    unshut := inv.unshut
    established := inv.established
    finless := inv.finless }
  exact inv₁.congr h hout

end ReceiverInv

/-- Where a segment with data stands. -/
theorem TcpSegment.Placed.position {segment : TcpSegment} (h : segment.Placed rbase stream)
    (hdata : segment.data ≠ []) :
    ∃ p, segment.seq = serial rbase p ∧ segment.data <+: stream.drop p
      ∧ p + segment.data.length ≤ stream.length ∧ 0 < segment.data.length := by
  obtain ⟨p, hseq, hprefix⟩ := h
  have hpos := List.length_pos_iff.2 hdata
  have hle := hprefix.length_le
  rw [List.length_drop] at hle
  exact ⟨p, hseq, hprefix, by omega, hpos⟩

/-- What is left of data behind the bytes that were taken before. -/
theorem drop_prefix_drop {data : List UInt8} {p : Nat} (h : data <+: stream.drop p) (hle : p ≤ r) :
    data.drop (r - p) <+: stream.drop r := by
  have hdrop := List.IsPrefix.drop h (r - p)
  rw [List.drop_drop, Nat.add_sub_cancel' hle] at hdrop
  exact hdrop

namespace ReceiverInv

/-- The loop moves the segments whose turn it is, and none twice. -/
theorem moveloop (hlen : stream.length < 536870912) (chain : List TcpSegment) :
    ∀ {sk : TcpSocket} {r : Nat} {ackparam : TcpAckparam},
      ReceiverInv writes rbase stream read sk r → sk.state = .connected →
      (∀ segment ∈ chain, segment.Stored rbase stream) →
      ∃ r', r ≤ r' ∧
        ReceiverInv writes rbase stream read (fnetTcpMoveloop chain sk ackparam).1 r' := by
  induction chain with
  | nil =>
    intro sk r ackparam inv _ _
    exact ⟨r, Nat.le_refl r, { inv with rcvchain := fun _ hm => absurd hm List.not_mem_nil }⟩
  | cons buf rest ih =>
    intro sk r ackparam inv hc hchain
    have hrest : ∀ segment ∈ rest, segment.Stored rbase stream := fun segment hm =>
      hchain segment (List.mem_cons_of_mem _ hm)
    have hstored := hchain buf List.mem_cons_self
    obtain ⟨p, hseq, hprefix, hend, hpos⟩ := hstored.placed.position hstored.data
    have hr := inv.r_le
    unfold fnetTcpMoveloop
    extract_lets seq
    have hack : seq = serial rbase r := inv.sndack
    split
    next hge =>
      -- the stream is so short that its places compare as their numbers do
      have hp : p ≤ r := by
        by_contra hlt
        rw [fnetTcpCompGe_iff, hack, hseq, serialDist_serial_back (by omega) (by omega)] at hge
        omega
      split
      next hge' =>
        have hendSeq : buf.endSeq = serial rbase (p + buf.data.length) := by
          unfold TcpSegment.endSeq
          rw [hseq, serial_add]
        have hr_le : r ≤ p + buf.data.length := by
          by_contra hlt
          rw [fnetTcpCompGe_iff, hack, hendSeq,
            serialDist_serial_back (by omega) (by omega)] at hge'
          omega
        -- what was taken before is cut off, and the rest is next
        have hsize : (fnetTcpGetsize buf.seq seq).toNat = r - p := by
          rw [fnetTcpGetsize_eq, hack, hseq, serial_sub rbase hp, toNat_ofNat_of_lt (by omega)]
        have hplace : r + (buf.data.drop (r - p)).length = p + buf.data.length := by
          rw [List.length_drop]
          omega
        have inv₁ : ReceiverInv writes rbase stream read
            (sk.moveSegment buf (fnetTcpGetsize buf.seq seq))
            (r + (buf.data.drop (r - p)).length) := by
          refine inv.taken hc (drop_prefix_drop hprefix hp) ?_ ?_
          · unfold TcpSocket.moveSegment
            rw [hstored.fin, hsize, trimBytes_of_le (by omega), hplace, ← hendSeq]
            rfl
          · unfold TcpSocket.moveSegment
            rw [hstored.fin]
            rfl
        have hc₁ : (sk.moveSegment buf (fnetTcpGetsize buf.seq seq)).state = .connected := by
          rw [← hc]
          exact ((TcpSocket.Receives.refl sk).moveSegment buf _).keeps (·.state) fun _ => rfl
        obtain ⟨r', hle, inv'⟩ := ih inv₁ hc₁ hrest
        exact ⟨r', by omega, inv'⟩
      next =>
        -- all of it was taken before
        have inv₁ : ReceiverInv writes rbase stream read
            (sk.takeCount (sk.nextTotalLength rest)) r :=
          inv.congr rfl rfl
        exact ih inv₁ hc hrest
    next => exact ⟨r, Nat.le_refl r, { inv with rcvchain := hchain }⟩

/-- A segment that came in order is the next part of the stream. -/
theorem addinorder (inv : ReceiverInv writes rbase stream read sk r)
    (hlen : stream.length < 536870912)
    (hc : sk.state = .connected) {insegment : TcpSegment} (hfin : insegment.fin = false)
    (hplaced : insegment.data ≠ [] → insegment.Placed rbase stream)
    (hseq : insegment.seq = sk.rcv.sndack) (ackparam : TcpAckparam) :
    ∃ r', r ≤ r' ∧
      ReceiverInv writes rbase stream read (fnetTcpAddinorder sk insegment ackparam).sk r' := by
  unfold fnetTcpAddinorder
  rw [hfin]
  extract_lets sk₁ ackparam₁
  split
  next => exact ⟨r, Nat.le_refl r, inv⟩
  next hdata =>
    obtain ⟨p, hseq', hprefix, hend, hpos⟩ := (hplaced hdata).position hdata
    have hr := inv.r_le
    -- the segment starts at the number that is expected, hence at the place
    have hp : p = r := serial_inj (by omega) (by omega) (hseq'.symm.trans (hseq.trans inv.sndack))
    rw [hp] at hprefix
    refine ⟨_, Nat.le_add_right r _, inv.taken hc hprefix ?_ rfl⟩
    rw [← serial_add, ← inv.sndack]
    rfl

/-- A segment that came too early is kept, and moved with all whose turn it is. -/
theorem addoutoforder (inv : ReceiverInv writes rbase stream read sk r)
    (hlen : stream.length < 536870912)
    (hc : sk.state = .connected) {insegment : TcpSegment}
    (hstored : insegment.Stored rbase stream) (ackparam : TcpAckparam) :
    ∃ r', r ≤ r' ∧
      ReceiverInv writes rbase stream read (fnetTcpAddoutoforder sk insegment ackparam).sk r' := by
  unfold fnetTcpAddoutoforder
  extract_lets ackparam₁ place sk₁ moved
  -- the chain is cut at the place of the segment, and nothing of it is lost
  have hchain : ∀ segment ∈ place.1 ++ insegment :: place.2, segment.Stored rbase stream := by
    intro segment hm
    have hsplit : place.1 ++ place.2 = sk.rcv.rcvchain := by
      show (List.span _ sk.rcv.rcvchain).1 ++ (List.span _ sk.rcv.rcvchain).2 = _
      rw [List.span_eq_takeWhile_dropWhile]
      exact List.takeWhile_append_dropWhile
    rcases List.mem_append.1 hm with hm | hm
    · exact inv.rcvchain segment (hsplit ▸ List.mem_append_left _ hm)
    · rcases List.mem_cons.1 hm with rfl | hm
      · exact hstored
      · exact inv.rcvchain segment (hsplit ▸ List.mem_append_right _ hm)
  have inv₁ : ReceiverInv writes rbase stream read sk₁ r := { inv with rcvchain := hchain }
  split
  next =>
    split
    next => exact inv₁.moveloop hlen _ hc hchain
    next => exact ⟨r, Nat.le_refl r, inv₁⟩
  next => exact ⟨r, Nat.le_refl r, inv⟩

/-- The data of a segment, wherever it stands. -/
theorem processData (inv : ReceiverInv writes rbase stream read sk r)
    (hlen : stream.length < 536870912)
    (hc : sk.state = .connected) {insegment : TcpSegment} (hfin : insegment.fin = false)
    (hurg : insegment.urg = false)
    (hplaced : insegment.data ≠ [] → insegment.Placed rbase stream) (ackparam : TcpAckparam) :
    ∃ r', r ≤ r' ∧ ReceiverInv writes rbase stream read
        (sk.processData insegment ackparam).sk r' := by
  unfold TcpSocket.processData
  split
  next => exact ⟨r, Nat.le_refl r, inv⟩
  next =>
    unfold fnetTcpAddinpbuf
    split
    next => exact ⟨r, Nat.le_refl r, inv⟩
    next hempty =>
      have hdata : insegment.data ≠ [] := by
        intro h
        rw [hfin, hurg] at hempty
        exact hempty ⟨h, Bool.false_ne_true, Bool.false_ne_true⟩
      split
      next hseq => exact inv.addinorder hlen hc hfin hplaced hseq.1 ackparam
      next => exact inv.addoutoforder hlen hc ⟨hplaced hdata, hdata, hfin⟩ ackparam

end ReceiverInv

/-! ## The window -/

theorem cutBytes_front {n : Nat} {data : List UInt8} (h : n ≤ data.length) :
    cutBytes 0 n data = data.drop n := by
  unfold cutBytes
  rw [if_neg (by omega), Nat.zero_add]
  rfl

theorem cutBytes_nil (n : Nat) : cutBytes 0 n [] = [] := by
  unfold cutBytes
  split
  next => rfl
  next => rw [List.take_nil, List.drop_nil, List.append_nil]

namespace ReceiverInv

/-- A keepalive segment is before the bytes that are still to come. -/
theorem keepalive_before (inv : ReceiverInv writes rbase stream read sk r)
    (hlen : stream.length < 536870912) {insegment : TcpSegment} {p : Nat}
    (hdata : insegment.data.length = 1) (hp : p ≤ r) (hend : insegment.endSeq = serial rbase p) :
    sk.cutRepeated insegment = none := by
  have hr := inv.r_le
  -- its byte may be the one before the stream, so the places are counted from there
  have hseq : insegment.seq = serial (rbase - 1) p := by
    have hnext : insegment.seq + 1 = serial (rbase - 1) (p + 1) := by
      rw [serial_base_pred, ← hend]
      unfold TcpSegment.endSeq
      rw [hdata]
      rfl
    rw [← serial_pred, ← hnext, UInt32.add_sub_cancel]
  have hbefore : fnetTcpCompG sk.rcv.sndack insegment.seq := by
    rw [fnetTcpCompG_iff, hseq, inv.sndack, ← serial_base_pred rbase r,
      serialAfter_serial_iff (by omega) (by omega) (by omega)]
    omega
  have hnot : ¬ fnetTcpCompG insegment.endSeq sk.rcv.sndack := by
    rw [fnetTcpCompG_iff, hend, inv.sndack,
      serialAfter_serial_iff (by omega) (by omega) (by omega)]
    omega
  unfold TcpSocket.cutRepeated
  rw [if_pos hbefore, if_neg hnot]

/-- What is left of a segment behind the repeated part stands in the stream. -/
theorem cutRepeated_placed (inv : ReceiverInv writes rbase stream read sk r)
    (hlen : stream.length < 536870912) {insegment : TcpSegment}
    (hcarries : insegment.Carries rbase stream r) {cut : TcpSegment × TcpAckparam}
    (h : sk.cutRepeated insegment = some cut) (hdata : cut.1.data ≠ []) :
    cut.1.Placed rbase stream := by
  have hr := inv.r_le
  rcases hcarries with hplaced | ⟨hone, p, hp, hend⟩
  · have hplaced : insegment.Placed rbase stream := hplaced
    unfold TcpSocket.cutRepeated at h
    split at h
    next hbefore =>
      split at h
      next hbehind =>
        rw [← Option.some.inj h] at hdata ⊢
        have hdata' : insegment.data ≠ [] := by
          intro hnil
          have hcut : cutBytes 0 _ insegment.data ≠ [] := hdata
          rw [hnil, cutBytes_nil] at hcut
          exact hcut rfl
        -- `r` lies inside of the segment, and what is left starts there
        obtain ⟨p, hseq, hprefix, hend, hpos⟩ := hplaced.position hdata'
        have hendSeq : insegment.endSeq = serial rbase (p + insegment.data.length) := by
          unfold TcpSegment.endSeq
          rw [hseq, serial_add]
        rw [fnetTcpCompG_iff, hseq, inv.sndack,
          serialAfter_serial_iff (by omega) (by omega) (by omega)] at hbefore
        rw [fnetTcpCompG_iff, hendSeq, inv.sndack,
          serialAfter_serial_iff (by omega) (by omega) (by omega)] at hbehind
        have hsize : (fnetTcpGetsize insegment.seq sk.rcv.sndack).toNat = r - p := by
          rw [fnetTcpGetsize_eq, hseq, inv.sndack, serial_sub rbase (Nat.le_of_lt hbefore),
            toNat_ofNat_of_lt (by omega)]
        refine ⟨r, inv.sndack, ?_⟩
        show cutBytes 0 (fnetTcpGetsize insegment.seq sk.rcv.sndack).toNat insegment.data <+: _
        rw [hsize, cutBytes_front (by omega)]
        exact drop_prefix_drop hprefix (Nat.le_of_lt hbefore)
      next => cases h
    next =>
      rw [← Option.some.inj h]
      exact hplaced
  · rw [inv.keepalive_before hlen hone hp hend] at h
    cases h

/-- What is left of a segment still stands in its place. -/
theorem inWindow_placed (inv : ReceiverInv writes rbase stream read sk r)
    (hlen : stream.length < 536870912) {insegment : TcpSegment}
    (hcarries : insegment.Carries rbase stream r) {cut : TcpSegment × TcpAckparam}
    (h : sk.inWindow insegment = some cut) :
    cut.1.data ≠ [] → cut.1.Placed rbase stream := by
  unfold TcpSocket.inWindow at h
  obtain ⟨cut₁, h₁, h₂⟩ := Option.bind_eq_some_iff.1 h
  obtain ⟨-, hseq, hprefix⟩ := TcpSocket.cutWindow_from h₂
  intro hdata
  have hdata₁ : cut₁.1.data ≠ [] := fun hnil => hdata (List.prefix_nil.1 (hnil ▸ hprefix))
  obtain ⟨p, hp, hplace⟩ := inv.cutRepeated_placed hlen hcarries h₁ hdata₁
  exact ⟨p, hseq.trans hp, hprefix.trans hplace⟩

/-! ## Segments that come in -/

/-- Closing the socket: the data stays to be read, unless nobody can read it any more. -/
theorem closesk (inv : ReceiverInv writes rbase stream read sk r)
    (hd : sk.state = .deleted → sk.flags.close = true) :
    ReceiverInv writes rbase stream read (fnetTcpClosesk sk) r := by
  have hnone : ∀ segment ∈ ([] : List TcpSegment), segment.Stored rbase stream := fun _ hm =>
    absurd hm List.not_mem_nil
  unfold fnetTcpClosesk
  split
  next =>
    exact { inv with
      rcvchain := hnone, data := fun _ hstate => absurd rfl hstate, deleted := fun _ => rfl }
  next hopen =>
    have hopen' := (Bool.or_eq_false_iff.1 (Bool.eq_false_iff.2 hopen)).2
    have hstate : sk.state ≠ .deleted := fun hdeleted =>
      Bool.false_ne_true (hopen'.symm.trans (hd hdeleted))
    exact { inv with
      rcvchain := hnone, data := fun hread _ => inv.data hread hstate
      deleted := fun hdeleted => by cases hdeleted }

/-- A fast retransmission sends. -/
theorem fastRetransmission (inv : ReceiverInv writes rbase stream read sk r) :
    ReceiverInv writes rbase stream read sk.fastRetransmission r := by
  unfold TcpSocket.fastRetransmission
  extract_lets ssthresh _ congestion seq sk₁
  have inv₁ : ReceiverInv writes rbase stream read sk₁ r := inv.congr rfl rfl
  have inv₂ := inv₁.sends ((TcpSocket.Sends.refl sk₁).senddataseg sk₁.snd.sndmss.toUInt32)
  generalize fnetTcpSenddataseg sk₁ sk₁.snd.sndmss.toUInt32 = sk₂ at inv₂
  exact inv₂.congr rfl rfl

theorem stopRoundTrip (inv : ReceiverInv writes rbase stream read sk r) :
    ReceiverInv writes rbase stream read sk.stopRoundTrip r := by
  unfold TcpSocket.stopRoundTrip
  split
  next => exact inv.congr rfl rfl
  next => exact inv

/-- An acknowledgment is about the other direction. -/
theorem processAck (inv : ReceiverInv writes rbase stream read sk r) (ack : UInt32)
    (ackparam : TcpAckparam) : ReceiverInv writes rbase stream read
      (sk.processAck ack ackparam).1 r := by
  have inv₁ : ReceiverInv writes rbase stream read sk.heardFrom r := inv.congr rfl rfl
  unfold TcpSocket.processAck
  dsimp only
  split
  next =>
    unfold TcpSocket.repeatedAck
    dsimp only
    split
    next =>
      have inv₂ : ReceiverInv writes rbase stream read
          sk.heardFrom.countRepeated r := inv₁.congr rfl rfl
      split
      next => exact inv₂.fastRetransmission
      next => exact inv₂
    next => exact inv₁
  next => exact stopRoundTrip (inv₁.congr rfl rfl)

theorem setTimers (inv : ReceiverInv writes rbase stream read sk r) :
    ReceiverInv writes rbase stream read sk.setTimers r := by
  have hpersist : ReceiverInv writes rbase stream read sk.setPersist r := by
    unfold TcpSocket.setPersist
    split
    next => exact inv.congr rfl rfl
    next =>
      split
      next => exact inv
      next => exact inv.congr rfl rfl
  exact hpersist.congr rfl rfl

theorem sendack (inv : ReceiverInv writes rbase stream read sk r) :
    ReceiverInv writes rbase stream read (fnetTcpSendack sk) r :=
  inv.sends (TcpSocket.Sends.refl sk).sendack

theorem sendanydata (inv : ReceiverInv writes rbase stream read sk r) (oneexec : Bool) :
    ReceiverInv writes rbase stream read (fnetTcpSendanydata sk oneexec).2 r :=
  inv.sends ((TcpSocket.Sends.refl sk).sendanydata oneexec)

/-- The acknowledgment at the end of `fnet_tcp_dataprocess`. -/
theorem acknowledge (inv : ReceiverInv writes rbase stream read sk r) (ackparam : TcpAckparam) :
    ReceiverInv writes rbase stream read (sk.acknowledge ackparam) r := by
  unfold TcpSocket.acknowledge
  split
  next => exact inv
  next =>
    split
    next => exact inv.sendack
    next =>
      split
      next => exact inv.congr rfl rfl
      next => exact inv

/-- What `fnet_tcp_dataprocess` sends. -/
theorem processOutput (inv : ReceiverInv writes rbase stream read sk r) (ackparam : TcpAckparam)
    (psh : Bool) : ReceiverInv writes rbase stream read (sk.processOutput ackparam psh) r := by
  unfold TcpSocket.processOutput
  extract_lets sk₁ sent
  have inv₁ : ReceiverInv writes rbase stream read sk₁ r := by
    show ReceiverInv writes rbase stream read
      (if ackparam.finAck || psh then fnetTcpSendack sk else sk) r
    split
    next => exact inv.sendack
    next => exact inv
  exact (inv₁.sendanydata sk₁.flags.insnd).setTimers.acknowledge _

end ReceiverInv

theorem TcpSocket.fastRetransmission_state (sk : TcpSocket) :
    sk.fastRetransmission.state = sk.state := by
  unfold TcpSocket.fastRetransmission
  extract_lets ssthresh _ congestion seq sk₁
  have hsame : sk₁.state = sk.state := rfl
  clear_value sk₁
  have hstate : (fnetTcpSenddataseg sk₁ sk₁.snd.sndmss.toUInt32).state = sk₁.state :=
    ((TcpSocket.Sends.refl sk₁).senddataseg _).keeps (·.state) fun _ => rfl
  generalize fnetTcpSenddataseg sk₁ sk₁.snd.sndmss.toUInt32 = sk₂ at hstate
  exact hstate.trans hsame

theorem TcpSocket.stopRoundTrip_state (sk : TcpSocket) : sk.stopRoundTrip.state = sk.state := by
  unfold TcpSocket.stopRoundTrip
  split
  next => rfl
  next => rfl

/-- The acknowledgment of a segment leaves the socket connected. -/
theorem TcpSocket.processAck_state (sk : TcpSocket) (ack : UInt32) (ackparam : TcpAckparam) :
    (sk.processAck ack ackparam).1.state = sk.state := by
  unfold TcpSocket.processAck
  dsimp only
  split
  next =>
    unfold TcpSocket.repeatedAck
    dsimp only
    split
    next =>
      split
      next => exact TcpSocket.fastRetransmission_state _
      next => rfl
    next => rfl
  next =>
    unfold TcpSocket.newAck
    extract_lets acked size _ congestion
    rw [TcpSocket.stopRoundTrip_state]
    rfl

namespace ReceiverInv

/-- `fnet_tcp_dataprocess`: the acknowledgment, the data, and what is sent. -/
theorem dataprocess (inv : ReceiverInv writes rbase stream read sk r)
    (hlen : stream.length < 536870912)
    (hc : sk.state = .connected) {insegment : TcpSegment} (hfin : insegment.fin = false)
    (hurg : insegment.urg = false)
    (hplaced : insegment.data ≠ [] → insegment.Placed rbase stream) (ackparam : TcpAckparam)
    (headerRead : Bool) :
    ∃ r', r ≤ r' ∧
      ReceiverInv writes rbase stream read
        (fnetTcpDataprocess sk insegment ackparam headerRead) r' := by
  unfold fnetTcpDataprocess
  extract_lets acked added
  have inv₁ : ReceiverInv writes rbase stream read acked.1 r := inv.processAck _ _
  have hc₁ : acked.1.state = .connected := (TcpSocket.processAck_state _ _ _).trans hc
  obtain ⟨r', hle, inv₂⟩ := inv₁.processData hlen hc₁ hfin hurg hplaced acked.2
  exact ⟨r', hle, inv₂.processOutput _ _⟩

/-- The input data of a socket that is shut down for reading is deleted. -/
theorem dropInput (inv : ReceiverInv writes rbase stream read sk r) :
    ReceiverInv writes rbase stream read sk.dropInput r := by
  unfold TcpSocket.dropInput
  split
  next h =>
    have hshut : sk.receiveBuffer.isShutdown = true := (Bool.and_eq_true_iff.1 h).1
    refine { inv with data := fun hread _ => ?_, deleted := fun _ => rfl }
    exact absurd (hread.2.symm.trans hshut) Bool.false_ne_true
  next => exact inv

theorem sendrst (inv : ReceiverInv writes rbase stream read sk r) (insegment : TcpSegment) :
    ReceiverInv writes rbase stream read (fnetTcpSendrst sk insegment) r := by
  unfold fnetTcpSendrst
  split
  next => exact inv.sendseg (fun hrst => absurd hrst.symm Bool.false_ne_true) ⟨rfl, rfl⟩
  next => exact inv.sendseg (fun hrst => absurd hrst.symm Bool.false_ne_true) ⟨rfl, rfl⟩

/-- In each state of the connection. -/
theorem mainprocess (inv : ReceiverInv writes rbase stream read sk r)
    (hlen : stream.length < 536870912)
    (hc : sk.state = .connected) {insegment : TcpSegment} (hfin : insegment.fin = false)
    (hurg : insegment.urg = false)
    (hplaced : insegment.data ≠ [] → insegment.Placed rbase stream) (ackparam : TcpAckparam)
    (headerRead : Bool) :
    ∃ r', r ≤ r' ∧
      ReceiverInv writes rbase stream read
        (fnetTcpMainprocess sk insegment ackparam headerRead) r' := by
  obtain ⟨r', hle, hdata⟩ := inv.dataprocess hlen hc hfin hurg hplaced ackparam headerRead
  have hopen : sk.state = .deleted → sk.flags.close = true := fun h => by
    rw [hc] at h
    cases h
  unfold fnetTcpMainprocess
  split
  next => exact ⟨r', hle, hdata.dropInput⟩
  next => exact ⟨r', hle, hdata.dropInput⟩
  next => exact ⟨r', hle, hdata.dropInput⟩
  next =>
    refine ⟨r', hle, dropInput ?_⟩
    split
    next h =>
      -- `FIN_WAIT_2`, after the writing has ended
      exact { hdata with
        established := fun hw =>
          TcpConnectionState.noConfusion ((hdata.established hw).symm.trans h.2) }
    next => exact hdata
  next =>
    split
    next => exact ⟨r, Nat.le_refl r, inv.closesk hopen⟩
    next => exact ⟨r, Nat.le_refl r, inv⟩
  next hclosing =>
    refine ⟨r, Nat.le_refl r, dropInput ?_⟩
    split
    next =>
      exact { inv with
        established := fun hw =>
          TcpConnectionState.noConfusion ((inv.established hw).symm.trans hclosing) }
    next => exact inv
  next => exact ⟨r, Nat.le_refl r, (inv.sendrst insegment).dropInput⟩

/-- Whatever part of the stream a segment carries, and wherever the socket is in it. -/
theorem inputsk (inv : ReceiverInv writes rbase stream read sk r) (hlen : stream.length < 536870912)
    (hc : sk.state = .connected) {insegment : TcpSegment} (hfin : insegment.fin = false)
    (hurg : insegment.urg = false) (hcarries : insegment.Carries rbase stream r)
    (headerRead : Bool) :
    ∃ r', r ≤ r' ∧ ReceiverInv writes rbase stream read
        (fnetTcpInputsk sk insegment headerRead) r' := by
  unfold fnetTcpInputsk
  split
  next => exact ⟨r, Nat.le_refl r, inv.sendack⟩
  next cut ackparam hcut =>
  have hfrom := TcpSocket.inWindow_from hcut
  have hplaced := inv.inWindow_placed hlen hcarries hcut
  have hopen : sk.state = .deleted → sk.flags.close = true := fun h => by
    rw [hc] at h
    cases h
  split
  next =>
    split
    next => exact ⟨r, Nat.le_refl r, inv⟩
    -- `RST` closes the socket
    next => exact ⟨r, Nat.le_refl r, closesk (inv.congr rfl rfl) hopen⟩
  next =>
  split
  next =>
    -- so does `SYN`, which is answered by `RST`
    have hstate : (fnetTcpSendrst sk cut).state = sk.state := by
      unfold fnetTcpSendrst
      split
      next => rfl
      next => rfl
    refine ⟨r, Nat.le_refl r, (inv.sendrst cut).closesk fun h => ?_⟩
    rw [hstate, hc] at h
    cases h
  next =>
  split
  next =>
    split
    next =>
      -- only with `ACK`, of something that was sent, the data is looked at
      have inv₁ : ReceiverInv writes rbase stream read (sk.setWindow cut.wnd) r := inv.congr rfl rfl
      exact inv₁.mainprocess hlen hc (hfrom.fin.trans hfin) (hfrom.urg hurg) hplaced ackparam
        headerRead
    next =>
      split
      next => exact ⟨r, Nat.le_refl r, inv.sendack⟩
      next => exact ⟨r, Nat.le_refl r, inv⟩
  next => exact ⟨r, Nat.le_refl r, inv⟩

/-- **A segment that carries a part of the stream**, in whatever order it comes. -/
theorem input (inv : ReceiverInv writes rbase stream read sk r) (hlen : stream.length < 536870912)
    {insegment : TcpSegment} (hfin : insegment.fin = false) (hurg : insegment.urg = false)
    (hcarries : insegment.Carries rbase stream r) (headerRead : Bool) :
    ∃ r', r ≤ r' ∧ ReceiverInv writes rbase stream read
        (fnetTcpInput sk insegment headerRead) r' := by
  unfold fnetTcpInput
  split
  next hc => exact inv.inputsk hlen hc hfin hurg hcarries headerRead
  next =>
    split
    next => exact ⟨r, Nat.le_refl r, inv⟩
    next => exact ⟨r, Nat.le_refl r, inv.sendrst insegment⟩

/-- What the network tells of a segment is about the other direction. -/
theorem ctrlinput (inv : ReceiverInv writes rbase stream read sk r) (command : TcpNotify) :
    ReceiverInv writes rbase stream read (fnetTcpCtrlinput sk command) r := by
  unfold fnetTcpCtrlinput
  split
  next hc =>
    have hopen : sk.state = .deleted → sk.flags.close = true := fun h => by
      rw [hc] at h
      cases h
    cases command with
    | quench => exact inv.congr rfl rfl
    | msgsize => exact inv.congr rfl rfl
    | unreach => exact inv.congr rfl rfl
    | paramprob => exact inv.congr rfl rfl
    | unreachPort => exact closesk (inv.congr rfl rfl) hopen
  next => exact inv

/-! ## Timers -/

theorem forceSend (inv : ReceiverInv writes rbase stream read sk r) :
    ReceiverInv writes rbase stream read sk.forceSend r := by
  have inv₁ : ReceiverInv writes rbase stream read { sk with flags.forceSend := true } r :=
    inv.congr rfl rfl
  have inv₂ := inv₁.sendanydata false
  unfold TcpSocket.forceSend
  generalize fnetTcpSendanydata { sk with flags.forceSend := true } false = sent at inv₂
  exact inv₂.congr rfl rfl

theorem rtimeo (inv : ReceiverInv writes rbase stream read sk r) :
    ReceiverInv writes rbase stream read (fnetTcpRtimeo sk) r := by
  have inv₁ : ReceiverInv writes rbase stream read sk.startAbort.startAgain r := inv.congr rfl rfl
  have inv₂ := inv₁.forceSend
  unfold fnetTcpRtimeo
  generalize sk.startAbort.startAgain.forceSend = sk₂ at inv₂
  exact inv₂.congr rfl rfl

theorem ktimeo (inv : ReceiverInv writes rbase stream read sk r) :
    ReceiverInv writes rbase stream read (fnetTcpKtimeo sk) r := by
  have inv₁ : ReceiverInv writes rbase stream read { sk with asked := sk.asked + 1 } r :=
    inv.congr rfl rfl
  unfold fnetTcpKtimeo
  split
  next => exact congr (inv₁.sendseg (fun _ => rfl) ⟨rfl, rfl⟩) rfl rfl
  next => exact inv₁

theorem ptimeo (inv : ReceiverInv writes rbase stream read sk r) :
    ReceiverInv writes rbase stream read (fnetTcpPtimeo sk) r := by
  unfold fnetTcpPtimeo
  split
  next =>
    have inv₁ := inv.sends ((TcpSocket.Sends.refl sk).senddataseg 1)
    generalize fnetTcpSenddataseg sk 1 = sk₁ at inv₁
    exact inv₁.congr rfl rfl
  next => exact inv.forceSend

/-- The abort timer, which closes the socket. -/
theorem abortTick (inv : ReceiverInv writes rbase stream read sk r) (hc : sk.state = .connected) :
    ReceiverInv writes rbase stream read sk.abortTick.1 r := by
  unfold TcpSocket.abortTick
  split
  next => exact inv
  next =>
  split
  next =>
    refine closesk (inv.congr rfl rfl) fun h => ?_
    rw [show sk.state = .deleted from h] at hc
    cases hc
  next => exact inv.congr rfl rfl

theorem abortsk (inv : ReceiverInv writes rbase stream read sk r)
    (hd : sk.state = .deleted → sk.flags.close = true) :
    ReceiverInv writes rbase stream read (fnetTcpAbortsk sk) r := by
  unfold fnetTcpAbortsk fnetTcpSendrstsk
  split
  next =>
    exact closesk (inv.sendseg (fun hrst => absurd hrst.symm Bool.false_ne_true) ⟨rfl, rfl⟩) hd
  next => exact inv.closesk hd

/-- The timer of the connection, which closes the socket. -/
theorem connectionTick (inv : ReceiverInv writes rbase stream read sk r)
    (hc : sk.state = .connected) :
    ReceiverInv writes rbase stream read sk.connectionTick.1 r := by
  have hopen : sk.state = .deleted → sk.flags.close = true := fun h => by
    rw [hc] at h
    cases h
  have hoff : ReceiverInv writes rbase stream read
      { sk with timers.connection := fnetTcpTimerOff } r :=
    inv.congr rfl rfl
  unfold TcpSocket.connectionTick
  split
  next => exact inv
  next =>
  split
  next =>
    dsimp only
    split
    next =>
      split
      next => exact hoff.closesk hopen
      next => exact hoff.abortsk hopen
    next => exact closesk (hoff.congr rfl rfl) hopen
  next => exact inv.congr rfl rfl

theorem retransmissionTick (inv : ReceiverInv writes rbase stream read sk r) :
    ReceiverInv writes rbase stream read sk.retransmissionTick r := by
  unfold TcpSocket.retransmissionTick
  split
  next => exact inv
  next =>
  split
  next => exact rtimeo (inv.congr rfl rfl)
  next => exact inv.congr rfl rfl

theorem keepaliveTick (inv : ReceiverInv writes rbase stream read sk r) :
    ReceiverInv writes rbase stream read sk.keepaliveTick r := by
  unfold TcpSocket.keepaliveTick
  split
  next => exact inv
  next =>
  split
  next => exact ktimeo (inv.congr rfl rfl)
  next => exact inv.congr rfl rfl

theorem persistTick (inv : ReceiverInv writes rbase stream read sk r) :
    ReceiverInv writes rbase stream read sk.persistTick r := by
  unfold TcpSocket.persistTick
  split
  next => exact inv
  next =>
  split
  next => exact ptimeo (inv.congr rfl rfl)
  next => exact inv.congr rfl rfl

theorem roundTripTick (inv : ReceiverInv writes rbase stream read sk r) :
    ReceiverInv writes rbase stream read sk.roundTripTick r := by
  unfold TcpSocket.roundTripTick
  split
  next => exact inv
  next => exact inv.congr rfl rfl

/-- `fnet_tcp_slowtimosk`: the timers in their order, until one closes the socket. -/
theorem slowtimosk (inv : ReceiverInv writes rbase stream read sk r) :
    ReceiverInv writes rbase stream read (fnetTcpSlowtimosk sk) r := by
  by_cases hc : sk.state = .connected
  · rcases fnetTcpSlowtimosk_cases hc with
      ⟨-, heq⟩ | ⟨habort, -, heq⟩ | ⟨habort, -, heq⟩
    · rw [heq]
      exact inv.abortTick hc
    · rw [heq]
      exact (inv.abortTick hc).connectionTick ((TcpSocket.abortTick_state habort).trans hc)
    · rw [heq]
      have inv₁ :=
        (inv.abortTick hc).connectionTick ((TcpSocket.abortTick_state habort).trans hc)
      exact inv₁.retransmissionTick.keepaliveTick.persistTick.roundTripTick
  · unfold fnetTcpSlowtimosk
    rw [if_neg hc]
    exact inv

/-- `fnet_tcp_fasttimosk`: the delayed acknowledgment. -/
theorem fasttimosk (inv : ReceiverInv writes rbase stream read sk r) :
    ReceiverInv writes rbase stream read (fnetTcpFasttimosk sk) r := by
  unfold fnetTcpFasttimosk
  split
  next =>
    split
    next => exact inv
    next =>
    split
    next => exact sendack (inv.congr rfl rfl)
    next => exact inv.congr rfl rfl
  next => exact inv

/-! ## Calls -/

theorem trysend (fuel : Nat) : ∀ {sk : TcpSocket}, ReceiverInv writes rbase stream read sk r →
    ReceiverInv writes rbase stream read (fnetTcpTrysend fuel sk) r := by
  induction fuel with
  | zero => exact fun inv => inv.congr rfl rfl
  | succ fuel ih =>
    intro sk inv
    have inv₁ := inv.sendanydata true
    unfold fnetTcpTrysend
    dsimp only
    split
    next => exact ih inv₁
    next =>
      generalize fnetTcpSendanydata sk true = sent at inv₁
      exact inv₁.congr rfl rfl

theorem send (inv : ReceiverInv writes rbase stream read sk r) (buf : List UInt8)
    (mallocMax : UInt32) :
    ReceiverInv writes rbase stream read (fnetTcpSnd sk buf mallocMax).2 r := by
  have hstart : ReceiverInv writes rbase stream read sk.startSnd r := inv.congr rfl rfl
  unfold fnetTcpSnd
  extract_lets freespace currentlen
  split
  next => exact inv
  next =>
  split
  next => exact inv
  next =>
  split
  next => exact inv
  next =>
  split
  next =>
    split
    next => exact hstart
    next =>
      have inv₁ : ReceiverInv writes rbase stream read
          (sk.startSnd.addOutput (buf.take currentlen)) r :=
        hstart.congr rfl rfl
      unfold TcpSocket.sendAdded
      dsimp only
      split
      next =>
        split
        next => exact inv₁.congr rfl rfl
        next => exact inv₁
      next => exact inv₁.trysend _
  next => exact hstart

/-- The bytes that are read come before those that stay in the input buffer. -/
theorem removeInput (inv : ReceiverInv writes rbase stream read sk r) (hreadable : sk.Readable)
    (n : Nat) :
    ReceiverInv writes rbase stream (read ++ sk.receiveBuffer.data.take n)
    (sk.removeInput n) r := by
  refine { inv with handed := ?_, data := fun _ hstate => ?_, deleted := fun hstate => ?_ }
  · -- of a deleted socket nothing is read any more
    by_cases hdeleted : sk.state = .deleted
    · rw [inv.deleted hdeleted, List.take_nil, List.append_nil]
      exact inv.handed
    · have hprefix : read ++ sk.receiveBuffer.data.take n <+: read ++ sk.receiveBuffer.data :=
        (List.prefix_append_right_inj read).2 (List.take_prefix n _)
      rw [inv.data hreadable hdeleted] at hprefix
      exact hprefix.trans (List.take_prefix r stream)
  · show read ++ sk.receiveBuffer.data.take n ++ sk.receiveBuffer.data.drop n = _
    rw [List.append_assoc, List.take_append_drop]
    exact inv.data hreadable hstate
  · show sk.receiveBuffer.data.drop n = []
    rw [inv.deleted hstate, List.drop_nil]

theorem tellOpened (inv : ReceiverInv writes rbase stream read sk r) :
    ReceiverInv writes rbase stream read sk.tellOpened r := by
  unfold TcpSocket.tellOpened
  split
  next => exact inv.sendack
  next => exact inv

/-- `recv` hands on what was received, and takes it out of the buffer if it is to. -/
theorem recv (inv : ReceiverInv writes rbase stream read sk r) (hreadable : sk.Readable) (len : Nat)
    (remove : Bool) :
    ReceiverInv writes rbase stream (read ++ (fnetTcpRcv sk len remove).1.taken remove)
      (fnetTcpRcv sk len remove).2 r := by
  have htaken := (inv.removeInput hreadable (sk.rcvlen len)).tellOpened
  have hnone {sk' : TcpSocket} (h : ReceiverInv writes rbase stream read sk' r) :
      ReceiverInv writes rbase stream (read ++ []) sk' r := by
    rw [List.append_nil]
    exact h
  unfold fnetTcpRcv
  dsimp only
  cases remove with
  | false =>
    rw [if_neg Bool.false_ne_true]
    split
    next => exact hnone inv
    next =>
      split
      next => exact hnone inv
      next => exact hnone inv
  | true =>
    rw [if_pos rfl]
    -- an error is returned only where nothing was taken out
    have hzero (h : sk.rcvlen len = 0) :
        ReceiverInv writes rbase stream (read ++ [])
          (sk.removeInput (sk.rcvlen len)).tellOpened r := by
      rw [h, List.take_zero] at htaken
      rw [h]
      exact htaken
    split
    next h => exact hzero h.1
    next =>
      split
      next h => exact hzero h.1
      next => exact htaken

theorem shutdownWrite (inv : ReceiverInv writes rbase stream read sk r) (hw : ¬ writes) :
    ReceiverInv writes rbase stream read sk.shutdownWrite r := by
  unfold TcpSocket.shutdownWrite
  split
  next => exact inv
  next =>
    have inv₁ : ReceiverInv writes rbase stream read { sk with sendBuffer.isShutdown := true } r :=
      { inv with
        unshut := fun h => absurd h hw }
    exact inv₁.sendanydata true

theorem shutdownRead (inv : ReceiverInv writes rbase stream read sk r) :
    ReceiverInv writes rbase stream read sk.shutdownRead r :=
  { inv with
    data := fun hread _ => absurd hread.2.symm Bool.false_ne_true, deleted := fun _ => rfl }

/-- `shutdown`, of the one, the other or both. -/
theorem shutdown (inv : ReceiverInv writes rbase stream read sk r) (rd wr : Bool)
    (hw : wr = true → ¬ writes) :
    ReceiverInv writes rbase stream read (fnetTcpShutdown sk rd wr) r := by
  unfold fnetTcpShutdown
  split
  next =>
    extract_lets sk₁
    have inv₁ : ReceiverInv writes rbase stream read sk₁ r := by
      show ReceiverInv writes rbase stream read (if wr then sk.shutdownWrite else sk) r
      split
      next h => exact inv.shutdownWrite (hw h)
      next => exact inv
    split
    next => exact inv₁.shutdownRead
    next => exact inv₁
  next => exact inv

/-- The application gives its descriptor away. -/
theorem setClose (inv : ReceiverInv writes rbase stream read sk r) :
    ReceiverInv writes rbase stream read { sk with flags.close := true } r :=
  { inv with data := fun hread _ => absurd hread.1.symm Bool.false_ne_true }

/-- `close`, after which nothing can be read. -/
theorem close (inv : ReceiverInv writes rbase stream read sk r) (hw : ¬ writes) :
    ReceiverInv writes rbase stream read (fnetTcpClose sk) r := by
  unfold fnetTcpClose
  split
  next => exact inv.setClose.closesk fun _ => rfl
  next =>
  split
  next => exact inv.setClose.abortsk fun _ => rfl
  next =>
    have inv₁ := (inv.shutdownWrite hw).setClose
    dsimp only
    split
    next =>
      exact { inv₁ with
        data := fun hread _ => absurd hread.1.symm Bool.false_ne_true, deleted := fun _ => rfl }
    next => exact congr inv₁.shutdownRead rfl rfl

end ReceiverInv

/-! ## Runs -/

/-- A segment of the stream, for a socket that has taken the bytes before its `sndack`: without
`FIN` and `URG`, and carrying what stands at its sequence number. Its header is whole, as that
of every `TcpSegment`. -/
structure TcpSegment.FromStream (segment : TcpSegment) (rbase : UInt32) (stream : List UInt8)
    (sk : TcpSocket) : Prop where
  fin : segment.fin = false
  urg : segment.urg = false
  carries : segment.Carries rbase stream (serialDist rbase sk.rcv.sndack)

/-- Every segment that comes in during the run is one of the stream. -/
def TcpParty.Hears (rbase : UInt32) (stream : List UInt8) : TcpParty → List TcpEvent → Prop
  | _, [] => True
  | p, event :: events =>
    (∀ segment headerRead, event = .input segment headerRead →
      segment.FromStream rbase stream p.sk) ∧ (p.step event).Hears rbase stream events

/-- The handshake leaves a socket that has taken nothing. -/
theorem TcpSocket.Opened.receiver {base : UInt32} (h : sk.Opened base rbase) (stream : List UInt8) :
    ReceiverInv writes rbase stream [] sk 0 where
  sndack := by rw [h.sndack, serial_zero]
  r_le := Nat.zero_le _
  rcvchain segment hm := by
    rw [h.rcvchain.1] at hm
    cases hm
  handed := List.nil_prefix
  data _ _ := by rw [h.receiveBuffer.1, List.take_zero]; rfl
  deleted hd := by
    rw [h.state] at hd
    cases hd
  acks segment hm := by
    rw [h.out] at hm
    cases hm
  unshut _ := h.isShutdown.1
  established _ := h.connectionState
  finless _ segment hm := by
    rw [h.out] at hm
    cases hm

/-- The application ends the writing. -/
def TcpEvent.EndsWriting : TcpEvent → Prop
  | .shutdown _ write => write = true
  | .close => True
  | _ => False

/-- Every event keeps the receiving direction, if a segment that comes in is one of the
stream. -/
theorem ReceiverInv.step {p : TcpParty} (inv : ReceiverInv writes rbase stream p.read p.sk r)
    (hlen : stream.length < 536870912) (event : TcpEvent) (hw : event.EndsWriting → ¬ writes)
    (h : ∀ segment headerRead, event = .input segment headerRead →
      segment.fin = false ∧ segment.urg = false ∧ segment.Carries rbase stream r) :
    ∃ r', r ≤ r' ∧ ReceiverInv writes rbase stream (p.step event).read (p.step event).sk r' := by
  have stays {p' : TcpParty} (inv' : ReceiverInv writes rbase stream p'.read p'.sk r) :
      ∃ r', r ≤ r' ∧ ReceiverInv writes rbase stream p'.read p'.sk r' := ⟨r, Nat.le_refl r, inv'⟩
  unfold TcpParty.step
  cases event with
  | input segment headerRead =>
    obtain ⟨hfin, hurg, hcarries⟩ := h segment headerRead rfl
    exact inv.input hlen hfin hurg hcarries headerRead
  | ctrlinput command => exact stays (inv.ctrlinput command)
  | slowtimo => exact stays inv.slowtimosk
  | fasttimo => exact stays inv.fasttimosk
  | accept =>
    dsimp only
    split
    next => exact stays (inv.congr rfl rfl)
    next => exact stays inv
  | send buf mallocMax =>
    dsimp only
    split
    next => exact stays inv
    next => exact stays (inv.send buf mallocMax)
  | recv len remove =>
    dsimp only
    split
    next => exact stays inv
    next hopen =>
      rw [Bool.or_eq_true, Bool.or_eq_true, not_or, not_or] at hopen
      have hreadable : p.sk.Readable :=
        ⟨Bool.eq_false_iff.2 hopen.1.1, Bool.eq_false_iff.2 hopen.2⟩
      exact stays (inv.recv hreadable len remove)
  | shutdown read write =>
    dsimp only
    split
    next => exact stays inv
    next => exact stays (inv.shutdown read write hw)
  | close =>
    dsimp only
    split
    next => exact stays inv
    next => exact stays (inv.close (hw trivial))

/-- Over a run in which all that comes in carries parts of the stream. -/
theorem ReceiverInv.run (hlen : stream.length < 536870912) (events : List TcpEvent) :
    ∀ {p : TcpParty} {r : Nat}, ReceiverInv False rbase stream p.read p.sk r →
      p.Hears rbase stream events →
      ∃ r', r ≤ r' ∧ ReceiverInv False rbase stream (p.run events).read (p.run events).sk r' := by
  induction events with
  | nil => exact fun inv _ => ⟨_, Nat.le_refl _, inv⟩
  | cons event events ih =>
    intro p r inv hears
    have hr := inv.r_le
    -- `FromStream` counts the bytes taken by the number that is acknowledged
    have hdist : serialDist rbase p.sk.rcv.sndack = r := by
      rw [inv.sndack]
      nth_rewrite 1 [← serial_zero rbase]
      rw [serialDist_serial (Nat.zero_le r) (by omega), Nat.sub_zero]
    obtain ⟨r₁, hle, inv₁⟩ := inv.step hlen event (fun _ => id) fun segment headerRead he => by
      have hfrom := hears.1 segment headerRead he
      exact ⟨hfrom.fin, hfrom.urg, hdist ▸ hfrom.carries⟩
    obtain ⟨r₂, hle₂, inv₂⟩ := ih inv₁ hears.2
    exact ⟨r₂, Nat.le_trans hle hle₂, inv₂⟩

/-- A socket receives the stream: whatever part of it the segments carry, in whatever order
they come, cut and repeated, and whatever else happens in between, the application has read
the first bytes of the stream. While the socket lives and can be read, what was read and what
is in the input buffer are the bytes up to the number that the socket acknowledges, and no
segment has ever acknowledged a byte that was not taken. -/
theorem tcp_receives_stream (p : TcpParty) (base rbase : UInt32) (stream : List UInt8)
    (hopened : p.sk.Opened base rbase) (hread : p.read = []) (hlen : stream.length < 536870912)
    (events : List TcpEvent) (hears : p.Hears rbase stream events) :
    (p.run events).read <+: stream
      ∧ ∃ r, (p.run events).sk.rcv.sndack = serial rbase r ∧ r ≤ stream.length
        ∧ ((p.run events).sk.Readable → (p.run events).sk.state ≠ .deleted →
          (p.run events).read ++ (p.run events).sk.receiveBuffer.data = stream.take r)
        ∧ ∀ segment ∈ (p.run events).sk.out, segment.rst = false →
          ∃ r' ≤ r, segment.ack = serial rbase r' := by
  have hstart : ReceiverInv False rbase stream p.read p.sk 0 := hread ▸ hopened.receiver stream
  obtain ⟨r, -, inv⟩ := hstart.run hlen events hears
  exact ⟨inv.handed, r, inv.sndack, inv.r_le, inv.data, inv.acks⟩

/-- The end of five bytes comes first, then their start and more; four of them are read. -/
theorem tcp_receives_stream_out_of_order :
    ((TcpParty.opened 7 4294967295).run
        [.input { seq := 1, ack := 7, ackFlag := true, data := [3, 4, 5] } false,
          .input { seq := 4294967295, ack := 7, ackFlag := true, data := [1, 2, 3] } false,
          .recv 4 true]).read = [1, 2, 3, 4]
      ∧ ((TcpParty.opened 7 4294967295).run
        [.input { seq := 1, ack := 7, ackFlag := true, data := [3, 4, 5] } false,
          .input { seq := 4294967295, ack := 7, ackFlag := true, data := [1, 2, 3] } false,
          .recv 4 true]).read <+: [1, 2, 3, 4, 5] := by
  refine ⟨by decide +kernel, ?_⟩
  refine (tcp_receives_stream (TcpParty.opened 7 4294967295) 7 4294967295 [1, 2, 3, 4, 5]
    (TcpParty.opened_opened _ _) rfl (by decide) _ ?_).1
  refine ⟨?_, ?_, ?_, trivial⟩
  · intro segment headerRead he
    cases he
    exact ⟨rfl, rfl, .inl ⟨2, by decide, by decide⟩⟩
  · intro segment headerRead he
    cases he
    exact ⟨rfl, rfl, .inl ⟨0, by decide, by decide⟩⟩
  · intro segment headerRead he
    cases he

end Datalogger
