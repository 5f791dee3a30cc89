import Datalogger.Net.TcpReceiver
import Mathlib.Logic.Relation

/-!
# Two TCP sockets over a network that loses, repeats and reorders

The two ends of a connection, each with its application, and a network between them that
hands over any segment that was ever sent, any number of times and in any order, or not at
all. `TcpStream.lean` says what one end sends and `TcpReceiver.lean` what it makes of the
segments of a stream; here each end is the other one's environment.

`Direction` is the invariant of the way from one end to the other: what the receiver has
taken and the sender's place of the last acknowledgment are places in one stream, and the
sender's is never ahead. `tcp_delivers` is the result over whole runs.
-/

namespace Datalogger

open Lib

/-- The two ends of a connection. -/
structure TcpChannel where
  left : TcpParty
  right : TcpParty

/-- What may happen at one end of the connection: a timer ticks, the IP layer notifies, the
application calls, or a segment comes in that the other end has sent. The application does not
end the writing. -/
def TcpEvent.MayHappen (other : TcpParty) : TcpEvent → Prop
  | .input segment _ => segment ∈ other.sk.out
  | .shutdown _ write => write = false
  | .close => False
  | _ => True

/-- One event at one of the ends. -/
inductive TcpChannel.Step (c : TcpChannel) : TcpChannel → Prop
  | left {event : TcpEvent} (h : event.MayHappen c.right) :
    c.Step { c with left := c.left.step event }
  | right {event : TcpEvent} (h : event.MayHappen c.left) :
    c.Step { c with right := c.right.step event }

/-- A run of the two ends. -/
def TcpChannel.Runs : TcpChannel → TcpChannel → Prop := Relation.ReflTransGen TcpChannel.Step

/-- What `x` writes is delivered to `y`: in order and once, and a byte that `y` does not have
yet is still in the output buffer of `x`. -/
structure TcpParty.DeliversTo (x y : TcpParty) : Prop where
  inOrder : y.read <+: x.written
  noneLost : x.sk.state = .connected → y.sk.Readable → y.sk.state ≠ .deleted →
    ∃ a r, a ≤ r ∧ y.read ++ y.sk.receiveBuffer.data = x.written.take r
      ∧ x.sk.sendBuffer.data = x.written.drop a

/-! ## The stream grows -/

variable {writes : Prop} {base rbase : UInt32} {stream read : List UInt8} {sk : TcpSocket} {r : Nat}
  {x y : TcpParty}

/-- A segment stays in its place when the stream grows. -/
theorem TcpSegment.Placed.append {segment : TcpSegment} (h : segment.Placed rbase stream)
    (more : List UInt8) : segment.Placed rbase (stream ++ more) := by
  obtain ⟨p, hseq, hprefix⟩ := h
  refine ⟨p, hseq, hprefix.trans ?_⟩
  rw [List.drop_append]
  exact List.prefix_append _ _

/-- What is written later does not matter to what was received. -/
theorem ReceiverInv.append (inv : ReceiverInv writes rbase stream read sk r) (more : List UInt8) :
    ReceiverInv writes rbase (stream ++ more) read sk r where
  sndack := inv.sndack
  r_le := by
    rw [List.length_append]
    exact Nat.le_add_right_of_le inv.r_le
  rcvchain segment hm :=
    have h := inv.rcvchain segment hm
    ⟨h.placed.append more, h.data, h.fin⟩
  handed := inv.handed.trans (List.prefix_append _ _)
  data hread hstate := by rw [inv.data hread hstate, List.take_append_of_le_length inv.r_le]
  deleted := inv.deleted
  acks := inv.acks
  unshut := inv.unshut
  established := inv.established
  finless := inv.finless

/-- What was written stays written. -/
theorem TcpParty.step_written (p : TcpParty) (event : TcpEvent) :
    ∃ more, (p.step event).written = p.written ++ more := by
  have same : ∃ more, p.written = p.written ++ more := ⟨[], (List.append_nil _).symm⟩
  unfold TcpParty.step
  cases event with
  | input segment headerRead => exact same
  | ctrlinput command => exact same
  | slowtimo => exact same
  | fasttimo => exact same
  | accept =>
    dsimp only
    split
    next => exact same
    next => exact same
  | send buf mallocMax =>
    dsimp only
    split
    next => exact same
    next => exact ⟨_, rfl⟩
  | recv len remove =>
    dsimp only
    split
    next => exact same
    next => exact same
  | shutdown read write =>
    dsimp only
    split
    next => exact same
    next => exact same
  | close =>
    dsimp only
    split
    next => exact same
    next => exact same

/-- The stream of a party only grows. -/
theorem TcpParty.length_step (p : TcpParty) (event : TcpEvent) :
    p.written.length ≤ (p.step event).written.length := by
  obtain ⟨more, hmore⟩ := p.step_written event
  rw [hmore, List.length_append]
  exact Nat.le_add_right _ _

/-! ## One direction -/

/-- The way from `x` to `y`: the bytes before `a` are acknowledged, and `y` has taken those
before `r`. -/
structure Direction (base : UInt32) (x y : TcpParty) (a r : Nat) : Prop where
  sender : SenderSafe base x.written x.sk a
  receiver : ReceiverInv True base x.written y.read y.sk r
  le : a ≤ r

namespace Direction

variable {a b q : Nat}

/-- The sender moves on to no place that the receiver has not acknowledged, and an
acknowledgment is never ahead of the receiver. -/
theorem moves_le (h : Direction base x y a r) (hlen : x.written.length < 536870912)
    (hunshut : x.sk.sendBuffer.isShutdown = false) {event : TcpEvent} (hevent : event.MayHappen y)
    {a' : Nat} (hmoves : event.Moves base x a a') : a' ≤ r := by
  cases event with
  | input segment headerRead =>
    obtain ⟨-, rfl | ⟨hrst, hack, hlimit⟩⟩ := hmoves
    · exact h.le
    · rw [hunshut] at hlimit
      have hlimit : a' ≤ x.written.length := hlimit
      have hr := h.receiver.r_le
      obtain ⟨r', hr', hack'⟩ := h.receiver.acks segment hevent hrst
      have heq : a' = r' := serial_inj (by omega) (by omega) (hack.symm.trans hack')
      omega
  | ctrlinput command => exact hmoves ▸ h.le
  | slowtimo => exact hmoves ▸ h.le
  | fasttimo => exact hmoves ▸ h.le
  | accept => exact hmoves ▸ h.le
  | send buf mallocMax => exact hmoves ▸ h.le
  | recv len remove => exact hmoves ▸ h.le
  | shutdown read write => exact hmoves ▸ h.le
  | close => exact hevent.elim

/-- An event at the sender. -/
theorem step_sender (h : Direction base x y a r) (hlen : x.written.length < 536870912)
    (hunshut : x.sk.sendBuffer.isShutdown = false) {event : TcpEvent}
    (hevent : event.MayHappen y) : ∃ a', Direction base (x.step event) y a' r := by
  obtain ⟨a', hmoves, hsender⟩ := h.sender.step event
  obtain ⟨more, hmore⟩ := x.step_written event
  have hreceiver := h.receiver.append more
  rw [← hmore] at hreceiver
  exact ⟨a', hsender, hreceiver, h.moves_le hlen hunshut hevent hmoves⟩

/-- An event at the receiver `y`, to whom `x` sends; the segments of `x` are those of its stream
and none is the final one. -/
theorem step_receiver (h : Direction base x y a r) (hlen : x.written.length < 536870912)
    (hfinless : ∀ segment ∈ x.sk.out, segment.fin = false ∧ segment.urg = false)
    {event : TcpEvent} (hevent : event.MayHappen x) :
    ∃ r', Direction base x (y.step event) a r' := by
  have hends : event.EndsWriting → ¬ True := by
    intro hends
    cases event with
    | shutdown read write =>
      have hends : write = true := hends
      have hevent : write = false := hevent
      exact absurd (hevent.symm.trans hends) Bool.false_ne_true
    | close => exact hevent.elim
    | _ => exact hends.elim
  obtain ⟨r', hle, hreceiver⟩ := h.receiver.step hlen event hends
    fun segment headerRead he => by
      subst he
      obtain ⟨hfin, hurg⟩ := hfinless segment hevent
      exact ⟨hfin, hurg, (h.sender.carries segment hevent).mono h.le⟩
  exact ⟨r', h.sender, hreceiver, Nat.le_trans h.le hle⟩

/-- What one party has read is a beginning of what the other one wrote. -/
theorem deliversTo (h : Direction base x y a r) : x.DeliversTo y where
  inOrder := h.receiver.handed
  noneLost hc hread hstate := by
    obtain ⟨⟨s, m, inv⟩, -⟩ := h.sender.connected hc
    exact ⟨a, r, h.le, h.receiver.data hread hstate, inv.data⟩

end Direction

/-! ## Runs -/

/-- Both directions. -/
structure ChannelInv (base rbase : UInt32) (x y : TcpParty) : Prop where
  there : ∃ a r, Direction base x y a r
  back : ∃ b q, Direction rbase y x b q

namespace ChannelInv

theorem swap (inv : ChannelInv base rbase x y) : ChannelInv rbase base y x := ⟨inv.back, inv.there⟩

/-- An event at one end moves this end's place in both streams. -/
theorem step (inv : ChannelInv base rbase x y) (hx : x.written.length < 536870912)
    (hy : y.written.length < 536870912) {event : TcpEvent} (hevent : event.MayHappen y) :
    ChannelInv base rbase (x.step event) y := by
  obtain ⟨a, r, hthere⟩ := inv.there
  obtain ⟨b, q, hback⟩ := inv.back
  obtain ⟨a', hthere'⟩ := hthere.step_sender hx (hback.receiver.unshut trivial) hevent
  obtain ⟨q', hback'⟩ := hback.step_receiver hy (hthere.receiver.finless trivial) hevent
  exact ⟨⟨a', r, hthere'⟩, ⟨b, q', hback'⟩⟩

/-- Over a run of the channel, as long as the streams stay short. -/
theorem run {c c' : TcpChannel} (inv : ChannelInv base rbase c.left c.right) (hrun : c.Runs c')
    (hleft : c'.left.written.length < 536870912) (hright : c'.right.written.length < 536870912) :
    ChannelInv base rbase c'.left c'.right := by
  induction hrun with
  | refl => exact inv
  | tail _ hstep ih =>
    cases hstep with
    | left hevent =>
      have hshort := Nat.lt_of_le_of_lt (TcpParty.length_step _ _) hleft
      exact (ih hshort hright).step hshort hright hevent
    | right hevent =>
      have hshort := Nat.lt_of_le_of_lt (TcpParty.length_step _ _) hright
      exact ((ih hleft hshort).swap.step hshort hleft hevent).swap

end ChannelInv

/-- A run at one end alone. -/
theorem TcpChannel.runs_left (c : TcpChannel) (events : List TcpEvent)
    (h : ∀ event ∈ events, event.MayHappen c.right) :
    c.Runs { c with left := c.left.run events } := by
  induction events generalizing c with
  | nil => exact Relation.ReflTransGen.refl
  | cons event events ih =>
    have hrest := ih { c with left := c.left.step event } fun event' hm =>
      h event' (List.mem_cons_of_mem _ hm)
    exact Relation.ReflTransGen.head (.left (h event List.mem_cons_self)) hrest

/-- The right party alone runs. -/
theorem TcpChannel.runs_right (c : TcpChannel) (events : List TcpEvent)
    (h : ∀ event ∈ events, event.MayHappen c.left) :
    c.Runs { c with right := c.right.run events } := by
  induction events generalizing c with
  | nil => exact Relation.ReflTransGen.refl
  | cons event events ih =>
    have hrest := ih { c with right := c.right.step event } fun event' hm =>
      h event' (List.mem_cons_of_mem _ hm)
    exact Relation.ReflTransGen.head (.right (h event List.mem_cons_self)) hrest

/-- TCP delivers: two sockets that have just been connected, any interleaving of timers,
notifications and calls at both ends, and a network that loses, repeats and reorders the
segments as it likes. As long as neither side ends its writing, and each writes less than
`2 ^ 29` bytes, each side reads the bytes that the other one wrote, in order and once, and no
byte that was taken by `send` is lost. -/
theorem tcp_delivers (c c' : TcpChannel) (base rbase : UInt32)
    (hleft : c.left.sk.Opened base rbase) (hright : c.right.sk.Opened rbase base)
    (hnew : c.left.written = [] ∧ c.left.read = [] ∧ c.right.written = [] ∧ c.right.read = [])
    (hrun : c.Runs c') (hlenLeft : c'.left.written.length < 536870912)
    (hlenRight : c'.right.written.length < 536870912) :
    c'.left.DeliversTo c'.right ∧ c'.right.DeliversTo c'.left := by
  obtain ⟨hleftWritten, hleftRead, hrightWritten, hrightRead⟩ := hnew
  have hstart : ChannelInv base rbase c.left c.right := by
    refine ⟨⟨0, 0, ?_, ?_, Nat.le_refl 0⟩, ⟨0, 0, ?_, ?_, Nat.le_refl 0⟩⟩
    · rw [hleftWritten]
      exact hleft.safe
    · rw [hrightRead]
      exact hright.receiver _
    · rw [hrightWritten]
      exact hright.safe
    · rw [hleftRead]
      exact hleft.receiver _
  have inv := hstart.run hrun hlenLeft hlenRight
  obtain ⟨a, r, hthere⟩ := inv.there
  obtain ⟨b, q, hback⟩ := inv.back
  exact ⟨hthere.deliversTo, hback.deliversTo⟩

/-- A segment with three bytes, as the left side sends it. -/
def threeByteSegment : TcpSegment :=
  { seq := 7, ack := 90, psh := true, ackFlag := true, wnd := 2048, data := [1, 2, 3] }

/-- Its acknowledgment. -/
def threeByteAck : TcpSegment := { seq := 90, ack := 10, ackFlag := true, wnd := 2045 }

/-- The left side writes three bytes. Their segment comes in twice, the right side reads them,
and the acknowledgment comes back. -/
def threeBytesDelivered : TcpChannel where
  left := (TcpParty.opened 7 90).run [.send [1, 2, 3] 5000, .input threeByteAck false]
  right := (TcpParty.opened 90 7).run
    [.input threeByteSegment false, .input threeByteSegment false, .recv 3 true]

/-- `tcp_delivers` at `threeBytesDelivered`. -/
theorem tcp_delivers_three_bytes :
    threeBytesDelivered.right.read = [1, 2, 3]
      ∧ threeBytesDelivered.left.sk.sendBuffer.data = []
      ∧ threeBytesDelivered.left.DeliversTo threeBytesDelivered.right
      ∧ threeBytesDelivered.right.DeliversTo threeBytesDelivered.left := by
  refine ⟨by decide +kernel, by decide +kernel, ?_⟩
  have hsend := TcpChannel.runs_left ⟨TcpParty.opened 7 90, TcpParty.opened 90 7⟩
    [.send [1, 2, 3] 5000] (by simp [TcpEvent.MayHappen])
  have hsent : threeByteSegment ∈ ((TcpParty.opened 7 90).run [.send [1, 2, 3] 5000]).sk.out := by
    decide +kernel
  have hreceive := TcpChannel.runs_right
    ⟨(TcpParty.opened 7 90).run [.send [1, 2, 3] 5000], TcpParty.opened 90 7⟩
    [.input threeByteSegment false, .input threeByteSegment false, .recv 3 true]
    (by simp [TcpEvent.MayHappen, hsent])
  have hanswered : threeByteAck ∈ threeBytesDelivered.right.sk.out := by decide +kernel
  have hack := TcpChannel.runs_left
    ⟨(TcpParty.opened 7 90).run [.send [1, 2, 3] 5000], threeBytesDelivered.right⟩
    [.input threeByteAck false] (by simp [TcpEvent.MayHappen, hanswered])
  exact tcp_delivers ⟨TcpParty.opened 7 90, TcpParty.opened 90 7⟩ threeBytesDelivered 7 90
    (TcpParty.opened_opened _ _) (TcpParty.opened_opened _ _) ⟨rfl, rfl, rfl, rfl⟩
    ((hsend.trans hreceive).trans hack) (by decide +kernel) (by decide +kernel)

end Datalogger
