import Datalogger.Capture.Bounds
import Datalogger.Capture.Interleaving
import Datalogger.Wire.SendCapture
import Datalogger.Wire.Stream

/-!
# `netprot_send_capture` statement by statement

The main loop sends packets while the trigger interrupt goes on storing samples, also into
the buffer that is being sent. Here `netprot_send_capture` is a list of its statements, with
one `send()` a statement, so the interrupt may fire between any two of them
(`sendProgram`); executed alone it is `netprotSendCapture` (`sendCapture_uninterrupted`).

Whatever the interrupt does to the samples, it leaves the headers alone, so every
interleaving keeps the byte stream in step (`stream_framed`): the other end finds the
packets where they were put, with consecutive counts, the flags they were sent with and
`2n` bytes each, and what is left of the stream is the part of a packet that is still being
sent.

The send loop counts wrongly after a second send (`sendLoop_complete_iff`), so this is about
runs in which a send that follows a partial one takes what is left (`TakesTheRest`).

Mirroring notes:
- The statements of `netprot_header_append` write only header fields, which the interrupt
  neither reads nor writes; they are one statement here.
- `send()` takes any number of bytes up to what it is offered; `accepts` is what it will
  take. A `SOCKET_ERROR` ends the session and the stream with it.
-/

namespace Datalogger

open Lib (Frame Interruptible EndsInside leBytes)

/-! ## The program -/

/-- The globals of `netprot_send_capture`, and what the next calls of `send()` take when
they are offered enough. -/
structure SendState where
  capture : Capture
  count : Int32
  accepts : Nat → Nat

/-- The statements of `netprot_send_capture`, those of `capture_read` first. -/
inductive SendStmt where
  | reader (stmt : ReaderStmt)
  | appendHeader (buf : BufId) (ignoreData nsamples : Int32)
  | getsize (buf : BufId)
  | send (buf : BufId) (sent : Nat) (tosend : Int)
  deriving DecidableEq, Repr

/-- What an observer sees: the header that is put into a buffer, and the bytes a `send()`
takes. -/
inductive WireEvent where
  | header (count : Int32) (flags : UInt8)
  | taken (bytes : List UInt8)
  deriving DecidableEq, Repr

/-- `len` bytes of the structure `p` from `off` on. -/
def Netstruct.slice (p : Netstruct) (off len : Nat) : List UInt8 :=
  ((p.bytes (off + len)).drop off).take len

/-- `flags |= DATA_INVALID` for a buffer that is to be ignored. -/
def captureFlags (ignoreData : Int32) : UInt8 :=
  if ignoreData ≠ 0 then (0 : UInt8) ||| dataInvalid else 0

/-- One statement. -/
def sendExec (s : SendState) : SendStmt → SendState × List SendStmt × List WireEvent
  | .reader (.returnRead none) => (s, [], [])
  | .reader (.returnRead (some out)) =>
    let nsamples := s.capture.samplesPerBuffer
    (s, if nsamples ≠ 0 then [.appendHeader out.buf out.ignoreBuffer nsamples] else [], [])
  | .reader stmt =>
    let r := readerExec s.capture stmt
    ({ s with capture := r.1 }, r.2.1.map .reader, [])
  | .appendHeader buf ignoreData nsamples =>
    let flags := captureFlags ignoreData
    let packet := netprotHeaderAppend (s.capture.mem buf) s.count
      (nsamples.toUInt32 * 2).toInt32 0 flags
    ({ s with
        capture := { s.capture with
          mem := fun b => if b = buf then packet else s.capture.mem b }
        count := s.count + 1 },
      [.getsize buf], [.header s.count flags])
  | .getsize buf => (s, [.send buf 0 (netprotHeaderGetsize (s.capture.mem buf)).toInt], [])
  | .send buf sent tosend =>
    if tosend ≤ 0 then (s, [], [])
    else
      let n := min (s.accepts 0) tosend.toNat
      ({ s with accepts := fun i => s.accepts (i + 1) },
        [.send buf (sent + n) (tosend - (sent + n : Nat))],
        [.taken ((s.capture.mem buf).slice sent n)])

/-- The main loop that sends while the trigger interrupt fires. -/
def sendProgram : Interruptible SendState SendStmt Unit UInt16 WireEvent where
  body _ := [.reader .testBufFull]
  exec := sendExec
  interrupt s x := ({ s with capture := captureIsr s.capture x }, [])

/-- The state behind `capture_setup(n, k)`. -/
def sendStart (mem : BufId → Netstruct) (n k count : Int32) (accepts : Nat → Nat) : SendState :=
  { capture := captureSetup mem n k, count := count, accepts := accepts }

/-- The bytes the other end has received. -/
def streamOf (events : List WireEvent) : List UInt8 :=
  events.flatMap fun
    | .header _ _ => []
    | .taken bytes => bytes

/-- The headers that have been put into a buffer. -/
def headersOf (events : List WireEvent) : List (Int32 × UInt8) :=
  events.flatMap fun
    | .header count flags => [(count, flags)]
    | .taken _ => []

/-- A send that follows a partial one takes what is left. -/
def TakesTheRest (m : Frame SendState SendStmt) : Prop :=
  match m.todo with
  | .send _ sent tosend :: _ => 0 < sent → 0 < tosend → tosend ≤ m.state.accepts 0
  | _ => True

instance (m : Frame SendState SendStmt) : Decidable (TakesTheRest m) := by
  unfold TakesTheRest
  split <;> infer_instance

/-! ## Without interrupts -/

/-- What is seen of one `send()` of `p`. -/
def SendCall.event (p : Netstruct) (c : SendCall) : WireEvent :=
  match c.result with
  | .socketError => .taken []
  | .accepted n => .taken (p.slice c.off n)

/-- When nothing is left to execute, the moves of the main loop do nothing. -/
theorem run_idle (s : SendState) (j : Nat) :
    sendProgram.run ⟨s, []⟩ (List.replicate j .next) = (⟨s, []⟩, []) := by
  induction j with
  | zero => rfl
  | succ j ih =>
    show (_, [] ++ (sendProgram.run ⟨s, []⟩ (List.replicate j .next)).2) = _
    rw [ih]
    exact congrArg (fun m => (m, _)) (congrArg Prod.fst ih)

/-- One statement and what follows it. -/
theorem run_next (s : SendState) (k : SendStmt) (j : Nat) :
    sendProgram.run ⟨s, [k]⟩ (List.replicate (j + 1) .next)
      = ((sendProgram.run ⟨(sendExec s k).1, (sendExec s k).2.1 ++ []⟩ (List.replicate j .next)).1,
          (sendExec s k).2.2
            ++ (sendProgram.run ⟨(sendExec s k).1, (sendExec s k).2.1 ++ []⟩
                (List.replicate j .next)).2) := rfl

/-- A statement that nothing is seen of. -/
theorem run_quiet {s s' : SendState} {k k' : SendStmt} (h : sendExec s k = (s', [k'], []))
    (j : Nat) :
    sendProgram.run ⟨s, [k]⟩ (List.replicate (j + 1) .next)
      = sendProgram.run ⟨s', [k']⟩ (List.replicate j .next) := by
  rw [run_next, h]
  rfl

/-- A statement that ends the call. -/
theorem run_last {s s' : SendState} {k : SendStmt} (h : sendExec s k = (s', [], [])) (j : Nat) :
    sendProgram.run ⟨s, [k]⟩ (List.replicate (j + 1) .next) = (⟨s', []⟩, []) := by
  rw [run_next, h]
  show ((sendProgram.run ⟨s', []⟩ _).1, [] ++ (sendProgram.run ⟨s', []⟩ _).2) = _
  rw [run_idle]
  rfl

/-- The statements of `capture_read` in front of the header. -/
theorem run_read {s : SendState} (hfull : s.capture.bufFull = true) (j : Nat) :
    sendProgram.run ⟨s, [.reader .testBufFull]⟩ (List.replicate (j + 4) .next)
      = sendProgram.run
        ⟨{ s with capture := { s.capture with bufFull := false } },
          [.reader (.returnRead (some ⟨s.capture.curBuf, s.capture.buffersToIgnore⟩))]⟩
        (List.replicate j .next) := by
  have htest : sendExec s (.reader .testBufFull) = (s, [.reader .storeBuf], []) := by
    simp only [sendExec, readerExec, hfull, if_true, List.map_cons, List.map_nil]
  rw [run_quiet htest (j + 3)]
  rfl

/-- The sends of a loop that ends are those of `sendLoop`. -/
theorem send_uninterrupted (buf : BufId) :
    ∀ (rs : List Nat) (s : SendState) (sent : Nat) (tosend : Int) (r : Nat),
      (s.accepts = fun i => rs.getD i 0) →
      (sendLoop sent tosend (rs.map .accepted)).2 = .done r →
      Honest (sendLoop sent tosend (rs.map .accepted)).1 →
      ∃ accepts, sendProgram.run ⟨s, [.send buf sent tosend]⟩ (List.replicate (rs.length + 1) .next)
        = (⟨{ s with accepts := accepts }, []⟩,
          (sendLoop sent tosend (rs.map .accepted)).1.map
            (SendCall.event (s.capture.mem buf))) := by
  intro rs
  induction rs with
  | nil =>
    intro s sent tosend r _ hdone _
    have hnonpos : tosend ≤ 0 := by
      by_contra hpos
      rw [List.map_nil, sendLoop, if_neg hpos] at hdone
      cases hdone
    have hexec : sendExec s (.send buf sent tosend) = (s, [], []) := if_pos hnonpos
    refine ⟨s.accepts, ?_⟩
    rw [List.map_nil, sendLoop_of_nonpos hnonpos]
    exact (run_next s _ 0).trans (by rw [hexec]; rfl)
  | cons x rs ih =>
    intro s sent tosend r haccepts hdone hhonest
    rcases Int.lt_or_le 0 tosend with hpos | hnonpos
    · rw [List.map_cons, sendLoop_accepted hpos] at hdone hhonest ⊢
      have hx : (x : Int) ≤ tosend := hhonest _ (List.mem_cons_self ..) x rfl
      have hmin : min (s.accepts 0) tosend.toNat = x := by
        rw [haccepts]
        show min x tosend.toNat = x
        omega
      have hexec : sendExec s (.send buf sent tosend)
          = ({ s with accepts := fun i => s.accepts (i + 1) },
            [.send buf (sent + x) (tosend - (sent + x : Nat))],
            [.taken ((s.capture.mem buf).slice sent x)]) := by
        rw [sendExec, if_neg (by omega)]
        dsimp only
        rw [hmin]
      obtain ⟨accepts, hrun⟩ := ih { s with accepts := fun i => s.accepts (i + 1) } (sent + x)
        (tosend - (sent + x : Nat)) r (by rw [haccepts]; rfl) hdone (honest_cons hhonest)
      refine ⟨accepts, ?_⟩
      rw [List.length_cons, run_next, hexec]
      show ((sendProgram.run ⟨_, [_]⟩ _).1, [_] ++ (sendProgram.run ⟨_, [_]⟩ _).2) = _
      rw [hrun]
      rfl
    · have hexec : sendExec s (.send buf sent tosend) = (s, [], []) := if_pos hnonpos
      refine ⟨s.accepts, ?_⟩
      rw [sendLoop_of_nonpos hnonpos, List.length_cons, run_next, hexec]
      show ((sendProgram.run ⟨s, []⟩ _).1, [] ++ (sendProgram.run ⟨s, []⟩ _).2) = _
      rw [run_idle]
      rfl

/-- What is seen of a call: the header of its packet and the sends. -/
def SendCapture.events (c : SendCapture) (count : Int32) : List WireEvent :=
  match c.packet with
  | none => []
  | some p => .header count p.flags :: c.calls.map (SendCall.event p)

/-- The loop of a call that finds a full buffer. -/
theorem netprotSendCapture_loop {s : Sender} (hfull : s.capture.bufFull = true)
    (hspb : s.capture.samplesPerBuffer ≠ 0) (results : List SendResult) :
    (netprotSendCapture s results).calls
      = (sendLoop 0 (netprotHeaderGetsize (capturePacket s)).toInt results).1 ∧
    (netprotSendCapture s results).exit
      = (sendLoop 0 (netprotHeaderGetsize (capturePacket s)).toInt results).2 := by
  unfold netprotSendCapture
  rw [captureRead_full hfull]
  dsimp only
  rw [if_pos hspb]
  exact ⟨rfl, rfl⟩

/-- **A call without interrupts is `netprotSendCapture`.** -/
theorem sendCapture_uninterrupted (s : SendState) (rs : List Nat)
    (haccepts : s.accepts = fun i => rs.getD i 0) :
    let c := netprotSendCapture ⟨s.capture, s.count⟩ (rs.map .accepted)
    ∀ r, c.exit = .done r → Honest c.calls →
      ∃ accepts, sendProgram.run ⟨s, []⟩ (.call () :: List.replicate (rs.length + 8) .next)
        = (⟨{ capture := c.sender.capture, count := c.sender.count, accepts := accepts }, []⟩,
          c.events s.count) := by
  intro c r hdone hhonest
  cases hfull : s.capture.bufFull with
  | false =>
    obtain ⟨hpacket, hsender⟩ := netprotSendCapture_empty (s := ⟨s.capture, s.count⟩) hfull
      (rs.map .accepted)
    have htest : sendExec s (.reader .testBufFull) = (s, [.reader (.returnRead none)], []) := by
      simp only [sendExec, readerExec, hfull, Bool.false_eq_true, if_false, List.map_cons,
        List.map_nil]
    refine ⟨s.accepts, ?_⟩
    show sendProgram.run ⟨s, [.reader .testBufFull]⟩ (List.replicate (rs.length + 8) .next) = _
    rw [SendCapture.events, hpacket, hsender, run_quiet htest (rs.length + 7)]
    exact run_last rfl _
  | true =>
    show ∃ accepts, sendProgram.run ⟨s, [.reader .testBufFull]⟩
      (List.replicate (rs.length + 4 + 4) .next) = _
    rw [run_read hfull]
    by_cases hspb : s.capture.samplesPerBuffer = 0
    · obtain ⟨hpacket, hsender⟩ := netprotSendCapture_noSamples (s := ⟨s.capture, s.count⟩) hfull
        hspb (rs.map .accepted)
      refine ⟨s.accepts, ?_⟩
      rw [SendCapture.events, hpacket, hsender]
      refine run_last ?_ (rs.length + 3)
      simp only [sendExec, hspb, ne_eq, not_true_eq_false, if_false]
    · obtain ⟨hpacket, hsender⟩ := netprotSendCapture_full (s := ⟨s.capture, s.count⟩) hfull
        hspb (rs.map .accepted)
      obtain ⟨hcalls, hexit⟩ := netprotSendCapture_loop (s := ⟨s.capture, s.count⟩) hfull hspb
        (rs.map .accepted)
      -- the state the header has been put into
      obtain ⟨t, ht⟩ : ∃ t : SendState, t =
          { s with
            capture := { s.capture with
              bufFull := false
              mem := fun b => if b = s.capture.curBuf then capturePacket ⟨s.capture, s.count⟩
                else s.capture.mem b }
            count := s.count + 1 } := ⟨_, rfl⟩
      have hpkt : t.capture.mem s.capture.curBuf = capturePacket ⟨s.capture, s.count⟩ := by
        rw [ht]
        exact if_pos rfl
      have hgoal : (sendLoop 0 (netprotHeaderGetsize (t.capture.mem s.capture.curBuf)).toInt
          (rs.map .accepted)).2 = .done r := by
        rw [hpkt, ← hexit]
        exact hdone
      have hhon : Honest (sendLoop 0 (netprotHeaderGetsize (t.capture.mem s.capture.curBuf)).toInt
          (rs.map .accepted)).1 := by
        rw [hpkt, ← hcalls]
        exact hhonest
      obtain ⟨accepts, hrun⟩ := send_uninterrupted s.capture.curBuf rs t 0 _ r
        (by rw [ht]; exact haccepts) hgoal hhon
      refine ⟨accepts, ?_⟩
      have hreturn : sendExec { s with capture := { s.capture with bufFull := false } }
          (.reader (.returnRead (some ⟨s.capture.curBuf, s.capture.buffersToIgnore⟩)))
          = ({ s with capture := { s.capture with bufFull := false } },
            [.appendHeader s.capture.curBuf s.capture.buffersToIgnore s.capture.samplesPerBuffer],
            []) := by
        simp only [sendExec, ne_eq, hspb, not_false_eq_true, if_true]
      have hflags : (capturePacket ⟨s.capture, s.count⟩).flags
          = captureFlags s.capture.buffersToIgnore := UInt8.and_neg_one
      have happend : sendExec { s with capture := { s.capture with bufFull := false } }
          (.appendHeader s.capture.curBuf s.capture.buffersToIgnore s.capture.samplesPerBuffer)
          = (t, [.getsize s.capture.curBuf],
            [.header s.count (capturePacket ⟨s.capture, s.count⟩).flags]) := by
        rw [hflags, ht]
        rfl
      rw [run_quiet hreturn (rs.length + 3), run_next, happend]
      show ((sendProgram.run ⟨t, [_]⟩ (List.replicate (rs.length + 1 + 1) .next)).1,
        [_] ++ (sendProgram.run ⟨t, [_]⟩ (List.replicate (rs.length + 1 + 1) .next)).2) = _
      have hsize : sendExec t (.getsize s.capture.curBuf) = (t, [.send s.capture.curBuf 0
          (netprotHeaderGetsize (t.capture.mem s.capture.curBuf)).toInt], []) := rfl
      rw [run_quiet hsize (rs.length + 1), hrun, SendCapture.events, hpacket, hsender, hcalls, hpkt,
        ht]
      rfl

/-! ## Where the stream stands -/

/-- The interrupt writes no header. -/
theorem captureIsr_header (s : Capture) (x : UInt16) (b : BufId) :
    ((captureIsr s x).mem b).header = (s.mem b).header := by
  rw [captureIsr_mem]
  dsimp only
  split <;> rfl

/-- The bytes behind the first `sent` of a structure, while its header is in `header.take sent`
and `pay` is what has been sent of the samples. -/
theorem Netstruct.take_append_slice (p : Netstruct) {sent : Nat} (n : Nat) {pay : List UInt8}
    (hpay : pay.length = sent - 28) :
    ∃ pay', pay'.length = sent + n - 28 ∧
      p.header.take sent ++ pay ++ p.slice sent n = p.header.take (sent + n) ++ pay' := by
  have hlen := p.length_header
  have hslice : p.slice sent n = (p.header.drop sent).take n
      ++ ((p.payload (sent + n)).drop (sent - 28)).take (n - (28 - sent)) := by
    rw [slice, bytes, List.drop_append, List.take_append, List.length_drop, hlen]
  have hmore : (((p.payload (sent + n)).drop (sent - 28)).take (n - (28 - sent))).length
      = min (n - (28 - sent)) (sent + n - (sent - 28)) := by
    rw [List.length_take, List.length_drop, length_payload]
  refine ⟨pay ++ ((p.payload (sent + n)).drop (sent - 28)).take (n - (28 - sent)), ?_, ?_⟩
  · rw [List.length_append, hmore]
    omega
  · rw [hslice, List.take_add]
    rcases Nat.le_total sent 28 with hle | hge
    · -- still in the header, so nothing of the samples has been sent
      have hnil : pay = [] := List.eq_nil_of_length_eq_zero (by omega)
      subst hnil
      rw [List.append_nil, List.nil_append, List.append_assoc]
    · have hdrop : p.header.drop sent = [] := List.drop_of_length_le (by omega)
      rw [hdrop, List.take_nil, List.append_nil, List.nil_append, List.append_assoc]

/-- How far a call has come with its packet: the statements it still has to execute, the
header that is in a buffer but not yet sent, and the bytes of it that are. -/
inductive Sending (n : Int32) (mem : BufId → Netstruct) :
    List SendStmt → List (Int32 × UInt8) → List UInt8 → Prop
  | idle : Sending n mem [] [] []
  | reading (stmt : ReaderStmt) : Sending n mem [.reader stmt] [] []
  | appending (buf : BufId) (ignoreData : Int32) :
    Sending n mem [.appendHeader buf ignoreData n] [] []
  | sizing {buf : BufId} {count : Int32} {flags : UInt8}
    (hheader : HeaderFor count (announced n) flags (mem buf).header) :
    Sending n mem [.getsize buf] [(count, flags)] []
  | part {buf : BufId} {count : Int32} {flags : UInt8} {sent : Nat} {tosend : Int}
    {pay : List UInt8} (hheader : HeaderFor count (announced n) flags (mem buf).header)
    (hsum : sent + tosend = 28 + 2 * n.toInt) (hleft : 0 < tosend)
    (hpay : pay.length = sent - 28) :
    Sending n mem [.send buf sent tosend] [(count, flags)] ((mem buf).header.take sent ++ pay)
  | whole (buf : BufId) (sent : Nat) {tosend : Int} (hdone : tosend ≤ 0) :
    Sending n mem [.send buf sent tosend] [] []

/-- Only the headers of the buffers matter. -/
theorem Sending.of_headers {n : Int32} {mem mem' : BufId → Netstruct} {todo : List SendStmt}
    {pending : List (Int32 × UInt8)} {tail : List UInt8}
    (hmem : ∀ b, (mem' b).header = (mem b).header) (h : Sending n mem todo pending tail) :
    Sending n mem' todo pending tail := by
  cases h with
  | idle => exact .idle
  | reading stmt => exact .reading stmt
  | appending buf ignoreData => exact .appending buf ignoreData
  | sizing hheader => exact .sizing (by rw [hmem]; exact hheader)
  | @part buf count flags sent tosend pay hheader hsum hleft hpay =>
    rw [← hmem buf] at hheader ⊢
    exact .part hheader hsum hleft hpay
  | whole buf sent hdone => exact .whole buf sent hdone

/-- A packet in progress ends the stream inside a packet. -/
theorem Sending.endsInside {n : Int32} {mem : BufId → Netstruct} {todo : List SendStmt}
    {pending : List (Int32 × UInt8)} {tail : List UInt8} (hn : 0 ≤ n.toInt)
    (hfits : n.toInt ≤ 986) (h : Sending n mem todo pending tail) : EndsInside IsPacket tail := by
  cases h with
  | idle => exact Or.inl rfl
  | reading stmt => exact Or.inl rfl
  | appending buf ignoreData => exact Or.inl rfl
  | sizing hheader => exact Or.inl rfl
  | whole buf sent hdone => exact Or.inl rfl
  | @part buf count flags sent tosend pay hheader hsum hleft hpay =>
    have hlen := hheader.length
    have hsize := announced_toInt hn hfits
    -- any bytes complete it
    obtain ⟨payload, hpayload⟩ : ∃ payload, payload = pay
        ++ List.replicate (2 * n.toInt.toNat - pay.length) (0 : UInt8) := ⟨_, rfl⟩
    have hplen : payload.length = 2 * n.toInt.toNat := by
      rw [hpayload, List.length_append, List.length_replicate]
      omega
    refine Or.inr ⟨⟨count, flags, payload⟩, (mem buf).header ++ payload,
      ⟨(mem buf).header, announced n, hheader, rfl, ?_, ?_⟩, ?_, ?_⟩
    · show (announced n).toInt = payload.length
      omega
    · show payload.length ≤ 2147483619
      omega
    · rcases Nat.le_total sent 28 with hle | hge
      · have hnil : pay = [] := List.eq_nil_of_length_eq_zero (by omega)
        rw [hnil, List.append_nil]
        exact (List.take_prefix _ _).trans (List.prefix_append _ _)
      · rw [List.take_of_length_le (by omega), hpayload, ← List.append_assoc]
        exact List.prefix_append _ _
    · rw [List.length_append, List.length_append, List.length_take]
      omega

/-! ## The invariant -/

/-- What the header of a packet says. -/
def Packet.label (a : Packet) : Int32 × UInt8 := (a.count, a.flags)

/-- The counts from `count` on. -/
def countsFrom (count : Int32) (m : Nat) : List Int32 :=
  (List.range m).map fun i => count + Int32.ofNat i

/-- The stream so far is packets with `2n` bytes of samples each, one for each header that
has been put into a buffer, and the part of the last one that has been sent. -/
structure StreamInv (n count₀ : Int32) (events : List WireEvent)
    (m : Frame SendState SendStmt) : Prop where
  spb : m.state.capture.samplesPerBuffer = n
  next : m.state.count = count₀ + Int32.ofNat (headersOf events).length
  counts : (headersOf events).map Prod.fst = countsFrom count₀ (headersOf events).length
  stream : ∃ as ws pending tail, List.Forall₂ IsPacket as ws ∧
    (∀ a ∈ as, (a.payload.length : Int) = 2 * n.toInt) ∧
    streamOf events = ws.flatten ++ tail ∧ headersOf events = as.map Packet.label ++ pending ∧
    Sending n m.state.capture.mem m.todo pending tail

theorem streamOf_append (events more : List WireEvent) :
    streamOf (events ++ more) = streamOf events ++ streamOf more := List.flatMap_append ..

theorem headersOf_append (events more : List WireEvent) :
    headersOf (events ++ more) = headersOf events ++ headersOf more := List.flatMap_append ..

theorem countsFrom_succ (count : Int32) (m : Nat) :
    countsFrom count (m + 1) = countsFrom count m ++ [count + Int32.ofNat m] := by
  simp only [countsFrom, List.range_succ, List.map_append, List.map_cons, List.map_nil]

theorem sendStart_streamInv (mem : BufId → Netstruct) (n k count : Int32) (accepts : Nat → Nat) :
    StreamInv n count [] ⟨sendStart mem n k count accepts, []⟩ := by
  refine ⟨rfl, ?_, rfl, [], [], [], [], .nil, nofun, rfl, rfl, .idle⟩
  exact (Int32.add_zero count).symm

/-- Statements before the header is put in leave the stream and the globals it hangs on. -/
theorem StreamInv.quiet {n count₀ : Int32} {events : List WireEvent} {s s' : SendState}
    {todo todo' : List SendStmt} (h : StreamInv n count₀ events ⟨s, todo⟩)
    (hspb : s'.capture.samplesPerBuffer = s.capture.samplesPerBuffer) (hcount : s'.count = s.count)
    (hsending : ∀ pending tail, Sending n s.capture.mem todo pending tail →
      Sending n s'.capture.mem todo' pending tail) :
    StreamInv n count₀ (events ++ []) ⟨s', todo'⟩ := by
  rw [List.append_nil]
  obtain ⟨as, ws, pending, tail, hframes, hsizes, hstream, hheaders, hat⟩ := h.stream
  refine ⟨hspb.trans h.spb, hcount.trans h.next, h.counts, as, ws, pending, tail, hframes, hsizes,
    hstream, hheaders, hsending pending tail hat⟩

/-- A read that is in progress goes on with itself. -/
theorem readerExec_todo (s : Capture) (stmt : ReaderStmt) :
    (readerExec s stmt).2.1 = [] ∨ ∃ stmt', (readerExec s stmt).2.1 = [stmt'] := by
  cases stmt with
  | testBufFull =>
    right
    simp only [readerExec]
    split <;> exact ⟨_, rfl⟩
  | storeBuf => exact Or.inr ⟨_, rfl⟩
  | lowerBufFull buf => exact Or.inr ⟨_, rfl⟩
  | storeIgnore buf => exact Or.inr ⟨_, rfl⟩
  | returnRead out => cases out <;> exact Or.inl rfl
  | setEmpty => exact Or.inl rfl

theorem readerExec_globals (s : Capture) (stmt : ReaderStmt) :
    (readerExec s stmt).1.samplesPerBuffer = s.samplesPerBuffer ∧
    (readerExec s stmt).1.mem = s.mem := by
  cases stmt with
  | returnRead out => cases out <;> exact ⟨rfl, rfl⟩
  | testBufFull => exact ⟨rfl, rfl⟩
  | storeBuf => exact ⟨rfl, rfl⟩
  | lowerBufFull buf => exact ⟨rfl, rfl⟩
  | storeIgnore buf => exact ⟨rfl, rfl⟩
  | setEmpty => exact ⟨rfl, rfl⟩

/-- The statements of `capture_read`. -/
theorem reader_streamInv {n count₀ : Int32} {events : List WireEvent} {s : SendState}
    (stmt : ReaderStmt) (h : StreamInv n count₀ events ⟨s, [.reader stmt]⟩) :
    StreamInv n count₀ (events ++ (sendExec s (.reader stmt)).2.2)
      ⟨(sendExec s (.reader stmt)).1, (sendExec s (.reader stmt)).2.1⟩ := by
  have hread : ∀ r : Capture × List ReaderStmt × List CaptureEvent,
      r = readerExec s.capture stmt →
      StreamInv n count₀ (events ++ []) ⟨{ s with capture := r.1 }, r.2.1.map .reader⟩ := by
    rintro r rfl
    obtain ⟨hspb, hmem⟩ := readerExec_globals s.capture stmt
    refine h.quiet hspb rfl fun pending tail hat => ?_
    cases hat with
    | reading =>
      rcases readerExec_todo s.capture stmt with hnil | ⟨stmt', hone⟩
      · rw [hnil]
        exact .idle
      · rw [hone]
        exact .reading stmt'
  cases stmt with
  | returnRead out =>
    cases out with
    | none =>
      refine h.quiet rfl rfl fun pending tail hat => ?_
      cases hat with
      | reading => exact .idle
    | some out =>
      refine h.quiet rfl rfl fun pending tail hat => ?_
      cases hat with
      | reading =>
        have hspb : s.capture.samplesPerBuffer = n := h.spb
        show Sending n s.capture.mem (if s.capture.samplesPerBuffer ≠ 0 then _ else _) [] []
        rw [hspb]
        split
        · exact .appending out.buf out.ignoreBuffer
        · exact .idle
  | testBufFull => exact hread _ rfl
  | storeBuf => exact hread _ rfl
  | lowerBufFull buf => exact hread _ rfl
  | storeIgnore buf => exact hread _ rfl
  | setEmpty => exact hread _ rfl

/-- A header goes into a buffer. -/
theorem appendHeader_streamInv {n count₀ : Int32} {events : List WireEvent} {s : SendState}
    {buf : BufId} {ignoreData nsamples : Int32}
    (h : StreamInv n count₀ events ⟨s, [.appendHeader buf ignoreData nsamples]⟩) :
    StreamInv n count₀ (events ++ (sendExec s (.appendHeader buf ignoreData nsamples)).2.2)
      ⟨(sendExec s (.appendHeader buf ignoreData nsamples)).1,
        (sendExec s (.appendHeader buf ignoreData nsamples)).2.1⟩ := by
  obtain ⟨as, ws, pending, tail, hframes, hsizes, hstream, hheaders, hat⟩ := h.stream
  have hnext : s.count = count₀ + Int32.ofNat (headersOf events).length := h.next
  have hmore : headersOf (events ++ [.header s.count (captureFlags ignoreData)])
      = headersOf events ++ [(s.count, captureFlags ignoreData)] := headersOf_append _ _
  show StreamInv n count₀ (events ++ [.header s.count (captureFlags ignoreData)]) _
  refine ⟨h.spb, ?_, ?_, as, ws, [(s.count, captureFlags ignoreData)], [], hframes, hsizes, ?_,
    ?_, ?_⟩
  · show s.count + 1 = _
    rw [hmore, List.length_append, List.length_singleton, hnext, Int32.ofNat_add, Int32.add_assoc]
    rfl
  · rw [hmore, List.map_append, List.length_append, List.length_singleton, countsFrom_succ,
      h.counts,
      ← hnext]
    rfl
  · cases hat with
    | appending =>
      rw [streamOf_append, hstream]
      exact List.append_nil _
  · cases hat with
    | appending =>
      rw [hmore, hheaders, List.append_nil]
  · cases hat with
    | appending =>
      refine .sizing ⟨s.capture.mem buf, ?_⟩
      show Netstruct.header (if buf = buf then _ else _) = _
      rw [if_pos rfl]
      rfl

/-- `netprot_header_getsize` of a buffer with a header for `datasize` bytes. -/
theorem netprotHeaderGetsize_of_header {p : Netstruct} {count datasize : Int32} {flags : UInt8}
    (h : HeaderFor count datasize flags p.header) (hsize : 0 ≤ datasize.toInt)
    (hfit : datasize.toInt ≤ 2147483619) :
    (netprotHeaderGetsize p).toInt = 28 + datasize.toInt := by
  -- the size field is what the decoder would find, so it is that of an appended header
  obtain ⟨-, -, -, -, -, ⟨_, hfield⟩⟩ := p.bytes_drop_offsets 0 []
  rw [Netstruct.bytes, show Netstruct.payload _ 0 = [] from rfl, List.append_nil] at hfield
  obtain ⟨-, -, hdatasize⟩ := extract_header h []
  rw [extractUint32_of_drop hfield] at hdatasize
  have hword : fnetNtohl p.size = datasize.toUInt32 := by
    rw [← hdatasize]
    exact (UInt32.toUInt32_toInt32 _).symm
  have happend := netprotHeaderGetsize_append p count 0 flags hsize hfit
  have hword' : fnetNtohl (netprotHeaderAppend p count datasize 0 flags).size = datasize.toUInt32 :=
    fnetNtohl_fnetHtonl _
  rw [netprotHeaderGetsize, hword'] at happend
  rw [netprotHeaderGetsize, hword, happend]

/-- The size of the packet is read back from its header. -/
theorem getsize_streamInv {n count₀ : Int32} {events : List WireEvent} {s : SendState} {buf : BufId}
    (hn : 0 ≤ n.toInt) (hfits : n.toInt ≤ 986)
    (h : StreamInv n count₀ events ⟨s, [.getsize buf]⟩) :
    StreamInv n count₀ (events ++ (sendExec s (.getsize buf)).2.2)
      ⟨(sendExec s (.getsize buf)).1, (sendExec s (.getsize buf)).2.1⟩ := by
  refine h.quiet rfl rfl fun pending tail hat => ?_
  cases hat with
  | @sizing _ count flags hheader =>
    have hsize := announced_toInt hn hfits
    have htotal := netprotHeaderGetsize_of_header hheader (by omega) (by omega)
    have hpart : Sending n s.capture.mem
        [.send buf 0 (netprotHeaderGetsize (s.capture.mem buf)).toInt] [(count, flags)]
        ((s.capture.mem buf).header.take 0 ++ []) :=
      .part hheader (by omega) (by omega) rfl
    rw [List.take_zero, List.append_nil] at hpart
    exact hpart

/-- One `send()`: it takes all that is left and ends the packet, or it is the first that
takes a part. -/
theorem send_streamInv {n count₀ : Int32} {events : List WireEvent} {s : SendState} {buf : BufId}
    {sent : Nat} {tosend : Int} (hn : 0 ≤ n.toInt) (hfits : n.toInt ≤ 986)
    (h : StreamInv n count₀ events ⟨s, [.send buf sent tosend]⟩)
    (hrest : TakesTheRest ⟨s, [.send buf sent tosend]⟩) :
    StreamInv n count₀ (events ++ (sendExec s (.send buf sent tosend)).2.2)
      ⟨(sendExec s (.send buf sent tosend)).1, (sendExec s (.send buf sent tosend)).2.1⟩ := by
  obtain ⟨as, ws, pending, tail, hframes, hsizes, hstream, hheaders, hat⟩ := h.stream
  have hsize := announced_toInt hn hfits
  cases hat with
  | whole _ _ hdone =>
    have hexec : sendExec s (.send buf sent tosend) = (s, [], []) := if_pos hdone
    rw [hexec]
    refine h.quiet rfl rfl fun pending tail hat => ?_
    cases hat with
    | whole => exact .idle
    | part _ _ hleft _ => omega
  | @part _ count flags _ _ pay hheader hsum hleft hpay =>
    obtain ⟨k, hk⟩ : ∃ k, k = min (s.accepts 0) tosend.toNat := ⟨_, rfl⟩
    have hexec : sendExec s (.send buf sent tosend)
        = ({ s with accepts := fun i => s.accepts (i + 1) },
          [.send buf (sent + k) (tosend - (sent + k : Nat))],
          [.taken ((s.capture.mem buf).slice sent k)]) := by
      rw [hk]
      exact if_neg (by omega)
    rw [hexec]
    obtain ⟨pay', hpay', htail⟩ := (s.capture.mem buf).take_append_slice k hpay
    have hmore : streamOf (events ++ [.taken ((s.capture.mem buf).slice sent k)])
        = ws.flatten ++ ((s.capture.mem buf).header.take (sent + k) ++ pay') := by
      rw [streamOf_append, hstream, List.append_assoc, ← htail]
      simp only [streamOf, List.flatMap_cons, List.flatMap_nil, List.append_nil]
    have hsame : headersOf (events ++ [.taken ((s.capture.mem buf).slice sent k)])
        = headersOf events := by
      rw [headersOf_append]
      exact List.append_nil _
    have hrest : 0 < sent → 0 < tosend → tosend ≤ s.accepts 0 := hrest
    rcases Nat.lt_or_ge k tosend.toNat with hpartial | hall
    · -- only the first send may take a part
      have hzero : sent = 0 := by omega
      subst hzero
      refine ⟨h.spb, ?_, ?_, as, ws, [(count, flags)], _, hframes, hsizes, hmore, ?_,
        .part hheader (by omega) (by omega) hpay'⟩
      · rw [hsame]
        exact h.next
      · rw [hsame]
        exact h.counts
      · rw [hsame]
        exact hheaders
    · have hlen : (s.capture.mem buf).header.length = 28 := hheader.length
      have hframe : IsPacket ⟨count, flags, pay'⟩ ((s.capture.mem buf).header ++ pay') := by
        refine ⟨_, announced n, hheader, rfl, ?_, ?_⟩
        · show (announced n).toInt = pay'.length
          omega
        · show pay'.length ≤ 2147483619
          omega
      have hframes' := List.rel_append hframes (List.Forall₂.cons hframe .nil)
      have hdone : tosend - (sent + k : Nat) ≤ 0 := by omega
      refine ⟨h.spb, ?_, ?_, as ++ [⟨count, flags, pay'⟩],
        ws ++ [(s.capture.mem buf).header ++ pay'], [], [], hframes', ?_, ?_, ?_,
          .whole buf _ hdone⟩
      · rw [hsame]
        exact h.next
      · rw [hsame]
        exact h.counts
      · intro a ha
        rcases List.mem_append.mp ha with hold | hnew
        · exact hsizes a hold
        · obtain rfl := List.mem_singleton.mp hnew
          show (pay'.length : Int) = 2 * n.toInt
          omega
      · rw [hmore, List.take_of_length_le (by omega)]
        simp only [List.flatten_append, List.flatten_cons, List.flatten_nil, List.append_nil]
      · rw [hsame, hheaders, List.map_append, List.append_nil]
        rfl

/-- A firing of the interrupt. -/
theorem captureIsr_streamInv {n count₀ : Int32} {events : List WireEvent} {s : SendState}
    {todo : List SendStmt} (h : StreamInv n count₀ events ⟨s, todo⟩) (x : UInt16) :
    StreamInv n count₀ (events ++ []) ⟨{ s with capture := captureIsr s.capture x }, todo⟩ :=
  h.quiet (captureIsr_samplesPerBuffer s.capture x) rfl fun _ _ hat =>
    hat.of_headers (captureIsr_header s.capture x)

/-- A call in progress has one statement to execute next. -/
theorem Sending.todo_eq {n : Int32} {mem : BufId → Netstruct} {k : SendStmt} {ks : List SendStmt}
    {pending : List (Int32 × UInt8)} {tail : List UInt8}
    (h : Sending n mem (k :: ks) pending tail) :
    ks = [] := by
  cases h <;> rfl

/-- One statement keeps the stream in step. -/
theorem sendExec_streamInv {n count₀ : Int32} (hn : 0 ≤ n.toInt) (hfits : n.toInt ≤ 986)
    {events : List WireEvent} {s : SendState} {k : SendStmt} {ks : List SendStmt}
    (h : StreamInv n count₀ events ⟨s, k :: ks⟩) (hrest : TakesTheRest ⟨s, k :: ks⟩) :
    StreamInv n count₀ (events ++ (sendExec s k).2.2)
    ⟨(sendExec s k).1, (sendExec s k).2.1 ++ ks⟩ := by
  obtain ⟨as, ws, pending, tail, hframes, hsizes, hstream, hheaders, hat⟩ := h.stream
  have hks : ks = [] := hat.todo_eq
  subst hks
  rw [List.append_nil]
  cases k with
  | reader stmt => exact reader_streamInv stmt h
  | appendHeader buf ignoreData nsamples =>
    cases hat with
    | appending => exact appendHeader_streamInv h
  | getsize buf => exact getsize_streamInv hn hfits h
  | send buf sent tosend => exact send_streamInv hn hfits h hrest

/-- What is pending of a packet is less than a packet, and nothing between the calls. -/
theorem Sending.bounds {n : Int32} {mem : BufId → Netstruct} {todo : List SendStmt}
    {pending : List (Int32 × UInt8)} {tail : List UInt8} (hn : 0 ≤ n.toInt)
    (h : Sending n mem todo pending tail) :
    pending.length ≤ 1 ∧ (todo = [] → pending = []) ∧ (tail.length : Int) < 28 + 2 * n.toInt ∧
      (todo = [] → tail = []) := by
  cases h with
  | idle => exact ⟨Nat.zero_le 1, fun _ => rfl, by simp; omega, fun _ => rfl⟩
  | reading stmt => exact ⟨Nat.zero_le 1, nofun, by simp; omega, nofun⟩
  | appending buf ignoreData => exact ⟨Nat.zero_le 1, nofun, by simp; omega, nofun⟩
  | sizing hheader => exact ⟨Nat.le_refl 1, nofun, by simp; omega, nofun⟩
  | whole buf sent hdone => exact ⟨Nat.zero_le 1, nofun, by simp; omega, nofun⟩
  | part hheader hsum hleft hpay =>
    refine ⟨Nat.le_refl 1, nofun, ?_, nofun⟩
    rw [List.length_append, List.length_take, hheader.length]
    omega

/-- What the other end finds in the stream: packets numbered from `count₀` on with `2n` bytes
of samples each, whose counts and flags are those of the headers, the last header aside
while its packet is being sent; and no more than a part of that packet behind them. -/
structure InStep (n count₀ : Int32) (events : List WireEvent) (todo : List SendStmt) : Prop where
  counts : (readPackets (streamOf events)).1.map Packet.count
    = countsFrom count₀ (readPackets (streamOf events)).1.length
  sizes : ∀ a ∈ (readPackets (streamOf events)).1, (a.payload.length : Int) = 2 * n.toInt
  labels : ∃ pending,
    headersOf events = (readPackets (streamOf events)).1.map Packet.label ++ pending
    ∧ pending.length ≤ 1 ∧ (todo = [] → pending = [])
  rest : (readPackets (streamOf events)).2.length < 28 + 2 * n.toInt
  idle : todo = [] → (readPackets (streamOf events)).2 = []

/-- **The stream stays in step in every interleaving.** After `capture_setup(n, k)`, however
the trigger interrupt fires between the statements of the `netprot_send_capture` calls and
whatever `send()` takes of a first offer, the other end finds every packet where it was put. -/
theorem stream_framed (mem : BufId → Netstruct) (n k count : Int32) (hn : 1 ≤ n)
    (hfits : n.toInt ≤ 986) (accepts : Nat → Nat) (moves : List (Lib.Move Unit UInt16))
    (hrest : sendProgram.Guarded TakesTheRest ⟨sendStart mem n k count accepts, []⟩ moves) :
    let r := sendProgram.run ⟨sendStart mem n k count accepts, []⟩ moves
    InStep n count r.2 r.1.todo := by
  intro r
  have hpos : (1 : Int) ≤ n.toInt := Int32.le_iff_toInt_le.mp hn
  have hinv : StreamInv n count r.2 r.1 := by
    refine Interruptible.run_history (StreamInv n count) (sendStart_streamInv mem n k count accepts)
      ?_ ?_ ?_ moves hrest
    · intro events s c h
      have hcall : StreamInv n count (events ++ []) ⟨s, sendProgram.body c⟩ :=
        h.quiet rfl rfl fun pending tail hat => by
          cases hat with
          | idle => exact .reading .testBufFull
      rw [List.append_nil] at hcall
      exact hcall
    · intro events s stmt stmts h hG
      exact sendExec_streamInv (by omega) hfits h hG
    · intro events s stmts x h
      exact captureIsr_streamInv h x
  obtain ⟨as, ws, pending, tail, hframes, hsizes, hstream, hheaders, hat⟩ := hinv.stream
  have hread : readPackets (streamOf r.2) = (as, tail) := by
    rw [hstream]
    exact readPackets_of_packets hframes (hat.endsInside (by omega) hfits)
  have hpending : pending.length ≤ 1 ∧ (r.1.todo = [] → pending = []) ∧
      tail.length < 28 + 2 * n.toInt ∧ (r.1.todo = [] → tail = []) :=
    hat.bounds (by omega)
  obtain ⟨hone, hidle, htail, htailIdle⟩ := hpending
  -- the counts of the packets are the first of those of the headers
  have hcounts : as.map Packet.count = countsFrom count as.length := by
    have hall := hinv.counts
    rw [hheaders, List.map_append, List.map_map, List.length_append, List.length_map] at hall
    have htake := congrArg (List.take as.length) hall
    rw [List.take_left' (by rw [List.length_map])] at htake
    rw [show as.map Packet.count = as.map (Prod.fst ∘ Packet.label) from rfl, htake, countsFrom,
      countsFrom, ← List.map_take, List.take_range, Nat.min_eq_left (Nat.le_add_right _ _)]
  refine ⟨?_, ?_, ⟨pending, ?_, hone, hidle⟩, ?_, ?_⟩
  · rw [hread]
    exact hcounts
  · rw [hread]
    exact hsizes
  · rw [hread]
    exact hheaders
  · rw [hread]
    exact htail
  · rw [hread]
    exact htailIdle

/-- Two samples a buffer; the sends take 20 of the 32 bytes and then the rest, and the
interrupt fires in front of each of them. -/
def interruptedSend : List (Lib.Move Unit UInt16) :=
  [.fire 7, .fire 8, .call (), .next, .next, .next, .next, .next, .next, .fire 9, .next, .next,
    .fire 10, .next, .next]

theorem stream_framed_interrupted :
    let r := sendProgram.run
      ⟨sendStart (fun _ => .zero) 2 0 5 (fun i => if i = 0 then 20 else 100), []⟩ interruptedSend
    InStep 2 5 r.2 r.1.todo :=
  stream_framed (fun _ => .zero) 2 0 5 (by decide) (by decide) _ interruptedSend (by decide)

end Datalogger
