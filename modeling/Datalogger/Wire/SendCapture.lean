import Datalogger.Capture.Buffers
import Datalogger.Wire.SendLoop

/-!
# `netprot_send_capture` between the interrupts

The main loop calls `netprot_send_capture` between the trigger interrupts. It takes
the full buffer, if there is one, stamps a header with the running packet number
and the `DATA_INVALID` flag on it and sends it. This file models the call, the runs
of interrupts and calls after a START (`sessionStep`), and what one event does; the
laws of the packets are in `Packets.lean`.
-/

namespace Datalogger

open Lib (run)

/-- The globals `netprot_send_capture` works on: `capture.c`'s and its own
`static int count`. -/
structure Sender where
  capture : Capture
  count : Int32

/-- What one call of `netprot_send_capture` does. `packet` is the buffer handed to
`send`, once its header is in. -/
structure SendCapture where
  sender : Sender
  packet : Option Netstruct
  calls : List SendCall
  exit : LoopExit

/-- `netprot_send_capture` against the results of its `send()` calls. -/
def netprotSendCapture (s : Sender) (results : List SendResult) : SendCapture :=
  let nsamples := (captureRead s.capture).ret
  let state := (captureRead s.capture).state
  match (captureRead s.capture).out with
  | some out =>
    if nsamples ≠ 0 then
      let flags := if out.ignoreBuffer ≠ 0 then (0 : UInt8) ||| dataInvalid else 0
      let packet := netprotHeaderAppend (state.mem out.buf) s.count
        (nsamples.toUInt32 * 2).toInt32 0 flags
      let loop := sendLoop 0 (netprotHeaderGetsize packet).toInt results
      { sender :=
          { capture := { state with mem := fun b => if b = out.buf then packet else state.mem b }
            count := s.count + 1 }
        packet := some packet
        calls := loop.1
        exit := loop.2 }
    else { sender := { s with capture := state }, packet := none, calls := [], exit := .done 0 }
  | none => { sender := { s with capture := state }, packet := none, calls := [], exit := .done 0 }

/-! ## Sessions -/

/-- One event of a session. A send error ends the session, so the sends of a call
within one are answered with counts only. -/
inductive SessionOp where
  | isr (sample : UInt16)
  | sendCapture (accepted : List Nat)
  deriving DecidableEq, Repr

/-- One event; a call that finds a full buffer emits its packet. -/
def sessionStep (s : Sender) : SessionOp → Sender × List Netstruct
  | .isr x => ({ s with capture := captureIsr s.capture x }, [])
  | .sendCapture accepted =>
    let r := netprotSendCapture s (accepted.map SendResult.accepted)
    (r.sender, r.packet.toList)

/-- The state right after `capture_setup(n, k)`, with `count` where earlier sessions
left it. -/
def sessionStart (mem : BufId → Netstruct) (n k count : Int32) : Sender :=
  { capture := captureSetup mem n k, count := count }

/-- The state after the events `ops`. -/
def afterEvents (s : Sender) (ops : List SessionOp) : Sender := (run sessionStep s ops).1

/-- The packets of the events `ops`, in order. -/
def packets (s : Sender) (ops : List SessionOp) : List Netstruct := (run sessionStep s ops).2

/-- The packet carries `DATA_INVALID`. -/
def Netstruct.Invalid (p : Netstruct) : Prop := p.flags &&& dataInvalid ≠ 0

instance (p : Netstruct) : Decidable p.Invalid := inferInstanceAs (Decidable (_ ≠ _))

/-! ## What one event does -/

/-- The header of the packet a session sends for a full buffer. -/
def capturePacket (s : Sender) : Netstruct :=
  netprotHeaderAppend (s.capture.mem s.capture.curBuf) s.count
    (s.capture.samplesPerBuffer.toUInt32 * 2).toInt32 0
    (if s.capture.buffersToIgnore ≠ 0 then (0 : UInt8) ||| dataInvalid else 0)

/-- A call that finds a full buffer sends one packet, clears the flag and counts. -/
theorem netprotSendCapture_full {s : Sender} (hfull : s.capture.bufFull = true)
    (hspb : s.capture.samplesPerBuffer ≠ 0) (results : List SendResult) :
    (netprotSendCapture s results).packet = some (capturePacket s) ∧
    (netprotSendCapture s results).sender =
      { capture := { s.capture with
          bufFull := false
          mem := fun b => if b = s.capture.curBuf then capturePacket s else s.capture.mem b }
        count := s.count + 1 } := by
  unfold netprotSendCapture
  rw [captureRead_full hfull]
  dsimp only
  rw [if_pos hspb]
  exact ⟨rfl, rfl⟩

/-- A call that finds no full buffer sends nothing and changes nothing. -/
theorem netprotSendCapture_empty {s : Sender} (hfull : s.capture.bufFull = false)
    (results : List SendResult) :
    (netprotSendCapture s results).packet = none ∧
    (netprotSendCapture s results).sender = s := by
  unfold netprotSendCapture
  rw [captureRead_empty hfull]
  exact ⟨rfl, rfl⟩

/-- A full buffer without samples is taken, and not sent. -/
theorem netprotSendCapture_noSamples {s : Sender} (hfull : s.capture.bufFull = true)
    (hspb : s.capture.samplesPerBuffer = 0) (results : List SendResult) :
    (netprotSendCapture s results).packet = none ∧
    (netprotSendCapture s results).sender
      = { s with capture := { s.capture with bufFull := false } } := by
  unfold netprotSendCapture
  rw [captureRead_full hfull]
  dsimp only
  rw [if_neg (not_not_intro hspb)]
  exact ⟨rfl, rfl⟩

/-- Behind a call no buffer is waiting, and what it sent is the one that was. -/
theorem netprotSendCapture_waiting (s : Sender) (results : List SendResult) :
    (netprotSendCapture s results).sender.capture.bufFull = false ∧
    ∀ p, (netprotSendCapture s results).packet = some p →
      s.capture.bufFull = true ∧ p = capturePacket s := by
  cases hfull : s.capture.bufFull with
  | false =>
    obtain ⟨hpacket, hsender⟩ := netprotSendCapture_empty hfull results
    rw [hpacket, hsender]
    exact ⟨hfull, nofun⟩
  | true =>
    by_cases hspb : s.capture.samplesPerBuffer = 0
    · obtain ⟨hpacket, hsender⟩ := netprotSendCapture_noSamples hfull hspb results
      rw [hpacket, hsender]
      exact ⟨rfl, nofun⟩
    · obtain ⟨hpacket, hsender⟩ := netprotSendCapture_full hfull hspb results
      rw [hpacket, hsender]
      exact ⟨rfl, fun p hp => ⟨rfl, (Option.some.inj hp).symm⟩⟩

/-- The state behind a packet: the flag is cleared, the header is in the buffer and the
next number is up. -/
def Sender.behindPacket (s : Sender) : Sender :=
  { capture := { s.capture with
      bufFull := false
      mem := fun b => if b = s.capture.curBuf then capturePacket s else s.capture.mem b }
    count := s.count + 1 }

theorem sessionStep_full {s : Sender} (hfull : s.capture.bufFull = true)
    (hspb : s.capture.samplesPerBuffer ≠ 0) (accepted : List Nat) :
    sessionStep s (.sendCapture accepted) = (s.behindPacket, [capturePacket s]) := by
  obtain ⟨hpacket, hsender⟩ := netprotSendCapture_full hfull hspb (accepted.map .accepted)
  simp only [sessionStep, hpacket, hsender]
  rfl

theorem sessionStep_empty {s : Sender} (hfull : s.capture.bufFull = false) (accepted : List Nat) :
    sessionStep s (.sendCapture accepted) = (s, []) := by
  obtain ⟨hpacket, hsender⟩ := netprotSendCapture_empty hfull (accepted.map .accepted)
  simp only [sessionStep, hpacket, hsender]
  rfl

theorem capturePacket_invalid (s : Sender) :
    (capturePacket s).Invalid ↔ s.capture.buffersToIgnore ≠ 0 := by
  unfold Netstruct.Invalid capturePacket netprotHeaderAppend
  by_cases h : s.capture.buffersToIgnore = 0
  · simp [h]
  · simp only [ne_eq, h, not_false_eq_true, if_true, iff_true]
    decide

theorem capturePacket_count (s : Sender) :
    fnetNtohl (capturePacket s).count = s.count.toUInt32 :=
  fnetNtohl_fnetHtonl _

/-- Events keep `samples_per_buffer`. -/
theorem sessionStep_samplesPerBuffer (s : Sender) (a : SessionOp)
    (hspb : s.capture.samplesPerBuffer ≠ 0) :
    (sessionStep s a).1.capture.samplesPerBuffer = s.capture.samplesPerBuffer := by
  cases a with
  | isr x => exact captureIsr_samplesPerBuffer s.capture x
  | sendCapture accepted =>
    cases hfull : s.capture.bufFull with
    | false => rw [sessionStep_empty hfull]
    | true =>
      rw [sessionStep_full hfull hspb]
      rfl

/-- The interrupt counts the ignored buffers down when it completes one. -/
theorem captureIsr_buffersToIgnore (s : Capture) (x : UInt16) :
    (captureIsr s x).buffersToIgnore
      = if s.Completes ∧ s.buffersToIgnore ≠ 0 then s.buffersToIgnore - 1
        else s.buffersToIgnore := by
  by_cases hc : s.Completes
  · rw [captureIsr_of_completes x hc]
    simp only [hc, true_and]
    rfl
  · rw [captureIsr_of_not_completes x hc, if_neg (fun h => hc h.1)]
    rfl

theorem captureIsr_bufFull (s : Capture) (x : UInt16) :
    (captureIsr s x).bufFull = (decide s.Completes || s.bufFull) := by
  by_cases hc : s.Completes
  · rw [captureIsr_of_completes x hc]
    simp [hc, Capture.swapBuffers]
  · rw [captureIsr_of_not_completes x hc]
    simp [hc, Capture.storeSample]

end Datalogger
