import Datalogger.Board.Device
import Datalogger.Command.Store
import Datalogger.Session.GetCommands

/-!
# How long buffers are ignored

START copies `CHANNEL DELAY` into `buffers_to_ignore`, and the interrupt counts it down
with every buffer it completes, as long as it is not 0. SET lets any `int` into the
attribute. `ignorePhaseEnds_iff`: the phase ends, after as many buffers as were asked for,
in the runs in which no START finds a negative delay. With a negative one the counter
starts below 0 and is counted away from it.

Mirroring notes:
- A line that is undefined ends the run.
-/

namespace Datalogger

open Lib (ascii cstr run)

/-- A command line is processed, or the trigger fires. -/
inductive DeviceEvent where
  | line (mem : List UInt8)
  | isr (sample : UInt16)
  deriving DecidableEq, Repr

/-- One event; an interrupt that completes a buffer emits it. -/
def deviceStep : Option Device → DeviceEvent → Option Device × List BufId
  | none, _ => (none, [])
  | some d, .line mem =>
    ((netprotProcessCommand netprotDefaultCommandList d.objects mem outstrLen).map d.afterLine, [])
  | some d, .isr x =>
    (some (d.triggerIsr x),
      if d.triggerOn ∧ d.sender.capture.Completes then [d.sender.capture.curBuf] else [])

/-- The board after the events, from power-up on. -/
def afterEventsOf (mem : BufId → Netstruct) (events : List DeviceEvent) : Option Device :=
  (run deviceStep (some (Device.powerUp mem)) events).1

/-- The event is a line that calls START. -/
def DeviceEvent.Starts (e : DeviceEvent) : Prop :=
  ∃ line, e = .line line ∧ commandOf (cstr line) = some .start

/-- Buffers are marked valid, and overruns are detected. -/
structure IgnoreOver (d : Device) : Prop where
  zero : d.buffersToIgnore = 0
  valid : ∀ results p, (netprotSendCapture d.sender results).packet = some p → ¬ p.Invalid
  detects : ∀ x, d.sender.capture.Completes → d.bufFull = true →
    (captureIsr d.sender.capture x).bufOverflow = true

/-- The counter is never negative, and it is 0 from the buffer on that START was asked
for. -/
structure IgnorePhaseEnds (mem : BufId → Netstruct) (events : List DeviceEvent) : Prop where
  nonneg : ∀ pre post d, events = pre ++ post → afterEventsOf mem pre = some d →
    0 ≤ d.buffersToIgnore.toInt
  ends : ∀ pre line phase post d delay, events = pre ++ .line line :: (phase ++ post) →
    commandOf (cstr line) = some .start → (∀ e ∈ phase, ¬ e.Starts) →
    afterEventsOf mem pre = some d → captureDelay d.objects = some delay →
    max delay.toInt 0 ≤ (run deviceStep (afterEventsOf mem (pre ++ [.line line])) phase).2.length →
    ∀ d', (run deviceStep (afterEventsOf mem (pre ++ [.line line])) phase).1 = some d' →
      IgnoreOver d'

/-- Every START finds a delay that is not negative. -/
def StartsNonneg (mem : BufId → Netstruct) (events : List DeviceEvent) : Prop :=
  ∀ pre line post d delay, events = pre ++ .line line :: post →
    commandOf (cstr line) = some .start → afterEventsOf mem pre = some d →
    captureDelay d.objects = some delay → 0 ≤ delay.toInt

/-! ## What follows from 0 -/

theorem IgnoreOver.of_zero {d : Device} (h : d.buffersToIgnore = 0) : IgnoreOver d := by
  refine ⟨h, fun results p hp => ?_, fun x hc hfull => ?_⟩
  · rw [((netprotSendCapture_waiting d.sender results).2 p hp).2, capturePacket_invalid]
    exact fun hne => hne h
  · have hzero : ¬ d.sender.capture.buffersToIgnore ≠ 0 := fun hne => hne h
    rw [captureIsr_of_completes x hc]
    show (if d.sender.capture.buffersToIgnore ≠ 0 then _ else d.sender.capture.bufFull || _) = true
    rw [if_neg hzero]
    rw [show d.sender.capture.bufFull = true from hfull]
    rfl

/-! ## One event -/

/-- START sets the counter to the delay it finds. -/
theorem afterLine_delay {d d' : Device} {line : List UInt8}
    (hcmd : commandOf (cstr line) = some .start)
    (h : (deviceStep (some d) (.line line)).1 = some d') :
    captureDelay d.objects = some d'.buffersToIgnore := by
  obtain ⟨res, hres, rfl⟩ := Option.map_eq_some_iff.mp h
  generalize hcalls : res.calls = calls at *
  have hspec := process_calls hres
  rw [hcalls] at hspec
  cases hspec with
  | start _ delay hdelay =>
    rw [d.afterLine_start hcalls]
    exact hdelay
  | stop hstop => cases hcmd.symm.trans hstop
  | other hstart => exact absurd hcmd hstart

/-- A START that finds its delay is defined. -/
theorem deviceStep_start {d : Device} {line : List UInt8} {delay : Int32}
    (hcmd : commandOf (cstr line) = some .start) (hdelay : captureDelay d.objects = some delay) :
    ∃ d', (deviceStep (some d) (.line line)).1 = some d' := by
  unfold captureDelay at hdelay
  split at hdelay
  next p hp =>
    have hstart : netprotCmdStart d.objects (CommandId.start.arg (cstr line)) outstrLen
        = some (startResult d.objects p) := by
      unfold netprotCmdStart
      rw [hp]
    have hprocess := process_of_command hcmd d.objects outstrLen
    rw [show CommandId.func .start = netprotCmdStart from rfl, hstart] at hprocess
    exact ⟨_, congrArg (Option.map d.afterLine) hprocess⟩
  next => cases hdelay

/-- **Any other event counts the counter down** by the buffers it completes, to 0. -/
theorem countdown_step {d d' : Device} {e : DeviceEvent} (hstart : ¬ e.Starts)
    (hnonneg : 0 ≤ d.buffersToIgnore.toInt) (h : (deviceStep (some d) e).1 = some d') :
    d'.buffersToIgnore.toInt
      = max (d.buffersToIgnore.toInt - (deviceStep (some d) e).2.length) 0 := by
  cases e with
  | line line =>
    -- no other command touches the counter
    obtain ⟨res, hres, rfl⟩ := Option.map_eq_some_iff.mp h
    have hsame : (d.afterLine res).buffersToIgnore = d.buffersToIgnore := by
      generalize hcalls : res.calls = calls at *
      have hspec := process_calls hres
      rw [hcalls] at hspec
      cases hspec with
      | start hcmd => exact absurd ⟨line, rfl, hcmd⟩ hstart
      | stop =>
        rw [d.afterLine_stop hcalls]
        rfl
      | other =>
        rw [d.afterLine_other hcalls]
        rfl
    rw [hsame]
    show _ = max (d.buffersToIgnore.toInt - (0 : Nat)) 0
    omega
  | isr x =>
    obtain rfl := Option.some.inj h
    show (d.triggerIsr x).buffersToIgnore.toInt = max (d.buffersToIgnore.toInt
      - (if d.triggerOn ∧ d.sender.capture.Completes then [d.sender.capture.curBuf]
          else []).length) 0
    cases hon : d.triggerOn with
    | false =>
      rw [Device.triggerIsr_off hon]
      simp only [Bool.false_eq_true, false_and, if_false, List.length_nil]
      omega
    | true =>
      have hisr : (d.triggerIsr x).buffersToIgnore
          = (captureIsr d.sender.capture x).buffersToIgnore := by
        rw [Device.triggerIsr, if_pos hon]
        rfl
      rw [hisr, captureIsr_buffersToIgnore]
      change 0 ≤ d.sender.capture.buffersToIgnore.toInt at hnonneg
      change _ = max (d.sender.capture.buffersToIgnore.toInt - _) 0
      by_cases hc : d.sender.capture.Completes
      · by_cases hzero : d.sender.capture.buffersToIgnore = 0
        · have hint : (0 : Int32).toInt = 0 := by decide
          simp only [hc, hzero, hint, ne_eq, not_true_eq_false, and_false, and_self, if_false,
            if_true, List.length_singleton]
          omega
        · have hne : d.sender.capture.buffersToIgnore.toInt ≠ 0 := fun hint =>
            hzero (Int32.toInt_inj.mp hint)
          simp only [hc, hzero, ne_eq, not_false_eq_true, and_self, if_true, List.length_singleton]
          rw [Lib.int32_pred (by omega)]
          omega
      · simp only [hc, false_and, and_false, if_false, List.length_nil]
        omega

/-- What was defined behind an event was defined in front of it. -/
theorem deviceStep_defined {s : Option Device} {e : DeviceEvent} {d' : Device}
    (h : (deviceStep s e).1 = some d') : ∃ d, s = some d := by
  cases s with
  | none => cases h
  | some d => exact ⟨d, rfl⟩

/-! ## Runs -/

/-- Without a START in between the counter is the delay less the buffers completed. -/
theorem countdown_run {d₀ : Device} (hnonneg : 0 ≤ d₀.buffersToIgnore.toInt)
    (phase : List DeviceEvent) (hphase : ∀ e ∈ phase, ¬ e.Starts) {d' : Device}
    (h : (run deviceStep (some d₀) phase).1 = some d') :
    d'.buffersToIgnore.toInt
      = max (d₀.buffersToIgnore.toInt - (run deviceStep (some d₀) phase).2.length) 0 := by
  refine Lib.run_history (fun as outs s => (∀ e ∈ as, ¬ e.Starts) → ∀ d, s = some d →
    d.buffersToIgnore.toInt
      = max (d₀.buffersToIgnore.toInt - outs.length) 0) ?_ ?_ phase hphase d' h
  · intro _ d hd
    obtain rfl := Option.some.inj hd
    show _ = max (d₀.buffersToIgnore.toInt - (0 : Nat)) 0
    omega
  · intro as outs s e ih hall d hd
    obtain ⟨d₁, rfl⟩ := deviceStep_defined hd
    have hcount := ih (fun e he => hall e (List.mem_append_left _ he)) d₁ rfl
    have hlast : ¬ e.Starts := hall e (List.mem_append_right _ List.mem_cons_self)
    rw [countdown_step hlast (by omega) hd, hcount, List.length_append]
    omega

theorem afterEventsOf_snoc (mem : BufId → Netstruct) (events : List DeviceEvent) (e : DeviceEvent) :
    afterEventsOf mem (events ++ [e]) = (deviceStep (afterEventsOf mem events) e).1 := by
  unfold afterEventsOf
  rw [Lib.run_snoc]

/-- **The counter is never negative** while no START finds a negative delay. -/
theorem buffersToIgnore_nonneg (mem : BufId → Netstruct) (events : List DeviceEvent)
    (hdelays : StartsNonneg mem events) {d : Device} (h : afterEventsOf mem events = some d) :
    0 ≤ d.buffersToIgnore.toInt := by
  induction events using List.reverseRecOn generalizing d with
  | nil =>
    obtain rfl := Option.some.inj h
    show 0 ≤ (0 : Int32).toInt
    decide
  | append_singleton events e ih =>
    rw [afterEventsOf_snoc] at h
    obtain ⟨d₁, hd₁⟩ := deviceStep_defined h
    have hbefore : 0 ≤ d₁.buffersToIgnore.toInt := by
      refine ih (fun pre line post d delay heq => ?_) hd₁
      exact hdelays pre line (post ++ [e]) d delay (by rw [heq, List.append_assoc]; rfl)
    rw [hd₁] at h
    by_cases hstart : e.Starts
    · obtain ⟨line, rfl, hcmd⟩ := hstart
      exact hdelays events line [] d₁ d.buffersToIgnore rfl hcmd hd₁ (afterLine_delay hcmd h)
    · rw [countdown_step hstart hbefore h]
      omega

/-- **When the ignore phase ends.** The counter is never negative and is 0 from the
buffer on that START was asked for exactly if no START finds a negative delay. -/
theorem ignorePhaseEnds_iff (mem : BufId → Netstruct) (events : List DeviceEvent) :
    IgnorePhaseEnds mem events ↔ StartsNonneg mem events := by
  constructor
  · intro hends pre line post d delay heq hcmd hd hdelay
    -- the counter right behind START is the delay
    obtain ⟨d', hd'⟩ := deviceStep_start hcmd hdelay
    have hafter : afterEventsOf mem (pre ++ [.line line]) = some d' := by
      rw [afterEventsOf_snoc, hd, hd']
    have hnonneg := hends.nonneg (pre ++ [.line line]) post d' (by rw [heq]; simp) hafter
    have hset := afterLine_delay hcmd hd'
    rw [hdelay] at hset
    rw [Option.some.inj hset]
    exact hnonneg
  · intro hdelays
    refine ⟨fun pre post d heq hd => ?_, fun pre line phase post d delay heq hcmd hphase hd hdelay
      hbuffers d' hd' => ?_⟩
    · refine buffersToIgnore_nonneg mem pre (fun pre' line post' d' delay heq' => ?_) hd
      exact hdelays pre' line (post' ++ post) d' delay (by rw [heq, heq']; simp)
    · obtain ⟨d₀, hd₀⟩ := deviceStep_start hcmd hdelay
      rw [afterEventsOf_snoc, hd, hd₀] at hbuffers hd'
      have hset := afterLine_delay hcmd hd₀
      rw [hdelay] at hset
      have hdelay' : d₀.buffersToIgnore = delay := (Option.some.inj hset).symm
      have hnonneg := hdelays pre line (phase ++ post) d delay heq hcmd hd hdelay
      have hcount := countdown_run (by rw [hdelay']; exact hnonneg) phase hphase hd'
      refine IgnoreOver.of_zero (Int32.toInt_inj.mp ?_)
      have hint : (0 : Int32).toInt = 0 := by decide
      rw [hcount, hdelay', hint]
      omega

/-- SET takes a negative delay, and START counts on from it. -/
theorem not_ignorePhaseEnds_negative :
    ¬ IgnorePhaseEnds (fun _ => Netstruct.zero)
      [.line (ascii "SET CHANNEL DELAY=-5"), .line (ascii "START")] := by
  intro hends
  have hafter : (afterEventsOf (fun _ => Netstruct.zero) [.line (ascii "SET CHANNEL DELAY=-5"),
      .line (ascii "START")]).map Device.buffersToIgnore = some (-5) := by decide
  obtain ⟨d, hd, hneg⟩ := Option.map_eq_some_iff.mp hafter
  have hnonneg := hends.nonneg _ [] d (List.append_nil _).symm hd
  rw [hneg] at hnonneg
  exact absurd hnonneg (by decide)

end Datalogger
