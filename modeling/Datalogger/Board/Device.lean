import Datalogger.Command.Dispatch
import Datalogger.Wire.SendCapture

/-!
# The capture side of the board

What the command handlers, the trigger interrupt and the sender share: the object table,
the globals of `capture.c`, and whether the interrupt is on. A handler reaches the last
two only through its calls into `capture.c` and `trigger.c` (`Device.call`), and
`process_calls` says which calls a line makes: START and STOP make theirs, and no other
command makes any.

Mirroring notes:
- `trigger_isr_start` is always given `capture_isr`, so the callback is not part of the
  state.
- `cur_buf` is `NULL` up to the first `capture_setup`. The interrupt is off and `buf_full`
  is 0 until then, so nothing looks at it, and the model starts with one of the buffers.
-/

namespace Datalogger

open Lib (ascii cstr)

/-- The object table, the capture globals and the trigger interrupt. -/
structure Device where
  objects : List NetprotObject
  sender : Sender
  triggerOn : Bool

/-- The globals of `capture.c` at power-up. -/
def capturePowerUp (mem : BufId → Netstruct) : Capture := captureSetup mem 0 0

/-- The board at power-up. -/
def Device.powerUp (mem : BufId → Netstruct) : Device :=
  { objects := netprotObjects
    sender := { capture := capturePowerUp mem, count := 0 }
    triggerOn := false }

/-- `buf_full`. -/
def Device.bufFull (d : Device) : Bool := d.sender.capture.bufFull

/-- `buffers_to_ignore`. -/
def Device.buffersToIgnore (d : Device) : Int32 := d.sender.capture.buffersToIgnore

/-- A call into `capture.c` or `trigger.c`. -/
def Device.call (d : Device) : DriverCall → Device
  | .captureSetup n ignoreBuffers =>
    { d with sender := { d.sender with
        capture := captureSetup d.sender.capture.mem n ignoreBuffers } }
  | .triggerIsrStart => { d with triggerOn := true }
  | .triggerIsrStop => { d with triggerOn := false }

/-- What a processed line leaves. -/
def Device.afterLine (d : Device) (res : ProcessResult) : Device :=
  { res.calls.foldl Device.call d with objects := res.objects }

/-- `trigger_isr`, which does not run while the interrupt is off. -/
def Device.triggerIsr (d : Device) (sample : UInt16) : Device :=
  if d.triggerOn then
    { d with sender := { d.sender with capture := captureIsr d.sender.capture sample } }
  else d

/-- `capture_set_empty`. -/
def Device.setEmpty (d : Device) : Device :=
  { d with sender := { d.sender with capture := captureSetEmpty d.sender.capture } }

/-- `capture_delay->intval`, when START finds it. -/
def captureDelay (objects : List NetprotObject) : Option Int32 :=
  match netprotFindObjectAttr objects (ascii "CHANNEL") (ascii "DELAY") with
  | some (.ok p) => some p.intval
  | _ => none

/-! ## The calls of a line -/

/-- Which calls a line makes. -/
inductive LineCalls (objects : List NetprotObject) (line : List UInt8) : List DriverCall → Prop
  | start (hcmd : commandOf line = some .start) (delay : Int32)
      (hdelay : captureDelay objects = some delay) :
      LineCalls objects line [.captureSetup configSamplesPerBuffer delay, .triggerIsrStart]
  | stop (hcmd : commandOf line = some .stop) : LineCalls objects line [.triggerIsrStop]
  | other (hstart : commandOf line ≠ some .start) (hstop : commandOf line ≠ some .stop) :
      LineCalls objects line []

/-- GET makes no calls. -/
theorem netprotCmdGet_calls {objects : List NetprotObject} {inp : List UInt8} {outlen : Nat}
    {r : HandlerResult} (h : netprotCmdGet objects inp outlen = some r) : r.calls = [] := by
  unfold netprotCmdGet at h
  simp only at h
  split at h
  next => cases h
  next =>
    obtain rfl := Option.some.inj h
    rfl
  next =>
    split at h
    next => cases h
    next =>
      split at h
      next =>
        obtain ⟨ws, -, rfl⟩ := Option.map_eq_some_iff.mp h
        rfl
      next =>
        split at h
        next => cases h
        next =>
          obtain rfl := Option.some.inj h
          rfl
        next =>
          obtain ⟨attr, -, rfl⟩ := Option.map_eq_some_iff.mp h
          rfl

/-- The calls of each handler. -/
theorem func_calls {c : CommandId} {objects : List NetprotObject} {line : List UInt8} {outlen : Nat}
    {r : HandlerResult} (hcmd : commandOf line = some c)
    (h : c.func objects (c.arg line) outlen = some r) : LineCalls objects line r.calls := by
  have hother : c ≠ .start → c ≠ .stop → r.calls = [] → LineCalls objects line r.calls := by
    intro hstart hstop hcalls
    rw [hcalls]
    exact .other (fun heq => hstart (Option.some.inj (hcmd.symm.trans heq)))
      fun heq => hstop (Option.some.inj (hcmd.symm.trans heq))
  cases c with
  | ok =>
    obtain rfl := Option.some.inj h
    exact hother nofun nofun rfl
  | ping =>
    have h : netprotCmdPing objects (CommandId.ping.arg line) outlen = some r := h
    unfold netprotCmdPing at h
    simp only at h
    refine hother nofun nofun ?_
    split at h <;> obtain rfl := Option.some.inj h <;> rfl
  | set =>
    obtain ⟨run, -, rfl⟩ := Option.map_eq_some_iff.mp h
    exact hother nofun nofun rfl
  | get => exact hother nofun nofun (netprotCmdGet_calls h)
  | start =>
    have h : netprotCmdStart objects (CommandId.start.arg line) outlen = some r := h
    unfold netprotCmdStart at h
    split at h
    next p hp =>
      obtain rfl := Option.some.inj h
      exact .start hcmd p.intval (by rw [captureDelay, hp])
    next => cases h
  | stop =>
    have h : netprotCmdStop objects (CommandId.stop.arg line) outlen = some r := h
    unfold netprotCmdStop at h
    simp only at h
    split at h <;> obtain rfl := Option.some.inj h <;> exact .stop hcmd
  | reset =>
    obtain ⟨os, -, rfl⟩ := Option.map_eq_some_iff.mp h
    exact hother nofun nofun rfl

/-- **The calls of a line.** -/
theorem process_calls {objects : List NetprotObject} {mem : List UInt8} {outsize : Nat}
    {res : ProcessResult}
    (h : netprotProcessCommand netprotDefaultCommandList objects mem outsize = some res) :
    LineCalls objects (cstr mem) res.calls := by
  cases hcmd : commandOf (cstr mem) with
  | none =>
    rw [process_of_unknown hcmd] at h
    obtain rfl := Option.some.inj h
    exact .other (by rw [hcmd]; nofun) (by rw [hcmd]; nofun)
  | some c =>
    rw [process_of_command hcmd] at h
    obtain ⟨r, hr, rfl⟩ := Option.map_eq_some_iff.mp h
    exact func_calls hcmd hr

/-! ## What a line does to the device -/

theorem Device.afterLine_start (d : Device) {res : ProcessResult} {n k : Int32}
    (h : res.calls = [.captureSetup n k, .triggerIsrStart]) :
    d.afterLine res =
      { objects := res.objects
        sender := { d.sender with capture := captureSetup d.sender.capture.mem n k }
        triggerOn := true } := by
  rw [Device.afterLine, h]
  rfl

theorem Device.afterLine_stop (d : Device) {res : ProcessResult}
    (h : res.calls = [.triggerIsrStop]) :
    d.afterLine res = { objects := res.objects, sender := d.sender, triggerOn := false } := by
  rw [Device.afterLine, h]
  rfl

theorem Device.afterLine_other (d : Device) {res : ProcessResult} (h : res.calls = []) :
    d.afterLine res = { d with objects := res.objects } := by
  rw [Device.afterLine, h]
  rfl

theorem Device.triggerIsr_off {d : Device} (h : d.triggerOn = false) (x : UInt16) :
    d.triggerIsr x = d := by
  rw [Device.triggerIsr, h]
  rfl

@[simp] theorem Device.triggerIsr_triggerOn (d : Device) (x : UInt16) :
    (d.triggerIsr x).triggerOn = d.triggerOn := by
  unfold Device.triggerIsr
  split <;> rfl

end Datalogger
