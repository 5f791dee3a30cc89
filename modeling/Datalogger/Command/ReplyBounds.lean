import Datalogger.Command.Reply

/-!
# The bounds of the reply array

`outsize` is the size of the array behind `out`, and a command that runs is to leave a
string in it. The handlers treat it in their own ways: `+OK` and START write one byte;
PING and STOP test it, and write nothing at all when it is too small; SET does not look
at it; GET writes its null byte at `out[outlen]`, one past the end, whatever it replies;
RESET is undefined on the board's table. `replyInBounds_iff` puts them together.
-/

namespace Datalogger

open Lib (Write Leaves ascii cstr applyWrites strcpyTo strncpyTo snprintfTo)

/-- Every write lies inside the array, which then holds a terminated string. -/
def WritesInBounds (outsize : Nat) (ws : List Write) : Prop :=
  (∀ w ∈ ws, w.Inside outsize) ∧ ∀ out : List UInt8, out.length = outsize → 0 ∈ applyWrites out ws

/-- `netprot_process_command` comes back, writes only inside `out[0 .. outsize-1]`, and
leaves a terminator there if a handler ran. -/
def ReplyInBounds (objects : List NetprotObject) (line : List UInt8) (outsize : Nat) : Prop :=
  ∃ res, netprotProcessCommand netprotDefaultCommandList objects line outsize = some res ∧
    (∀ w ∈ res.writes, w.Inside outsize) ∧
    (res.called ≠ none → ∀ out : List UInt8, out.length = outsize → 0 ∈ applyWrites out res.writes)

/-- The room the reply of a refused SET takes, with its terminator. -/
def SetError.room : SetError → Nat
  | .objectNotFound => 25
  | .invalidAssignment => 27
  | .attrNotFound => 23
  | .attrReadOnly => 23
  | .attrTooLong => 22
  | .attrUnknownType => 26

/-- The room the reply of SET takes on the branch it goes through. -/
def setRoom : Except SetError SetTarget → Nat
  | .error e => e.room
  | .ok _ => 7

/-- What a line needs of the array. -/
def ReplyFits (objects : List NetprotObject) (line : List UInt8) (outsize : Nat) : Prop :=
  match commandOf (cstr line) with
  | none => True
  | some .ok => True
  | some .start => True
  | some .ping => 9 ≤ outsize
  | some .stop => 7 ≤ outsize
  | some .set => ∀ r, setRun objects (CommandId.set.arg (cstr line)) = some r →
      setRoom r.outcome ≤ outsize
  | some .get => False
  | some .reset => False

theorem SetRun.length_reply (r : SetRun) : r.reply.length + 1 = setRoom r.outcome := by
  unfold SetRun.reply
  cases r.outcome with
  | ok t => rfl
  | error e => cases e <;> rfl

/-- One `strcpy` is in bounds exactly if the string and its terminator fit. -/
theorem writesInBounds_strcpyTo (outsize : Nat) (s : List UInt8) :
    WritesInBounds outsize [strcpyTo 0 s] ↔ s.length + 1 ≤ outsize := by
  have hlen : (strcpyTo 0 s).off + (strcpyTo 0 s).bytes.length = s.length + 1 := by
    show 0 + (s ++ [(0 : UInt8)]).length = _
    rw [List.length_append, Nat.zero_add]
    rfl
  constructor
  · intro h
    have hinside := h.1 _ (List.mem_singleton_self _)
    unfold Write.Inside at hinside
    omega
  · intro h
    refine ⟨fun w hw => ?_, fun out hout => (Lib.leaves_strcpyTo h).zero_mem hout⟩
    obtain rfl := List.mem_singleton.mp hw
    unfold Write.Inside
    omega

/-- A handler that writes nothing leaves the array without a terminator, if it had none. -/
theorem not_writesInBounds_nil (outsize : Nat) : ¬ WritesInBounds outsize [] := by
  intro h
  have hzero := h.2 (List.replicate outsize 1) List.length_replicate
  rw [show applyWrites (List.replicate outsize 1) [] = List.replicate outsize 1 from rfl] at hzero
  exact absurd (List.eq_of_mem_replicate hzero) (by decide)

/-- GET writes at `out[outlen]` on every path. -/
theorem GetOutcome.nullTerminate_mem {objects : List NetprotObject} {outlen : Nat} {ret : Int32}
    {ws : List Write} (h : GetOutcome objects outlen ret ws) : nullTerminate outlen ∈ ws := by
  cases h with
  | fails text htext => exact List.mem_cons_of_mem _ (List.mem_singleton_self _)
  | list o ws ho hterm hws =>
    unfold getList at hws
    obtain ⟨ws', -, rfl⟩ := Option.map_eq_some_iff.mp hws
    exact List.mem_append_right _ (List.mem_singleton_self _)
  | value q => exact List.mem_append_right _ (List.mem_singleton_self _)

theorem not_writesInBounds_of_nullTerminate {outlen : Nat} {ws : List Write}
    (h : nullTerminate outlen ∈ ws) : ¬ WritesInBounds outlen ws := by
  intro hin
  have hinside : outlen + 1 ≤ outlen := hin.1 _ h
  exact absurd hinside (Nat.not_succ_le_self outlen)

/-- For a line that calls a command, the bounds are those of its handler. -/
theorem replyInBounds_of_command {objects : List NetprotObject} {line : List UInt8}
    {outsize : Nat} {c : CommandId} (hcmd : commandOf (cstr line) = some c) :
    ReplyInBounds objects line outsize ↔
      ∃ res, c.func objects (c.arg (cstr line)) outsize = some res ∧
        WritesInBounds outsize res.writes := by
  unfold ReplyInBounds
  rw [process_of_command hcmd]
  constructor
  · rintro ⟨res, hres, hinside, hterm⟩
    obtain ⟨r, hr, rfl⟩ := Option.map_eq_some_iff.mp hres
    exact ⟨r, hr, hinside, hterm (by exact Option.some_ne_none _)⟩
  · rintro ⟨r, hr, hinside, hterm⟩
    exact ⟨r.process c.name (cstr line), by rw [hr]; rfl, hinside, fun _ => hterm⟩

/-- The same for a handler whose result is known. -/
theorem replyInBounds_of_result {objects : List NetprotObject} {line : List UInt8}
    {outsize : Nat} {c : CommandId} {r : HandlerResult} (hcmd : commandOf (cstr line) = some c)
    (hr : c.func objects (c.arg (cstr line)) outsize = some r) :
    ReplyInBounds objects line outsize ↔ WritesInBounds outsize r.writes := by
  rw [replyInBounds_of_command hcmd, hr]
  exact ⟨fun ⟨_, heq, hws⟩ => Option.some.inj heq ▸ hws, fun hws => ⟨r, rfl, hws⟩⟩

/-- **The bounds of the reply.** From every reachable table and for every array of at
least one byte, processing a line stays in bounds exactly if `ReplyFits`. -/
theorem replyInBounds_iff {objects : List NetprotObject} (hreach : Reachable objects)
    (line : List UInt8) {outsize : Nat} (hsize : 1 ≤ outsize) :
    ReplyInBounds objects line outsize ↔ ReplyFits objects line outsize := by
  have h := hreach.sameTable
  have hterm := netprotObjects_terminated.of_sameTable h
  unfold ReplyFits
  cases hcmd : commandOf (cstr line) with
  | none =>
    refine ⟨fun _ => trivial, fun _ => ⟨unknownCommand objects, ?_, nofun, fun hne => ?_⟩⟩
    · exact process_of_unknown hcmd objects outsize
    · exact absurd rfl hne
  | some c =>
    cases c with
    | ok =>
      rw [replyInBounds_of_result hcmd rfl]
      exact ⟨fun _ => trivial, fun _ => (writesInBounds_strcpyTo outsize []).mpr hsize⟩
    | start =>
      obtain ⟨p, hp⟩ := netprotCmdStart_eq h
      rw [replyInBounds_of_result hcmd (hp (CommandId.start.arg (cstr line)) outsize)]
      exact ⟨fun _ => trivial, fun _ => (writesInBounds_strcpyTo outsize []).mpr hsize⟩
    | ping =>
      show _ ↔ 9 ≤ outsize
      by_cases hlen : outsize < 9
      · rw [replyInBounds_of_result hcmd (if_pos hlen)]
        exact ⟨fun hws => absurd hws (not_writesInBounds_nil outsize), fun hle => by omega⟩
      · rw [replyInBounds_of_result hcmd (if_neg hlen)]
        exact writesInBounds_strcpyTo outsize (ascii "+PONG \x0d\x0a")
    | stop =>
      show _ ↔ 7 ≤ outsize
      by_cases hlen : outsize < 7
      · rw [replyInBounds_of_result hcmd (if_pos hlen)]
        exact ⟨fun hws => absurd hws (not_writesInBounds_nil outsize), fun hle => by omega⟩
      · rw [replyInBounds_of_result hcmd (if_neg hlen)]
        exact writesInBounds_strcpyTo outsize (ascii "+OK \x0d\x0a")
    | set =>
      obtain ⟨r, hr, -⟩ := setRun_safe hterm (CommandId.set.arg (cstr line))
      rw [replyInBounds_of_result hcmd (netprotCmdSet_eq hr outsize)]
      show WritesInBounds outsize [strcpyTo 0 r.reply] ↔ _
      rw [writesInBounds_strcpyTo, r.length_reply, hr]
      exact ⟨fun hle r' hr' => Option.some.inj hr' ▸ hle, fun hall => hall r rfl⟩
    | get =>
      -- every path of GET writes the null byte behind the array
      obtain ⟨ret, ws, hget, hout⟩ :=
        netprotCmdGet_cases hterm (CommandId.get.arg (cstr line)) outsize
      rw [replyInBounds_of_result hcmd hget]
      exact ⟨not_writesInBounds_of_nullTerminate hout.nullTerminate_mem, False.elim⟩
    | reset =>
      rw [replyInBounds_of_command hcmd,
        show CommandId.func .reset = netprotCmdReset from rfl, netprotCmdReset_sameTable h]
      exact ⟨fun ⟨_, hnone, _⟩ => (by cases hnone), False.elim⟩

/-- A refused SET, in an array that its reply just fits. -/
theorem replyInBounds_set_readOnly :
    ReplyInBounds netprotObjects (ascii "SET BOARD TYPE='X'") 23 :=
  (replyInBounds_iff ⟨100, [], rfl⟩ (ascii "SET BOARD TYPE='X'") (by decide)).mpr
    fun r hr => by
      obtain rfl := Option.some.inj hr
      exact Nat.le_refl 23

/-- GET writes past the 100 bytes of `outstr`. -/
theorem not_replyInBounds_get : ¬ ReplyInBounds netprotObjects (ascii "GET CHANNEL") 100 := by
  rintro ⟨res, hres, hinside, -⟩
  have hget : netprotProcessCommand netprotDefaultCommandList netprotObjects (ascii "GET CHANNEL") 100
      = some (HandlerResult.process (ascii "GET") (ascii "GET CHANNEL")
          (replies netprotObjects 0 [strcpyTo 0 (ascii "+"), strcpyTo 1 (ascii "NAME, "),
            strcpyTo 7 (ascii "DELAY, "), nullTerminate 100])) := by decide +kernel
  obtain rfl := Option.some.inj (hget.symm.trans hres)
  have hlast := hinside (nullTerminate 100) (by decide)
  exact absurd hlast (by decide)

end Datalogger
