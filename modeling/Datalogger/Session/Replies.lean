import Datalogger.Session.Answers

/-!
# Which replies depend on the past

The reply array is not cleared between lines, and what is in it is sent after each of
them. `netprot_command.h` warns the handlers: "MUST BE SET or else previous value will
prevail". Every handler sets it, but a line that names no command runs none, so it is
answered with the reply to the line before it, or with what the stack held.

`replyDetermined_iff` is exact: over all runs, the reply to a line in a table is a
function of the two iff the line starts with the name of a command other than RESET.
RESET has no reply, as it reads past `board_attrs` of the board's table.

The proof of the first half is `answer_command`. For the other, every table that a turn
of a run finds is reached by a run on its own (`reached_of_turn`), and the line may
then come first in the next call, with anything in the array.
-/

namespace Datalogger

open Lib (ascii readString)

/-- Over all runs and whatever the arrays held, there is one reply to this line in this
table. -/
def ReplyDetermined (objects : List NetprotObject) (line : List UInt8) : Prop :=
  ∃ r, ∀ calls, ∀ t ∈ (commandSession netprotObjects calls).2,
    t.objects = objects → t.command = line → t.reply = some r

/-- Some run processes this line in this table. -/
def Handled (objects : List NetprotObject) (line : List UInt8) : Prop :=
  ∃ calls, ∃ t ∈ (commandSession netprotObjects calls).2, t.objects = objects ∧ t.command = line

/-! ## Reaching the table of a turn -/

/-- A call that receives a chunk and sends every reply. -/
def chunkCall (locals : Locals) (bytes : List UInt8) (fits : bytes.length ≤ commandstrLen) : Call :=
  { locals := locals, sends := fun _ => true, recv := .received bytes fits }

/-- A call that receives one line. -/
def lineCall (locals : Locals) {line : List UInt8} (h : IsLine line) : Call :=
  chunkCall locals line (Nat.le_of_lt h.short)

theorem Turn.mem_andThen (t : Turn) (sent : Bool) (rest : ProcessResult → List Turn × LoopEnd) :
    t ∈ (t.andThen sent rest).1 :=
  Turn.andThen_rule (P := fun r => t ∈ r.1) (by simp) (fun _ _ => by simp) (fun _ _ _ => by simp)

/-- The display is updated on every table of the board. -/
theorem LoopEnd.finish_done {objects : List NetprotObject} (h : SameTable objects netprotObjects) :
    ∃ segname, (LoopEnd.done objects).finish
      = some { ret := 0, objects := objects, display := some segname } := by
  obtain ⟨⟨segname, hname⟩, -⟩ := findObjectAttr_channel h
  refine ⟨segname, ?_⟩
  simp only [LoopEnd.finish, hname]

/-- One more call. -/
theorem commandSession_snoc {objects o : List NetprotObject} {calls : List Call}
    (h : (commandSession objects calls).1 = some o) (c : Call) :
    commandSession objects (calls ++ [c])
      = ((commandStep (some o) c).1,
        (commandSession objects calls).2 ++ (commandStep (some o) c).2) := by
  unfold commandSession at h ⊢
  rw [Lib.run_snoc, h]

theorem commandStep_received {objects : List NetprotObject} (h : SameTable objects netprotObjects)
    (locals : Locals) (sends : Nat → Bool) {bytes : List UInt8} (hne : bytes ≠ [])
    (hlen : bytes.length < commandstrLen) (fits : bytes.length ≤ commandstrLen) :
    commandStep (some objects) ⟨locals, sends, .received bytes fits⟩
      = ((lineLoop sends 0 objects locals.outstr (commandLines bytes)).2.finish.map CallEnd.objects,
          (lineLoop sends 0 objects locals.outstr (commandLines bytes)).1) := by
  simp only [commandStep, netprotGetCommands_received h locals sends hne hlen fits]

/-- The line on its own. -/
theorem commandStep_lineCall {objects : List NetprotObject} (h : SameTable objects netprotObjects)
    (locals : Locals) {line : List UInt8} (hline : IsLine line) :
    processTurn objects locals.outstr line
      ∈ (commandStep (some objects) (lineCall locals hline)).2 ∧
      ∀ res, (processTurn objects locals.outstr line).result = some res →
        (processTurn objects locals.outstr line).reply.isSome →
        (commandStep (some objects) (lineCall locals hline)).1 = some res.objects := by
  unfold lineCall chunkCall
  rw [commandStep_received h locals _ hline.nonempty hline.short, hline.commandLines_eq, lineLoop]
  refine ⟨Turn.mem_andThen _ _ _, fun res hres hreply => ?_⟩
  obtain ⟨r, hr⟩ := Option.isSome_iff_exists.mp hreply
  have htable : SameTable res.objects netprotObjects := by
    rw [(processTurn_inputs objects locals.outstr line).2.2] at hres
    exact process_sameTable h hres
  obtain ⟨segname, hfinish⟩ := LoopEnd.finish_done htable
  unfold Turn.andThen
  simp only [hres, hr, lineLoop, if_true, hfinish]
  rfl

/-- A table a turn leaves is reached, by the run so far and the line on its own. -/
theorem Reached.turn {objects : List NetprotObject} (h : Reached objects) {line outstr : List UInt8}
    (hline : IsLine line) (hout : outstr.length = outstrLen) {res : ProcessResult}
    (hres : (processTurn objects outstr line).result = some res)
    (hreply : (processTurn objects outstr line).reply.isSome) : Reached res.objects := by
  obtain ⟨calls, hcalls⟩ := h
  let locals : Locals :=
    { commandstr := List.replicate commandstrLen 0, outstr := outstr
      commandstr_length := List.length_replicate .., outstr_length := hout }
  -- the array of the turn is given to the new call as its own
  refine ⟨calls ++ [lineCall locals hline], ?_⟩
  rw [commandSession_snoc hcalls]
  exact (commandStep_lineCall (Reached.sameTable ⟨calls, hcalls⟩) locals hline).2 res hres hreply

theorem lineLoop_reached (sends : Nat → Bool) :
    ∀ (lines : List (List UInt8)) (k : Nat) (objects : List NetprotObject) (outstr : List UInt8),
      Reached objects → outstr.length = outstrLen → (∀ l ∈ lines, IsLine l) →
      ∀ t ∈ (lineLoop sends k objects outstr lines).1, Reached t.objects := by
  intro lines
  induction lines with
  | nil => intro k objects outstr _ _ _; exact nofun
  | cons line lines ih =>
    intro k objects outstr h hout hlines
    have hturn : Reached (processTurn objects outstr line).objects := by
      rw [(processTurn_inputs objects outstr line).2.1]
      exact h
    rw [lineLoop]
    refine Turn.andThen_rule (P := fun r => ∀ t ∈ r.1, Reached t.objects) ?_ ?_ ?_
    · simpa using hturn
    · intro res _
      simpa using hturn
    · intro res hres hreply t ht
      rcases List.mem_cons.mp ht with rfl | ht
      · exact hturn
      · exact ih (k + 1) res.objects _ (h.turn (hlines line (by simp)) hout hres hreply)
          (by rw [length_processTurn_outstr, hout]) (fun l hl => hlines l (by simp [hl])) t ht

/-- **Every table a turn finds** is one a run reaches. -/
theorem reached_of_turn (calls : List Call) :
    ∀ t ∈ (commandSession netprotObjects calls).2, Reached t.objects := by
  have hstart : ∀ o, some netprotObjects = some o → Reached o := by
    intro o ho
    obtain rfl := Option.some.inj ho
    exact ⟨[], rfl⟩
  refine Lib.run_outputs (I := fun s => ∀ o, s = some o → Reached o) hstart ?_ ?_ calls
  · intro s c hs o ho
    cases s with
    | none => cases ho
    | some objects =>
      obtain ⟨calls, hcalls⟩ := hs objects rfl
      refine ⟨calls ++ [c], ?_⟩
      rw [commandSession_snoc hcalls]
      exact ho
  · intro s c hs t ht
    cases s with
    | none => cases ht
    | some objects =>
      have hreached := hs objects rfl
      obtain ⟨locals, sends, recv⟩ := c
      cases recv with
      | socketError => cases ht
      | received bytes fits =>
        by_cases hne : bytes = []
        · simp only [commandStep, netprotGetCommands, if_pos hne] at ht
          cases ht
        · by_cases hlen : bytes.length < commandstrLen
          · rw [commandStep_received hreached.sameTable locals sends hne hlen fits] at ht
            exact lineLoop_reached sends (commandLines bytes) 0 objects locals.outstr hreached
              locals.outstr_length (fun l hl => isLine_of_mem hlen hl) t ht
          · simp only [commandStep, netprotGetCommands, if_neg hne,
              if_pos (Nat.le_of_not_lt hlen)] at ht
            cases ht

/-! ## The replies -/

/-- A reply array that holds one byte. -/
def Locals.holding (a : UInt8) : Locals :=
  { commandstr := List.replicate commandstrLen 0
    outstr := a :: List.replicate (outstrLen - 1) 0
    commandstr_length := rfl
    outstr_length := rfl }

theorem readString_holding {a : UInt8} (ha : a ≠ 0) :
    readString (Locals.holding a).outstr = some [a] := by
  have hmem : (0 : UInt8) ∈ (Locals.holding a).outstr := by simp [Locals.holding, outstrLen]
  unfold readString
  rw [if_pos hmem]
  exact congrArg some (Lib.cstr_append_zero (s := [a]) (by simpa using Ne.symm ha)
    (List.replicate (outstrLen - 2) 0))

/-- A determined reply is the one the line gets on its own, whatever the array holds. -/
theorem ReplyDetermined.alone {objects : List NetprotObject} {line : List UInt8}
    (hdet : ReplyDetermined objects line) (h : Reached objects) (hline : IsLine line) :
    ∃ r, ∀ locals : Locals, (processTurn objects locals.outstr line).reply = some r := by
  obtain ⟨r, hr⟩ := hdet
  obtain ⟨calls, hcalls⟩ := h
  refine ⟨r, fun locals => ?_⟩
  obtain ⟨hcommand, hobjects, -⟩ := processTurn_inputs objects locals.outstr line
  refine hr (calls ++ [lineCall locals hline]) _ ?_ hobjects (by rw [hcommand, hline.cstr_eq])
  rw [commandSession_snoc hcalls]
  exact List.mem_append_right _
    (commandStep_lineCall (Reached.sameTable ⟨calls, hcalls⟩) locals hline).1

/-- **The reply to a line is a function of the line and the table** iff the line starts
with the name of a command other than RESET. -/
theorem replyDetermined_iff {objects : List NetprotObject} {line : List UInt8}
    (h : Handled objects line) :
    ReplyDetermined objects line ↔ ∃ c : CommandId, c ≠ .reset ∧ c.name <+: line := by
  obtain ⟨calls, t, ht, rfl, rfl⟩ := h
  have hspec := (commandSession_spec rfl calls).2 t ht
  have hzero : 0 ∉ t.command := fun hmem => (hspec.line.bytes 0 hmem).1 rfl
  constructor
  · intro hdet
    obtain ⟨r, hr⟩ := hdet.alone (reached_of_turn calls t ht) hspec.line
    have hgives : ∀ a : UInt8, a ≠ 0 →
        (processTurn t.objects (Locals.holding a).outstr t.command).Gives
          (answer t.objects (some [a]) t.command) := by
      intro a ha
      rw [← readString_holding ha]
      exact processTurn_gives hspec.table hzero (Locals.holding a).outstr_length
    by_cases hnames : NamesCommand t.command
    · obtain ⟨c, hc⟩ := hnames
      refine ⟨c, ?_, hc⟩
      rintro rfl
      -- RESET has no reply at all
      have hnone := hgives 1 (by decide)
      rw [answer_reset hspec.table hc] at hnone
      have hcontra := (show _ = none from hnone).symm.trans (hr (Locals.holding 1))
      cases hcontra
    · -- the line is answered with what the array held
      have hholds : ∀ a : UInt8, a ≠ 0 → some [a] = some r := by
        intro a ha
        have hlast := hgives a ha
        rw [answer_unknown hnames] at hlast
        exact hlast.2.1.symm.trans (hr (Locals.holding a))
      have hdiffer : some [(1 : UInt8)] = some [2] :=
        (hholds 1 (by decide)).trans (hholds 2 (by decide)).symm
      exact absurd hdiffer (by decide)
  · rintro ⟨c, hc, hpre⟩
    have hreset : ¬ CallsReset t.command := by
      intro hreset
      have hsame := (commandOf_eq_some_iff.mpr hpre).symm.trans (commandOf_eq_some_iff.mpr hreset)
      exact hc (Option.some.inj hsame)
    obtain ⟨o, r, -, hanswer, -⟩ := answer_command hspec.table hzero ⟨c, hpre⟩ hreset
    refine ⟨r, fun calls' t' ht' hobjects hcommand => ?_⟩
    have hspec' := (commandSession_spec rfl calls').2 t' ht'
    obtain ⟨outstr, hout, heq⟩ := hspec'.processed
    rw [hobjects, hcommand] at heq
    have hgives := processTurn_gives hspec.table hzero hout
    rw [hanswer, ← heq] at hgives
    exact hgives.2.1

theorem isLine_ping : IsLine (ascii "PING") :=
  ⟨by decide, Lib.forall_mem_of_all (by decide), by decide⟩

/-- The reply to PING at power-up. -/
theorem replyDetermined_ping :
    Handled netprotObjects (ascii "PING") ∧ ReplyDetermined netprotObjects (ascii "PING") := by
  have hhandled : Handled netprotObjects (ascii "PING") :=
    ⟨[lineCall (Locals.holding 1) isLine_ping],
      processTurn netprotObjects (Locals.holding 1).outstr (ascii "PING"),
      by decide +kernel, by decide +kernel, by decide +kernel⟩
  exact ⟨hhandled, (replyDetermined_iff hhandled).mpr ⟨.ping, by decide, by decide⟩⟩

/-- `HELP` names no command: behind PING the reply to it is `+PONG`, behind STOP `+OK`. -/
theorem not_replyDetermined_help : ¬ ReplyDetermined netprotObjects (ascii "HELP") := by
  rintro ⟨r, hr⟩
  have hsecond : ∀ {c : Call} {reply : Option (List UInt8)},
      ((commandSession netprotObjects [c]).2[1]?).map (fun t => (t.objects, t.command, t.reply))
        = some (netprotObjects, ascii "HELP", reply) → reply = some r := by
    intro c reply h
    obtain ⟨t, ht, heq⟩ := Option.map_eq_some_iff.mp h
    simp only [Prod.mk.injEq] at heq
    obtain ⟨hobjects, hcommand, hreply⟩ := heq
    rw [← hreply]
    exact hr [c] t (List.mem_of_getElem? ht) hobjects hcommand
  have hping := hsecond (c := chunkCall (Locals.holding 1) (ascii "PING\x0d\x0aHELP\x0d\x0a") (by decide))
    (show _ = some (_, _, some (ascii "+PONG \x0d\x0a")) by decide +kernel)
  have hstop := hsecond (c := chunkCall (Locals.holding 1) (ascii "STOP\x0d\x0aHELP\x0d\x0a") (by decide))
    (show _ = some (_, _, some (ascii "+OK \x0d\x0a")) by decide +kernel)
  exact absurd (hping.trans hstop.symm) (by decide)

end Datalogger
