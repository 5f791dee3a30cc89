import Datalogger.Session.Replies

/-!
# How a chunk is split

`strtok` goes on in the array in which SET writes its null bytes, and `commandLoop_eq`
says that it never meets them: each line is passed on as it was received. What can stop
the loop in front of a line, apart from a `send` that fails, is an earlier line without
an outcome: RESET, which reads past `board_attrs`, or a first line that names no command,
for which `strlen` is given a reply array that holds no string.
`netprotGetCommands_lines` has both parts: the commands are always a beginning of the
segments of the chunk, and they are all of them if and only if no line stops the loop.
-/

namespace Datalogger

open Lib (ascii readString)

/-- The segments of a chunk between CR and LF that are not empty. -/
def segments (bytes : List UInt8) : List (List UInt8) :=
  (bytes.splitOnP isNewline).filter fun w => !w.isEmpty

/-- The commands passed on, in order. -/
def commandsPassed (turns : List Turn) : List (List UInt8) := turns.map Turn.command

/-- No line but the last stops the loop, which finds `outstr` as its reply array. -/
def NoneStops (outstr : List UInt8) (lines : List (List UInt8)) : Prop :=
  (readString outstr = none → StartsWithCommand lines.dropLast) ∧
    ∀ line ∈ lines.dropLast, ¬ CallsReset line

instance (outstr : List UInt8) (lines : List (List UInt8)) : Decidable (NoneStops outstr lines) :=
  inferInstanceAs (Decidable ((_ = none → _) ∧ ∀ line ∈ _, _))

theorem commandLines_eq_segments {bytes : List UInt8} (hzero : 0 ∉ bytes) :
    commandLines bytes = segments bytes := by
  unfold commandLines segments
  rw [Lib.cstr_of_notMem hzero, Lib.pieces_eq_splitOnP]

/-- The commands of the loop are a beginning of its lines. -/
theorem lineLoop_commands (sends : Nat → Bool) :
    ∀ (lines : List (List UInt8)) (k : Nat) (objects : List NetprotObject) (outstr : List UInt8),
      (∀ l ∈ lines, 0 ∉ l) →
      commandsPassed (lineLoop sends k objects outstr lines).1 <+: lines := by
  intro lines
  induction lines with
  | nil =>
    intro k objects outstr _
    exact List.prefix_rfl
  | cons line lines ih =>
    intro k objects outstr hlines
    obtain ⟨hcommand, -, -⟩ := processTurn_inputs objects outstr line
    rw [Lib.cstr_of_notMem (hlines line (by simp))] at hcommand
    have hfirst : commandsPassed [processTurn objects outstr line] <+: line :: lines := by
      unfold commandsPassed
      rw [List.map_singleton, hcommand]
      exact List.prefix_append [line] lines
    rw [lineLoop]
    refine Turn.andThen_rule (P := fun r => commandsPassed r.1 <+: line :: lines) hfirst
      (fun _ _ => hfirst) fun res _ _ => ?_
    unfold commandsPassed
    rw [List.map_cons, hcommand, List.prefix_cons_inj]
    exact ih (k + 1) res.objects _ fun l hl => hlines l (by simp [hl])

/-- They are all of them if every line but the last has an answer. -/
theorem lineLoop_all_iff {sends : Nat → Bool} (hsends : ∀ k, sends k = true) :
    ∀ (lines : List (List UInt8)) (k : Nat) (objects : List NetprotObject) (outstr : List UInt8),
      SameTable objects netprotObjects → outstr.length = outstrLen → (∀ l ∈ lines, 0 ∉ l) →
      (commandsPassed (lineLoop sends k objects outstr lines).1 = lines ↔
        (answers objects (readString outstr) lines.dropLast).isSome) := by
  intro lines
  induction lines with
  | nil =>
    intro k objects outstr _ _ _
    exact iff_of_true rfl rfl
  | cons line lines ih =>
    intro k objects outstr h hout hlines
    have hzero : 0 ∉ line := hlines line (by simp)
    have hgives := processTurn_gives h hzero hout
    obtain ⟨hcommand, -, hresult⟩ := processTurn_inputs objects outstr line
    rw [Lib.cstr_of_notMem hzero] at hcommand
    rw [lineLoop]
    cases lines with
    | nil =>
      -- a last line is passed on, whatever becomes of it
      refine iff_of_true ?_ rfl
      refine Turn.andThen_rule (P := fun r => commandsPassed r.1 = [line]) ?_ (fun _ _ => ?_)
        fun res _ _ => ?_
      all_goals exact congrArg (fun c => [c]) hcommand
    | cons next lines =>
      rw [List.dropLast_cons_cons, answers]
      cases hanswer : answer objects (readString outstr) line with
      | none =>
        rw [hanswer] at hgives
        have hreply : (processTurn objects outstr line).reply = none := hgives
        have hone : commandsPassed [processTurn objects outstr line] ≠ line :: next :: lines := by
          intro hall
          have hlength := congrArg List.length hall
          simp [commandsPassed] at hlength
        refine iff_of_false ?_ Bool.false_ne_true
        unfold Turn.andThen
        rw [hreply]
        cases (processTurn objects outstr line).result with
        | none => exact hone
        | some res => exact hone
      | some a =>
        obtain ⟨o, r⟩ := a
        rw [hanswer] at hgives
        obtain ⟨⟨res, hres, rfl⟩, hreply, hread⟩ := hgives
        have htable : SameTable res.objects netprotObjects := by
          rw [hresult] at hres
          exact process_sameTable h hres
        have hrest := ih (k + 1) res.objects (processTurn objects outstr line).outstr htable
          (by rw [length_processTurn_outstr, hout]) fun l hl => hlines l (by simp [hl])
        rw [hread] at hrest
        unfold Turn.andThen
        simp only [hres, hreply, hsends, if_true, Option.bind_some, Option.isSome_map]
        rw [← hrest]
        unfold commandsPassed
        rw [List.map_cons, hcommand, List.cons_inj_right]

/-- The loop goes through all lines exactly if none but the last stops it. -/
theorem lineLoop_noneStops {objects : List NetprotObject} (h : SameTable objects netprotObjects)
    {sends : Nat → Bool} (hsends : ∀ k, sends k = true) {outstr : List UInt8}
    (hout : outstr.length = outstrLen) {lines : List (List UInt8)} (hlines : ∀ l ∈ lines, 0 ∉ l) :
    commandsPassed (lineLoop sends 0 objects outstr lines).1 = lines ↔ NoneStops outstr lines := by
  rw [lineLoop_all_iff hsends lines 0 objects outstr h hout hlines,
    answers_isSome_iff _ _ h fun l hl => hlines l ((List.dropLast_sublist lines).subset hl)]
  rfl

/-- **How a chunk is split.** The lines passed on are a beginning of its segments, and,
as long as the sends succeed, all of them exactly if none but the last stops the loop. -/
theorem netprotGetCommands_lines {objects : List NetprotObject} (hreached : Reached objects)
    {bytes : List UInt8} (hlen : bytes.length ≤ 99) (hzero : 0 ∉ bytes) (locals : Locals)
    (sends : Nat → Bool) (fits : bytes.length ≤ commandstrLen) :
    let turns := (netprotGetCommands locals sends (.received bytes fits) objects).1
    commandsPassed turns <+: segments bytes ∧
      ((∀ k, sends k = true) →
        (commandsPassed turns = segments bytes ↔ NoneStops locals.outstr (segments bytes))) := by
  have hlines : ∀ l ∈ segments bytes, 0 ∉ l := by
    rw [← commandLines_eq_segments hzero]
    intro l hl hmem
    obtain ⟨-, -, hsub⟩ := Lib.mem_pieces l hl
    exact Lib.zero_notMem_cstr bytes (hsub.subset hmem)
  by_cases hne : bytes = []
  · -- nothing was received, and there are no segments
    subst hne
    exact ⟨List.prefix_rfl, fun _ => iff_of_true rfl ⟨fun _ => nofun, nofun⟩⟩
  · have hcall := netprotGetCommands_received hreached.sameTable locals sends hne
      (Nat.lt_of_le_of_lt hlen (by decide)) fits
    rw [commandLines_eq_segments hzero] at hcall
    intro turns
    have hturns : turns = (lineLoop sends 0 objects locals.outstr (segments bytes)).1 :=
      congrArg Prod.fst hcall
    rw [hturns]
    exact ⟨lineLoop_commands sends _ 0 objects locals.outstr hlines, fun hsends =>
      lineLoop_noneStops hreached.sameTable hsends locals.outstr_length hlines⟩

/-- A line that SET writes on, and the one behind it. -/
theorem netprotGetCommands_lines_set :
    let chunk := ascii "SET CHANNEL NAME='A'\x0d\x0aGET CHANNEL NAME\x0d\x0a"
    let turns := (netprotGetCommands (Locals.holding 1) (fun _ => true)
      (.received chunk (by decide)) netprotObjects).1
    commandsPassed turns = segments chunk :=
  ((netprotGetCommands_lines ⟨[], rfl⟩ (by decide) (by decide +kernel) (Locals.holding 1)
    (fun _ => true) (by decide)).2 fun _ => rfl).mpr (by decide +kernel)

/-- The line behind a RESET is not passed on. -/
theorem not_netprotGetCommands_lines_reset :
    let chunk := ascii "RESET\x0d\x0aPING\x0d\x0a"
    let turns := (netprotGetCommands (Locals.holding 1) (fun _ => true)
      (.received chunk (by decide)) netprotObjects).1
    commandsPassed turns = [ascii "RESET"] ∧ segments chunk = [ascii "RESET", ascii "PING"] := by
  decide +kernel

end Datalogger
