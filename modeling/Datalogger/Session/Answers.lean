import Datalogger.Session.GetCommands

/-!
# What the board answers

The reply array seen from outside: at any time it holds the last reply, or nothing that
ends. `answer` is the reply to one line in these terms, and `answers` the replies to a
list of lines. A line that names no command gets the last reply again, and RESET gets
none, as it reads past `board_attrs`.

`lineLoop_answers` connects the two: as long as every `send` succeeds, the loop over a
chunk's lines gives exactly these replies, and has no outcome where they have none.
-/

namespace Datalogger

open Lib (readString applyWrites)

/-- The reply to a line and the table behind it, given the last reply. -/
def answer (objects : List NetprotObject) (last : Option (List UInt8)) (line : List UInt8) :
    Option (List NetprotObject × List UInt8) :=
  match commandOf line with
  | none => last.map (objects, ·)
  | some c => (c.func objects (c.arg line) outstrLen).bind fun res =>
    (readString (applyWrites (List.replicate outstrLen 0) res.writes)).map (res.objects, ·)

/-- The replies to a list of lines, and the table they leave. -/
def answers : List NetprotObject → Option (List UInt8) → List (List UInt8) →
    Option (List NetprotObject × List (List UInt8))
  | objects, _, [] => some (objects, [])
  | objects, last, line :: lines =>
    (answer objects last line).bind fun a =>
      (answers a.1 (some a.2) lines).map fun b => (b.1, a.2 :: b.2)

/-- The line starts with `RESET`. -/
def CallsReset (line : List UInt8) : Prop := CommandId.reset.name <+: line

instance (line : List UInt8) : Decidable (CallsReset line) := inferInstanceAs (Decidable (_ <+: _))

/-! ## One line -/

theorem answer_unknown {line : List UInt8} (h : ¬ NamesCommand line)
    (objects : List NetprotObject) (last : Option (List UInt8)) :
    answer objects last line = last.map (objects, ·) := by
  unfold answer
  rw [commandOf_eq_none_iff.mpr h]

theorem answer_reset {objects : List NetprotObject} (h : SameTable objects netprotObjects)
    {line : List UInt8} (hline : CallsReset line) (last : Option (List UInt8)) :
    answer objects last line = none := by
  unfold answer
  rw [commandOf_eq_some_iff.mpr hline]
  show (netprotCmdReset objects (CommandId.reset.arg line) outstrLen).bind _ = none
  rw [netprotCmdReset_sameTable h]
  rfl

/-- **A command's reply** depends on the line and the table alone, whatever the array
held before. -/
theorem answer_command {objects : List NetprotObject} (h : SameTable objects netprotObjects)
    {line : List UInt8} (hzero : 0 ∉ line) (hnames : NamesCommand line)
    (hreset : ¬ CallsReset line) :
    ∃ o r, SameTable o netprotObjects ∧ (∀ last, answer objects last line = some (o, r)) ∧
      ∃ res, netprotProcessCommand netprotDefaultCommandList objects line outstrLen = some res ∧
        res.objects = o ∧
        ∀ outstr, outstr.length = outstrLen →
          readString (applyWrites outstr res.writes) = some r := by
  obtain ⟨c, hc⟩ := hnames
  have hcmd : commandOf line = some c := commandOf_eq_some_iff.mpr hc
  have hne : c ≠ .reset := by
    rintro rfl
    exact hreset hc
  obtain ⟨res, hres, htable, -⟩ := func_safe h hne (c.arg line) outstrLen
  obtain ⟨r, hleaves, hr⟩ := func_reply h hne hres
  have hread : ∀ outstr, outstr.length = outstrLen →
      readString (applyWrites outstr res.writes) = some r :=
    fun outstr hout => hleaves.readString_eq hr hout
  refine ⟨res.objects, r, htable, fun last => ?_, res.process c.name line, ?_, rfl, hread⟩
  · unfold answer
    rw [hcmd]
    show (c.func objects (c.arg line) outstrLen).bind _ = _
    rw [hres]
    show (readString _).map _ = _
    rw [hread _ (List.length_replicate ..)]
    rfl
  · have hstr : Lib.cstr line = line := Lib.cstr_of_notMem hzero
    rw [process_of_command (by rw [hstr]; exact hcmd), hstr, hres]
    rfl

/-- A turn of the loop gives this answer, and its array then holds it. -/
def Turn.Gives (t : Turn) : Option (List NetprotObject × List UInt8) → Prop
  | none => t.reply = none
  | some (o, r) => (∃ res, t.result = some res ∧ res.objects = o) ∧ t.reply = some r ∧
    readString t.outstr = some r

/-- **A turn gives the answer.** -/
theorem processTurn_gives {objects : List NetprotObject} (h : SameTable objects netprotObjects)
    {line outstr : List UInt8} (hzero : 0 ∉ line) (hout : outstr.length = outstrLen) :
    (processTurn objects outstr line).Gives (answer objects (readString outstr) line) := by
  by_cases hnames : NamesCommand line
  · by_cases hreset : CallsReset line
    · rw [answer_reset h hreset]
      have hcmd : commandOf (Lib.cstr line) = some .reset := by
        rw [Lib.cstr_of_notMem hzero]
        exact commandOf_eq_some_iff.mpr hreset
      have hnone : netprotProcessCommand netprotDefaultCommandList objects line outstrLen
        = none := by
        rw [process_of_command hcmd]
        show (netprotCmdReset objects (CommandId.reset.arg (Lib.cstr line)) outstrLen).map _ = none
        rw [netprotCmdReset_sameTable h]
        rfl
      unfold processTurn
      rw [hnone]
      rfl
    · obtain ⟨o, r, -, hanswer, res, hres, hobjects, hread⟩ := answer_command h hzero hnames hreset
      rw [hanswer]
      unfold processTurn
      rw [hres]
      exact ⟨⟨res, rfl, hobjects⟩, hread outstr hout, hread outstr hout⟩
  · -- nothing is written, so the array holds what it held
    rw [answer_unknown hnames]
    have hcmd : commandOf (Lib.cstr line) = none := by
      rw [Lib.cstr_of_notMem hzero]
      exact commandOf_eq_none_iff.mpr hnames
    unfold processTurn
    rw [process_of_unknown hcmd]
    show Turn.Gives ⟨_, _, some (unknownCommand objects), outstr, readString outstr⟩ _
    cases hread : readString outstr with
    | none => rfl
    | some r => exact ⟨⟨_, rfl, rfl⟩, rfl, hread⟩

/-! ## The lines of a chunk -/

/-- The loop over the lines has these replies. -/
def LoopGives (lines : List (List UInt8)) (r : List Turn × LoopEnd) :
    Option (List NetprotObject × List (List UInt8)) → Prop
  | none => r.2 = .undefined
  | some (o, rs) => r.2 = .done o ∧ r.1.map Turn.command = lines ∧ r.1.map Turn.reply = rs.map some

/-- **The loop gives the answers** to its lines. -/
theorem lineLoop_answers {sends : Nat → Bool} (hsends : ∀ k, sends k = true) :
    ∀ (lines : List (List UInt8)) (k : Nat) (objects : List NetprotObject) (outstr : List UInt8),
      SameTable objects netprotObjects → outstr.length = outstrLen → (∀ l ∈ lines, 0 ∉ l) →
      LoopGives lines (lineLoop sends k objects outstr lines)
        (answers objects (readString outstr) lines) := by
  intro lines
  induction lines with
  | nil =>
    intro k objects outstr _ _ _
    exact ⟨rfl, rfl, rfl⟩
  | cons line lines ih =>
    intro k objects outstr h hout hlines
    have hzero : 0 ∉ line := hlines line (by simp)
    have hgives := processTurn_gives h hzero hout
    obtain ⟨hcommand, -, hresult⟩ := processTurn_inputs objects outstr line
    rw [Lib.cstr_of_notMem hzero] at hcommand
    rw [lineLoop, answers]
    cases hanswer : answer objects (readString outstr) line with
    | none =>
      rw [hanswer] at hgives
      have hreply : (processTurn objects outstr line).reply = none := hgives
      show (Turn.andThen _ _ _).2 = .undefined
      unfold Turn.andThen
      rw [hreply]
      cases (processTurn objects outstr line).result <;> rfl
    | some a =>
      obtain ⟨o, r⟩ := a
      rw [hanswer] at hgives
      -- the array now holds the reply, which the lines to come may get again
      obtain ⟨⟨res, hres, rfl⟩, hreply, hread⟩ := hgives
      have htable : SameTable res.objects netprotObjects := by
        rw [hresult] at hres
        exact process_sameTable h hres
      have hrest := ih (k + 1) res.objects (processTurn objects outstr line).outstr htable
        (by rw [length_processTurn_outstr, hout]) fun l hl => hlines l (by simp [hl])
      rw [hread] at hrest
      unfold Turn.andThen
      simp only [hres, hreply, hsends, if_true, Option.bind_some]
      cases hanswers : answers res.objects (some r) lines with
      | none =>
        rw [hanswers] at hrest
        exact hrest
      | some b =>
        rw [hanswers] at hrest
        obtain ⟨hend, hcommands, hreplies⟩ := hrest
        exact ⟨hend, by rw [List.map_cons, hcommand, hcommands], by
          rw [List.map_cons, hreply, hreplies, List.map_cons]⟩

/-! ## When there is an answer -/

/-- The first line, if there is one, names a command. -/
def StartsWithCommand (lines : List (List UInt8)) : Prop := ∀ line ∈ lines.head?, NamesCommand line

instance (lines : List (List UInt8)) : Decidable (StartsWithCommand lines) :=
  inferInstanceAs (Decidable (∀ line ∈ lines.head?, NamesCommand line))

/-- The last reply is of no use to lines that start with a command. -/
theorem answers_of_startsWithCommand {objects : List NetprotObject}
    (h : SameTable objects netprotObjects) {lines : List (List UInt8)} (hlines : ∀ l ∈ lines, 0 ∉ l)
    (hstart : StartsWithCommand lines) (last last' : Option (List UInt8)) :
    answers objects last lines = answers objects last' lines := by
  cases lines with
  | nil => rfl
  | cons line lines =>
    have hnames : NamesCommand line := hstart line rfl
    have hsame : answer objects last line = answer objects last' line := by
      by_cases hreset : CallsReset line
      · rw [answer_reset h hreset, answer_reset h hreset]
      · obtain ⟨o, r, -, hanswer, -⟩ := answer_command h (hlines line (by simp)) hnames hreset
        rw [hanswer, hanswer]
    rw [answers, answers, hsame]

/-- **There is an answer to every line** iff none calls RESET and the first has no need
of a last reply that is not there. -/
theorem answers_isSome_iff :
    ∀ (lines : List (List UInt8)) {objects : List NetprotObject} (last : Option (List UInt8)),
      SameTable objects netprotObjects → (∀ l ∈ lines, 0 ∉ l) →
      ((answers objects last lines).isSome ↔
        (last = none → StartsWithCommand lines) ∧ ∀ l ∈ lines, ¬ CallsReset l) := by
  intro lines
  induction lines with
  | nil =>
    intro objects last _ _
    simp [answers, StartsWithCommand]
  | cons line lines ih =>
    intro objects last h hlines
    have hzero : 0 ∉ line := hlines line (by simp)
    have htail : ∀ l ∈ lines, 0 ∉ l := fun l hl => hlines l (by simp [hl])
    have hstart : StartsWithCommand (line :: lines) ↔ NamesCommand line := by
      simp [StartsWithCommand]
    rw [answers, hstart, List.forall_mem_cons]
    -- a command leaves a reply, so the lines behind it have a last one
    by_cases hreset : CallsReset line
    · rw [answer_reset h hreset]
      simp [hreset]
    · by_cases hnames : NamesCommand line
      · obtain ⟨o, r, htable, hanswer, -⟩ := answer_command h hzero hnames hreset
        rw [hanswer, Option.bind_some, Option.isSome_map, ih (some r) htable htail]
        simp [hreset, hnames]
      · rw [answer_unknown hnames]
        cases last with
        | none => simp [hnames]
        | some r =>
          rw [Option.map_some, Option.bind_some, Option.isSome_map, ih (some r) h htail]
          simp [hreset]

/-- An answer leaves a table of the board. -/
theorem answer_sameTable {objects : List NetprotObject} (h : SameTable objects netprotObjects)
    {line : List UInt8} (hzero : 0 ∉ line) {last : Option (List UInt8)}
    {a : List NetprotObject × List UInt8} (ha : answer objects last line = some a) :
    SameTable a.1 netprotObjects := by
  by_cases hnames : NamesCommand line
  · by_cases hreset : CallsReset line
    · rw [answer_reset h hreset] at ha
      cases ha
    · obtain ⟨o, r, htable, hanswer, -⟩ := answer_command h hzero hnames hreset
      rw [hanswer] at ha
      obtain rfl := Option.some.inj ha
      exact htable
  · rw [answer_unknown hnames] at ha
    obtain ⟨r, -, rfl⟩ := Option.map_eq_some_iff.mp ha
    exact h

theorem answers_sameTable :
    ∀ (lines : List (List UInt8)) {objects : List NetprotObject} {last : Option (List UInt8)}
      {o : List NetprotObject} {rs : List (List UInt8)},
      SameTable objects netprotObjects → (∀ l ∈ lines, 0 ∉ l) →
      answers objects last lines = some (o, rs) → SameTable o netprotObjects := by
  intro lines
  induction lines with
  | nil =>
    intro objects last o rs h _ hanswers
    obtain ⟨rfl, -⟩ := Prod.mk.inj (Option.some.inj hanswers)
    exact h
  | cons line lines ih =>
    intro objects last o rs h hlines hanswers
    rw [answers] at hanswers
    obtain ⟨a, ha, hrest⟩ := Option.bind_eq_some_iff.mp hanswers
    obtain ⟨b, hb, heq⟩ := Option.map_eq_some_iff.mp hrest
    obtain ⟨rfl, -⟩ := Prod.mk.inj heq
    exact ih (answer_sameTable h (hlines line (by simp)) ha)
      (fun l hl => hlines l (by simp [hl])) hb

end Datalogger
