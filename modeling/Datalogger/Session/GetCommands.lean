import Datalogger.Command.Reply
import Datalogger.Lib.Strtok
import Datalogger.Lib.Trace

/-!
# `netprot_get_commands`

A call receives up to 100 bytes, terminates them, and passes each command `strtok` splits
off to `netprot_process_command`; after each it sends what is in the reply array. SET
writes null bytes into the received text while `strtok` is still at work on it.

`commandLoop` is the loop on the array, as the source has it. `commandLoop_eq` says that
on every table of the board it is `lineLoop`, which knows nothing of the array and goes
through the lines of the chunk one by one.

Mirroring notes:
- The two local arrays start with what earlier calls left on the stack, so their contents
  are arguments (`Locals`).
- A chunk of 100 bytes is terminated behind the array, `strlen` of a reply array
  without a null byte reads behind it, and a handler may be undefined: then the call
  has no outcome, and neither has what follows it.
- `send` is given the whole reply. It fails or not as its argument `sends` says for the
  n-th reply of the call; how many bytes it took is not looked at.
- The null byte GET writes at `outstr[100]` is outside the array and left out here.
-/

namespace Datalogger

open Lib (ascii cstr strtok pieces readString applyWrites setZeros)

/-! ## The loop -/

/-- `commandstr_len`. -/
def commandstrLen : Nat := 100

/-- The arrays of a call, as it finds them. -/
structure Locals where
  commandstr : List UInt8
  outstr : List UInt8
  commandstr_length : commandstr.length = commandstrLen
  outstr_length : outstr.length = outstrLen

/-- What `recv` returns when it is given `commandstr_len`. -/
inductive Recv where
  | socketError
  | received (bytes : List UInt8) (fits : bytes.length ≤ commandstrLen)

/-- The delimiters `"\r\n"`. -/
def isNewline (c : UInt8) : Bool := c = 13 || c = 10

theorem isNewline_zero : isNewline 0 = false := by decide

/-- One turn of the loop: the command, the table it found, what became of it, the reply
array behind it and the reply, if there is one. -/
structure Turn where
  command : List UInt8
  objects : List NetprotObject
  result : Option ProcessResult
  outstr : List UInt8
  reply : Option (List UInt8)
  deriving DecidableEq

/-- `/* Process Command */` on the memory at `command`. -/
def processTurn (objects : List NetprotObject) (outstr mem : List UInt8) : Turn :=
  match netprotProcessCommand netprotDefaultCommandList objects mem outstrLen with
  | none =>
    { command := cstr mem, objects := objects, result := none, outstr := outstr, reply := none }
  | some res =>
    { command := cstr mem, objects := objects, result := some res
      outstr := applyWrites outstr res.writes, reply := readString (applyWrites outstr res.writes) }

/-- How the loop ends. -/
inductive LoopEnd where
  | undefined
  | sendError (objects : List NetprotObject)
  | done (objects : List NetprotObject)
  deriving DecidableEq

/-- `/* Send reply */`, and the rest of the loop if that succeeds. -/
def Turn.andThen (t : Turn) (sent : Bool) (rest : ProcessResult → List Turn × LoopEnd) :
    List Turn × LoopEnd :=
  match t.result, t.reply with
  | some res, some _ =>
    if sent then
      let r := rest res
      (t :: r.1, r.2)
    else ([t], .sendError res.objects)
  | _, _ => ([t], .undefined)

/-- `while (command != NULL)`: `pos` is the pointer `strtok` keeps, `k` counts replies. -/
def commandLoop (sends : Nat → Bool) :
    Nat → Nat → List NetprotObject → List UInt8 → List UInt8 → Nat → List Turn × LoopEnd
  | 0, _, _, _, _, _ => ([], .undefined)
  | fuel + 1, k, objects, outstr, mem, pos =>
    match strtok isNewline mem pos with
    | none => ([], .undefined)
    | some none => ([], .done objects)
    | some (some token) =>
      let t := processTurn objects outstr token.text
      t.andThen (sends k) fun res =>
        commandLoop sends fuel (k + 1) res.objects t.outstr
          (setZeros token.mem (res.nulls.map (token.start + ·))) token.saved

/-- What a call returns and leaves; `display` is the attribute whose value it gave to
`sevenseg_set`. -/
structure CallEnd where
  ret : Int32
  objects : List NetprotObject
  display : Option NetprotParam
  deriving DecidableEq

/-- Behind the loop: `/* Update Display if ADC board */`. The result of the search is
not looked at. -/
def LoopEnd.finish : LoopEnd → Option CallEnd
  | .undefined => none
  | .sendError objects => some { ret := -1, objects := objects, display := none }
  | .done objects =>
    match netprotFindObjectAttr objects (ascii "CHANNEL") (ascii "NAME") with
    | some (.ok segname) => some { ret := 0, objects := objects, display := some segname }
    | _ => none

/-- `netprot_get_commands`: the turns of its loop, and how it ends. -/
def netprotGetCommands (locals : Locals) (sends : Nat → Bool) (recv : Recv)
    (objects : List NetprotObject) : List Turn × Option CallEnd :=
  match recv with
  | .socketError => ([], some { ret := -1, objects := objects, display := none })
  | .received bytes _ =>
    if bytes = [] then ([], some { ret := 0, objects := objects, display := none })
    else if commandstrLen ≤ bytes.length then ([], none)
    else
      let commandstr := (bytes ++ locals.commandstr.drop bytes.length).set bytes.length 0
      let r := commandLoop sends commandstrLen 0 objects locals.outstr commandstr 0
      (r.1, r.2.finish)

/-! ## The loop, line by line -/

/-- The loop on the lines alone. -/
def lineLoop (sends : Nat → Bool) :
    Nat → List NetprotObject → List UInt8 → List (List UInt8) → List Turn × LoopEnd
  | _, objects, _, [] => ([], .done objects)
  | k, objects, outstr, line :: lines =>
    let t := processTurn objects outstr line
    t.andThen (sends k) fun res => lineLoop sends (k + 1) res.objects t.outstr lines

/-- The lines of a chunk: its runs without CR, LF and null bytes, up to the first null. -/
def commandLines (bytes : List UInt8) : List (List UInt8) := pieces isNewline (cstr bytes)

theorem Turn.andThen_congr {t : Turn} {sent : Bool} {f g : ProcessResult → List Turn × LoopEnd}
    (h : ∀ res, t.result = some res → f res = g res) : t.andThen sent f = t.andThen sent g := by
  obtain ⟨command, objects, result, outstr, reply⟩ := t
  cases result with
  | none => rfl
  | some res =>
    cases reply with
    | none => rfl
    | some r =>
      unfold Turn.andThen
      simp only [h res rfl]

theorem cstr_cstr (mem : List UInt8) : cstr (cstr mem) = cstr mem :=
  Lib.cstr_of_notMem (Lib.zero_notMem_cstr mem)

/-- A turn sees the string at `command` and nothing behind it. -/
theorem processTurn_cstr (objects : List NetprotObject) (outstr mem : List UInt8) :
    processTurn objects outstr (cstr mem) = processTurn objects outstr mem := by
  unfold processTurn netprotProcessCommand
  rw [cstr_cstr]

/-- A turn is about the line and the table it was given. -/
theorem processTurn_inputs (objects : List NetprotObject) (outstr mem : List UInt8) :
    (processTurn objects outstr mem).command = cstr mem ∧
      (processTurn objects outstr mem).objects = objects ∧
      (processTurn objects outstr mem).result
        = netprotProcessCommand netprotDefaultCommandList objects mem outstrLen := by
  unfold processTurn
  cases netprotProcessCommand netprotDefaultCommandList objects mem outstrLen with
  | none => exact ⟨rfl, rfl, rfl⟩
  | some res => exact ⟨rfl, rfl, rfl⟩

/-- The bytes a command overwrites lie in the line. -/
theorem process_nulls {objects : List NetprotObject} (h : SameTable objects netprotObjects)
    {mem : List UInt8} {res : ProcessResult}
    (hres : netprotProcessCommand netprotDefaultCommandList objects mem outstrLen = some res) :
    ∀ o ∈ res.nulls, o < (cstr mem).length := by
  cases hcmd : commandOf (cstr mem) with
  | none =>
    rw [process_of_unknown hcmd] at hres
    obtain rfl := Option.some.inj hres
    exact nofun
  | some c =>
    rw [process_of_command hcmd] at hres
    obtain ⟨r, hr, rfl⟩ := Option.map_eq_some_iff.mp hres
    have hreset : c ≠ .reset := by
      rintro rfl
      rw [show CommandId.func .reset = netprotCmdReset from rfl, netprotCmdReset_sameTable h] at hr
      cases hr
    obtain ⟨r', hr', -, -, hnulls⟩ := func_safe h hreset (c.arg (cstr mem)) outstrLen
    obtain rfl := Option.some.inj (hr'.symm.trans hr)
    intro o ho
    obtain ⟨o', ho', rfl⟩ := List.mem_map.mp ho
    have hlt := hnulls o' ho'
    unfold CommandId.arg at hlt
    rw [List.length_drop] at hlt
    omega

/-- What a command overwrites lies in front of the place `strtok` goes on from. -/
theorem drop_saved_of_nulls {objects : List NetprotObject} (h : SameTable objects netprotObjects)
    {mem : List UInt8} {pos : Nat} {token : Lib.Token}
    (hspec : Lib.TokenSpec isNewline mem pos token) {res : ProcessResult}
    (hres : netprotProcessCommand netprotDefaultCommandList objects token.text outstrLen
      = some res) :
    (setZeros token.mem (res.nulls.map (token.start + ·))).drop token.saved = token.rest := by
  refine Lib.drop_setZeros fun o ho => ?_
  obtain ⟨o', ho', rfl⟩ := List.mem_map.mp ho
  have hlt := process_nulls h hres o' ho'
  have hinside := hspec.inside
  omega

/-- **The loop on the array is the loop on the lines**: no command writes on the text
`strtok` has still to split. -/
theorem commandLoop_eq (sends : Nat → Bool) :
    ∀ (fuel k : Nat) (objects : List NetprotObject) (outstr mem : List UInt8) (pos : Nat),
      SameTable objects netprotObjects → 0 ∈ mem.drop pos → mem.length ≤ fuel + pos →
      commandLoop sends fuel k objects outstr mem pos
        = lineLoop sends k objects outstr (commandLines (mem.drop pos)) := by
  intro fuel
  induction fuel with
  | zero =>
    intro k objects outstr mem pos _ hzero hfuel
    rw [List.drop_of_length_le (by omega)] at hzero
    cases hzero
  | succ fuel ih =>
    intro k objects outstr mem pos h hzero hfuel
    rw [commandLoop]
    rcases Lib.strtok_cases isNewline_zero hzero with ⟨htok, hpieces⟩ | ⟨token, htok, hspec⟩
    · simp only [htok]
      unfold commandLines
      rw [hpieces, lineLoop]
    · have hlines : commandLines (mem.drop pos) = cstr token.text :: commandLines token.rest :=
        hspec.pieces
      simp only [htok]
      rw [hlines, lineLoop, processTurn_cstr]
      refine Turn.andThen_congr fun res hres => ?_
      rw [(processTurn_inputs objects outstr token.text).2.2] at hres
      have hdrop := drop_saved_of_nulls h hspec hres
      have hprogress := hspec.progress
      have hlength := hspec.length
      rw [ih (k + 1) res.objects _ _ token.saved (process_sameTable h hres) ?_ ?_, hdrop]
      · rw [hdrop]
        exact hspec.terminated
      · rw [Lib.length_setZeros]
        omega

/-! ## A call -/

/-- A line `strtok` can split off a chunk. -/
structure IsLine (line : List UInt8) : Prop where
  nonempty : line ≠ []
  bytes : ∀ c ∈ line, c ≠ 0 ∧ isNewline c = false
  short : line.length < commandstrLen

theorem IsLine.cstr_eq {line : List UInt8} (h : IsLine line) : cstr line = line :=
  Lib.cstr_of_notMem fun hmem => (h.bytes 0 hmem).1 rfl

/-- A line sent on its own is split off as it is. -/
theorem IsLine.commandLines_eq {line : List UInt8} (h : IsLine line) :
    commandLines line = [line] := by
  have hrun : pieces isNewline (line ++ []) = line :: pieces isNewline [] :=
    Lib.pieces_run h.nonempty (fun c hc => (h.bytes c hc).2) rfl
  rw [List.append_nil] at hrun
  unfold commandLines
  rw [h.cstr_eq, hrun]
  rfl

theorem isLine_of_mem {bytes : List UInt8} (hlen : bytes.length < commandstrLen) {line : List UInt8}
    (h : line ∈ commandLines bytes) : IsLine line := by
  obtain ⟨hne, hdelim, hsub⟩ := Lib.mem_pieces line h
  refine ⟨hne, fun c hc => ⟨?_, hdelim c hc⟩, ?_⟩
  · rintro rfl
    exact Lib.zero_notMem_cstr bytes (hsub.subset hc)
  · have hle := hsub.length_le
    have htake : (cstr bytes).length ≤ bytes.length := (List.takeWhile_sublist _).length_le
    omega

/-- The null byte goes over the first byte behind the chunk. -/
theorem commandstr_terminated (locals : Locals) {bytes : List UInt8}
    (hlen : bytes.length < commandstrLen) :
    (bytes ++ locals.commandstr.drop bytes.length).set bytes.length 0
      = bytes ++ 0 :: locals.commandstr.drop (bytes.length + 1) := by
  have hlocals := locals.commandstr_length
  have hcons : locals.commandstr.drop bytes.length
      = locals.commandstr[bytes.length] :: locals.commandstr.drop (bytes.length + 1) :=
    List.drop_eq_getElem_cons (by omega)
  rw [List.set_append_right _ _ (Nat.le_refl _), Nat.sub_self, hcons]
  rfl

/-- **A call** with a chunk that leaves room for the terminator goes through its lines. -/
theorem netprotGetCommands_received {objects : List NetprotObject}
    (h : SameTable objects netprotObjects) (locals : Locals) (sends : Nat → Bool)
    {bytes : List UInt8} (hne : bytes ≠ []) (hlen : bytes.length < commandstrLen)
    (fits : bytes.length ≤ commandstrLen) :
    netprotGetCommands locals sends (.received bytes fits) objects
      = ((lineLoop sends 0 objects locals.outstr (commandLines bytes)).1,
          (lineLoop sends 0 objects locals.outstr (commandLines bytes)).2.finish) := by
  have hlocals := locals.commandstr_length
  have hmem := commandstr_terminated locals hlen
  have hstr : commandLines (bytes ++ 0 :: locals.commandstr.drop (bytes.length + 1))
      = commandLines bytes := by
    unfold commandLines
    rw [Lib.cstr_append_zero']
  simp only [netprotGetCommands, if_neg hne, if_neg (Nat.not_le_of_lt hlen), hmem]
  rw [commandLoop_eq sends commandstrLen 0 objects _ _ 0 h ?_ ?_, List.drop_zero, hstr]
  · rw [List.drop_zero]
    simp
  · rw [← hmem, List.length_set, List.length_append, List.length_drop]
    omega

/-! ## Runs of calls -/

/-- One call: the arrays it finds, what `send` does and what `recv` returns. -/
structure Call where
  locals : Locals
  sends : Nat → Bool
  recv : Recv

/-- The table behind a call, if what came before is defined. -/
def commandStep : Option (List NetprotObject) → Call → Option (List NetprotObject) × List Turn
  | none, _ => (none, [])
  | some objects, c =>
    let r := netprotGetCommands c.locals c.sends c.recv objects
    (r.2.map CallEnd.objects, r.1)

/-- The table and the turns of a run of calls, in this session or later ones. -/
def commandSession (objects : List NetprotObject) (calls : List Call) :
    Option (List NetprotObject) × List Turn := Lib.run commandStep (some objects) calls

/-- The tables the calls can have reached. -/
def Reached (objects : List NetprotObject) : Prop :=
  ∃ calls, (commandSession netprotObjects calls).1 = some objects

/-- A turn of a run. -/
structure TurnSpec (t : Turn) : Prop where
  line : IsLine t.command
  table : SameTable t.objects netprotObjects
  processed : ∃ outstr, outstr.length = outstrLen ∧ t = processTurn t.objects outstr t.command

/-- The three ways a turn goes on. -/
theorem Turn.andThen_rule {t : Turn} {sent : Bool} {rest : ProcessResult → List Turn × LoopEnd}
    {P : List Turn × LoopEnd → Prop} (undefined : P ([t], .undefined))
    (sendError : ∀ res, t.result = some res → P ([t], .sendError res.objects))
    (goesOn : ∀ res, t.result = some res → t.reply.isSome → P (t :: (rest res).1, (rest res).2)) :
    P (t.andThen sent rest) := by
  obtain ⟨command, objects, result, outstr, reply⟩ := t
  cases result with
  | none => exact undefined
  | some res =>
    cases reply with
    | none => exact undefined
    | some r =>
      cases sent with
      | false => exact sendError res rfl
      | true => exact goesOn res rfl rfl

theorem length_processTurn_outstr (objects : List NetprotObject) (outstr mem : List UInt8) :
    (processTurn objects outstr mem).outstr.length = outstr.length := by
  unfold processTurn
  cases netprotProcessCommand netprotDefaultCommandList objects mem outstrLen with
  | none => rfl
  | some res => exact Lib.length_applyWrites outstr res.writes

/-- The table a loop leaves. -/
def LoopEnd.objects : LoopEnd → Option (List NetprotObject)
  | .undefined => none
  | .sendError objects => some objects
  | .done objects => some objects

theorem LoopEnd.objects_of_finish {e : LoopEnd} {c : CallEnd} (h : e.finish = some c) :
    e.objects = some c.objects := by
  cases e with
  | undefined => cases h
  | sendError objects =>
    obtain rfl := Option.some.inj h
    rfl
  | done objects =>
    simp only [LoopEnd.finish] at h
    split at h
    · obtain rfl := Option.some.inj h
      rfl
    · cases h

/-- Commands processed one by one lead from one table to another. -/
def LeadsTo (t u : List NetprotObject) : Prop := ∃ lines, runLines outstrLen t lines = some u

theorem LeadsTo.trans {t u v : List NetprotObject} (h : LeadsTo t u) (h' : LeadsTo u v) :
    LeadsTo t v := by
  obtain ⟨lines, hlines⟩ := h
  obtain ⟨lines', hlines'⟩ := h'
  exact ⟨lines ++ lines', (runLines_append lines lines' hlines).trans hlines'⟩

theorem LeadsTo.sameTable {t u : List NetprotObject} (h : LeadsTo t u)
    (ht : SameTable t netprotObjects) : SameTable u netprotObjects := by
  obtain ⟨lines, hlines⟩ := h
  exact runLines_sameTable lines ht hlines

/-- `I` is kept by every line `strtok` can split off. -/
def KeptByLines (I : List NetprotObject → Prop) : Prop :=
  ∀ {objects line res}, SameTable objects netprotObjects → IsLine line → I objects →
    netprotProcessCommand netprotDefaultCommandList objects line outstrLen = some res →
      I res.objects

theorem leadsTo_kept (start : List NetprotObject) : KeptByLines (LeadsTo start) := by
  intro objects line res _ _ hled hres
  exact hled.trans ⟨[line], by rw [runLines, hres]; rfl⟩

/-- Every turn of the loop, and what holds of the table it leaves. -/
theorem lineLoop_spec {I : List NetprotObject → Prop} (hI : KeptByLines I) (sends : Nat → Bool) :
    ∀ (lines : List (List UInt8)) (k : Nat) (objects : List NetprotObject) (outstr : List UInt8),
      SameTable objects netprotObjects → I objects → outstr.length = outstrLen →
      (∀ l ∈ lines, IsLine l) →
      (∀ t ∈ (lineLoop sends k objects outstr lines).1, TurnSpec t) ∧
        ∀ o, (lineLoop sends k objects outstr lines).2.objects = some o → I o := by
  intro lines
  induction lines with
  | nil =>
    intro k objects outstr _ hi _ _
    refine ⟨nofun, fun o ho => ?_⟩
    obtain rfl := Option.some.inj ho
    exact hi
  | cons line lines ih =>
    intro k objects outstr h hi hlen hlines
    obtain ⟨hcommand, hobjects, hresult⟩ := processTurn_inputs objects outstr line
    have hline := hlines line (by simp)
    rw [hline.cstr_eq] at hcommand
    have hturn : TurnSpec (processTurn objects outstr line) := by
      refine ⟨by rw [hcommand]; exact hline, by rw [hobjects]; exact h, outstr, hlen, ?_⟩
      rw [hobjects, hcommand]
    have hnext : ∀ res, (processTurn objects outstr line).result = some res →
        SameTable res.objects netprotObjects ∧ I res.objects := by
      intro res hres
      rw [hresult] at hres
      exact ⟨process_sameTable h hres, hI h hline hi hres⟩
    rw [lineLoop]
    refine Turn.andThen_rule (P := fun r => (∀ t ∈ r.1, TurnSpec t) ∧
      ∀ o, r.2.objects = some o → I o) ?_ ?_ ?_
    · exact ⟨by simpa using hturn, nofun⟩
    · -- the send failed, and the line has been processed
      intro res hres
      refine ⟨by simpa using hturn, fun o ho => ?_⟩
      obtain rfl := Option.some.inj ho
      exact (hnext res hres).2
    · intro res hres _
      obtain ⟨hturns, hend⟩ := ih (k + 1) res.objects (processTurn objects outstr line).outstr
        (hnext res hres).1 (hnext res hres).2 (by rw [length_processTurn_outstr, hlen])
        fun l hl => hlines l (by simp [hl])
      refine ⟨fun t ht => ?_, hend⟩
      rcases List.mem_cons.mp ht with rfl | ht
      · exact hturn
      · exact hturns t ht

/-- One call: its turns are turns on lines, and what every line keeps holds of the table it
leaves. -/
theorem netprotGetCommands_spec {I : List NetprotObject → Prop} (hI : KeptByLines I)
    {objects : List NetprotObject} (h : SameTable objects netprotObjects) (hi : I objects)
    (c : Call) :
    (∀ t ∈ (netprotGetCommands c.locals c.sends c.recv objects).1, TurnSpec t) ∧
      ∀ e, (netprotGetCommands c.locals c.sends c.recv objects).2 = some e → I e.objects := by
  obtain ⟨locals, sends, recv⟩ := c
  cases recv with
  | socketError =>
    refine ⟨nofun, fun e he => ?_⟩
    obtain rfl := Option.some.inj he
    exact hi
  | received bytes fits =>
    by_cases hne : bytes = []
    · simp only [netprotGetCommands, if_pos hne]
      refine ⟨nofun, fun e he => ?_⟩
      obtain rfl := Option.some.inj he
      exact hi
    · by_cases hlen : bytes.length < commandstrLen
      · rw [netprotGetCommands_received h locals sends hne hlen fits]
        obtain ⟨hturns, hend⟩ :=
          lineLoop_spec hI sends (commandLines bytes) 0 objects locals.outstr h hi
          locals.outstr_length fun l hl => isLine_of_mem hlen hl
        exact ⟨hturns, fun e he => hend e.objects (LoopEnd.objects_of_finish he)⟩
      · -- the chunk fills the array, and the terminator falls behind it
        simp only [netprotGetCommands, if_neg hne, if_pos (Nat.le_of_not_lt hlen)]
        exact ⟨nofun, nofun⟩

/-- A state some run of commands leads to from `start`, as long as it is defined. -/
def Led (start : List NetprotObject) (state : Option (List NetprotObject)) : Prop :=
  ∀ objects, state = some objects → LeadsTo start objects

theorem commandStep_spec {start : List NetprotObject} (hstart : SameTable start netprotObjects)
    {state : Option (List NetprotObject)} (h : Led start state) (c : Call) :
    Led start (commandStep state c).1 ∧ ∀ t ∈ (commandStep state c).2, TurnSpec t := by
  cases state with
  | none => exact ⟨nofun, nofun⟩
  | some objects =>
    have hled := h objects rfl
    obtain ⟨hturns, hend⟩ :=
      netprotGetCommands_spec (leadsTo_kept start) (hled.sameTable hstart) hled c
    refine ⟨fun o ho => ?_, hturns⟩
    obtain ⟨e, he, rfl⟩ := Option.map_eq_some_iff.mp ho
    exact hend e he

/-- **Every run** processes lines, and they lead to its table. -/
theorem commandSession_spec {objects : List NetprotObject} (h : SameTable objects netprotObjects)
    (calls : List Call) :
    Led objects (commandSession objects calls).1 ∧
      ∀ t ∈ (commandSession objects calls).2, TurnSpec t := by
  have hstart : Led objects (some objects) := by
    intro o ho
    obtain rfl := Option.some.inj ho
    exact ⟨[], rfl⟩
  exact ⟨Lib.run_invariant hstart (fun _ c hs => (commandStep_spec h hs c).1) calls,
    Lib.run_outputs hstart (fun _ c hs => (commandStep_spec h hs c).1)
      (fun _ c hs => (commandStep_spec h hs c).2) calls⟩

/-- **The tables of the board's sessions** are tables that command lines lead to. -/
theorem Reached.reachable {objects : List NetprotObject} (h : Reached objects) :
    Reachable objects := by
  obtain ⟨calls, hcalls⟩ := h
  obtain ⟨lines, hlines⟩ := (commandSession_spec rfl calls).1 objects hcalls
  exact ⟨outstrLen, lines, hlines⟩

theorem Reached.sameTable {objects : List NetprotObject} (h : Reached objects) :
    SameTable objects netprotObjects := h.reachable.sameTable

/-- **An invariant of the lines** holds of every table the board can have reached. -/
theorem Reached.keeps {I : List NetprotObject → Prop} (hI : KeptByLines I)
    (hinit : I netprotObjects)
    {objects : List NetprotObject} (h : Reached objects) : I objects := by
  obtain ⟨calls, hcalls⟩ := h
  have hboth : KeptByLines fun o => SameTable o netprotObjects ∧ I o := fun h hline hi hres =>
    ⟨process_sameTable h hres, hI h hline hi.2 hres⟩
  have hinv : ∀ o, (Lib.run commandStep (some netprotObjects) calls).1 = some o →
      SameTable o netprotObjects ∧ I o := by
    refine Lib.run_invariant
      (I := fun state => ∀ o, state = some o → SameTable o netprotObjects ∧ I o)
      ?_ ?_ calls
    · intro o ho
      obtain rfl := Option.some.inj ho
      exact ⟨rfl, hinit⟩
    · intro state c hstate o ho
      cases state with
      | none => cases ho
      | some objects =>
        have hi := hstate objects rfl
        obtain ⟨e, he, rfl⟩ := Option.map_eq_some_iff.mp ho
        exact (netprotGetCommands_spec hboth hi.1 hi c).2 e he
  exact (hinv objects hcalls).2

end Datalogger
