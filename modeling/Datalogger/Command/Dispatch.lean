import Datalogger.Command.Handlers

/-!
# `netprot_process_command`

A command line is matched against the names of a command list, in order, by `strncmp`
over the length of the name, and the first that is a prefix of the line is called on
the text behind it.

The seven commands of the default list are also an enumeration, `CommandId`:
`commandOf` is the one a line calls, and `process_default` states the dispatcher in
these terms, which is all the later modules use of it.

Mirroring notes:
- A command list is the entries before the `{"", NULL}` one.
- The line is given as the memory at `in`, and the string in it is what is matched.
- No caller passes a null pointer, so the check for them is left out.
-/

namespace Datalogger

open Lib (CharArray Write ascii cstr strncmp)

/-- `netprot_command`, with `NETPROT_CMD_NAME_MAXLEN` 20. -/
structure NetprotCommand where
  name : CharArray 20
  func : Handler

/-- What `netprot_process_command` did: a handler's result, with the offsets of the
overwritten bytes from `in`, and the name and argument of the command it called. -/
structure ProcessResult where
  ret : Int32
  writes : List Write
  nulls : List Nat
  objects : List NetprotObject
  calls : List DriverCall
  called : Option (List UInt8 × List UInt8)
  deriving DecidableEq

/-- The result of a call of the command `name`. -/
def HandlerResult.process (name inp : List UInt8) (r : HandlerResult) : ProcessResult :=
  { ret := r.ret, writes := r.writes, nulls := r.nulls.map (name.length + ·)
    objects := r.objects, calls := r.calls
    called := some (name, inp.drop name.length) }

/-- The loop over the commands, with `diff` from the command before. -/
def processLoop (diff : Int) (objects : List NetprotObject) (inp : List UInt8) (outsize : Nat) :
    List NetprotCommand → Option ProcessResult
  | [] => some
    { ret := if diff ≠ 0 then -1 else 0
      writes := [], nulls := [], objects := objects, calls := [], called := none }
  | cmd :: commands =>
    let diff := strncmp inp cmd.name.text cmd.name.text.length
    if diff = 0 then
      (cmd.func objects (inp.drop cmd.name.text.length) outsize).map
        (HandlerResult.process cmd.name.text inp)
    else processLoop diff objects inp outsize commands

/-- `netprot_process_command`. -/
def netprotProcessCommand (commands : List NetprotCommand) (objects : List NetprotObject)
    (inp : List UInt8) (outsize : Nat) : Option ProcessResult :=
  processLoop 0 objects (cstr inp) outsize commands

/-- `netprot_default_command_list`. -/
def netprotDefaultCommandList : List NetprotCommand :=
  [{ name := ⟨ascii "+OK", by decide, by decide⟩, func := netprotCmdOk },
   { name := ⟨ascii "PING", by decide, by decide⟩, func := netprotCmdPing },
   { name := ⟨ascii "SET", by decide, by decide⟩, func := netprotCmdSet },
   { name := ⟨ascii "GET", by decide, by decide⟩, func := netprotCmdGet },
   { name := ⟨ascii "START", by decide, by decide⟩, func := netprotCmdStart },
   { name := ⟨ascii "STOP", by decide, by decide⟩, func := netprotCmdStop },
   { name := ⟨ascii "RESET", by decide, by decide⟩, func := netprotCmdReset }]

/-! ## The seven commands -/

/-- The entries of the default list. -/
inductive CommandId where
  | ok
  | ping
  | set
  | get
  | start
  | stop
  | reset
  deriving DecidableEq, Repr

def CommandId.all : List CommandId := [.ok, .ping, .set, .get, .start, .stop, .reset]

def CommandId.entry : CommandId → NetprotCommand
  | .ok => { name := ⟨ascii "+OK", by decide, by decide⟩, func := netprotCmdOk }
  | .ping => { name := ⟨ascii "PING", by decide, by decide⟩, func := netprotCmdPing }
  | .set => { name := ⟨ascii "SET", by decide, by decide⟩, func := netprotCmdSet }
  | .get => { name := ⟨ascii "GET", by decide, by decide⟩, func := netprotCmdGet }
  | .start => { name := ⟨ascii "START", by decide, by decide⟩, func := netprotCmdStart }
  | .stop => { name := ⟨ascii "STOP", by decide, by decide⟩, func := netprotCmdStop }
  | .reset => { name := ⟨ascii "RESET", by decide, by decide⟩, func := netprotCmdReset }

/-- The name of a command. -/
def CommandId.name (c : CommandId) : List UInt8 := c.entry.name.text

/-- Its function. -/
def CommandId.func (c : CommandId) : Handler := c.entry.func

theorem default_list_eq : netprotDefaultCommandList = CommandId.all.map CommandId.entry := rfl

/-- The command a line calls: the first whose name the line starts with. -/
def commandOf (line : List UInt8) : Option CommandId :=
  CommandId.all.find? fun c => c.name.isPrefixOf line

/-- The text behind the name of the command. -/
def CommandId.arg (c : CommandId) (line : List UInt8) : List UInt8 := line.drop c.name.length

/-- What a line that names no command leaves: nothing written, and an error. -/
def unknownCommand (objects : List NetprotObject) : ProcessResult :=
  { ret := -1, writes := [], nulls := [], objects := objects, calls := [], called := none }

/-- The call of a command on the text behind its name. -/
def NetprotCommand.call (cmd : NetprotCommand) (objects : List NetprotObject) (inp : List UInt8)
    (outsize : Nat) : Option ProcessResult :=
  (cmd.func objects (inp.drop cmd.name.text.length) outsize).map
    (HandlerResult.process cmd.name.text inp)

/-- The loop calls the first command that matches. -/
theorem processLoop_eq (objects : List NetprotObject) (inp : List UInt8) (outsize : Nat) :
    ∀ (commands : List NetprotCommand) (diff : Int), diff ≠ 0 ∨ commands ≠ [] →
      processLoop diff objects inp outsize commands
        = match commands.find? fun cmd => cmd.name.text.isPrefixOf inp with
          | none => some (unknownCommand objects)
          | some cmd => cmd.call objects inp outsize := by
  intro commands
  induction commands with
  | nil =>
    intro diff hdiff
    have hne : diff ≠ 0 := hdiff.resolve_right fun h => h rfl
    rw [processLoop, if_pos hne]
    rfl
  | cons cmd commands ih =>
    intro diff _
    rw [processLoop, List.find?_cons]
    show (if strncmp inp cmd.name.text cmd.name.text.length = 0 then _ else _) = _
    have hcmp : strncmp inp cmd.name.text cmd.name.text.length = 0 ↔
        cmd.name.text.isPrefixOf inp = true :=
      (Lib.strncmp_eq_zero_iff cmd.name.nulFree).trans List.isPrefixOf_iff_prefix.symm
    -- a command that does not match leaves a `diff` that is not zero
    by_cases hmatch : cmd.name.text.isPrefixOf inp = true
    · rw [if_pos (hcmp.mpr hmatch), hmatch]
      rfl
    · have hdiff : strncmp inp cmd.name.text cmd.name.text.length ≠ 0 :=
        fun h0 => hmatch (hcmp.mp h0)
      rw [if_neg hdiff, eq_false_of_ne_true hmatch]
      exact ih _ (Or.inl hdiff)

/-- **The dispatcher**, on a list that is not empty. -/
theorem process_eq {commands : List NetprotCommand} (h : commands ≠ [])
    (objects : List NetprotObject) (inp : List UInt8) (outsize : Nat) :
    netprotProcessCommand commands objects inp outsize
      = match commands.find? fun cmd => cmd.name.text.isPrefixOf (cstr inp) with
        | none => some (unknownCommand objects)
        | some cmd => cmd.call objects (cstr inp) outsize :=
  processLoop_eq objects (cstr inp) outsize commands 0 (Or.inr h)

/-- On the default list. -/
theorem process_default (objects : List NetprotObject) (inp : List UInt8) (outsize : Nat) :
    netprotProcessCommand netprotDefaultCommandList objects inp outsize
      = match commandOf (cstr inp) with
        | none => some (unknownCommand objects)
        | some c => (c.func objects (c.arg (cstr inp)) outsize).map
            (HandlerResult.process c.name (cstr inp)) := by
  rw [default_list_eq, process_eq (by decide), List.find?_map]
  show (match Option.map CommandId.entry (commandOf (cstr inp)) with
    | none => _
    | some cmd => _) = _
  cases commandOf (cstr inp) with
  | none => rfl
  | some c => rfl

theorem process_of_unknown {line : List UInt8} (h : commandOf (cstr line) = none)
    (objects : List NetprotObject) (outsize : Nat) :
    netprotProcessCommand netprotDefaultCommandList objects line outsize
      = some (unknownCommand objects) := by
  rw [process_default, h]

theorem process_of_command {line : List UInt8} {c : CommandId} (h : commandOf (cstr line) = some c)
    (objects : List NetprotObject) (outsize : Nat) :
    netprotProcessCommand netprotDefaultCommandList objects line outsize
      = (c.func objects (c.arg (cstr line)) outsize).map
          (HandlerResult.process c.name (cstr line)) := by
  rw [process_default, h]

/-- A line that calls a command starts with its name. -/
theorem prefix_of_commandOf {line : List UInt8} {c : CommandId} (h : commandOf line = some c) :
    c.name <+: line := by
  have hmatch := List.find?_some h
  exact List.isPrefixOf_iff_prefix.mp hmatch

/-- No name is a prefix of another. -/
theorem name_prefixFree {c d : CommandId} (h : c.name <+: d.name) : c = d := by
  cases c <;> cases d <;> first | rfl | exact absurd h (by decide)

/-- A line calls the command whose name it starts with, and there is at most one. -/
theorem commandOf_eq_some_iff {line : List UInt8} {c : CommandId} :
    commandOf line = some c ↔ c.name <+: line := by
  refine ⟨prefix_of_commandOf, fun h => ?_⟩
  cases hcmd : commandOf line with
  | none =>
    have hmem : c ∈ CommandId.all := by cases c <;> decide
    exact absurd (List.isPrefixOf_iff_prefix.mpr h) (List.find?_eq_none.mp hcmd c hmem)
  | some d =>
    rcases List.prefix_or_prefix_of_prefix h (prefix_of_commandOf hcmd) with hpre | hpre
    · rw [name_prefixFree hpre]
    · rw [name_prefixFree hpre]

/-- The line starts with the name of a command. -/
def NamesCommand (line : List UInt8) : Prop := ∃ c : CommandId, c.name <+: line

theorem commandOf_eq_none_iff {line : List UInt8} :
    commandOf line = none ↔ ¬ NamesCommand line := by
  cases hcmd : commandOf line with
  | none =>
    refine ⟨fun _ hnames => ?_, fun _ => rfl⟩
    obtain ⟨c, hc⟩ := hnames
    rw [commandOf_eq_some_iff.mpr hc] at hcmd
    cases hcmd
  | some c => exact ⟨nofun, fun h => absurd ⟨c, prefix_of_commandOf hcmd⟩ h⟩

instance (line : List UInt8) : Decidable (NamesCommand line) :=
  decidable_of_iff (commandOf line ≠ none) (by rw [ne_eq, commandOf_eq_none_iff, not_not])

end Datalogger
