import Datalogger.Command.Store
import Datalogger.Lib.Keywords

/-!
# Which command a line calls

The dispatcher takes the first name that the line starts with and does not look for the
end of the word there, so the line `PINGX` calls `PING`. On a list of distinct words it
goes by the whole first word of the line if and only if the list has a command at all and
no shorter prefix of that word stands in front of it (`dispatchesByWord_exact`). On an
empty list `diff` is still zero behind the loop, which then counts as a call.
-/

namespace Datalogger

open Lib (ascii cstr isSpace Unshadowed)

/-- The first word of a line. -/
def firstWord (line : List UInt8) : List UInt8 := (cstr line).takeWhile fun c => !isSpace c

/-- The names of a list. -/
def commandNames (commands : List NetprotCommand) : List (List UInt8) :=
  commands.map fun cmd => cmd.name.text

/-- A list of commands with distinct words for names. -/
structure CommandTable (commands : List NetprotCommand) : Prop where
  words : ∀ name ∈ commandNames commands, name ≠ [] ∧ ∀ c ∈ name, (!isSpace c) = true
  distinct : (commandNames commands).Nodup

/-- The command the first word names is called, and none is if it names none. -/
structure DispatchesByWord (commands : List NetprotCommand) (line : List UInt8) : Prop where
  calls : ∀ cmd ∈ commands, cmd.name.text = firstWord line → ∀ objects outsize,
    netprotProcessCommand commands objects line outsize = cmd.call objects (cstr line) outsize
  unknown : firstWord line ∉ commandNames commands → ∀ objects outsize,
    netprotProcessCommand commands objects line outsize = some (unknownCommand objects)

/-- The function has a table on which it comes back. -/
def NetprotCommand.Returns (cmd : NetprotCommand) : Prop :=
  ∀ inp, ∃ objects outsize r, cmd.func objects inp outsize = some r

/-- Nothing but its own name stands in the way of the first word. -/
def WordTold (commands : List NetprotCommand) (line : List UInt8) : Prop :=
  commands ≠ [] ∧ Unshadowed (commandNames commands) (firstWord line)

instance (commands : List NetprotCommand) (line : List UInt8) :
    Decidable (WordTold commands line) :=
  inferInstanceAs (Decidable (_ ∧ _))

/-- A name is a prefix of the line if it is one of the first word. -/
theorem CommandTable.prefix_firstWord_iff {commands : List NetprotCommand}
    (h : CommandTable commands) {name : List UInt8} (hname : name ∈ commandNames commands)
    (line : List UInt8) : name <+: firstWord line ↔ name <+: cstr line :=
  Lib.prefix_takeWhile_iff (h.words name hname).2

theorem getElem?_commandNames {commands : List NetprotCommand} {i : Nat} {name : List UInt8} :
    (commandNames commands)[i]? = some name ↔
      ∃ cmd, commands[i]? = some cmd ∧ cmd.name.text = name := by
  unfold commandNames
  rw [List.getElem?_map, Option.map_eq_some_iff]

/-- The dispatcher calls the command the word names. -/
theorem process_told {commands : List NetprotCommand} (h : CommandTable commands)
    {line : List UInt8} (htold : WordTold commands line) {cmd : NetprotCommand}
    (hcmd : cmd ∈ commands) (hword : cmd.name.text = firstWord line) (objects : List NetprotObject)
    (outsize : Nat) :
    netprotProcessCommand commands objects line outsize = cmd.call objects (cstr line) outsize := by
  obtain ⟨i, hi, rfl⟩ := List.mem_iff_getElem.mp hcmd
  have hmem : ∀ (j : Nat) (hj : j < commands.length),
    commands[j].name.text ∈ commandNames commands :=
    fun j hj => List.mem_map_of_mem (List.getElem_mem hj)
  have hget : ∀ (j : Nat) (hj : j < commands.length),
      (commandNames commands)[j]? = some commands[j].name.text :=
    fun j hj => getElem?_commandNames.mpr ⟨_, List.getElem?_eq_getElem hj, rfl⟩
  have hinj : ∀ {j k : Nat} (hj : j < commands.length) (hk : k < commands.length),
      commands[j].name.text = commands[k].name.text → j = k := by
    intro j k hj hk heq
    have hlen : j < (commandNames commands).length := by rwa [commandNames, List.length_map]
    exact (List.getElem?_inj hlen h.distinct).mp (by rw [hget j hj, hget k hk, heq])
  have hfind : (commands.find? fun cmd => cmd.name.text.isPrefixOf (cstr line))
      = some commands[i] := by
    refine List.find?_eq_some_iff_getElem.mpr ⟨?_, i, hi, rfl, fun j hj => ?_⟩
    · have hpre : commands[i].name.text <+: firstWord line := hword ▸ List.prefix_rfl
      exact List.isPrefixOf_iff_prefix.mpr ((h.prefix_firstWord_iff (hmem i hi) line).mp hpre)
    · -- a shorter prefix would stand behind the word
      have hjlt : j < commands.length := Nat.lt_trans hj hi
      rw [Bool.not_eq_true', Bool.eq_false_iff, ne_eq, List.isPrefixOf_iff_prefix,
        ← h.prefix_firstWord_iff (hmem j hjlt)]
      intro hpre
      have hne : commands[j].name.text ≠ firstWord line := by
        intro heq
        exact absurd (hinj hjlt hi (heq.trans hword.symm)) (Nat.ne_of_lt hj)
      obtain ⟨k, hk, hname⟩ := htold.2 j _ (hget j hjlt) hpre hne
      obtain ⟨cmd, hk', hcmd⟩ := getElem?_commandNames.mp hname
      obtain ⟨hklt, rfl⟩ := List.getElem?_eq_some_iff.mp hk'
      have hki := hinj hklt hi (hcmd.trans hword.symm)
      omega
  rw [process_eq htold.1, hfind]

/-- It calls none for a word that names none. -/
theorem process_untold {commands : List NetprotCommand} (h : CommandTable commands)
    {line : List UInt8} (htold : WordTold commands line)
    (hword : firstWord line ∉ commandNames commands) (objects : List NetprotObject)
    (outsize : Nat) :
    netprotProcessCommand commands objects line outsize = some (unknownCommand objects) := by
  have hfind : (commands.find? fun cmd => cmd.name.text.isPrefixOf (cstr line)) = none := by
    refine List.find?_eq_none.mpr fun cmd hcmd hpre => hword ?_
    have hname : cmd.name.text ∈ commandNames commands := List.mem_map_of_mem hcmd
    rw [List.isPrefixOf_iff_prefix, ← h.prefix_firstWord_iff hname] at hpre
    obtain ⟨i, hi⟩ := List.mem_iff_getElem?.mp hname
    by_cases heq : cmd.name.text = firstWord line
    · rwa [heq] at hname
    · obtain ⟨j, -, hj⟩ := htold.2 i _ hi hpre heq
      exact List.mem_of_getElem? hj
  rw [process_eq htold.1, hfind]

/-- The name of a command that was called stands in its result. -/
theorem NetprotCommand.Returns.called {cmd : NetprotCommand} (h : cmd.Returns) (inp : List UInt8) :
    ∃ objects outsize r, cmd.call objects inp outsize = some r ∧
      r.called = some (cmd.name.text, inp.drop cmd.name.text.length) := by
  obtain ⟨objects, outsize, r, hr⟩ := h (inp.drop cmd.name.text.length)
  refine ⟨objects, outsize, r.process cmd.name.text inp, ?_, rfl⟩
  unfold NetprotCommand.call
  rw [hr]
  rfl

theorem NetprotCommand.called_of_call {cmd : NetprotCommand} {objects : List NetprotObject}
    {inp : List UInt8} {outsize : Nat} {r : ProcessResult}
    (h : cmd.call objects inp outsize = some r) :
    r.called = some (cmd.name.text, inp.drop cmd.name.text.length) := by
  obtain ⟨r', -, rfl⟩ := Option.map_eq_some_iff.mp h
  rfl

/-- Where the word decides, no shorter prefix of it stands in front of it. -/
theorem wordTold_of_dispatches {commands : List NetprotCommand} (h : CommandTable commands)
    {line : List UInt8} (hreturns : ∀ cmd ∈ commands, cmd.Returns)
    (hword : DispatchesByWord commands line) : WordTold commands line := by
  have hne : commands ≠ [] := by
    intro hnil
    subst hnil
    have hproc := hword.unknown List.not_mem_nil [] 0
    have hret : (netprotProcessCommand [] [] line 0).map ProcessResult.ret = some 0 := rfl
    rw [hproc] at hret
    exact absurd hret (by decide)
  refine ⟨hne, fun i name hi hpre hlonger => ?_⟩
  rw [h.prefix_firstWord_iff (List.mem_of_getElem? hi)] at hpre
  obtain ⟨cmd, hget, rfl⟩ := getElem?_commandNames.mp hi
  obtain ⟨hlt, rfl⟩ := List.getElem?_eq_some_iff.mp hget
  -- the command that is called, and a result of the call
  cases hfind : commands.find? fun cmd => cmd.name.text.isPrefixOf (cstr line) with
  | none =>
    have hnot := List.find?_eq_none.mp hfind _ (List.getElem_mem hlt)
    exact absurd (List.isPrefixOf_iff_prefix.mpr hpre) hnot
  | some first =>
    obtain ⟨-, k, hk, rfl, hbefore⟩ := List.find?_eq_some_iff_getElem.mp hfind
    obtain ⟨objects, outsize, r, hcall, hcalled⟩ :=
      (hreturns _ (List.getElem_mem hk)).called (cstr line)
    have hproc := process_eq hne objects line outsize
    rw [hfind] at hproc
    have hproc : netprotProcessCommand commands objects line outsize = some r := hproc.trans hcall
    by_cases hmem : firstWord line ∈ commandNames commands
    · obtain ⟨cmd, hcmd, hname⟩ := List.mem_map.mp hmem
      rw [hword.calls cmd hcmd hname objects outsize] at hproc
      have hsame := (cmd.called_of_call hproc).symm.trans hcalled
      have hkname : commands[k].name.text = firstWord line :=
        (Prod.mk.inj (Option.some.inj hsame)).1.symm.trans hname
      refine ⟨k, ?_, getElem?_commandNames.mpr ⟨_, List.getElem?_eq_getElem hk, hkname⟩⟩
      -- it stands in front of the shorter one
      rcases Nat.lt_trichotomy k i with hki | hki | hki
      · exact hki
      · subst hki
        exact absurd hkname hlonger
      · have hnot := hbefore i hki
        rw [List.isPrefixOf_iff_prefix.mpr hpre] at hnot
        cases hnot
    · rw [hword.unknown hmem objects outsize] at hproc
      obtain rfl := Option.some.inj hproc
      cases hcalled

/-- **Dispatch is by whole word** on the lines whose first word is not shadowed, and, if
the functions of the list come back at all, on no others. -/
theorem dispatchesByWord_exact {commands : List NetprotCommand} (h : CommandTable commands)
    (line : List UInt8) :
    (WordTold commands line → DispatchesByWord commands line) ∧
      ((∀ cmd ∈ commands, cmd.Returns) →
        (DispatchesByWord commands line ↔ WordTold commands line)) := by
  have htold : WordTold commands line → DispatchesByWord commands line := by
    intro htold
    refine ⟨fun cmd hcmd hword objects outsize => ?_, fun hword objects outsize => ?_⟩
    · exact process_told h htold hcmd hword objects outsize
    · exact process_untold h htold hword objects outsize
  exact ⟨htold, fun hreturns => ⟨wordTold_of_dispatches h hreturns, htold⟩⟩

theorem defaultList_commandTable : CommandTable netprotDefaultCommandList where
  words := by decide +kernel
  distinct := by decide +kernel

/-- Every function of the default list comes back, RESET on a table without objects. -/
theorem defaultList_returns : ∀ cmd ∈ netprotDefaultCommandList, cmd.Returns := by
  intro cmd hcmd inp
  rw [default_list_eq] at hcmd
  obtain ⟨c, -, rfl⟩ := List.mem_map.mp hcmd
  by_cases hreset : c = .reset
  · subst hreset
    exact ⟨[objectTerminator], 0, _, rfl⟩
  · obtain ⟨res, hres, -⟩ := func_safe (rfl : SameTable netprotObjects netprotObjects) hreset inp 0
    exact ⟨netprotObjects, 0, res, hres⟩

/-- A line of the board. -/
theorem dispatchesByWord_set :
    DispatchesByWord netprotDefaultCommandList (ascii "SET CHANNEL DELAY=5") :=
  ((dispatchesByWord_exact defaultList_commandTable _).2 defaultList_returns).mpr
    (by decide +kernel)

/-- `PINGX` calls `PING`, and on the empty list every line counts as a call. -/
theorem not_dispatchesByWord_longer :
    ¬ DispatchesByWord netprotDefaultCommandList (ascii "PINGX") ∧
      ¬ DispatchesByWord [] (ascii "PING") := by
  refine ⟨fun h => ?_, fun h => ?_⟩
  · have hproc := h.unknown (by decide +kernel) netprotObjects 100
    have hret : (netprotProcessCommand netprotDefaultCommandList netprotObjects (ascii "PINGX")
        100).map ProcessResult.ret = some 0 := by decide +kernel
    rw [hproc] at hret
    exact absurd hret (by decide)
  · have hproc := h.unknown List.not_mem_nil netprotObjects 100
    have hret : (netprotProcessCommand [] netprotObjects (ascii "PING") 100).map ProcessResult.ret
        = some 0 := by decide +kernel
    rw [hproc] at hret
    exact absurd hret (by decide)

end Datalogger
