import Datalogger.Board.Main

/-!
# A chunk of commands, turn by turn

`boardStep` takes `netprot_get_commands` apart, one step for each turn of its loop, so
that an interrupt can come in between. `boardRun_getCommands` puts the steps together
again: without an interrupt they process the lines `netprotGetCommands` processes, leave
its table and disconnect where it returns an error. So what is proved of the one is proved
of the other.
-/

namespace Datalogger

open Lib (ascii strtok setZeros)

/-- The turns of the loop; `k` counts replies. -/
def commandEvents (sends : Nat → Bool) : Nat → Nat → List Event
  | _, 0 => []
  | k, n + 1 => .command (sends k) :: commandEvents sends (k + 1) n

/-- The board has gone through a call: these turns, and this end. -/
structure Served (b : Board) (turns : List Turn) (e : CallEnd)
    (r : Board × List Output) : Prop where
  pc : r.1.pc = .work
  objects : r.1.device.objects = e.objects
  disconnect : r.1.disconnect = true ↔ b.disconnect = true ∨ e.ret ≠ 0
  outputs : r.2 = turns.map .processed

theorem boardStep_command {b : Board} {l : CommandLoop} (hpc : b.pc = .commands l) (sent : Bool) :
    boardStep b (.command sent) = b.command l sent := by
  unfold boardStep
  rw [hpc]

/-- **The steps of the loop are the loop.** -/
theorem boardRun_commandLoop (sends : Nat → Bool) :
    ∀ (fuel k : Nat) {b : Board} {l : CommandLoop} {turns : List Turn} {o : LoopEnd} {e : CallEnd},
      b.pc = .commands l →
      commandLoop sends fuel k b.device.objects l.outstr l.commandstr l.pos = (turns, o) →
      o.finish = some e → ∃ n, Served b turns e (boardRun b (commandEvents sends k n)) := by
  intro fuel
  induction fuel with
  | zero =>
    intro k b l turns o e _ hloop hend
    obtain ⟨-, rfl⟩ := Prod.mk.inj hloop
    cases hend
  | succ fuel ih =>
    intro k b l turns o e hpc hloop hend
    have hstep := boardStep_command hpc (sends k)
    rw [commandLoop] at hloop
    unfold Board.command at hstep
    cases htok : strtok isNewline l.commandstr l.pos with
    | none =>
      simp only [htok] at hloop
      obtain ⟨-, rfl⟩ := Prod.mk.inj hloop
      cases hend
    | some token? =>
      cases token? with
      | none =>
        -- no line is left
        simp only [htok] at hloop hstep
        obtain ⟨rfl, rfl⟩ := Prod.mk.inj hloop
        simp only [LoopEnd.finish] at hend
        split at hend
        next segname hfind =>
          obtain rfl := Option.some.inj hend
          have hdisplay : b.updateDisplay = { b with pc := .work } := by
            unfold Board.updateDisplay
            rw [hfind]
          refine ⟨1, ?_⟩
          rw [commandEvents, boardRun_cons, hstep, hdisplay]
          exact ⟨rfl, rfl, by simp [commandEvents, boardRun, Lib.run], rfl⟩
        next => cases hend
      | some token =>
        simp only [htok] at hloop hstep
        generalize hturn : processTurn b.device.objects l.outstr token.text = t at hloop hstep
        obtain ⟨command, objects, result, outstr, reply⟩ := t
        cases result with
        | none =>
          obtain ⟨-, rfl⟩ := Prod.mk.inj hloop
          cases hend
        | some res =>
          cases reply with
          | none =>
            obtain ⟨-, rfl⟩ := Prod.mk.inj hloop
            cases hend
          | some text =>
            cases hsent : sends k with
            | false =>
              -- the line has been processed, and its reply was not sent
              simp only [Turn.andThen, hsent] at hloop hstep
              obtain ⟨rfl, rfl⟩ := Prod.mk.inj hloop
              obtain rfl := Option.some.inj hend
              refine ⟨1, ?_⟩
              rw [commandEvents, boardRun_cons, hsent, hstep]
              exact ⟨rfl, rfl, by simp [commandEvents, boardRun, Lib.run], rfl⟩
            | true =>
              simp only [Turn.andThen, hsent, if_true] at hloop hstep
              obtain ⟨rfl, rfl⟩ := Prod.mk.inj hloop
              obtain ⟨n, hserved⟩ := ih (k + 1) (b := (boardStep b (.command true)).1)
                (by rw [hstep]) (by rw [hstep]; rfl) hend
              refine ⟨n + 1, ?_⟩
              rw [commandEvents, boardRun_cons, hsent]
              rw [hstep] at hserved ⊢
              exact ⟨hserved.pc, hserved.objects, hserved.disconnect,
                congrArg (_ :: ·) hserved.outputs⟩

/-- **A call of `netprot_get_commands`** is what the steps of the board make of it. -/
theorem boardRun_getCommands {b : Board} (hpc : b.pc = .getCommands) (locals : Locals)
    (sends : Nat → Bool) (recv : Recv) {turns : List Turn} {e : CallEnd}
    (h : netprotGetCommands locals sends recv b.device.objects = (turns, some e)) :
    ∃ n, Served b turns e (boardRun b (.recv locals recv :: commandEvents sends 0 n)) := by
  have hstep : boardStep b (.recv locals recv) = (b.getCommands locals recv, []) := by
    unfold boardStep
    rw [hpc]
  cases recv with
  | socketError =>
    obtain ⟨rfl, he⟩ := Prod.mk.inj h
    obtain rfl := Option.some.inj he
    refine ⟨0, ?_⟩
    rw [boardRun_cons, hstep]
    exact ⟨rfl, rfl, by simp [commandEvents, boardRun, Lib.run, Board.getCommands], rfl⟩
  | received bytes fits =>
    simp only [netprotGetCommands] at h
    simp only [Board.getCommands] at hstep
    split at h
    next hnil =>
      obtain ⟨rfl, he⟩ := Prod.mk.inj h
      obtain rfl := Option.some.inj he
      rw [if_pos hnil] at hstep
      refine ⟨0, ?_⟩
      rw [boardRun_cons, hstep]
      exact ⟨rfl, rfl, by simp [commandEvents, boardRun, Lib.run], rfl⟩
    next hnil =>
      split at h
      next => cases (Prod.mk.inj h).2
      next hshort =>
        rw [if_neg hnil, if_neg hshort] at hstep
        obtain ⟨rfl, he⟩ := Prod.mk.inj h
        obtain ⟨n, hserved⟩ := boardRun_commandLoop sends commandstrLen 0
          (b := (boardStep b (.recv locals (.received bytes fits))).1) (by rw [hstep])
            (by rw [hstep]) he
        refine ⟨n, ?_⟩
        rw [hstep] at hserved
        rw [boardRun_cons, hstep]
        exact ⟨hserved.pc, hserved.objects, hserved.disconnect, hserved.outputs⟩

end Datalogger
