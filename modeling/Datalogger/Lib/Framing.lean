import Mathlib.Data.List.Forall2
import Mathlib.Data.List.Infix

/-!
# Frames in a stream

A sender writes one frame behind another; the other end has nothing but the stream and a
function that takes one frame off the front of what has arrived, or finds that none is
there whole. `SelfDelimiting` says what makes that enough: the function recognises a frame
whatever follows it, and does not take the beginning of one for a whole one. Then the frames
are read back as they were written, wherever the stream is cut (`readFrames_of_frames`).
-/

namespace Datalogger.Lib

variable {α β : Type}

/-- The frames that have arrived whole, and what is left of the stream behind them. -/
def readFrames (next : List β → Option (α × List β)) : Nat → List β → List α × List β
  | 0, stream => ([], stream)
  | fuel + 1, stream =>
    match next stream with
    | none => ([], stream)
    | some (a, rest) =>
      let r := readFrames next fuel rest
      (a :: r.1, r.2)

/-- `next` reads the frames `IsFrame` describes; `IsFrame a w` says that `w` carries `a`. -/
structure SelfDelimiting (next : List β → Option (α × List β)) (IsFrame : α → List β → Prop) :
    Prop where
  whole : ∀ {a w}, IsFrame a w → ∀ rest, next (w ++ rest) = some (a, rest)
  part : ∀ {a w}, IsFrame a w → ∀ {p}, p <+: w → p.length < w.length → next p = none
  nonempty : ∀ {a w}, IsFrame a w → w ≠ []

/-- The stream ends inside a frame, or with one. -/
def EndsInside (IsFrame : α → List β → Prop) (tail : List β) : Prop :=
  tail = [] ∨ ∃ a w, IsFrame a w ∧ tail <+: w ∧ tail.length < w.length

/-- Behind the frames nothing is read. -/
theorem readFrames_none {next : List β → Option (α × List β)} {stream : List β}
    (h : next stream = none) (fuel : Nat) : readFrames next fuel stream = ([], stream) := by
  cases fuel with
  | zero => rfl
  | succ fuel => rw [readFrames, h]

/-- **Frames are read back as they were written**, up to the point where the stream ends. -/
theorem readFrames_of_frames {next : List β → Option (α × List β)}
    {IsFrame : α → List β → Prop} (h : SelfDelimiting next IsFrame) {tail : List β}
    (htail : next tail = none) :
    ∀ {as : List α} {ws : List (List β)}, List.Forall₂ IsFrame as ws →
      ∀ {fuel : Nat}, (ws.flatten ++ tail).length ≤ fuel →
        readFrames next fuel (ws.flatten ++ tail) = (as, tail) := by
  intro as ws hframes
  induction hframes with
  | nil =>
    intro fuel _
    exact readFrames_none htail fuel
  | @cons a w as ws hw _ ih =>
    intro fuel hfuel
    have hpos := List.length_pos_of_ne_nil (h.nonempty hw)
    rw [List.flatten_cons, List.append_assoc] at hfuel ⊢
    rw [List.length_append] at hfuel
    cases fuel with
    | zero => omega
    | succ fuel =>
      rw [readFrames, h.whole hw]
      dsimp only
      rw [ih (by omega)]

end Datalogger.Lib
