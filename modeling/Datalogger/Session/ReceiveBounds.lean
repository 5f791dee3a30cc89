import Datalogger.Session.GetCommands

/-!
# Where the receive array is used

`commandLoopTouched` is the loop of `netprot_get_commands` once more, with the indices of
`commandstr` that are read or written on the way: by `strtok`, which goes on from where it
stopped, by the command, which reads the string it is given up to its terminator, and by
SET, which writes null bytes into it. In front of the loop the terminator is written
behind the chunk.

On an array whose string is terminated the loop stays inside (`commandLoopTouched_lt`),
so all depends on the terminator: `recv` is given the whole size of the array, and the
terminator of a chunk that fills it is written one behind.

Mirroring notes:
- What a command reads of its string is taken to be all of it, through the terminator. It
  reads no further: the dispatcher and the two searches compare with `strncmp`, which goes
  on behind no null byte; the scans for white space stop at one; an object name that
  matched ends in front of it. `parse_assignment` is given `ptr + strlen(ptr)` as its end,
  and the identifier and the value it leaves end at null bytes in front of that.
- The indices end where the call has no outcome: a RESET, which reads past `board_attrs`,
  and a reply array without a null byte.
-/

namespace Datalogger

open Lib (cstr strtok strtokStop setZeros)

/-- The indices from `lo` to `hi`. -/
def upTo (lo hi : Nat) : List Nat := List.range' lo (hi + 1 - lo)

theorem mem_upTo {lo hi i : Nat} (h : i ∈ upTo lo hi) : lo ≤ i ∧ i ≤ hi := by
  have hmem := List.mem_range'_1.mp h
  omega

/-- What a command touches: the string it is given, through its terminator, and the null
bytes it writes. -/
def commandTouched (token : Lib.Token) (t : Turn) : List Nat :=
  upTo token.start (token.start + (cstr token.text).length) ++
    match t.result with
    | none => []
    | some res => res.nulls.map (token.start + ·)

/-- The result the loop goes on with behind `/* Send reply */`. -/
def Turn.goesOn (t : Turn) (sent : Bool) : Option ProcessResult :=
  match t.result, t.reply with
  | some res, some _ => if sent then some res else none
  | _, _ => none

/-- `commandLoop`, and what it touches. -/
def commandLoopTouched (sends : Nat → Bool) :
    Nat → Nat → List NetprotObject → List UInt8 → List UInt8 → Nat →
      (List Turn × LoopEnd) × List Nat
  | 0, _, _, _, _, _ => (([], .undefined), [])
  | fuel + 1, k, objects, outstr, mem, pos =>
    let found := upTo pos (strtokStop isNewline mem pos)
    match strtok isNewline mem pos with
    | none => (([], .undefined), found)
    | some none => (([], .done objects), found)
    | some (some token) =>
      let t := processTurn objects outstr token.text
      let next := fun res : ProcessResult =>
        commandLoopTouched sends fuel (k + 1) res.objects t.outstr
          (setZeros token.mem (res.nulls.map (token.start + ·))) token.saved
      (t.andThen (sends k) fun res => (next res).1,
        found ++ commandTouched token t ++
          ((t.goesOn (sends k)).map fun res => (next res).2).getD [])

/-- What the handling of a chunk touches: nothing if `recv` has returned 0. -/
def chunkTouched (locals : Locals) (sends : Nat → Bool) (bytes : List UInt8)
    (objects : List NetprotObject) : List Nat :=
  if bytes = [] then []
  else bytes.length :: if commandstrLen ≤ bytes.length then []
    else (commandLoopTouched sends commandstrLen 0 objects locals.outstr
      ((bytes ++ locals.commandstr.drop bytes.length).set bytes.length 0) 0).2

/-- The chunk is handled inside `commandstr`. -/
def HandledInside (locals : Locals) (sends : Nat → Bool) (bytes : List UInt8)
    (objects : List NetprotObject) : Prop :=
  ∀ i ∈ chunkTouched locals sends bytes objects, i < commandstrLen

/-- The turns and the end are those of `commandLoop`. -/
theorem commandLoopTouched_fst (sends : Nat → Bool) :
    ∀ (fuel k : Nat) (objects : List NetprotObject) (outstr mem : List UInt8) (pos : Nat),
      (commandLoopTouched sends fuel k objects outstr mem pos).1
        = commandLoop sends fuel k objects outstr mem pos := by
  intro fuel
  induction fuel with
  | zero => intro k objects outstr mem pos; rfl
  | succ fuel ih =>
    intro k objects outstr mem pos
    rw [commandLoopTouched, commandLoop]
    cases strtok isNewline mem pos with
    | none => rfl
    | some found =>
      cases found with
      | none => rfl
      | some token => exact Turn.andThen_congr fun res _ => ih (k + 1) _ _ _ _

/-- A command stays in its string. -/
theorem commandTouched_le {objects : List NetprotObject} (h : SameTable objects netprotObjects)
    (outstr : List UInt8) (token : Lib.Token) :
    ∀ i ∈ commandTouched token (processTurn objects outstr token.text),
      i ≤ token.start + (cstr token.text).length := by
  intro i hi
  rcases List.mem_append.mp hi with hread | hnull
  · exact (mem_upTo hread).2
  · rw [(processTurn_inputs objects outstr token.text).2.2] at hnull
    cases hres : netprotProcessCommand netprotDefaultCommandList objects token.text outstrLen with
    | none =>
      rw [hres] at hnull
      cases hnull
    | some res =>
      rw [hres] at hnull
      obtain ⟨o, ho, rfl⟩ := List.mem_map.mp hnull
      have hlt := process_nulls h hres o ho
      omega

theorem Turn.result_of_goesOn {t : Turn} {sent : Bool} {res : ProcessResult}
    (h : t.goesOn sent = some res) : t.result = some res := by
  unfold Turn.goesOn at h
  split at h
  next hres _ =>
    split at h
    · rw [hres, h]
    · cases h
  next => cases h

/-- **The loop stays inside** an array whose string is terminated. -/
theorem commandLoopTouched_lt (sends : Nat → Bool) :
    ∀ (fuel k : Nat) (objects : List NetprotObject) (outstr mem : List UInt8) (pos : Nat),
      SameTable objects netprotObjects → 0 ∈ mem.drop pos →
      ∀ i ∈ (commandLoopTouched sends fuel k objects outstr mem pos).2, i < mem.length := by
  intro fuel
  induction fuel with
  | zero => intro k objects outstr mem pos _ _ i hi; cases hi
  | succ fuel ih =>
    intro k objects outstr mem pos h hzero i hi
    have hfound : strtok isNewline mem pos ≠ none →
        ∀ i ∈ upTo pos (strtokStop isNewline mem pos), i < mem.length :=
      fun hne i hi => Nat.lt_of_le_of_lt (mem_upTo hi).2 (Lib.strtokStop_lt hne)
    rw [commandLoopTouched] at hi
    rcases Lib.strtok_cases isNewline_zero hzero with ⟨htok, -⟩ | ⟨token, htok, hspec⟩
    · simp only [htok] at hi
      exact hfound (by rw [htok]; nofun) i hi
    · simp only [htok] at hi
      have hsaved : token.saved < mem.length := by
        have hrest := hspec.terminated
        unfold Lib.Token.rest at hrest
        by_contra hge
        rw [List.drop_of_length_le (by rw [hspec.length]; omega)] at hrest
        cases hrest
      rcases List.mem_append.mp hi with hhere | hnext
      · rcases List.mem_append.mp hhere with hi | hi
        · exact hfound (by rw [htok]; nofun) i hi
        · have hle := commandTouched_le h outstr token i hi
          have hinside := hspec.inside
          omega
      · -- the turns that follow find the array terminated behind this command
        cases hgoes : (processTurn objects outstr token.text).goesOn (sends k) with
        | none =>
          rw [hgoes] at hnext
          cases hnext
        | some res =>
          rw [hgoes] at hnext
          have hres := Turn.result_of_goesOn hgoes
          rw [(processTurn_inputs objects outstr token.text).2.2] at hres
          have hlen : (setZeros token.mem (res.nulls.map (token.start + ·))).length
            = mem.length := by
            rw [Lib.length_setZeros, hspec.length]
          rw [← hlen]
          refine ih (k + 1) res.objects _ _ token.saved (process_sameTable h hres) ?_ i hnext
          rw [drop_saved_of_nulls h hspec hres]
          exact hspec.terminated

/-- **Where the handling stays inside.** A chunk that `recv` can return is handled inside
`commandstr` exactly if it does not fill it. -/
theorem handledInside_iff {objects : List NetprotObject} (hreach : Reached objects)
    (locals : Locals)
    (sends : Nat → Bool) {bytes : List UInt8} (fits : bytes.length ≤ commandstrLen) :
    HandledInside locals sends bytes objects ↔ bytes.length < commandstrLen := by
  unfold HandledInside chunkTouched
  by_cases hne : bytes = []
  · subst hne
    exact ⟨fun _ => by decide, fun _ i hi => by cases hi⟩
  · rw [if_neg hne]
    constructor
    · intro hinside
      exact hinside bytes.length List.mem_cons_self
    · intro hlen i hi
      have hlocals := locals.commandstr_length
      rw [if_neg (Nat.not_le_of_lt hlen)] at hi
      rcases List.mem_cons.mp hi with rfl | hi
      · exact hlen
      · have hlength : ((bytes ++ locals.commandstr.drop bytes.length).set bytes.length 0).length
            = commandstrLen := by
          rw [List.length_set, List.length_append, List.length_drop]
          omega
        rw [← hlength]
        refine commandLoopTouched_lt sends _ 0 objects _ _ 0 hreach.sameTable ?_ i hi
        rw [commandstr_terminated locals hlen, List.drop_zero]
        exact List.mem_append_right _ List.mem_cons_self

/-- The two arrays, cleared. -/
def Locals.cleared : Locals :=
  { commandstr := List.replicate commandstrLen 0
    outstr := List.replicate outstrLen 0
    commandstr_length := List.length_replicate
    outstr_length := List.length_replicate }

/-- A SET whose name and string value are terminated in place. -/
theorem handledInside_set :
    HandledInside Locals.cleared (fun _ => true) (Lib.ascii "SET CHANNEL NAME='X'\x0d\x0a")
      netprotObjects :=
  Iff.mpr (handledInside_iff ⟨[], rfl⟩ Locals.cleared (fun _ => true) (by decide)) (by decide)

/-- 100 bytes are received whole, and the terminator goes to `commandstr[100]`. -/
theorem not_handledInside_full :
    ¬ HandledInside Locals.cleared (fun _ => true) (List.replicate 100 65) netprotObjects := by
  intro hinside
  exact absurd (hinside 100 (by decide)) (by decide)

end Datalogger
