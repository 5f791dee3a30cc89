import Datalogger.Session.Replies

/-!
# Where TCP cuts the stream

`netprot_get_commands` takes each chunk `recv` returns for whole lines, so a line that
lies across a cut is processed as two. `sameOutcome_iff` says when two ways of cutting
one stream come to the same table, commands and replies, whatever the stack held: when
both give the same lines, none of these calls RESET, and the first line of every chunk
names a command. Behind a cut a line that names none is answered with the contents of a
fresh array. For a stream without null bytes, the lines are the same iff both ways cut
the text of the lines at the same places; cuts next to a CR or LF make no difference.

The proof goes by `answers`: chunks that start with commands need no last reply, so
their answers are those to the lines of all chunks together.
-/

namespace Datalogger

open Lib (ascii readString GoesOn StartsAt)

/-- A command line, without its CRLF. -/
structure IsCommandLine (line : List UInt8) : Prop where
  bytes : ∀ c ∈ line, isNewline c = false
  short : line.length ≤ 97

/-- What the server sends for these lines. -/
def stream (lines : List (List UInt8)) : List UInt8 := lines.flatMap (· ++ crlf)

/-- A way of cutting a stream. -/
structure Cutting (text : List UInt8) (chunks : List (List UInt8)) : Prop where
  flatten : chunks.flatten = text
  chunk : ∀ c ∈ chunks, c ≠ [] ∧ c.length ≤ 99

/-- The calls receive these chunks and their sends succeed. -/
def Delivers : List Call → List (List UInt8) → Prop :=
  List.Forall₂ fun c chunk => (∃ fits, c.recv = .received chunk fits) ∧ ∀ k, c.sends k = true

/-- The table, the commands passed to `netprot_process_command` and the bytes sent. -/
structure Outcome where
  objects : List NetprotObject
  commands : List (List UInt8)
  replies : List UInt8
  deriving DecidableEq

def turnsReplies (turns : List Turn) : List UInt8 := turns.flatMap fun t => t.reply.getD []

/-- The outcome of a run, if it is defined. -/
def outcome (objects : List NetprotObject) (calls : List Call) : Option Outcome :=
  (commandSession objects calls).1.map fun o =>
    { objects := o
      commands := (commandSession objects calls).2.map Turn.command
      replies := turnsReplies (commandSession objects calls).2 }

/-- Both ways of cutting have one outcome, whatever the arrays hold. -/
def SameOutcome (objects : List NetprotObject) (chunks chunks' : List (List UInt8)) : Prop :=
  ∀ calls calls', Delivers calls chunks → Delivers calls' chunks' →
    ∃ x, outcome objects calls = some x ∧ outcome objects calls' = some x

/-- The lines of the chunks, each split on its own. -/
def chunkLines (chunks : List (List UInt8)) : List (List UInt8) := chunks.flatMap commandLines

/-- Every chunk starts with a command, and no line calls RESET. -/
def Orderly (chunks : List (List UInt8)) : Prop :=
  ∀ chunk ∈ chunks, StartsWithCommand (commandLines chunk) ∧
    ∀ line ∈ commandLines chunk, ¬ CallsReset line

instance (chunks : List (List UInt8)) : Decidable (Orderly chunks) :=
  inferInstanceAs (Decidable (∀ chunk ∈ chunks, StartsWithCommand (commandLines chunk) ∧
    ∀ line ∈ commandLines chunk, ¬ CallsReset line))

/-- Both ways cut at the same places between two bytes of a line. -/
def CutAlike (text : List UInt8) (chunks chunks' : List (List UInt8)) : Prop :=
  ∀ o, GoesOn isNewline text o → (StartsAt chunks (o + 1) ↔ StartsAt chunks' (o + 1))

/-! ## One chunk -/

theorem zero_notMem_commandLines {bytes : List UInt8} : ∀ l ∈ commandLines bytes, 0 ∉ l := by
  intro l hl hmem
  obtain ⟨-, -, hsub⟩ := Lib.mem_pieces l hl
  exact Lib.zero_notMem_cstr bytes (hsub.subset hmem)

/-- A call that receives a chunk gives the answers to its lines. -/
def StepGives (lines : List (List UInt8)) (r : Option (List NetprotObject) × List Turn) :
    Option (List NetprotObject × List (List UInt8)) → Prop
  | none => r.1 = none
  | some (o, rs) => r.1 = some o ∧ r.2.map Turn.command = lines ∧ turnsReplies r.2 = rs.flatten

theorem turnsReplies_of_map {turns : List Turn} {rs : List (List UInt8)}
    (h : turns.map Turn.reply = rs.map some) : turnsReplies turns = rs.flatten := by
  have hget : turns.map (fun t => t.reply.getD []) = rs := by
    have hmap := congrArg (List.map fun r : Option (List UInt8) => r.getD []) h
    simpa [List.map_map, Function.comp_def] using hmap
  unfold turnsReplies
  rw [List.flatMap_def, hget]

/-- **One chunk.** -/
theorem commandStep_gives {objects : List NetprotObject} (h : SameTable objects netprotObjects)
    {c : Call} {chunk : List UInt8} (hchunk : chunk ≠ [] ∧ chunk.length ≤ 99)
    (hc : (∃ fits, c.recv = .received chunk fits) ∧ ∀ k, c.sends k = true) :
    StepGives (commandLines chunk) (commandStep (some objects) c)
      (answers objects (readString c.locals.outstr) (commandLines chunk)) := by
  obtain ⟨locals, sends, recv⟩ := c
  obtain ⟨⟨fits, rfl⟩, hsends⟩ := hc
  have hshort : chunk.length < commandstrLen := Nat.lt_of_le_of_lt hchunk.2 (by decide)
  rw [commandStep_received h locals sends hchunk.1 hshort fits]
  have hloop := lineLoop_answers hsends (commandLines chunk) 0 objects locals.outstr h
    locals.outstr_length zero_notMem_commandLines
  cases hanswers : answers objects (readString locals.outstr) (commandLines chunk) with
  | none =>
    rw [hanswers] at hloop
    show Option.map _ (LoopEnd.finish _) = none
    rw [show (lineLoop sends 0 objects locals.outstr (commandLines chunk)).2
      = .undefined from hloop]
    rfl
  | some a =>
    obtain ⟨o, rs⟩ := a
    rw [hanswers] at hloop
    obtain ⟨hend, hcommands, hreplies⟩ := hloop
    obtain ⟨segname, hfinish⟩ :=
      LoopEnd.finish_done (answers_sameTable _ h zero_notMem_commandLines hanswers)
    refine ⟨?_, hcommands, turnsReplies_of_map hreplies⟩
    rw [hend, hfinish]
    rfl

/-! ## All chunks -/

theorem run_undefined (calls : List Call) : Lib.run commandStep none calls = (none, []) := by
  induction calls with
  | nil => rfl
  | cons c calls ih =>
    rw [Lib.run]
    simp only [commandStep, ih]
    rfl

/-- The outcome of a run, by its first call. -/
theorem outcome_cons (objects : List NetprotObject) (c : Call) (calls : List Call) :
    outcome objects (c :: calls)
      = (commandStep (some objects) c).1.bind fun o => (outcome o calls).map fun x =>
        { objects := x.objects
          commands := (commandStep (some objects) c).2.map Turn.command ++ x.commands
          replies := turnsReplies (commandStep (some objects) c).2 ++ x.replies } := by
  unfold outcome commandSession
  rw [Lib.run]
  cases (commandStep (some objects) c).1 with
  | none =>
    simp only [run_undefined]
    rfl
  | some o =>
    simp only [Option.bind_some, Option.map_map, Function.comp_def, List.map_append, turnsReplies,
      List.flatMap_append]

/-- Answers to more lines, when those start with a command. -/
theorem answers_append {ys : List (List UInt8)} (hstart : StartsWithCommand ys) :
    ∀ (xs : List (List UInt8)) {objects o o' : List NetprotObject} {last : Option (List UInt8)}
      {rs rs' : List (List UInt8)}, SameTable objects netprotObjects →
      (∀ l ∈ xs, 0 ∉ l) → (∀ l ∈ ys, 0 ∉ l) → answers objects last xs = some (o, rs) →
      answers o none ys = some (o', rs') →
      answers objects last (xs ++ ys) = some (o', rs ++ rs') := by
  intro xs
  induction xs with
  | nil =>
    intro objects o o' last rs rs' h _ hys hxs hanswers
    obtain ⟨rfl, rfl⟩ := Prod.mk.inj (Option.some.inj hxs)
    rw [List.nil_append, answers_of_startsWithCommand h hys hstart last none]
    exact hanswers
  | cons x xs ih =>
    intro objects o o' last rs rs' h hzero hys hxs hanswers
    rw [answers] at hxs
    obtain ⟨a, ha, hrest⟩ := Option.bind_eq_some_iff.mp hxs
    obtain ⟨b, hb, heq⟩ := Option.map_eq_some_iff.mp hrest
    obtain ⟨rfl, rfl⟩ := Prod.mk.inj heq
    rw [List.cons_append, answers, ha, Option.bind_some,
      ih (answer_sameTable h (hzero x (by simp)) ha)
        (fun l hl => hzero l (by simp [hl])) hys hb hanswers]
    rfl

/-- **Orderly chunks** have the answers to all their lines. -/
theorem outcome_of_orderly {calls : List Call} {chunks : List (List UInt8)}
    (hdelivers : Delivers calls chunks) :
    ∀ {objects : List NetprotObject}, SameTable objects netprotObjects →
      (∀ c ∈ chunks, c ≠ [] ∧ c.length ≤ 99) → Orderly chunks →
      StartsWithCommand (chunkLines chunks) ∧
        ∃ o rs, answers objects none (chunkLines chunks) = some (o, rs) ∧
          outcome objects calls
            = some { objects := o, commands := chunkLines chunks, replies := rs.flatten } := by
  induction hdelivers with
  | nil =>
    intro objects _ _ _
    exact ⟨nofun, objects, [], rfl, rfl⟩
  | @cons c chunk calls chunks hc _ ih =>
    intro objects h hchunks horderly
    obtain ⟨hstart, hreset⟩ := horderly chunk (by simp)
    have hlines : chunkLines (chunk :: chunks) = commandLines chunk ++ chunkLines chunks := rfl
    -- the first chunk is answered, and the table it leaves is the board's
    have hsome := (answers_isSome_iff (commandLines chunk) none h zero_notMem_commandLines).mpr
      ⟨fun _ => hstart, hreset⟩
    obtain ⟨⟨o, rs⟩, hanswers⟩ := Option.isSome_iff_exists.mp hsome
    have htable := answers_sameTable _ h zero_notMem_commandLines hanswers
    have hstep := commandStep_gives h (hchunks chunk (by simp)) hc
    rw [answers_of_startsWithCommand h zero_notMem_commandLines hstart _ none, hanswers] at hstep
    obtain ⟨hnext, hcommands, hreplies⟩ := hstep
    obtain ⟨hstart', o', rs', hanswers', houtcome⟩ :=
      ih htable (fun x hx => hchunks x (by simp [hx])) fun x hx => horderly x (by simp [hx])
    -- the lines behind the cut start with a command, so the new array makes no difference
    refine ⟨?_, o', rs ++ rs', ?_, ?_⟩
    · rw [hlines]
      cases hfirst : commandLines chunk with
      | nil => exact hstart'
      | cons line lines =>
        rw [hfirst] at hstart
        exact hstart
    · rw [hlines]
      refine answers_append hstart' _ h zero_notMem_commandLines ?_ hanswers hanswers'
      intro l hl
      obtain ⟨x, -, hx⟩ := List.mem_flatMap.mp hl
      exact zero_notMem_commandLines l hx
    · rw [outcome_cons, hnext, Option.bind_some, houtcome, Option.map_some, hcommands, hreplies,
        hlines, List.flatten_append]

/-- A defined outcome is about the lines of the chunks. If the arrays held no string, the
chunks are orderly. -/
theorem of_outcome {calls : List Call} {chunks : List (List UInt8)}
    (hdelivers : Delivers calls chunks) :
    ∀ {objects : List NetprotObject} {x : Outcome}, SameTable objects netprotObjects →
      (∀ c ∈ chunks, c ≠ [] ∧ c.length ≤ 99) → outcome objects calls = some x →
      x.commands = chunkLines chunks ∧
        ((∀ c ∈ calls, readString c.locals.outstr = none) → Orderly chunks) := by
  induction hdelivers with
  | nil =>
    intro objects x _ _ hx
    obtain rfl := Option.some.inj hx
    exact ⟨rfl, fun _ => nofun⟩
  | @cons c chunk calls chunks hc _ ih =>
    intro objects x h hchunks hx
    have hstep := commandStep_gives h (hchunks chunk (by simp)) hc
    rw [outcome_cons] at hx
    cases hanswers : answers objects (readString c.locals.outstr) (commandLines chunk) with
    | none =>
      rw [hanswers] at hstep
      rw [show (commandStep (some objects) c).1 = none from hstep] at hx
      cases hx
    | some a =>
      obtain ⟨o, rs⟩ := a
      have hsome : (answers objects (readString c.locals.outstr) (commandLines chunk)).isSome := by
        rw [hanswers]
        rfl
      have htable := answers_sameTable _ h zero_notMem_commandLines hanswers
      obtain ⟨hstart, hreset⟩ :=
        (answers_isSome_iff (commandLines chunk) _ h zero_notMem_commandLines).mp hsome
      rw [hanswers] at hstep
      obtain ⟨hnext, hcommands, -⟩ := hstep
      rw [hnext, Option.bind_some] at hx
      obtain ⟨y, hy, rfl⟩ := Option.map_eq_some_iff.mp hx
      obtain ⟨hlines, horderly⟩ := ih htable (fun x hx => hchunks x (by simp [hx])) hy
      refine ⟨by rw [hcommands, hlines]; rfl, fun harrays => ?_⟩
      intro chunk' hchunk'
      rcases List.mem_cons.mp hchunk' with rfl | hchunk'
      · exact ⟨hstart (harrays c (by simp)), hreset⟩
      · exact horderly (fun c' hc' => harrays c' (by simp [hc'])) chunk' hchunk'

theorem delivers_chunkCall (locals : Locals) {chunk : List UInt8}
    (fits : chunk.length ≤ commandstrLen)
    {calls : List Call} {chunks : List (List UInt8)} (h : Delivers calls chunks) :
    Delivers (chunkCall locals chunk fits :: calls) (chunk :: chunks) :=
  List.Forall₂.cons ⟨⟨fits, rfl⟩, fun _ => rfl⟩ h

/-- The calls that receive the chunks with nothing that ends in the reply array. -/
theorem exists_delivers :
    ∀ {chunks : List (List UInt8)}, (∀ c ∈ chunks, c ≠ [] ∧ c.length ≤ 99) →
      ∃ calls, Delivers calls chunks ∧ ∀ c ∈ calls, readString c.locals.outstr = none := by
  intro chunks
  induction chunks with
  | nil =>
    intro _
    exact ⟨[], List.Forall₂.nil, nofun⟩
  | cons chunk chunks ih =>
    intro hchunks
    obtain ⟨calls, hdelivers, harrays⟩ := ih fun c hc => hchunks c (by simp [hc])
    have fits : chunk.length ≤ commandstrLen :=
      Nat.le_trans (hchunks chunk (by simp)).2 (by decide)
    let locals : Locals :=
      { commandstr := List.replicate commandstrLen 0, outstr := List.replicate outstrLen 1
        commandstr_length := List.length_replicate .., outstr_length := List.length_replicate .. }
    have harray : readString locals.outstr = none := by
      show readString (List.replicate outstrLen 1) = none
      decide
    refine ⟨chunkCall locals chunk fits :: calls, delivers_chunkCall locals fits hdelivers,
      fun c hc => ?_⟩
    rcases List.mem_cons.mp hc with rfl | hc
    · exact harray
    · exact harrays c hc

/-- **Two ways of cutting a stream** have the same outcome iff they give the same lines
and both are orderly. Without null bytes in the stream, they give the same lines iff
they cut alike. -/
theorem sameOutcome_iff {objects : List NetprotObject} (hreached : Reached objects)
    {text : List UInt8} {chunks chunks' : List (List UInt8)} (h : Cutting text chunks)
    (h' : Cutting text chunks') :
    (SameOutcome objects chunks chunks' ↔
      chunkLines chunks = chunkLines chunks' ∧ Orderly chunks ∧ Orderly chunks') ∧
    (0 ∉ text → (chunkLines chunks = chunkLines chunks' ↔ CutAlike text chunks chunks')) := by
  have htable := hreached.sameTable
  constructor
  · constructor
    · intro hsame
      -- arrays without a string give no reply to an unknown line that comes first
      obtain ⟨calls, hdelivers, harrays⟩ := exists_delivers h.chunk
      obtain ⟨calls', hdelivers', harrays'⟩ := exists_delivers h'.chunk
      obtain ⟨x, hx, hx'⟩ := hsame calls calls' hdelivers hdelivers'
      obtain ⟨hlines, horderly⟩ := of_outcome hdelivers htable h.chunk hx
      obtain ⟨hlines', horderly'⟩ := of_outcome hdelivers' htable h'.chunk hx'
      exact ⟨hlines.symm.trans hlines', horderly harrays, horderly' harrays'⟩
    · rintro ⟨hlines, horderly, horderly'⟩ calls calls' hdelivers hdelivers'
      obtain ⟨-, o, rs, hanswers, houtcome⟩ :=
        outcome_of_orderly hdelivers htable h.chunk horderly
      obtain ⟨-, o', rs', hanswers', houtcome'⟩ :=
        outcome_of_orderly hdelivers' htable h'.chunk horderly'
      rw [← hlines, hanswers] at hanswers'
      obtain ⟨rfl, rfl⟩ := Prod.mk.inj (Option.some.inj hanswers')
      exact ⟨_, houtcome, by rw [houtcome', hlines]⟩
  · intro hzero
    have hpieces : ∀ {cs : List (List UInt8)}, cs.flatten = text →
        chunkLines cs = cs.flatMap (Lib.pieces isNewline) := by
      intro cs hcs
      unfold chunkLines
      refine List.flatMap_congr fun c hc => ?_
      have hc0 : 0 ∉ c := fun hmem => hzero (hcs ▸ List.mem_flatten.mpr ⟨c, hc, hmem⟩)
      unfold commandLines
      rw [Lib.cstr_of_notMem hc0]
    rw [hpieces h.flatten, hpieces h'.flatten,
      Lib.flatMap_pieces_eq_iff isNewline (h.flatten.trans h'.flatten.symm), h.flatten]
    rfl

/-- Two lines, whole and cut between CR and LF. -/
theorem sameOutcome_cut_newline :
    Reached netprotObjects ∧
    Cutting (stream [ascii "PING", ascii "GET BOARD TYPE"])
      [ascii "PING\x0d\x0aGET BOARD TYPE\x0d\x0a"] ∧
    Cutting (stream [ascii "PING", ascii "GET BOARD TYPE"])
      [ascii "PING\x0d", ascii "\x0aGET BOARD TYPE\x0d\x0a"] ∧
    SameOutcome netprotObjects [ascii "PING\x0d\x0aGET BOARD TYPE\x0d\x0a"]
      [ascii "PING\x0d", ascii "\x0aGET BOARD TYPE\x0d\x0a"] := by
  have hreached : Reached netprotObjects := ⟨[], rfl⟩
  have hwhole : Cutting (stream [ascii "PING", ascii "GET BOARD TYPE"])
      [ascii "PING\x0d\x0aGET BOARD TYPE\x0d\x0a"] := ⟨by decide, by decide⟩
  have hparts : Cutting (stream [ascii "PING", ascii "GET BOARD TYPE"])
      [ascii "PING\x0d", ascii "\x0aGET BOARD TYPE\x0d\x0a"] := ⟨by decide, by decide⟩
  exact ⟨hreached, hwhole, hparts,
    (sameOutcome_iff hreached hwhole hparts).1.mpr
      ⟨by decide, by decide +kernel, by decide +kernel⟩⟩

/-- `SET CHANNEL DELAY=5`, cut in front of the value, stores nothing. -/
theorem not_sameOutcome_cut_value :
    (∀ line ∈ [ascii "SET CHANNEL DELAY=5"], IsCommandLine line) ∧
    Cutting (stream [ascii "SET CHANNEL DELAY=5"]) [ascii "SET CHANNEL DELAY=5\x0d\x0a"] ∧
    Cutting (stream [ascii "SET CHANNEL DELAY=5"])
      [ascii "SET CHANNEL DELAY=", ascii "5\x0d\x0a"] ∧
    ¬ SameOutcome netprotObjects [ascii "SET CHANNEL DELAY=5\x0d\x0a"]
      [ascii "SET CHANNEL DELAY=", ascii "5\x0d\x0a"] := by
  refine ⟨?_, ⟨by decide, by decide⟩, ⟨by decide, by decide⟩, fun hsame => ?_⟩
  · intro line hline
    obtain rfl := List.mem_singleton.mp hline
    exact ⟨Lib.forall_mem_of_all (by decide), by decide⟩
  · have hwhole : Delivers [chunkCall (Locals.holding 1) (ascii "SET CHANNEL DELAY=5\x0d\x0a")
        (by decide)] [ascii "SET CHANNEL DELAY=5\x0d\x0a"] := delivers_chunkCall _ _ .nil
    have hparts : Delivers [chunkCall (Locals.holding 1) (ascii "SET CHANNEL DELAY=") (by decide),
        chunkCall (Locals.holding 1) (ascii "5\x0d\x0a") (by decide)]
        [ascii "SET CHANNEL DELAY=", ascii "5\x0d\x0a"] :=
      delivers_chunkCall _ _ (delivers_chunkCall _ _ .nil)
    obtain ⟨x, hx, hx'⟩ := hsame _ _ hwhole hparts
    have hdiffer : (outcome netprotObjects [chunkCall (Locals.holding 1)
          (ascii "SET CHANNEL DELAY=5\x0d\x0a") (by decide)]).map Outcome.objects
        ≠ (outcome netprotObjects [chunkCall (Locals.holding 1) (ascii "SET CHANNEL DELAY=") (by decide),
          chunkCall (Locals.holding 1) (ascii "5\x0d\x0a") (by decide)]).map Outcome.objects := by
      decide +kernel
    exact hdiffer (by rw [hx, hx'])

end Datalogger
