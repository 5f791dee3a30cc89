import Datalogger.Command.Integrity
import Datalogger.Session.GetCommands

/-!
# Replies as lines

The host tells replies from packets, and one reply from the next, by the sign a reply
starts with and the CRLF it ends with; the replies that say nothing are empty.
`LineFramed` is that shape. Every reply of the seven handlers has it but two:
`GET <object>` lists the attributes and forgets the CRLF, and RESET gives none, as it
reads past `board_attrs` (`repliesFramed_iff`).

GET prints strings that came from the network, so the framing rests on an invariant of
the table: no string in it has a CR or LF (`StringsOnLine`), because the lines that put
it there had none.
-/

namespace Datalogger

open Lib (Leaves ascii cstr readString)

/-- A line of its own: a sign first, CRLF last, and no CR or LF in between. -/
def LineFramed (reply : List UInt8) : Prop :=
  reply = [] ∨ ∃ sign body, (sign = 43 ∨ sign = 45) ∧ (∀ c ∈ body, isNewline c = false) ∧
    reply = sign :: (body ++ crlf)

/-- Whatever the reply array held, it holds a framed reply after this line. -/
def RepliesFramed (objects : List NetprotObject) (line : List UInt8) : Prop :=
  ∀ out, out.length = outstrLen → ∃ reply, replyTo objects line out = some reply ∧ LineFramed reply

/-- The line is a GET that names an object and no attribute. -/
def GetsListing (objects : List NetprotObject) (line : List UInt8) : Prop :=
  commandOf (cstr line) = some .get ∧ ∃ o, ListsObject objects (CommandId.get.arg (cstr line)) o

/-! ## The strings of the table -/

/-- No string of the table has a CR or LF. -/
def StringsOnLine (objects : List NetprotObject) : Prop :=
  ∀ i j p, paramAt objects i j = some p → ∀ c ∈ p.strval.text, isNewline c = false

theorem stringsOnLine_kept : KeptByLines StringsOnLine := by
  intro objects line res h hline hstrings hres i j p hp c hc
  rcases process_paramAt h hres hp with hold | ⟨q, hq, -, hbytes⟩
  · exact hstrings i j p hold c hc
  · rw [hline.cstr_eq] at hbytes
    rcases hbytes c hc with hc | hc
    · exact hstrings i j q hq c hc
    · exact (hline.bytes c hc).2

theorem stringsOnLine_initial : StringsOnLine netprotObjects := by
  have hall : ∀ o ∈ netprotObjects, ∀ p ∈ o.attrs,
      p.strval.text.all (fun c => decide (isNewline c = false)) = true := by decide
  intro i j p hp
  obtain ⟨o, ho, hp⟩ := Option.bind_eq_some_iff.mp hp
  exact Lib.forall_mem_of_all (hall o (List.mem_of_getElem? ho) p (List.mem_of_getElem? hp))

theorem Reached.stringsOnLine {objects : List NetprotObject} (h : Reached objects) :
    StringsOnLine objects := h.keeps stringsOnLine_kept stringsOnLine_initial

/-! ## The replies -/

theorem lineFramed_of_all {sign : UInt8} {body : List UInt8} (hsign : sign = 43 ∨ sign = 45)
    (hbody : body.all (fun c => decide (isNewline c = false)) = true) :
    LineFramed (sign :: (body ++ crlf)) :=
  Or.inr ⟨sign, body, hsign, Lib.forall_mem_of_all hbody, rfl⟩

theorem lineFramed_ok : LineFramed (ascii "+OK \x0d\x0a") :=
  lineFramed_of_all (Or.inl rfl) (show (ascii "OK ").all _ = true by decide)

theorem lineFramed_pong : LineFramed (ascii "+PONG \x0d\x0a") :=
  lineFramed_of_all (Or.inl rfl) (show (ascii "PONG ").all _ = true by decide)

theorem SetError.lineFramed_text (e : SetError) : LineFramed e.text := by
  have hshape : ∃ body, e.text = 45 :: (body ++ crlf) ∧
      body.all (fun c => decide (isNewline c = false)) = true := by
    cases e with
    | objectNotFound => exact ⟨ascii "ERR OBJECT NOT FOUND ", by decide, by decide⟩
    | invalidAssignment => exact ⟨ascii "ERR INVALID ASSIGNMENT ", by decide, by decide⟩
    | attrNotFound => exact ⟨ascii "ERR ATTR NOT FOUND ", by decide, by decide⟩
    | attrReadOnly => exact ⟨ascii "ERR ATTR READ ONLY ", by decide, by decide⟩
    | attrTooLong => exact ⟨ascii "ERR ATTR TOO LONG ", by decide, by decide⟩
    | attrUnknownType => exact ⟨ascii "ERR ATTR UNKNOWN TYPE ", by decide, by decide⟩
  obtain ⟨body, htext, hbody⟩ := hshape
  rw [htext]
  exact lineFramed_of_all (Or.inr rfl) hbody

/-- A value on a line. -/
theorem lineFramed_valueReply {objects : List NetprotObject} (h : StringsOnLine objects) {i j : Nat}
    {q : NetprotParam} (hq : paramAt objects i j = some q) : LineFramed (valueReply q) := by
  refine Or.inr ⟨43, q.valueText, Or.inl rfl, fun c hc => ?_, rfl⟩
  unfold NetprotParam.valueText at hc
  cases htype : q.type with
  | int =>
    simp only [htype] at hc
    have hle := Lib.le_of_mem_decimalInt hc
    -- digits and the minus sign come behind CR and LF
    have hnewline : ∀ n ∈ List.range 256,
      45 ≤ UInt8.ofNat n → isNewline (UInt8.ofNat n) = false := by
      decide +kernel
    exact Lib.forall_byte (P := fun c => 45 ≤ c → isNewline c = false) hnewline c hle
  | str =>
    simp only [htype] at hc
    exact h i j q hq c hc

/-- **Every command but RESET and a listing GET** leaves a framed reply. -/
theorem func_framed {objects : List NetprotObject} (h : SameTable objects netprotObjects)
    (hstrings : StringsOnLine objects) {c : CommandId} (hc : c ≠ .reset) {inp : List UInt8}
    (hlist : c = .get → ∀ o, ¬ ListsObject objects inp o) {res : HandlerResult}
    (hres : c.func objects inp outstrLen = some res) :
    ∃ s, Leaves outstrLen res.writes s ∧ 0 ∉ s ∧ LineFramed s := by
  have hterm := netprotObjects_terminated.of_sameTable h
  cases c with
  | ok =>
    obtain rfl := Option.some.inj hres
    exact ⟨[], Lib.leaves_strcpyTo (by decide), by decide, Or.inl rfl⟩
  | ping =>
    obtain rfl := Option.some.inj hres
    exact ⟨ascii "+PONG \x0d\x0a", Lib.leaves_strcpyTo (by decide), by decide, lineFramed_pong⟩
  | set =>
    obtain ⟨r, hr, -⟩ := setRun_safe hterm inp
    obtain rfl := Option.some.inj ((netprotCmdSet_eq hr outstrLen).symm.trans hres)
    have hbounds := r.reply_bounds
    refine ⟨r.reply, Lib.leaves_strcpyTo (show r.reply.length < 100 by omega), hbounds.2, ?_⟩
    unfold SetRun.reply
    cases r.outcome with
    | ok t => exact lineFramed_ok
    | error e => exact e.lineFramed_text
  | get =>
    obtain ⟨res', hget, hspec⟩ := netprotCmdGet_spec hterm inp outstrLen
    obtain rfl := Option.some.inj (hget.symm.trans hres)
    cases hspec with
    | fails text htext hnot =>
      have hshort : text.length < outstrLen ∧ 0 ∉ text ∧ LineFramed text := by
        rcases htext with rfl | rfl
        · exact ⟨by decide, by decide, SetError.lineFramed_text .objectNotFound⟩
        · exact ⟨by decide, by decide, SetError.lineFramed_text .attrNotFound⟩
      exact ⟨text, (Lib.leaves_strncpyTo hshort.1).outside (Nat.le_refl _), hshort.2⟩
    | list o ws hlisted ho hterm hws => exact absurd hlisted (hlist rfl o)
    | value i j o q ho hq hnot =>
      have hcell : paramAt objects i j = some q := by
        unfold paramAt
        rw [ho]
        exact hq
      exact ⟨_, getValue_leaves q (valueReply_lt q), zero_notMem_valueReply q,
        lineFramed_valueReply hstrings hcell⟩
  | start =>
    obtain ⟨p, hp⟩ := netprotCmdStart_eq h
    obtain rfl := Option.some.inj ((hp inp outstrLen).symm.trans hres)
    exact ⟨[], Lib.leaves_strcpyTo (by decide), by decide, Or.inl rfl⟩
  | stop =>
    obtain rfl := Option.some.inj hres
    exact ⟨ascii "+OK \x0d\x0a", Lib.leaves_strcpyTo (by decide), by decide, lineFramed_ok⟩
  | reset => exact absurd rfl hc

/-- The listing ends in a blank, or in its sign. -/
theorem not_lineFramed_listText (names : List (List UInt8)) :
    ¬ LineFramed (ascii "+" ++ listText names) := by
  have hlast : (ascii "+" ++ listText names).getLast? = some 43 ∨
      (ascii "+" ++ listText names).getLast? = some 32 := by
    rcases List.eq_nil_or_concat names with rfl | ⟨ns, n, rfl⟩
    · exact Or.inl rfl
    · have hsplit : listText (ns ++ [n]) = listText ns ++ (n ++ [44]) ++ [32] := by
        unfold listText
        rw [List.flatMap_append, List.flatMap_singleton, List.append_assoc, List.append_assoc]
        rfl
      rw [List.concat_eq_append, hsplit, ← List.append_assoc, List.getLast?_concat]
      exact Or.inr rfl
  intro hframed
  rcases hframed with hnil | ⟨sign, body, -, -, htext⟩
  · exact absurd (congrArg List.length hnil) (by simp [ascii])
  · have hlf : (ascii "+" ++ listText names).getLast? = some 10 := by
      rw [htext, show sign :: (body ++ crlf) = sign :: (body ++ [13]) ++ [10] by simp [crlf],
        List.getLast?_concat]
    rw [hlf] at hlast
    exact absurd hlast (by decide)

/-- The reply to a line that calls a command. -/
theorem replyTo_of_command {objects : List NetprotObject} {line out : List UInt8} {c : CommandId}
    (hcmd : commandOf (cstr line) = some c) :
    replyTo objects line out = (c.func objects (c.arg (cstr line)) outstrLen).bind fun res =>
      readString (Lib.applyWrites out res.writes) := by
  unfold replyTo
  rw [process_of_command hcmd]
  cases c.func objects (c.arg (cstr line)) outstrLen with
  | none => rfl
  | some res => rfl

/-- **Where the framing holds.** In every table the board can reach, the reply to a line
that calls a handler is framed exactly if the line neither calls RESET nor asks GET for a
listing. -/
theorem repliesFramed_iff {objects : List NetprotObject} (hreach : Reached objects)
    {line : List UInt8} (hcalled : NamesCommand (cstr line)) :
    RepliesFramed objects line ↔
      commandOf (cstr line) ≠ some .reset ∧ ¬ GetsListing objects line := by
  have h := hreach.sameTable
  obtain ⟨c, hc⟩ := hcalled
  have hcmd := commandOf_eq_some_iff.mpr hc
  constructor
  · intro hframed
    obtain ⟨reply, hreply, hshape⟩ := hframed (List.replicate outstrLen 0) List.length_replicate
    rw [replyTo_of_command hcmd] at hreply
    refine ⟨fun hreset => ?_, fun ⟨hget, o, ho⟩ => ?_⟩
    · -- RESET does not come back
      obtain rfl := Option.some.inj (hcmd.symm.trans hreset)
      rw [show CommandId.func .reset = netprotCmdReset from rfl,
        netprotCmdReset_sameTable h] at hreply
      cases hreply
    · obtain rfl := Option.some.inj (hcmd.symm.trans hget)
      obtain ⟨res, hres, hspec⟩ := netprotCmdGet_spec (netprotObjects_terminated.of_sameTable h)
        (CommandId.get.arg (cstr line)) outstrLen
      rw [show CommandId.func .get = netprotCmdGet from rfl, hres, Option.bind_some] at hreply
      cases hspec with
      | fails text htext hnot => exact hnot o ho
      | list o' ws hlisted ho' hterm hws =>
        obtain ⟨names, hps, hnames⟩ := hterm
        have hlen := listText_length h ho' hps
        have hleaves := getList_leaves hps hnames (by decide) hws
        have hall : (ascii "+" ++ listText names).length ≤ outstrLen - 1 := by
          rw [List.length_append, show (ascii "+").length = 1 from rfl]
          show 1 + (listText names).length ≤ 99
          omega
        rw [List.take_of_length_le hall] at hleaves
        have hout : (List.replicate outstrLen (0 : UInt8)).length = 100 := List.length_replicate
        have hread := hleaves.readString_eq (zero_notMem_listing hps) hout
        obtain rfl := Option.some.inj (hreply.symm.trans hread)
        exact not_lineFramed_listText names hshape
      | value i j o' q ho' hq hnot => exact hnot o ho
  · intro ⟨hreset, hlisting⟩ out hout
    have hne : c ≠ .reset := fun h0 => hreset (h0 ▸ hcmd)
    obtain ⟨res, hres, -⟩ := func_safe h hne (c.arg (cstr line)) outstrLen
    obtain ⟨s, hleaves, hnul, hframed⟩ := func_framed h hreach.stringsOnLine hne
      (fun hget o ho => hlisting ⟨hget ▸ hcmd, o, hget ▸ ho⟩) hres
    refine ⟨s, ?_, hframed⟩
    rw [replyTo_of_command hcmd, hres]
    exact hleaves.readString_eq hnul hout

/-- PING is answered on a line. -/
theorem repliesFramed_ping : RepliesFramed netprotObjects (ascii "PING") :=
  Iff.mpr (repliesFramed_iff ⟨[], rfl⟩ ⟨.ping, by decide⟩)
    ⟨by decide, fun ⟨h, _⟩ => absurd h (by decide)⟩

/-- `GET CHANNEL` is answered with `+NAME, DELAY, ` and nothing behind it. -/
theorem not_repliesFramed_listing : ¬ RepliesFramed netprotObjects (ascii "GET CHANNEL") := by
  intro hframed
  obtain ⟨reply, hreply, hshape⟩ := hframed (List.replicate outstrLen 0) List.length_replicate
  have hlisting : replyTo netprotObjects (ascii "GET CHANNEL") (List.replicate outstrLen 0)
      = some (ascii "+NAME, DELAY, ") := by decide
  obtain rfl := Option.some.inj (hreply.symm.trans hlisting)
  exact not_lineFramed_listText [ascii "NAME", ascii "DELAY"] hshape

end Datalogger
