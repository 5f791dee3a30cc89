import Datalogger.Command.Grammar

/-!
# What the scanner has recorded

`parse_assignment` returns pointers into the text it was given and overwrites bytes of
it. `ScanText` relates them to the text: behind any text, the name is the run of
letters it starts with, and a string is a run of its bytes between two others. Each move
of the machine keeps the relation.

From it follow both postconditions. A call that succeeds leaves its pointers at
terminated runs inside the text, and no call overwrites more than two bytes
(`parseAssignment_post`). A call that fails has forgotten nothing it had recorded: the
name it returns is `NULL`, and the text unchanged, only if the scanner did not get past
the identifier (`failsClean_iff`).
-/

namespace Datalogger

open Lib (cstr setZeros isSpace isAlpha isDigit forall_byte oneOf)
open Grammar (started)

/-- A run of letters. -/
def IsWord (w : List UInt8) : Prop := w ≠ [] ∧ ∀ c ∈ w, isAlpha c

theorem endsName_not_isAlpha {c : UInt8} (h : endsName c) : isAlpha c = false := by
  have hall : ∀ n ∈ List.range 256, endsName (UInt8.ofNat n) → isAlpha (UInt8.ofNat n) = false := by
    decide +kernel
  exact forall_byte (P := fun c => endsName c → isAlpha c = false) hall c h

/-! ## The variables and the text -/

/-- The name is the word a text starts with, up to the byte that ends it. -/
def NameIn (text : List UInt8) (name nameEnd : Option Nat) : Prop :=
  ∃ word c rest, IsWord word ∧ endsName c ∧ text = word ++ c :: rest ∧
    name = some 0 ∧ nameEnd = some word.length

/-- The end of a text is a run of string bytes, which starts behind the name. -/
def StringTo (text : List UInt8) (nameEnd start : Option Nat) : Prop :=
  ∃ before body, (body ≠ [] ∧ ∀ c ∈ body, isStrByte c) ∧ text = before ++ body ∧
    start = some before.length ∧ ∃ e, nameEnd = some e ∧ e < before.length

/-- The string is a run of string bytes inside a text, up to the byte at `stop`. -/
def StringIn (text : List UInt8) (nameEnd start stop : Option Nat) : Prop :=
  ∃ run c rest, StringTo run nameEnd start ∧ text = run ++ c :: rest ∧ stop = some run.length

theorem NameIn.append {text : List UInt8} {name nameEnd : Option Nat} (h : NameIn text name nameEnd)
    (more : List UInt8) : NameIn (text ++ more) name nameEnd := by
  obtain ⟨word, c, rest, hword, hc, rfl, hname, hend⟩ := h
  exact ⟨word, c, rest ++ more, hword, hc, by simp, hname, hend⟩

theorem StringIn.append {text : List UInt8} {nameEnd start stop : Option Nat}
    (h : StringIn text nameEnd start stop) (more : List UInt8) :
    StringIn (text ++ more) nameEnd start stop := by
  obtain ⟨run, c, rest, hrun, rfl, hstop⟩ := h
  exact ⟨run, c, rest ++ more, hrun, by simp, hstop⟩

theorem StringIn.start_eq {text : List UInt8} {nameEnd start stop : Option Nat}
    (h : StringIn text nameEnd start stop) : ∃ v, start = some v := by
  obtain ⟨_, _, _, ⟨before, _, _, _, hstart, _⟩, _, _⟩ := h
  exact ⟨before.length, hstart⟩

/-- The name ends inside the text. -/
theorem NameIn.nameEnd_lt {text : List UInt8} {name nameEnd : Option Nat}
    (h : NameIn text name nameEnd) : ∃ e, nameEnd = some e ∧ e < text.length := by
  obtain ⟨word, c, rest, -, -, rfl, -, hend⟩ := h
  exact ⟨word.length, hend, by simp⟩

/-- What the scanner's variables say about the text it has read. -/
structure ScanText (text : List UInt8) (s : Scan) : Prop where
  begins : s.cs = 1 → text = []
  word : s.cs = 2 → IsWord text ∧ s.nameStart = some 0
  untyped : s.cs = 1 ∨ s.cs = 2 → s.type ≠ .str
  unnamed : s.cs = 1 ∨ s.cs = 2 → s.name = none
  name : s.name = none ∨ NameIn text s.name s.nameEnd
  named : 3 ≤ s.cs → s.name ≠ none
  inString : s.cs = 6 → StringTo text s.nameEnd s.valueStart
  string : s.type = .str → s.name ≠ none ∧ StringIn text s.nameEnd s.string s.valueEnd

theorem scanInit_text : ScanText [] scanInit := by
  refine ⟨fun _ => rfl, ?_, fun _ => nofun, fun _ => rfl, Or.inl rfl, ?_, ?_, nofun⟩
  · intro h
    exact absurd h (by decide)
  · intro h
    exact absurd h (by decide)
  · intro h
    exact absurd h (by decide)

/-- Behind the error the rest of the text is not looked at. -/
theorem ScanText.stop {text : List UInt8} {s : Scan} (h : ScanText text s) (more : List UInt8) :
    ScanText (text ++ more) { s with cs := 0 } where
  begins := nofun
  word := nofun
  untyped := by rintro (hc | hc) <;> cases hc
  unnamed := by rintro (hc | hc) <;> cases hc
  name := h.name.imp_right fun hn => hn.append more
  named := by intro hc; cases hc
  inString := nofun
  string := fun ht => ⟨(h.string ht).1, (h.string ht).2.append more⟩

/-- Behind the name a move only has to say what it makes of the value. -/
theorem ScanText.behindName {text : List UInt8} {s s' : Scan} (h : ScanText text s)
    (hcs : 3 ≤ s.cs) (hcs' : 3 ≤ s'.cs) {c : UInt8} (hname : s'.name = s.name)
    (hend : s'.nameEnd = s.nameEnd)
    (hin : s'.cs = 6 → StringTo (text ++ [c]) s.nameEnd s'.valueStart)
    (hstr : s'.type = .str → StringIn (text ++ [c]) s.nameEnd s'.string s'.valueEnd) :
    ScanText (text ++ [c]) s' := by
  have hne := h.named hcs
  refine ⟨fun hc => ?_, fun hc => ?_, fun hc => ?_, fun hc => ?_, ?_, fun _ => ?_, ?_, ?_⟩
  · omega
  · omega
  · omega
  · omega
  · rw [hname, hend]
    exact Or.inr ((h.name.resolve_left hne).append [c])
  · rw [hname]
    exact hne
  · rw [hend]
    exact hin
  · rw [hname, hend]
    exact fun ht => ⟨hne, hstr ht⟩

/-- **One byte keeps the relation.** -/
theorem ScanText.move {text : List UInt8} {s : Scan} (h : ScanText text s) {c : UInt8}
    {m : Nat × List Nat} (hm : Move s.cs c m) :
    ScanText (text ++ [c]) (m.2.foldl (Scan.act text.length) { s with cs := m.1 }) := by
  -- a string that is there stays where it is
  have hkeep : s.type = .str → StringIn (text ++ [c]) s.nameEnd s.string s.valueEnd :=
    fun ht => (h.string ht).2.append [c]
  obtain ⟨cs, name, nameStart, nameEnd, valueStart, valueEnd, type, string⟩ := s
  cases hm with
  | fail => exact h.stop [c]
  | beginName hc =>
    obtain rfl := h.begins rfl
    obtain rfl : name = none := h.unnamed (Or.inl rfl)
    have hword : IsWord [c] := ⟨by simp, by simpa using hc⟩
    refine ⟨nofun, fun _ => ⟨hword, rfl⟩, fun _ => h.untyped (Or.inl rfl), fun _ => rfl, Or.inl rfl,
      ?_, nofun, fun ht => absurd ht (h.untyped (Or.inl rfl))⟩
    intro hc
    have hc : 3 ≤ 2 := hc
    omega
  | goOnName hc =>
    obtain ⟨⟨hne, halpha⟩, hstart⟩ := h.word rfl
    obtain rfl : name = none := h.unnamed (Or.inr rfl)
    have hword : IsWord (text ++ [c]) := by
      refine ⟨by simp, fun d hd => ?_⟩
      rcases List.mem_append.mp hd with hold | hnew
      · exact halpha d hold
      · rw [List.mem_singleton.mp hnew]
        exact hc
    refine ⟨nofun, fun _ => ⟨hword, hstart⟩, fun _ => h.untyped (Or.inr rfl), fun _ => rfl,
      Or.inl rfl, ?_, nofun, fun ht => absurd ht (h.untyped (Or.inr rfl))⟩
    intro hc
    have hc : 3 ≤ 2 := hc
    omega
  | @endName _ t hc ht =>
    obtain ⟨hword, hstart⟩ := h.word rfl
    obtain rfl : nameStart = some 0 := hstart
    have htyped := h.untyped (Or.inr rfl)
    have hin : NameIn (text ++ [c]) (some 0) (some text.length) :=
      ⟨text, c, [], hword, hc, rfl, rfl, rfl⟩
    refine ⟨fun hc => ?_, fun hc => ?_, fun _ => htyped, fun hc => ?_, Or.inr hin, fun _ => nofun,
      fun hc => ?_, fun ht => absurd ht htyped⟩
    · have hc : t = 1 := hc
      omega
    · have hc : t = 2 := hc
      omega
    · have hc : t = 1 ∨ t = 2 := hc
      omega
    · have hc : t = 6 := hc
      omega
  | @beforeValue _ _ t hcs ht =>
    refine h.behindName hcs.1 ht.1 rfl rfl (fun hc => ?_) hkeep
    have hc : t = 6 := hc
    omega
  | @beginNumber _ t ht =>
    have h4 : 3 ≤ 4 := by decide
    refine h.behindName h4 (by show 3 ≤ t; omega) rfl rfl (fun hc => ?_) (fun ht => ?_)
    · have hc : t = 6 := hc
      omega
    · cases ht
  | @goOnNumber _ _ t hcs ht =>
    have hcs : 7 ≤ cs := hcs
    refine h.behindName (by show 3 ≤ cs; omega) (by show 3 ≤ t; omega) rfl rfl (fun hc => ?_)
      (fun ht => ?_)
    · have hc : t = 6 := hc
      omega
    · cases ht
  | beginString hb =>
    have h5 : 3 ≤ 5 := by decide
    have h6 : 3 ≤ 6 := by decide
    obtain ⟨e, he, hlt⟩ := (h.name.resolve_left (h.named h5)).nameEnd_lt
    exact h.behindName h5 h6 rfl rfl
      (fun _ => ⟨text, [c], ⟨by simp, by simpa using hb⟩, rfl, rfl, e, he, hlt⟩) hkeep
  | goOnString hb =>
    obtain ⟨before, body, ⟨hne, hbody⟩, rfl, hstart, hend⟩ := h.inString rfl
    have hbody' : ∀ d ∈ body ++ [c], isStrByte d := by
      intro d hd
      rcases List.mem_append.mp hd with hold | hnew
      · exact hbody d hold
      · rw [List.mem_singleton.mp hnew]
        exact hb
    have h6 : 3 ≤ 6 := by decide
    exact h.behindName h6 h6 rfl rfl
      (fun _ => ⟨before, body ++ [c], ⟨by simp, hbody'⟩, by simp, hstart, hend⟩) hkeep
  | endString =>
    have h6 : 3 ≤ 6 := by decide
    have h9 : 3 ≤ 9 := by decide
    refine h.behindName h6 h9 rfl rfl nofun fun _ => ?_
    exact ⟨text, c, [], h.inString rfl, rfl, rfl⟩

/-- The scanner keeps the relation over any text. -/
theorem scanExec_text :
    ∀ (more : List UInt8) {text : List UInt8} {s : Scan}, s.cs ≤ 12 → ScanText text s →
      ScanText (text ++ more) (scanExec s text.length more) := by
  intro more
  induction more with
  | nil =>
    intro text s _ h
    rw [List.append_nil]
    exact h
  | cons c more ih =>
    intro text s hle h
    rw [scanExec]
    by_cases hcs : s.cs = 0
    · rw [if_pos hcs]
      have hstop := h.stop (c :: more)
      rw [← hcs] at hstop
      exact hstop
    · rw [if_neg hcs]
      have hmem : s.cs ∈ List.range' 1 12 := List.mem_range'_1.mpr (by omega)
      have hmove := machineNext_move hmem c
      have hstep := h.move hmove
      rw [← Scan.step_eq hmem] at hstep
      have hle' : (s.step text.length c).cs ≤ 12 := by
        rw [Scan.step_eq hmem, foldl_act_cs]
        exact hmove.state_le
      have hrest := ih hle' hstep
      rw [List.length_append, List.length_singleton, List.append_assoc] at hrest
      exact hrest

theorem parse_text (start : List UInt8) : ScanText start (scanExec scanInit 0 start) :=
  scanExec_text start (by decide) scanInit_text

/-! ## Success -/

/-- A pointer into a memory, at a run of bytes of a kind that ends in a null byte. -/
def RunAt (P : UInt8 → Bool) (mem : List UInt8) (o : Nat) : Prop :=
  ∃ run rest, (run ≠ [] ∧ ∀ c ∈ run, P c) ∧ mem.drop o = run ++ 0 :: rest

/-- The null byte over the closing quote ends the string. -/
theorem runAt_string {text : List UInt8} {nameEnd start stop : Option Nat} {e v z : Nat}
    (h : StringIn text nameEnd start stop) (he : nameEnd = some e) (hv : start = some v)
    (hz : stop = some z) : RunAt isStrByte (setZeros text [e, z]) v ∧ e < z := by
  obtain ⟨_, c, rest, ⟨before, body, hbody, rfl, hstart, e', he', hlt⟩, rfl, hstop⟩ := h
  obtain rfl : e' = e := Option.some.inj (he'.symm.trans he)
  obtain rfl : before.length = v := Option.some.inj (hstart.symm.trans hv)
  obtain rfl : (before ++ body).length = z := Option.some.inj (hstop.symm.trans hz)
  have hlen : (before ++ body).length = before.length + body.length := List.length_append
  exact ⟨⟨body, rest, hbody, Lib.drop_setZeros_run before body c rest hlt⟩, by omega⟩

/-- A call that returns a name: the word the text starts with, a null byte behind it, and
another one behind a string, if the value is one. -/
structure Named (start : List UInt8) (a : Assignment) (word : List UInt8) : Prop where
  isWord : IsWord word
  text : ∃ c rest, endsName c ∧ start = word ++ c :: rest
  name : a.name = some 0
  nulls : (a.type ≠ .str ∧ a.nulls = [word.length]) ∨
    ∃ v z, a.type = .str ∧ a.string = some v ∧ a.nulls = [word.length, z] ∧
      RunAt isStrByte (setZeros start a.nulls) v ∧ word.length < z

theorem parseAssignment_named {start : List UInt8} {a : Assignment}
    (h : parseAssignment start = some a) (hname : a.name ≠ none) : ∃ word, Named start a word := by
  have htext := parse_text start
  have hreports := parseAssignment_reports h
  generalize scanExec scanInit 0 start = s at htext hreports
  rw [hreports.name] at hname
  obtain ⟨word, c, rest, hword, hc, hstart, hzero, hend⟩ := htext.name.resolve_left hname
  have hsome : s.nameNulls = some [word.length] := by
    unfold Scan.nameNulls
    rw [hzero, hend]
  refine ⟨word, hword, ⟨c, rest, hc, hstart⟩, hreports.name.trans hzero, ?_⟩
  obtain ⟨nulls, hnulls, hcases⟩ := hreports.nulls
  obtain rfl : nulls = [word.length] := Option.some.inj (hnulls.symm.trans hsome)
  rcases hcases with ⟨hne, heq⟩ | ⟨z, htype, hz, heq⟩
  · exact Or.inl ⟨by rw [hreports.type]; exact hne, heq⟩
  · obtain ⟨-, hstring⟩ := htext.string htype
    obtain ⟨v, hv⟩ := hstring.start_eq
    obtain ⟨hrun, hlt⟩ := runAt_string hstring hend hv hz
    exact Or.inr ⟨v, z, hreports.type.trans htype, hreports.string.trans hv, heq,
      heq ▸ hrun, hlt⟩

/-- A call that returns no name fails and overwrites nothing. -/
theorem parseAssignment_unnamed {start : List UInt8} {a : Assignment}
    (h : parseAssignment start = some a) (hname : a.name = none) :
    a.ret = -1 ∧ a.nulls = [] := by
  obtain ⟨a', ha', hsafe⟩ := parseAssignment_safe start
  obtain rfl := Option.some.inj (ha'.symm.trans h)
  have htext := parse_text start
  have hreports := parseAssignment_reports h
  generalize scanExec scanInit 0 start = s at htext hreports
  rw [hreports.name] at hname
  have hsome : s.nameNulls = some [] := by
    unfold Scan.nameNulls
    rw [hname]
  obtain ⟨nulls, hnulls, hcases⟩ := hreports.nulls
  obtain rfl : nulls = [] := Option.some.inj (hnulls.symm.trans hsome)
  refine ⟨hsafe.ret.resolve_left fun hret => ?_, ?_⟩
  · have hsome := (hsafe.value hret).1
    rw [hreports.name, hname] at hsome
    cases hsome
  · rcases hcases with ⟨-, heq⟩ | ⟨z, htype, -, -⟩
    · exact heq
    · exact absurd hname (htext.string htype).1

/-- The memory behind a call that returns a name starts with it. -/
theorem Named.memory {start : List UInt8} {a : Assignment} {word : List UInt8}
    (h : Named start a word) : ∃ rest, setZeros start a.nulls = word ++ 0 :: rest := by
  obtain ⟨c, rest, -, rfl⟩ := h.text
  rcases h.nulls with ⟨-, heq⟩ | ⟨v, z, -, -, heq, -, hlt⟩
  · rw [heq]
    exact Lib.setZeros_word word c rest (by simp)
  · rw [heq]
    exact Lib.setZeros_word word c rest (by simpa using hlt)

/-- What `parse_assignment` promises: it overwrites at most two bytes of the text, with
null bytes, and when it succeeds, the name is a run of letters in it, a string is a run
of letters, digits and white space, and a null byte in it ends both. -/
structure Postcondition (start : List UInt8) (a : Assignment) : Prop where
  nulls : a.nulls.length ≤ 2 ∧ ∀ o ∈ a.nulls, o < start.length
  frame : ∀ i, (setZeros start a.nulls)[i]? = if i ∈ a.nulls then some 0 else start[i]?
  name : a.ret = 0 → ∃ n, a.name = some n ∧ RunAt isAlpha (setZeros start a.nulls) n
  string : a.ret = 0 → a.type = .str →
    ∃ v, a.string = some v ∧ RunAt isStrByte (setZeros start a.nulls) v

/-- **The postcondition** holds on every text. -/
theorem parseAssignment_post (start : List UInt8) :
    ∃ a, parseAssignment start = some a ∧ Postcondition start a := by
  obtain ⟨a, ha, hsafe⟩ := parseAssignment_safe start
  refine ⟨a, ha, ⟨?_, hsafe.nulls⟩, Lib.getElem?_setZeros hsafe.nulls, fun hret => ?_,
    fun hret htype => ?_⟩
  · by_cases hname : a.name = none
    · rw [(parseAssignment_unnamed ha hname).2]
      decide
    · obtain ⟨word, hnamed⟩ := parseAssignment_named ha hname
      rcases hnamed.nulls with ⟨-, heq⟩ | ⟨_, _, -, -, heq, -⟩
      · rw [heq]
        exact Nat.le_succ 1
      · rw [heq]
        exact Nat.le_refl 2
  · obtain ⟨word, hnamed⟩ := parseAssignment_named ha
      (Option.isSome_iff_ne_none.mp (hsafe.value hret).1)
    obtain ⟨rest, hmem⟩ := hnamed.memory
    exact ⟨0, hnamed.name, word, rest, hnamed.isWord, hmem⟩
  · obtain ⟨word, hnamed⟩ := parseAssignment_named ha
      (Option.isSome_iff_ne_none.mp (hsafe.value hret).1)
    rcases hnamed.nulls with ⟨hne, -⟩ | ⟨v, z, -, hv, -, hrun, -⟩
    · exact absurd htype hne
    · exact ⟨v, hv, hrun⟩

/-- The name a call that succeeds returns: the letters the text starts with. -/
theorem parseAssignment_name {start : List UInt8} {a : Assignment}
    (h : parseAssignment start = some a) (hret : a.ret = 0) :
    a.name = some 0 ∧ a.textAt start 0 = start.takeWhile isAlpha := by
  have hname : a.name ≠ none := by
    intro hnone
    rw [(parseAssignment_unnamed h hnone).1] at hret
    exact absurd hret (by decide)
  obtain ⟨word, hnamed⟩ := parseAssignment_named h hname
  obtain ⟨rest, hmem⟩ := hnamed.memory
  obtain ⟨c, rest', hc, hstart⟩ := hnamed.text
  refine ⟨hnamed.name, ?_⟩
  show cstr ((setZeros start a.nulls).drop 0) = _
  rw [List.drop_zero, hmem, Lib.cstr_append_zero (zero_notMem_of_isAlpha hnamed.isWord.2), hstart,
    List.takeWhile_append_of_pos hnamed.isWord.2, List.takeWhile_cons, endsName_not_isAlpha hc]
  simp

/-! ## Failure -/

namespace Grammar

/-- A text whose identifier ends: `identifier` and white space or `=`. -/
def identified : Language UInt8 := identifier * (oneOf endsName * ⊤)

theorem mem_identified_iff (w : List UInt8) :
    w ∈ identified ↔ ∃ word c rest, IsWord word ∧ endsName c ∧ w = word ++ c :: rest := by
  unfold identified identifier
  constructor
  · intro h
    obtain ⟨word, hword, tail, htail, rfl⟩ := Language.mem_mul.mp h
    obtain ⟨_, ⟨c, hc, rfl⟩, rest, -, rfl⟩ := Language.mem_mul.mp htail
    exact ⟨word, c, rest, Lib.mem_plus_oneOf.mp hword, hc, rfl⟩
  · intro h
    obtain ⟨word, c, rest, hword, hc, rfl⟩ := h
    exact Language.append_mem_mul (Lib.mem_plus_oneOf.mpr hword)
      (Lib.cons_mem_oneOf_mul.mpr ⟨hc, Lib.mem_top⟩)

end Grammar

/-- Behind the name no move takes it back. -/
theorem scanExec_name_eq (text : List UInt8) :
    ∀ {s : Scan} {p : Nat}, s.cs ≤ 12 → s.cs = 0 ∨ 3 ≤ s.cs →
      (scanExec s p text).name = s.name := by
  induction text with
  | nil =>
    intro s p _ _
    rfl
  | cons c text ih =>
    intro s p hle h
    rw [scanExec]
    split
    next => rfl
    next hcs =>
      have hmem : s.cs ∈ List.range' 1 12 := List.mem_range'_1.mpr (by omega)
      have hmove := machineNext_move hmem c
      have hcs' := foldl_act_cs p (machineNext s.cs c).2 { s with cs := (machineNext s.cs c).1 }
      rw [Scan.step_eq hmem]
      generalize machineNext s.cs c = m at hmove hcs'
      have hname : (m.2.foldl (Scan.act p) { s with cs := m.1 }).name = s.name ∧
          (m.1 = 0 ∨ 3 ≤ m.1) := by
        obtain ⟨cs, name, nameStart, nameEnd, valueStart, valueEnd, type, string⟩ := s
        have hpast : 3 ≤ cs := h.resolve_left hcs
        cases hmove with
        | fail => exact ⟨rfl, Or.inl rfl⟩
        | beginName | goOnName | endName => exact absurd hpast (by decide)
        | beforeValue _ ht | beginNumber ht | goOnNumber _ ht => exact ⟨rfl, Or.inr (by omega)⟩
        | beginString | goOnString | endString => exact ⟨rfl, Or.inr (by decide)⟩
      rw [ih (by rw [hcs']; exact hmove.state_le) (by rw [hcs']; exact hname.2), hname.1]

/-- A text whose identifier ends leaves a name. -/
theorem name_of_identified {start : List UInt8} {a : Assignment}
    (h : parseAssignment start = some a) (hstart : start ∈ Grammar.identified) : a.name ≠ none := by
  obtain ⟨word, c, rest, ⟨hne, halpha⟩, hc, rfl⟩ := (Grammar.mem_identified_iff start).mp hstart
  have hends : ∃ t, (t = 3 ∨ t = 4) ∧ machineNext 2 c = (t, [1]) := by
    by_cases hs : isSpace c
    · exact ⟨3, Or.inl rfl, (isSpace_next hs).1⟩
    · have hc61 : c = 61 := by simpa [endsName, hs] using hc
      rw [hc61]
      exact ⟨4, Or.inr rfl, by decide⟩
  obtain ⟨t, ht, hnext⟩ := hends
  rw [(parseAssignment_reports h).name, scanExec_word hne halpha,
    scanExec_next (q := 2) rfl (by decide) hnext,
    scanExec_name_eq rest (by show t ≤ 12; omega) (Or.inr (by show 3 ≤ t; omega))]
  exact Option.some_ne_none _

/-- A call that fails leaves nothing behind. -/
def FailsClean (start : List UInt8) : Prop :=
  ∀ a, parseAssignment start = some a → a.ret = -1 →
    a.name = none ∧ a.type = .none ∧ setZeros start a.nulls = start

/-- **Failing clean, exactly.** A call does on the texts on which it succeeds, and on
those whose identifier does not end in white space or `=`. -/
theorem failsClean_iff (start : List UInt8) :
    FailsClean start ↔ start ∈ started ∨ start ∉ Grammar.identified := by
  obtain ⟨a, ha, hret⟩ := parseAssignment_ret start
  constructor
  · intro hclean
    rcases hret with ⟨hstarted, -⟩ | ⟨-, hfail⟩
    · exact Or.inl hstarted
    · exact Or.inr fun hname => name_of_identified ha hname (hclean a ha hfail).1
  · intro h a' ha' hfail
    obtain rfl : a' = a := Option.some.inj (ha'.symm.trans ha)
    -- the call fails, so the identifier does not end
    have hnot : start ∉ Grammar.identified := by
      rcases hret with ⟨-, hzero⟩ | ⟨hstarted, -⟩
      · exact absurd (hzero.symm.trans hfail) (by decide)
      · exact h.resolve_left hstarted
    have hname : a'.name = none := by
      by_contra hne
      obtain ⟨word, hnamed⟩ := parseAssignment_named ha hne
      obtain ⟨c, rest, hc, hstart⟩ := hnamed.text
      exact hnot ((Grammar.mem_identified_iff start).mpr ⟨word, c, rest, hnamed.isWord, hc, hstart⟩)
    have hreports := parseAssignment_reports ha
    refine ⟨hname, ?_, ?_⟩
    · rw [hreports.type]
      rcases hreports.ret with ⟨hzero, -⟩ | ⟨-, hnone⟩
      · exact absurd (hzero.symm.trans hfail) (by decide)
      · exact hnone
    · rw [(parseAssignment_unnamed ha hname).2]
      rfl

/-- `A=` fails, with the name `A` and a null byte over the `=`. -/
theorem not_failsClean_noValue : ¬ FailsClean [65, 61] := by
  have hparse : (parseAssignment [65, 61]).map (fun a => (a.ret, a.name, a.nulls))
      = some (-1, some 0, [1]) := by decide +kernel
  intro hclean
  obtain ⟨a, ha, heq⟩ := Option.map_eq_some_iff.mp hparse
  obtain ⟨hret, hrest⟩ := Prod.mk.inj heq
  have hname := (hclean a ha hret).1
  rw [(Prod.mk.inj hrest).1] at hname
  cases hname

end Datalogger
