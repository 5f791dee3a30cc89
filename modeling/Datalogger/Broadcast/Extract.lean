import Datalogger.Lib.Writes
import Datalogger.Broadcast.Bcast

/-!
# What `extract_string` writes

`extractString` (in `Bcast.lean`) is the text `extract_string` finds; here are the value
it returns and every write it makes to `out`, for an `out_len` of either sign
(`extractStringTo`, agreeing with the other by `extractStringTo_ret`). Both broadcast
buffers are filled through it, so their bounds are `extractStringTo_inside`.

Mirroring note: `str_len` is the distance of two pointers into one string, so neither it
nor `str_len+1` leaves the `int` range, and it is a natural number here.
-/

namespace Datalogger

open Lib (FirstAt Leaves Write strncpyTo)

/-- What `extract_string` returns, and its writes to `out`. -/
structure ExtractString where
  ret : Nat
  writes : List Write
  deriving DecidableEq, Repr

/-- `extract_string`. -/
def extractStringTo (inp pre : List UInt8) (outLen : Int32) : ExtractString :=
  match Lib.strstr pre inp with
  | some strPtr =>
    let strPtr := strPtr.drop pre.length
    match Lib.strchr 39 strPtr with
    | none => { ret := 0, writes := [] }
    | some strLen =>
      if outLen.toInt < strLen + 1 then { ret := 0, writes := [] }
      else { ret := strLen, writes := [strncpyTo 0 strPtr strLen, ⟨strLen, [0]⟩] }
  | none => { ret := 0, writes := [] }

/-- Nothing is returned and nothing written. -/
def ExtractString.failed : ExtractString := { ret := 0, writes := [] }

/-- The text is returned by its length and copied, with a terminator. -/
def ExtractString.copied (text : List UInt8) : ExtractString :=
  { ret := text.length, writes := [⟨0, text⟩, ⟨text.length, [0]⟩] }

/-- The field `extract_string` looks for: the characters from the end of the first
occurrence of the prefix to the first quote behind it. -/
def QuotedField (inp pre text : List UInt8) : Prop := HasField pre text inp ∧ 39 ∉ text

/-- There is one such field at most. -/
theorem QuotedField.unique {inp pre v w : List UInt8} (hv : QuotedField inp pre v)
    (hw : QuotedField inp pre w) : v = w := by
  have hroom : v.length < max v.length w.length + 1 := by omega
  have hroom' : w.length < max v.length w.length + 1 := by omega
  have hfirst := extractString_eq_some_iff.mpr ⟨hv.1, hv.2, hroom⟩
  rw [extractString_eq_some_iff.mpr ⟨hw.1, hw.2, hroom'⟩] at hfirst
  exact (Option.some.inj hfirst).symm

/-- **One field, one result.** A field is copied exactly if `out_len` has room for it
and its terminator. -/
theorem extractStringTo_of_field {inp pre text : List UInt8} (h : QuotedField inp pre text)
    (outLen : Int32) :
    extractStringTo inp pre outLen =
      if outLen.toInt < text.length + 1 then .failed else .copied text := by
  obtain ⟨⟨before, rest, hfirst, hinp⟩, hquote⟩ := h
  have hstr := Lib.strstr_eq_some_iff.mpr ⟨before, hfirst, hinp⟩
  have hchr : Lib.strchr 39 (text ++ 39 :: rest) = some text.length :=
    Lib.strchr_eq_some_iff.mpr ⟨text, rest, rfl, hquote, rfl⟩
  have hcopy : strncpyTo 0 (text ++ 39 :: rest) text.length = ⟨0, text⟩ := by
    rw [Lib.strncpyTo_of_le (by simp), List.take_left]
  unfold extractStringTo
  rw [hstr]
  simp only [List.drop_left, hchr, hcopy]
  rfl

/-- Without a field nothing happens. -/
theorem extractStringTo_of_no_field {inp pre : List UInt8} (h : ¬ ∃ text, QuotedField inp pre text)
    (outLen : Int32) : extractStringTo inp pre outLen = .failed := by
  unfold extractStringTo
  cases hstr : Lib.strstr pre inp with
  | none => rfl
  | some strPtr =>
    obtain ⟨before, hfirst, hinp⟩ := Lib.strstr_eq_some_iff.mp hstr
    obtain ⟨tail, htail⟩ := hfirst.1
    have hfound : strPtr = pre ++ tail := List.append_cancel_left (hinp.symm.trans htail)
    simp only [hfound, List.drop_left]
    cases hchr : Lib.strchr 39 tail with
    | none => rfl
    | some n =>
      -- the prefix and a quote behind it are a field
      obtain ⟨text, rest, hrest, hquote, -⟩ := Lib.strchr_eq_some_iff.mp hchr
      exact absurd ⟨text, ⟨before, rest, hfirst, by rw [hinp, hfound, hrest]⟩, hquote⟩ h

/-- A positive result is a field that was copied. -/
theorem extractStringTo_copied {inp pre : List UInt8} {outLen : Int32}
    (h : 0 < (extractStringTo inp pre outLen).ret) :
    ∃ text, QuotedField inp pre text ∧ (text.length : Int) + 1 ≤ outLen.toInt ∧
      extractStringTo inp pre outLen = .copied text := by
  by_cases hfield : ∃ text, QuotedField inp pre text
  · obtain ⟨text, htext⟩ := hfield
    rw [extractStringTo_of_field htext] at h ⊢
    by_cases hroom : outLen.toInt < text.length + 1
    · rw [if_pos hroom] at h
      exact absurd h (Nat.lt_irrefl 0)
    · rw [if_neg hroom]
      exact ⟨text, htext, by omega, rfl⟩
  · rw [extractStringTo_of_no_field hfield] at h
    exact absurd h (Nat.lt_irrefl 0)

/-- The value returned is the length of the text found, 0 where none is. -/
theorem extractStringTo_ret (inp pre : List UInt8) {outLen : Int32} (h : 0 ≤ outLen.toInt) :
    (extractStringTo inp pre outLen).ret
      = ((extractString inp pre outLen.toInt.toNat).map List.length).getD 0 := by
  by_cases hfield : ∃ text, QuotedField inp pre text
  · obtain ⟨text, htext⟩ := hfield
    rw [extractStringTo_of_field htext]
    by_cases hroom : outLen.toInt < text.length + 1
    · have hnone : extractString inp pre outLen.toInt.toNat = none := by
        refine Option.eq_none_iff_forall_ne_some.mpr fun v hv => ?_
        obtain ⟨hfield, hquote, hlen⟩ := extractString_eq_some_iff.mp hv
        rw [QuotedField.unique ⟨hfield, hquote⟩ htext] at hlen
        omega
      rw [if_pos hroom, hnone]
      rfl
    · rw [if_neg hroom, extractString_eq_some_iff.mpr ⟨htext.1, htext.2, by omega⟩]
      rfl
  · have hnone : extractString inp pre outLen.toInt.toNat = none := by
      refine Option.eq_none_iff_forall_ne_some.mpr fun v hv => ?_
      obtain ⟨hfield', hquote, -⟩ := extractString_eq_some_iff.mp hv
      exact hfield ⟨v, hfield', hquote⟩
    rw [extractStringTo_of_no_field hfield, hnone]
    rfl

/-- Every write stays inside `out[0 .. out_len-1]`. -/
theorem extractStringTo_inside (inp pre : List UInt8) (outLen : Int32) :
    ∀ w ∈ (extractStringTo inp pre outLen).writes, w.Inside outLen.toInt.toNat := by
  intro w hw
  by_cases hfield : ∃ text, QuotedField inp pre text
  · obtain ⟨text, htext⟩ := hfield
    rw [extractStringTo_of_field htext] at hw
    by_cases hroom : outLen.toInt < text.length + 1
    · rw [if_pos hroom] at hw
      exact absurd hw List.not_mem_nil
    · rw [if_neg hroom] at hw
      simp only [ExtractString.copied, List.mem_cons, List.not_mem_nil, or_false] at hw
      rcases hw with rfl | rfl
      · show 0 + text.length ≤ _
        omega
      · show text.length + 1 ≤ _
        omega
  · rw [extractStringTo_of_no_field hfield] at hw
    exact absurd hw List.not_mem_nil

/-- The prefix does not occur, no quote follows its first occurrence, or the text
between them does not fit. -/
def ExtractFails (inp pre : List UInt8) (outLen : Int32) : Prop :=
  ¬ pre <:+: inp ∨
  (∃ before rest, FirstAt pre inp before ∧ inp = before ++ (pre ++ rest) ∧ 39 ∉ rest) ∨
    ∃ text, QuotedField inp pre text ∧ outLen.toInt < text.length + 1

/-- Each of the three kinds of failure leaves `out` alone. -/
theorem extractStringTo_of_fails {inp pre : List UInt8} {outLen : Int32}
    (h : ExtractFails inp pre outLen) : extractStringTo inp pre outLen = .failed := by
  rcases h with habsent | ⟨before, rest, hfirst, hinp, hquote⟩ | ⟨text, htext, hlong⟩
  · refine extractStringTo_of_no_field (fun hfield => habsent ?_) outLen
    obtain ⟨text, ⟨before, rest, -, hinp⟩, -⟩ := hfield
    exact ⟨before, text ++ 39 :: rest, by rw [hinp, List.append_assoc]⟩
  · refine extractStringTo_of_no_field (fun hfield => hquote ?_) outLen
    obtain ⟨text, ⟨before', rest', hfirst', hinp'⟩, -⟩ := hfield
    -- both describe what stands behind the first occurrence
    have hsome := Lib.strstr_eq_some_iff.mpr ⟨before, hfirst, hinp⟩
    rw [Lib.strstr_eq_some_iff.mpr ⟨before', hfirst', hinp'⟩] at hsome
    rw [← List.append_cancel_left (Option.some.inj hsome)]
    simp
  · rw [extractStringTo_of_field htext, if_pos hlong]

/-- **What `extract_string` does.** It returns `n > 0` exactly if the `n` characters
between the end of the first occurrence of the prefix and the first quote behind it
satisfy `n + 1 ≤ out_len`, and `out` then holds these and a terminator. It writes to
`out[0 .. out_len-1]` only, and where the prefix or the quote is missing or the text is
too long it returns 0 and writes nothing. -/
theorem extract_string_spec (inp pre : List UInt8) (outLen : Int32) :
    (∀ n : Nat, 0 < n → ((extractStringTo inp pre outLen).ret = n ↔
      ∃ text, QuotedField inp pre text ∧ text.length = n ∧ (n : Int) + 1 ≤ outLen.toInt)) ∧
    (0 < (extractStringTo inp pre outLen).ret →
      ∃ text, QuotedField inp pre text ∧ text.length = (extractStringTo inp pre outLen).ret ∧
        Leaves outLen.toInt.toNat (extractStringTo inp pre outLen).writes text) ∧
    (∀ w ∈ (extractStringTo inp pre outLen).writes, w.Inside outLen.toInt.toNat) ∧
    (ExtractFails inp pre outLen →
      (extractStringTo inp pre outLen).ret = 0 ∧ (extractStringTo inp pre outLen).writes = []) := by
  refine ⟨fun n hn => ?_, fun hpos => ?_, extractStringTo_inside inp pre outLen, fun hfails => ?_⟩
  · constructor
    · intro hret
      obtain ⟨text, htext, hroom, hcopied⟩ := extractStringTo_copied (hret ▸ hn)
      rw [hcopied] at hret
      exact ⟨text, htext, hret, by rw [← hret]; exact hroom⟩
    · intro ⟨text, htext, hlen, hroom⟩
      rw [extractStringTo_of_field htext, if_neg (by omega)]
      exact hlen
  · obtain ⟨text, htext, hroom, hcopied⟩ := extractStringTo_copied hpos
    rw [hcopied]
    exact ⟨text, htext, rfl, Lib.leaves_terminated (by omega)⟩
  · rw [extractStringTo_of_fails hfails]
    exact ⟨rfl, rfl⟩

end Datalogger
