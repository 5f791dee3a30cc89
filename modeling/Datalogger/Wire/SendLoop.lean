import Mathlib.Data.List.Basic
import Datalogger.Wire.Header

/-!
# The send loop of `netprot_send_capture`

```
tosend = netprot_header_getsize(buf);
while (tosend>0) {
  n = send(s, (char*)buf+sent, tosend, 0);
  NETPROT_SOCKET_ERROR_CHECK(n);
  sent += n;
  tosend -= sent;
}
```

`send()` is FNET's non-blocking one: it takes any part of what it is offered, or
nothing. `tosend` is meant to stay `S - sent`, but the loop subtracts the running
total `sent` where it means the last count `n`, so from the second accepting send on
`tosend` falls too fast and the loop stops early. `sendLoop_complete_iff` says which
result sequences still send the whole packet.

`sent` stays at most `S` and `tosend` above `-S`, so the two `int`s never overflow
and are modelled by `Nat` and `Int`.
-/

namespace Datalogger

/-- What one `send()` returns. -/
inductive SendResult where
  | socketError
  | accepted (n : Nat)
  deriving DecidableEq, Repr

/-- One call `send(s, (char*)buf+off, len, 0)` and its result. -/
structure SendCall where
  off : Nat
  len : Int
  result : SendResult
  deriving DecidableEq, Repr

/-- How the loop was left: it still runs when the given results are used up,
it returned `NETPROT_ERR_LOCAL`, or it ended with this value of `sent`. -/
inductive LoopExit where
  | running
  | error
  | done (sent : Nat)
  deriving DecidableEq, Repr

/-- The `while` loop against the results the successive `send()` calls return. -/
def sendLoop (sent : Nat) (tosend : Int) : List SendResult → List SendCall × LoopExit
  | [] => if tosend ≤ 0 then ([], .done sent) else ([], .running)
  | r :: rs =>
    if tosend ≤ 0 then ([], .done sent)
    else match r with
      | .socketError => ([⟨sent, tosend, .socketError⟩], .error)
      | .accepted n =>
        -- `tosend -= sent` takes off the total so far, not the last count `n`
        let rest := sendLoop (sent + n) (tosend - (sent + n : Nat)) rs
        (⟨sent, tosend, .accepted n⟩ :: rest.1, rest.2)

/-- No call was answered with more than it offered. -/
def Honest (calls : List SendCall) : Prop :=
  ∀ c ∈ calls, ∀ n, c.result = .accepted n → (n : Int) ≤ c.len

/-- The bytes of `buf` the socket took in one call. -/
def SendCall.taken (buf : List UInt8) (c : SendCall) : List UInt8 :=
  match c.result with
  | .socketError => []
  | .accepted n => (buf.drop c.off).take n

/-- The byte stream the socket took, in order. -/
def takenBytes (buf : List UInt8) (calls : List SendCall) : List UInt8 :=
  calls.flatMap (SendCall.taken buf)

theorem sendLoop_of_nonpos {sent : Nat} {tosend : Int} (h : tosend ≤ 0) (rs : List SendResult) :
    sendLoop sent tosend rs = ([], .done sent) := by
  cases rs with
  | nil => rw [sendLoop, if_pos h]
  | cons r rs => cases r <;> rw [sendLoop, if_pos h]

theorem sendLoop_accepted {sent : Nat} {tosend : Int} (h : 0 < tosend) (n : Nat)
    (rs : List SendResult) :
    sendLoop sent tosend (.accepted n :: rs)
      = (⟨sent, tosend, .accepted n⟩ :: (sendLoop (sent + n) (tosend - (sent + n : Nat)) rs).1,
          (sendLoop (sent + n) (tosend - (sent + n : Nat)) rs).2) := by
  rw [sendLoop, if_neg (by omega)]

theorem honest_cons {c : SendCall} {calls : List SendCall} (h : Honest (c :: calls)) :
    Honest calls :=
  fun c' hc' => h c' (List.mem_cons_of_mem c hc')

/-- While `sent + tosend ≤ S`, every call stays inside `buf[0 .. S-1]`. -/
theorem sendLoop_inRange {S : Nat} :
    ∀ (rs : List SendResult) {sent : Nat} {tosend : Int}, (sent : Int) + tosend ≤ S →
      Honest (sendLoop sent tosend rs).1 →
      ∀ c ∈ (sendLoop sent tosend rs).1, 0 < c.len ∧ (c.off : Int) + c.len ≤ S := by
  intro rs
  induction rs with
  | nil =>
    intro sent tosend _ _ c hc
    rw [sendLoop] at hc
    split at hc <;> cases hc
  | cons r rs ih =>
    intro sent tosend hsum hhonest c hc
    rcases Int.lt_or_le 0 tosend with hpos | hnonpos
    · cases r with
      | socketError =>
        rw [sendLoop, if_neg (by omega)] at hc
        obtain rfl := List.mem_singleton.mp hc
        exact ⟨hpos, hsum⟩
      | accepted n =>
        -- `sent + tosend` falls by the `sent` of before, so it stays at most `S`
        rw [sendLoop_accepted hpos] at hc hhonest
        rcases List.mem_cons.mp hc with rfl | hrest
        · exact ⟨hpos, hsum⟩
        · exact ih (by omega) (honest_cons hhonest) c hrest
    · rw [sendLoop_of_nonpos hnonpos] at hc
      cases hc

/-- The calls are contiguous, so what the socket took is one slice of the buffer,
from `sent` at entry to `sent` at exit. -/
theorem takenBytes_sendLoop (buf : List UInt8) :
    ∀ (rs : List SendResult) {sent r : Nat} {tosend : Int},
      (sendLoop sent tosend rs).2 = .done r →
      sent ≤ r ∧ takenBytes buf (sendLoop sent tosend rs).1 = (buf.drop sent).take (r - sent) := by
  intro rs
  induction rs with
  | nil =>
    intro sent r tosend hdone
    rw [sendLoop] at hdone ⊢
    split at hdone
    · obtain rfl := LoopExit.done.inj hdone
      rw [if_pos (by assumption)]
      exact ⟨Nat.le_refl _, by simp [takenBytes]⟩
    · cases hdone
  | cons x rs ih =>
    intro sent r tosend hdone
    rcases Int.lt_or_le 0 tosend with hpos | hnonpos
    · cases x with
      | socketError =>
        rw [sendLoop, if_neg (by omega)] at hdone
        cases hdone
      | accepted n =>
        rw [sendLoop_accepted hpos] at hdone ⊢
        obtain ⟨hle, htaken⟩ := ih hdone
        refine ⟨by omega, ?_⟩
        -- this call takes the front of the slice, the rest of the loop what follows it
        have hsplit : r - sent = n + (r - (sent + n)) := by omega
        show (buf.drop sent).take n ++ takenBytes buf _ = _
        rw [htaken, hsplit, List.take_add, List.drop_drop]
    · rw [sendLoop_of_nonpos hnonpos] at hdone ⊢
      obtain rfl := LoopExit.done.inj hdone
      exact ⟨Nat.le_refl _, by simp [takenBytes]⟩

/-- Once `sent + tosend` has fallen below `S`, the loop cannot end with `S`. -/
theorem sendLoop_short {S : Nat} :
    ∀ (rs : List SendResult) {sent r : Nat} {tosend : Int}, sent < S →
      (sent : Int) + tosend < S → Honest (sendLoop sent tosend rs).1 →
      (sendLoop sent tosend rs).2 = .done r → r < S := by
  intro rs
  induction rs with
  | nil =>
    intro sent r tosend hsent _ _ hdone
    rw [sendLoop] at hdone
    split at hdone
    · obtain rfl := LoopExit.done.inj hdone
      exact hsent
    · cases hdone
  | cons x rs ih =>
    intro sent r tosend hsent hsum hhonest hdone
    rcases Int.lt_or_le 0 tosend with hpos | hnonpos
    · cases x with
      | socketError =>
        rw [sendLoop, if_neg (by omega)] at hdone
        cases hdone
      | accepted n =>
        rw [sendLoop_accepted hpos] at hdone hhonest
        -- an honest send takes at most `tosend`, so `sent` stays below `S`
        have hn : (n : Int) ≤ tosend := hhonest _ (List.mem_cons_self ..) n rfl
        exact ih (by omega) (by omega) (honest_cons hhonest) hdone
    · rw [sendLoop_of_nonpos hnonpos] at hdone
      obtain rfl := LoopExit.done.inj hdone
      exact hsent

/-- The result sequences the loop is right for: after any number of empty sends the
packet goes out in one send, or in two that follow each other directly. -/
def InAtMostTwoSends (S : Nat) (rs : List SendResult) : Prop :=
  ∃ z rest, rs = List.replicate z (.accepted 0) ++ .accepted S :: rest ∨
    ∃ a, 0 < a ∧ a < S ∧
      rs = List.replicate z (.accepted 0) ++ .accepted a :: .accepted (S - a) :: rest

/-- Leading empty sends do not matter. -/
theorem inAtMostTwoSends_zero {S : Nat} (hS : 0 < S) (rs : List SendResult) :
    InAtMostTwoSends S (.accepted 0 :: rs) ↔ InAtMostTwoSends S rs := by
  constructor
  · rintro ⟨z, rest, hone | ⟨a, ha, haS, htwo⟩⟩
    · cases z with
      | zero =>
        obtain ⟨hhead, -⟩ := List.cons.inj hone
        exact absurd (SendResult.accepted.inj hhead) (by omega)
      | succ z => exact ⟨z, rest, Or.inl (List.cons.inj hone).2⟩
    · cases z with
      | zero =>
        obtain ⟨hhead, -⟩ := List.cons.inj htwo
        exact absurd (SendResult.accepted.inj hhead) (by omega)
      | succ z => exact ⟨z, rest, Or.inr ⟨a, ha, haS, (List.cons.inj htwo).2⟩⟩
  · rintro ⟨z, rest, hone | ⟨a, ha, haS, htwo⟩⟩
    · exact ⟨z + 1, rest, Or.inl (by rw [hone]; rfl)⟩
    · exact ⟨z + 1, rest, Or.inr ⟨a, ha, haS, by rw [htwo]; rfl⟩⟩

/-- The head of such a sequence, when it is not an empty send. -/
theorem inAtMostTwoSends_pos {S n : Nat} (hn : 0 < n) (rs : List SendResult) :
    InAtMostTwoSends S (.accepted n :: rs) ↔
      n = S ∨ n < S ∧ ∃ rest, rs = .accepted (S - n) :: rest := by
  constructor
  · rintro ⟨z, rest, hone | ⟨a, ha, haS, htwo⟩⟩
    · cases z with
      | zero => exact Or.inl (SendResult.accepted.inj (List.cons.inj hone).1)
      | succ z =>
        obtain ⟨hhead, -⟩ := List.cons.inj hone
        exact absurd (SendResult.accepted.inj hhead) (by omega)
    · cases z with
      | zero =>
        obtain ⟨hhead, htail⟩ := List.cons.inj htwo
        obtain rfl := SendResult.accepted.inj hhead
        exact Or.inr ⟨haS, rest, htail⟩
      | succ z =>
        obtain ⟨hhead, -⟩ := List.cons.inj htwo
        exact absurd (SendResult.accepted.inj hhead) (by omega)
  · rintro (rfl | ⟨hlt, rest, rfl⟩)
    · exact ⟨0, rs, Or.inl rfl⟩
    · exact ⟨0, rest, Or.inr ⟨n, hn, hlt, rfl⟩⟩

/-- After a first accepting send of `n < S` the loop ends with `S` exactly when the
next send takes the rest. -/
theorem sendLoop_second {S n r : Nat} (hn : 0 < n) (hlt : n < S) (rs : List SendResult)
    (hhonest : Honest (sendLoop n (S - n : Int) rs).1)
    (hdone : (sendLoop n (S - n : Int) rs).2 = .done r) :
    r = S ↔ ∃ rest, rs = .accepted (S - n) :: rest := by
  cases rs with
  | nil =>
    rw [sendLoop, if_neg (by omega)] at hdone
    cases hdone
  | cons x rs =>
    cases x with
    | socketError =>
      rw [sendLoop, if_neg (by omega)] at hdone
      cases hdone
    | accepted m =>
      rw [sendLoop_accepted (by omega)] at hhonest hdone
      have hm : (m : Int) ≤ S - n := hhonest _ (List.mem_cons_self ..) m rfl
      by_cases hall : m = S - n
      · -- the rest is taken: `sent` is `S` and `tosend` is `-n`
        subst hall
        have hend : (S : Int) - n - (n + (S - n) : Nat) ≤ 0 := by omega
        rw [sendLoop_of_nonpos hend] at hdone
        obtain rfl := LoopExit.done.inj hdone
        exact ⟨fun _ => ⟨rs, rfl⟩, fun _ => by omega⟩
      · -- a part of the rest: `sent + tosend` is now `S - n`
        have hshort := sendLoop_short (S := S) rs (by omega) (by omega) (honest_cons hhonest) hdone
        constructor
        · intro hr
          omega
        · rintro ⟨rest, hrest⟩
          exact absurd (SendResult.accepted.inj (List.cons.inj hrest).1) hall

/-- A loop that ends, ends with the whole packet sent exactly when it took at most
two accepting sends. -/
theorem sendLoop_done_iff {S r : Nat} (hS : 0 < S) :
    ∀ rs : List SendResult, Honest (sendLoop 0 S rs).1 → (sendLoop 0 S rs).2 = .done r →
      (r = S ↔ InAtMostTwoSends S rs) := by
  intro rs
  induction rs with
  | nil =>
    intro _ hdone
    rw [sendLoop, if_neg (by omega)] at hdone
    cases hdone
  | cons x rs ih =>
    intro hhonest hdone
    cases x with
    | socketError =>
      rw [sendLoop, if_neg (by omega)] at hdone
      cases hdone
    | accepted n =>
      rw [sendLoop_accepted (by omega)] at hhonest hdone
      have hn : (n : Int) ≤ S := hhonest _ (List.mem_cons_self ..) n rfl
      simp only [Nat.zero_add] at hhonest hdone
      -- an empty first send leaves both counters as they were
      rcases Nat.eq_zero_or_pos n with rfl | hpos
      · rw [inAtMostTwoSends_zero hS]
        simp only [Int.ofNat_zero, Int.sub_zero] at hhonest hdone
        exact ih (honest_cons hhonest) hdone
      · rw [inAtMostTwoSends_pos hpos]
        by_cases hall : n = S
        · subst hall
          rw [sendLoop_of_nonpos (by omega)] at hdone
          obtain rfl := LoopExit.done.inj hdone
          exact ⟨fun _ => Or.inl rfl, fun _ => rfl⟩
        · rw [sendLoop_second hpos (by omega) rs (honest_cons hhonest) hdone]
          constructor
          · intro hrest
            exact Or.inr ⟨by omega, hrest⟩
          · rintro (hn' | ⟨-, hrest⟩)
            · exact absurd hn' hall
            · exact hrest

/-- **Packet send completeness, exactly.** For a packet of `S > 0` bytes no call is
ever asked for bytes outside `buf[0 .. S-1]`; and when the loop ends without an error,
the socket took exactly those bytes, and `S` is returned, if and only if the
packet went out in at most two accepting sends that follow each other. -/
theorem sendLoop_complete_iff (p : Netstruct) (buf : List UInt8) (S : Nat)
    (hsize : (netprotHeaderGetsize p).toInt = S) (hS : 0 < S) (hbuf : S ≤ buf.length)
    (rs : List SendResult) (hhonest : Honest (sendLoop 0 S rs).1) :
    (∀ c ∈ (sendLoop 0 (netprotHeaderGetsize p).toInt rs).1,
      0 < c.len ∧ (c.off : Int) + c.len ≤ S) ∧
    ∀ r, (sendLoop 0 (netprotHeaderGetsize p).toInt rs).2 = .done r →
      ((takenBytes buf (sendLoop 0 (netprotHeaderGetsize p).toInt rs).1 = buf.take S ∧ r = S) ↔
        InAtMostTwoSends S rs) := by
  rw [hsize]
  refine ⟨sendLoop_inRange rs (by omega) hhonest, fun r hdone => ?_⟩
  rw [← sendLoop_done_iff hS rs hhonest hdone]
  constructor
  · rintro ⟨-, hr⟩
    exact hr
  · rintro rfl
    obtain ⟨-, htaken⟩ := takenBytes_sendLoop buf rs hdone
    exact ⟨htaken, rfl⟩

/-- A packet of two samples: 32 bytes with its header. -/
def twoSamplePacket : Netstruct := netprotHeaderAppend .zero 0 4 0 0

/-- A packet that goes out as 20 bytes and then 12 goes out whole. -/
theorem sendLoop_complete_two_sends :
    takenBytes (List.replicate 32 7)
        (sendLoop 0 (netprotHeaderGetsize twoSamplePacket).toInt [.accepted 20, .accepted 12]).1
      = List.replicate 32 7 := by
  have hhonest : Honest (sendLoop 0 (32 : Nat) [.accepted 20, .accepted 12]).1 := by
    intro c hc n hn
    have hcalls : (sendLoop 0 32 [.accepted 20, .accepted 12]).1
        = [⟨0, 32, .accepted 20⟩, ⟨20, 12, .accepted 12⟩] := by decide
    rw [show ((32 : Nat) : Int) = 32 from rfl, hcalls] at hc
    rcases List.mem_cons.mp hc with rfl | hc
    · obtain rfl := SendResult.accepted.inj hn
      decide
    · obtain rfl := List.mem_singleton.mp hc
      obtain rfl := SendResult.accepted.inj hn
      decide
  have hwhole := (sendLoop_complete_iff twoSamplePacket (List.replicate 32 7) 32 (by decide)
    (by decide) (by decide) [.accepted 20, .accepted 12] hhonest).2 32 (by decide)
  exact (hwhole.mpr ⟨0, [], Or.inr ⟨20, by decide, by decide, rfl⟩⟩).1

/-- 20 bytes are taken, then none: the loop stops there and returns 20. -/
theorem sendLoop_stops_after_empty_send :
    (sendLoop 0 (netprotHeaderGetsize twoSamplePacket).toInt [.accepted 20, .accepted 0])
      = ([⟨0, 32, .accepted 20⟩, ⟨20, 12, .accepted 0⟩], .done 20) ∧
    takenBytes (List.replicate 32 7)
      (sendLoop 0 (netprotHeaderGetsize twoSamplePacket).toInt [.accepted 20, .accepted 0]).1
        ≠ (List.replicate 32 7).take 32 := by
  decide

end Datalogger
