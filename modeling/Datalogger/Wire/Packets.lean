import Datalogger.Wire.SendCapture

/-!
# What the packets of a session tell the server

A packet says two things besides its samples: whether they are to be ignored, and its
number.

* The ignore counter is decremented by the interrupt that completes a buffer and
  tested afterwards by the reader, so when every buffer is read in time the `j`-th
  packet is marked invalid for `j < k` only, and the `k`-th goes out as valid
  (`marked_iff_of_paced`, `packet_marked_iff`). Once the counter is at zero no packet
  is marked any more (`not_invalid_past_ignore`).
* Packets are numbered when they are sent, so the numbers never leave a gap
  (`count_eq_succ_preceding`).
-/

namespace Datalogger

open Lib (run)

/-! ## The ignored buffers -/

/-- Every completed buffer is read before the next one completes. -/
def Paced (s₀ : Sender) (ops : List SessionOp) : Prop :=
  ∀ pre x post, ops = pre ++ .isr x :: post →
    (afterEvents s₀ pre).capture.Completes → (afterEvents s₀ pre).capture.bufFull = false

theorem Paced.of_snoc {s₀ : Sender} {as : List SessionOp} {a : SessionOp}
    (h : Paced s₀ (as ++ [a])) : Paced s₀ as := by
  intro pre x post has hcompletes
  exact h pre x (post ++ [a]) (by rw [has]; simp) hcompletes

/-- In a paced run the ignore counter and the number of packets add up: after `m`
packets, and with the buffer waiting to be read if there is one, the counter has
been taken down from `k` once for each completed buffer, and the `j`-th packet was
marked while it was still above zero. -/
structure IgnoreInv (k : Int) (outs : List Netstruct) (s : Sender) : Prop where
  spb : s.capture.samplesPerBuffer ≠ 0
  counter : s.capture.buffersToIgnore.toInt
    = max (k - (outs.length + if s.capture.bufFull then 1 else 0)) 0
  marked : ∀ (i : Nat) (p : Netstruct), outs[i]? = some p → (p.Invalid ↔ (i + 1 : Int) < k)

theorem int32_ne_zero_iff (x : Int32) : x ≠ 0 ↔ x.toInt ≠ 0 := by
  have hzero : (0 : Int32).toInt = 0 := by decide
  rw [ne_eq, ne_eq, ← Int32.toInt_inj, hzero]

/-- An interrupt that completes a buffer while the last one has been read, or that
completes none, keeps the count. -/
theorem captureIsr_ignoreInv {k : Int} {outs : List Netstruct} {s : Sender} (x : UInt16)
    (h : IgnoreInv k outs s)
    (hpaced : s.capture.Completes → s.capture.bufFull = false) :
    IgnoreInv k outs (sessionStep s (.isr x)).1 := by
  have hcounter := h.counter
  refine ⟨?_, ?_, h.marked⟩
  · show (captureIsr s.capture x).samplesPerBuffer ≠ 0
    rw [captureIsr_samplesPerBuffer]
    exact h.spb
  · show (captureIsr s.capture x).buffersToIgnore.toInt
      = max (k - (outs.length + if (captureIsr s.capture x).bufFull then 1 else 0)) 0
    rw [captureIsr_buffersToIgnore, captureIsr_bufFull]
    -- a buffer that completes is waiting, and the counter is one lower
    by_cases hc : s.capture.Completes
    · rw [hpaced hc] at hcounter ⊢
      simp only [hc, true_and, decide_true, Bool.or_false, if_true, Bool.false_eq_true,
        if_false] at hcounter ⊢
      by_cases hzero : s.capture.buffersToIgnore ≠ 0
      · have hne := (int32_ne_zero_iff _).mp hzero
        rw [if_pos hzero, Lib.int32_pred (by omega)]
        omega
      · have hz : s.capture.buffersToIgnore = 0 := Decidable.not_not.mp hzero
        rw [if_neg hzero]
        rw [hz] at hcounter ⊢
        have hint : (0 : Int32).toInt = 0 := by decide
        omega
    · simp only [hc, false_and, if_false, decide_false, Bool.false_or]
      exact hcounter

/-- A packet of a list with one more at its end. -/
theorem getElem?_snoc {outs : List Netstruct} {q p : Netstruct} {i : Nat}
    (h : (outs ++ [q])[i]? = some p) : outs[i]? = some p ∨ i = outs.length ∧ q = p := by
  rcases Nat.lt_or_ge i outs.length with hlt | hge
  · rw [List.getElem?_append_left hlt] at h
    exact Or.inl h
  · rw [List.getElem?_append_right hge] at h
    obtain ⟨hlt, -⟩ := List.getElem?_eq_some_iff.mp h
    rw [List.length_singleton] at hlt
    have hi : i = outs.length := by omega
    subst hi
    rw [Nat.sub_self, List.getElem?_cons_zero] at h
    exact Or.inr ⟨rfl, Option.some.inj h⟩

/-- A call adds the packet of the waiting buffer, if there is one. -/
theorem sendCapture_ignoreInv {k : Int} {outs : List Netstruct} {s : Sender}
    (accepted : List Nat) (h : IgnoreInv k outs s) :
    IgnoreInv k (outs ++ (sessionStep s (.sendCapture accepted)).2)
      (sessionStep s (.sendCapture accepted)).1 := by
  have hcounter := h.counter
  cases hfull : s.capture.bufFull with
  | false =>
    rw [sessionStep_empty hfull, List.append_nil]
    exact h
  | true =>
    rw [sessionStep_full hfull h.spb]
    rw [hfull] at hcounter
    simp only [if_true] at hcounter
    refine ⟨h.spb, ?_, ?_⟩
    · show s.capture.buffersToIgnore.toInt
        = max (k - ((outs ++ [capturePacket s]).length + if false then 1 else 0)) 0
      rw [List.length_append, List.length_singleton]
      simp only [Bool.false_eq_true, if_false]
      omega
    · -- the new packet is number `outs.length`, marked by the counter as it stands
      intro i p hp
      rcases getElem?_snoc hp with hold | ⟨rfl, rfl⟩
      · exact h.marked i p hold
      · rw [capturePacket_invalid, int32_ne_zero_iff]
        omega

/-- The count holds through every paced run. -/
theorem ignoreInv_of_paced (mem : BufId → Netstruct) {n k : Int32} (count : Int32) (hn : n ≠ 0)
    (hk : 0 ≤ k.toInt) (ops : List SessionOp) :
    Paced (sessionStart mem n k count) ops →
      IgnoreInv k.toInt (packets (sessionStart mem n k count) ops)
        (afterEvents (sessionStart mem n k count) ops) := by
  induction ops using List.reverseRecOn with
  | nil =>
    intro _
    refine ⟨hn, ?_, ?_⟩
    · show k.toInt = max (k.toInt - ((0 : Nat) + 0)) 0
      omega
    · intro i p hp
      cases hp
  | append_singleton as a ih =>
    intro hpaced
    -- the last event acts on the state of a shorter run, which is paced as well
    have hinv := ih hpaced.of_snoc
    rw [packets, afterEvents, Lib.run_snoc]
    cases a with
    | isr x =>
      have hstep := captureIsr_ignoreInv x hinv (hpaced as x [] rfl)
      rw [show (sessionStep (run sessionStep (sessionStart mem n k count) as).1 (.isr x)).2 = []
        from rfl, List.append_nil]
      exact hstep
    | sendCapture accepted => exact sendCapture_ignoreInv accepted hinv

/-- **The marks of a paced run.** The `j`-th packet (counted from 1) carries
`DATA_INVALID` exactly when `j < k`. -/
theorem marked_iff_of_paced (mem : BufId → Netstruct) {n k : Int32} (count : Int32) (hn : n ≠ 0)
    (hk : 0 ≤ k.toInt) {ops : List SessionOp}
    (hpaced : Paced (sessionStart mem n k count) ops) {j : Nat} {p : Netstruct} (hj : 1 ≤ j)
    (hp : (packets (sessionStart mem n k count) ops)[j - 1]? = some p) :
    p.Invalid ↔ (j : Int) < k.toInt := by
  have hmarked := (ignoreInv_of_paced mem count hn hk ops hpaced).marked (j - 1) p hp
  rw [hmarked]
  omega

/-- **Exactly `k` invalid packets, exactly.** After `capture_setup(n, k)`, in a run
that reads every buffer in time, the `j`-th packet is marked as it should (invalid
if and only if `j ≤ k`) for every `j` but `k` itself. -/
theorem packet_marked_iff (mem : BufId → Netstruct) (n k count : Int32) (hn : 1 ≤ n)
    (hk : 0 ≤ k) (ops : List SessionOp) (hpaced : Paced (sessionStart mem n k count) ops)
    (j : Nat) (p : Netstruct) (hj : 1 ≤ j)
    (hp : (packets (sessionStart mem n k count) ops)[j - 1]? = some p) :
    (p.Invalid ↔ (j : Int) ≤ k.toInt) ↔ (j : Int) ≠ k.toInt := by
  have hn' : n ≠ 0 := by
    rintro rfl
    exact absurd hn (by decide)
  have hk' : 0 ≤ k.toInt := Int32.le_iff_toInt_le.mp hk
  rw [marked_iff_of_paced mem count hn' hk' hpaced hj hp]
  omega

/-- One buffer of one sample, sent in time. -/
theorem paced_one_buffer (k : Int32) :
    Paced (sessionStart (fun _ => .zero) 1 k 0) [.isr 7, .sendCapture [30]] := by
  intro pre x post hops _
  rcases pre with _ | ⟨a, _ | ⟨b, pre⟩⟩
  · rfl
  · obtain ⟨-, htail⟩ := List.cons.inj hops
    exact absurd (List.cons.inj htail).1 (by simp)
  · have hlen := congrArg List.length hops
    simp at hlen

/-- `packet_marked_iff` at the first of two packets to be ignored. -/
theorem packet_marked_first_of_two :
    ∃ p, (packets (sessionStart (fun _ => .zero) 1 2 0) [.isr 7, .sendCapture [30]])[1 - 1]?
        = some p ∧ ((p.Invalid ↔ ((1 : Nat) : Int) ≤ (2 : Int32).toInt) ↔
          ((1 : Nat) : Int) ≠ (2 : Int32).toInt) :=
  ⟨_, rfl, packet_marked_iff (fun _ => .zero) 1 2 0 (by decide) (by decide)
    [.isr 7, .sendCapture [30]] (paced_one_buffer 2) 1 _ (by decide) rfl⟩

/-- With one buffer to ignore the first packet goes out as valid. -/
theorem packet_unmarked_one_of_one :
    Paced (sessionStart (fun _ => .zero) 1 1 0) [.isr 7, .sendCapture [30]] ∧
    ∃ p, (packets (sessionStart (fun _ => .zero) 1 1 0) [.isr 7, .sendCapture [30]])[0]?
        = some p ∧ ¬ (p.Invalid ↔ ((1 : Nat) : Int) ≤ (1 : Int32).toInt) :=
  ⟨paced_one_buffer 1, _, rfl, by decide⟩

/-! ## The numbers of the packets -/

/-- The number the packet before packet `j` carried; before the first packet of the
session that is the last one of the session before. -/
def precedingCount (count₀ : Int32) (ps : List Netstruct) (j : Nat) : UInt32 :=
  if j = 0 then count₀.toUInt32 - 1 else ((ps[j - 1]?).map fun q => fnetNtohl q.count).getD 0

/-- The packets so far carry the numbers from `count₀` on, and the next one will carry
the number after the last. -/
structure CountInv (count₀ : UInt32) (outs : List Netstruct) (s : Sender) : Prop where
  spb : s.capture.samplesPerBuffer ≠ 0
  next : s.count.toUInt32 = count₀ + UInt32.ofNat outs.length
  sent : ∀ (i : Nat) (p : Netstruct), outs[i]? = some p →
    fnetNtohl p.count = count₀ + UInt32.ofNat i

theorem uint32_ofNat_succ (m : Nat) : UInt32.ofNat (m + 1) = UInt32.ofNat m + 1 := by
  rw [UInt32.ofNat_add]
  rfl

theorem sessionStep_countInv {count₀ : UInt32} {outs : List Netstruct} {s : Sender}
    (a : SessionOp) (h : CountInv count₀ outs s) :
    CountInv count₀ (outs ++ (sessionStep s a).2) (sessionStep s a).1 := by
  cases a with
  | isr x =>
    rw [show (sessionStep s (.isr x)).2 = [] from rfl, List.append_nil]
    exact ⟨by rw [sessionStep_samplesPerBuffer s _ h.spb]; exact h.spb, h.next, h.sent⟩
  | sendCapture accepted =>
    cases hfull : s.capture.bufFull with
    | false =>
      rw [sessionStep_empty hfull, List.append_nil]
      exact h
    | true =>
      rw [sessionStep_full hfull h.spb]
      refine ⟨h.spb, ?_, ?_⟩
      · show s.count.toUInt32 + 1 = count₀ + UInt32.ofNat (outs ++ [capturePacket s]).length
        rw [List.length_append, List.length_singleton, uint32_ofNat_succ, ← UInt32.add_assoc,
          ← h.next]
      · intro i p hp
        rcases getElem?_snoc hp with hold | ⟨rfl, rfl⟩
        · exact h.sent i p hold
        · rw [capturePacket_count, h.next]

/-- The numbering holds through every run. -/
theorem countInv (s₀ : Sender) (hspb : s₀.capture.samplesPerBuffer ≠ 0) (ops : List SessionOp) :
    CountInv s₀.count.toUInt32 (packets s₀ ops) (afterEvents s₀ ops) := by
  refine Lib.run_history (fun _ outs s => CountInv s₀.count.toUInt32 outs s)
    ⟨hspb, by simp, ?_⟩ (fun _ _ _ a h => sessionStep_countInv a h) ops
  intro i p hp
  cases hp

/-- No count leaves a gap, in any run. -/
theorem count_eq_succ_preceding (s₀ : Sender) (hspb : s₀.capture.samplesPerBuffer ≠ 0)
    (ops : List SessionOp) {j : Nat} {p : Netstruct} (hp : (packets s₀ ops)[j]? = some p) :
    fnetNtohl p.count = precedingCount s₀.count (packets s₀ ops) j + 1 := by
  have hsent := (countInv s₀ hspb ops).sent
  rw [hsent j p hp, precedingCount]
  cases j with
  | zero => simp
  | succ j =>
    obtain ⟨hlt, -⟩ := List.getElem?_eq_some_iff.mp hp
    have hprev : (packets s₀ ops)[j]? = some (packets s₀ ops)[j] :=
      List.getElem?_eq_getElem (by omega)
    rw [if_neg (by omega), Nat.add_sub_cancel, hprev, Option.map_some, Option.getD_some,
      hsent j _ hprev, uint32_ofNat_succ, UInt32.add_assoc]

/-- Past the ignore phase no packet is marked. -/
theorem not_invalid_past_ignore {s : Sender} (hspb : s.capture.samplesPerBuffer ≠ 0)
    (hzero : s.capture.buffersToIgnore = 0) (ops : List SessionOp) :
    ∀ p ∈ packets s ops, ¬ p.Invalid := by
  refine Lib.run_outputs
    (I := fun t : Sender => t.capture.samplesPerBuffer ≠ 0 ∧ t.capture.buffersToIgnore = 0)
    ⟨hspb, hzero⟩ ?_ ?_ ops
  · rintro t a ⟨htspb, htzero⟩
    refine ⟨by rw [sessionStep_samplesPerBuffer t a htspb]; exact htspb, ?_⟩
    cases a with
    | isr x =>
      show (captureIsr t.capture x).buffersToIgnore = 0
      rw [captureIsr_buffersToIgnore, if_neg (fun h => h.2 htzero), htzero]
    | sendCapture accepted =>
      cases hfull : t.capture.bufFull with
      | false => rw [sessionStep_empty hfull, htzero]
      | true =>
        rw [sessionStep_full hfull htspb]
        exact htzero
  · rintro t a ⟨htspb, htzero⟩ p hp
    cases a with
    | isr x => cases hp
    | sendCapture accepted =>
      cases hfull : t.capture.bufFull with
      | false =>
        rw [sessionStep_empty hfull] at hp
        cases hp
      | true =>
        rw [sessionStep_full hfull htspb] at hp
        obtain rfl := List.mem_singleton.mp hp
        rw [capturePacket_invalid]
        exact fun h => h htzero

end Datalogger
