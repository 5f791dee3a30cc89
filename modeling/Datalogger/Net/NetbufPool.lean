import Mathlib.Data.List.GetD
import Datalogger.Net.NetbufCopies

/-!
# Runs of the net_buf functions

The protocols hold chains of net_bufs in pointers and call the functions of `fnet_netbuf.c` on
them, in any order. A chain stands for a string of bytes, and the functions for operations on
such strings (`bytesCall`): whatever data buffers the chains share, a run of calls does to the
chains what the operations do to the strings (`netbufCalls_refine`), but for calls
that were left undone because an allocation was refused.

The counters of the data buffers stay right as long as no allocation is refused
(`netbufCalls_counters`). A reference that `fnet_netbuf_copy` loses when one is keeps its
data buffer allocated for ever (`lost_never_freed`).
-/

namespace Datalogger

/-- The heap, and the chains behind the pointers of the protocols; a null pointer is a chain of
no net_bufs. -/
structure NetbufPool where
  heap : NetbufHeap
  chains : List (List Netbuf)

/-- The chain behind a pointer. -/
def NetbufPool.chain (p : NetbufPool) (i : Nat) : List Netbuf := p.chains.getD i []

/-- A call of one of the functions: the pointers whose chains it is called on, or sets. -/
inductive NetbufCall where
  | fromBuf (i : Nat) (data : List UInt8) (drain : Bool)
  | copy (i j offset : Nat) (len : CopyLen) (drain : Bool)
  | pullup (i len : Nat)
  | trim (i : Nat) (len : Int)
  | cutCenter (i offset len : Nat)
  | concat (i j : Nat)
  | freeChain (i : Nat)
  deriving Repr

/-- A call that may be made: there is a chain to pull up or to cut, a copy starts inside its
chain, and no pointer to a chain is overwritten. -/
def NetbufCall.Allowed (p : NetbufPool) : NetbufCall → Prop
  | .fromBuf i _ _ => i < p.chains.length ∧ p.chain i = []
  | .copy i j offset _ _ =>
    offset < chainLength (p.chain i) ∧ j < p.chains.length ∧ p.chain j = []
  | .pullup i _ => p.chain i ≠ []
  | .trim i _ => p.chain i ≠ []
  | .cutCenter i _ _ => p.chain i ≠ []
  | .concat i j => i < p.chains.length ∧ j < p.chains.length ∧ i ≠ j
  | .freeChain i => i < p.chains.length

instance (p : NetbufPool) : (call : NetbufCall) → Decidable (call.Allowed p)
  | .fromBuf _ _ _ => inferInstanceAs (Decidable (_ ∧ _))
  | .copy _ _ _ _ _ => inferInstanceAs (Decidable (_ ∧ _ ∧ _))
  | .pullup _ _ => inferInstanceAs (Decidable (¬ _))
  | .trim _ _ => inferInstanceAs (Decidable (¬ _))
  | .cutCenter _ _ _ => inferInstanceAs (Decidable (¬ _))
  | .concat _ _ => inferInstanceAs (Decidable (_ ∧ _ ∧ _))
  | .freeChain _ => inferInstanceAs (Decidable (_ < _))

/-- A call: what it does to the heap and the pointers. -/
def netbufCall (p : NetbufPool) : NetbufCall → NetbufPool
  | .fromBuf i data drain =>
    match fnetNetbufFromBuf p.heap data drain with
    | (none, h) => { p with heap := h }
    | (some nb, h) => { heap := h, chains := p.chains.set i [nb] }
  | .copy i j offset len drain =>
    match fnetNetbufCopy p.heap (p.chain i) offset len drain with
    | (none, h) => { p with heap := h }
    | (some nb, h) => { heap := h, chains := p.chains.set j nb }
  | .pullup i len =>
    match fnetNetbufPullup p.heap (p.chain i) len with
    | (none, h) => { p with heap := h }
    | (some nb, h) => { heap := h, chains := p.chains.set i nb }
  | .trim i len =>
    let r := fnetNetbufTrim p.heap (p.chain i) len
    { heap := r.2, chains := p.chains.set i r.1 }
  | .cutCenter i offset len =>
    let r := fnetNetbufCutCenter p.heap (p.chain i) offset len
    { heap := r.2.2, chains := p.chains.set i r.2.1 }
  | .concat i j =>
    { p with chains := (p.chains.set i (fnetNetbufConcat (p.chain i) (p.chain j))).set j [] }
  | .freeChain i =>
    { heap := fnetNetbufFreeChain p.heap (p.chain i), chains := p.chains.set i [] }

/-- Calls one after the other, if each may be made. -/
def netbufCalls : List NetbufCall → NetbufPool → Option NetbufPool
  | [], p => some p
  | call :: calls, p => if call.Allowed p then netbufCalls calls (netbufCall p call) else none

/-- What a call is to do to the bytes behind the pointers. -/
def bytesCall (s : List (List UInt8)) : NetbufCall → List (List UInt8)
  | .fromBuf i data _ => s.set i data
  | .copy i j offset len _ =>
    match copiedBytes offset len (s.getD i []) with
    | none => s
    | some bytes => s.set j bytes
  | .pullup _ _ => s
  | .trim i len => s.set i (trimBytes len (s.getD i []))
  | .cutCenter i offset len => s.set i (cutBytes offset len (s.getD i []))
  | .concat i j => (s.set i (s.getD i [] ++ s.getD j [])).set j []
  | .freeChain i => s.set i []

/-- The bytes behind the pointers. -/
def NetbufPool.bytes (p : NetbufPool) : List (List UInt8) := p.chains.map (chainBytes p.heap)

/-- All net_bufs there are belong to the chains, and the first of each knows its length. -/
structure PoolInv (lost : Nat → Nat) (p : NetbufPool) : Prop where
  heap : NetbufInv lost p.heap p.chains.flatten
  totals : ∀ c ∈ p.chains, TotalLength c

/-! ## One pointer among others -/

/-- Setting one of several lists takes the old one out and puts the new one in. -/
theorem flatten_set_perm {α : Type} {l : List (List α)} {i : Nat} (hi : i < l.length) (c : List α) :
    (l.set i c).flatten.Perm (c ++ (l.set i []).flatten) := by
  rw [List.set_eq_take_append_cons_drop, if_pos hi, List.set_eq_take_append_cons_drop, if_pos hi,
    List.flatten_append, List.flatten_append, List.flatten_cons, List.flatten_cons, List.nil_append]
  exact List.perm_append_comm_assoc ..

theorem set_getD {α : Type} (l : List (List α)) (i : Nat) : l.set i (l.getD i []) = l := by
  by_cases hi : i < l.length
  · rw [List.getD_eq_getElem _ _ hi]
    exact List.set_getElem_self hi
  · exact List.set_eq_of_length_le (Nat.le_of_not_lt hi)

theorem NetbufPool.lt_of_chain_ne_nil {p : NetbufPool} {i : Nat} (h : p.chain i ≠ []) :
    i < p.chains.length := by
  refine Nat.lt_of_not_le fun hle => h ?_
  rw [NetbufPool.chain, List.getD_eq_default _ _ hle]

section

variable {lost lost' : Nat → Nat} {p p' : NetbufPool} {h' : NetbufHeap} {i : Nat}
  {c' : List Netbuf}

theorem NetbufPool.bytes_getD (p : NetbufPool) (i : Nat) :
    p.bytes.getD i [] = chainBytes p.heap (p.chain i) := by
  rw [bytes, chain, List.getD_eq_getElem?_getD, List.getElem?_map, List.getD_eq_getElem?_getD]
  cases p.chains[i]? with
  | none => rfl
  | some c => rfl

/-- The invariant, seen from the chain behind one pointer. -/
theorem PoolInv.focus (inv : PoolInv lost p) (hi : i < p.chains.length) :
    NetbufInv lost p.heap (p.chain i ++ (p.chains.set i []).flatten) := by
  have hperm := flatten_set_perm hi (p.chain i)
  rw [NetbufPool.chain, set_getD] at hperm
  exact inv.heap.perm hperm

theorem PoolInv.chain_subset (_ : PoolInv lost p) (i : Nat) : p.chain i ⊆ p.chains.flatten := by
  intro x hx
  by_cases hi : i < p.chains.length
  · rw [NetbufPool.chain, List.getD_eq_getElem _ _ hi] at hx
    exact List.mem_flatten.mpr ⟨_, List.getElem_mem hi, hx⟩
  · rw [NetbufPool.chain, List.getD_eq_default _ _ (Nat.le_of_not_lt hi)] at hx
    cases hx

theorem PoolInv.total (inv : PoolInv lost p) (i : Nat) : TotalLength (p.chain i) := by
  by_cases hi : i < p.chains.length
  · rw [NetbufPool.chain, List.getD_eq_getElem _ _ hi]
    exact inv.totals _ (List.getElem_mem hi)
  · rw [NetbufPool.chain, List.getD_eq_default _ _ (Nat.le_of_not_lt hi)]
    exact nofun

/-- Another chain behind one pointer. -/
theorem PoolInv.set (inv : PoolInv lost p) (hi : i < p.chains.length)
    (hheap : NetbufInv lost' h' (c' ++ (p.chains.set i []).flatten))
    (hkeep : Keeps p.heap h' (p.chains.set i []).flatten) (htotal : TotalLength c') :
    PoolInv lost' { heap := h', chains := p.chains.set i c' }
      ∧ NetbufPool.bytes { heap := h', chains := p.chains.set i c' }
        = p.bytes.set i (chainBytes h' c') := by
  refine ⟨⟨hheap.perm (flatten_set_perm hi c').symm, fun c hc => ?_⟩, ?_⟩
  · rcases List.mem_or_eq_of_mem_set hc with hc | rfl
    · exact inv.totals c hc
    · exact htotal
  · refine List.ext_getElem? fun j => ?_
    rw [NetbufPool.bytes, NetbufPool.bytes, List.getElem?_map, List.getElem?_set, List.getElem?_set,
      List.length_map, List.getElem?_map]
    by_cases hij : i = j
    · rw [if_pos hij, if_pos hij, if_pos hi, if_pos hi]
      rfl
    · rw [if_neg hij, if_neg hij]
      cases hc : p.chains[j]? with
      | none => rfl
      | some c =>
        refine congrArg some (hkeep.chainBytes fun x hx => ?_)
        refine List.mem_flatten.mpr ⟨c, List.mem_iff_getElem?.mpr ⟨j, ?_⟩, hx⟩
        rw [List.getElem?_set, if_neg hij, hc]

/-- A call that leaves all pointers as they were. -/
theorem PoolInv.same (inv : PoolInv lost p) (hheap : NetbufInv lost' h' p.chains.flatten)
    (hkeep : Keeps p.heap h' p.chains.flatten) :
    PoolInv lost' { p with heap := h' } ∧ NetbufPool.bytes { p with heap := h' } = p.bytes := by
  refine ⟨⟨hheap, inv.totals⟩, List.map_congr_left fun c hc => ?_⟩
  exact hkeep.chainBytes fun x hx => List.mem_flatten.mpr ⟨c, hc, hx⟩

/-! ## One call -/

/-- A call from `p` to `p'` did to the bytes what it was to do and lost no reference, or an
allocation was refused and the bytes are as they were. -/
structure CallSpec (lost lost' : Nat → Nat) (p p' : NetbufPool) (bytes : List (List UInt8)) :
    Prop where
  inv : PoolInv lost' p'
  grows : ∀ k, lost k ≤ lost' k
  room : p'.heap.room = p.heap.room
  asked : p.heap.asked ≤ p'.heap.asked
  outcome : lost' = lost ∧ p'.bytes = bytes ∨ p'.bytes = p.bytes ∧ Refused p.heap p'.heap

/-- A call that sets one pointer. -/
theorem PoolInv.called (inv : PoolInv lost p) (hi : i < p.chains.length) (c' : List Netbuf)
    (hheap : NetbufInv lost h' (c' ++ (p.chains.set i []).flatten))
    (hkeep : Keeps p.heap h' (p.chains.set i []).flatten) (htotal : TotalLength c') :
    CallSpec lost lost p { heap := h', chains := p.chains.set i c' }
      (p.bytes.set i (chainBytes h' c')) :=
  have hset := inv.set hi hheap hkeep htotal
  ⟨hset.1, fun _ => Nat.le_refl _, hkeep.room, hkeep.asked, Or.inl ⟨rfl, hset.2⟩⟩

/-- A call for which there was no memory. -/
theorem PoolInv.refused (inv : PoolInv lost p) (hgrows : ∀ k, lost k ≤ lost' k)
    (hheap : NetbufInv lost' h' p.chains.flatten) (hkeep : Keeps p.heap h' p.chains.flatten)
    (hrefused : Refused p.heap h') (bytes : List (List UInt8)) :
    CallSpec lost lost' p { p with heap := h' } bytes :=
  have hsame := inv.same hheap hkeep
  ⟨hsame.1, hgrows, hkeep.room, hkeep.asked, Or.inr ⟨hsame.2, hrefused⟩⟩

/-- A pointer that is set without having been used is a null pointer. -/
theorem NetbufPool.set_null (hnull : p.chain i = []) :
    (p.chains.set i []).flatten = p.chains.flatten := by
  rw [← hnull, NetbufPool.chain, set_getD]

/-- `fnet_netbuf_from_buf` into a null pointer. -/
theorem fromBuf_call {data : List UInt8} {drain : Bool} (inv : PoolInv lost p)
    (hi : i < p.chains.length) (hnull : p.chain i = []) :
    CallSpec lost lost p (netbufCall p (.fromBuf i data drain)) (p.bytes.set i data) := by
  unfold netbufCall
  dsimp only
  cases hr : fnetNetbufFromBuf p.heap data drain with
  | mk made h =>
    cases made with
    | none =>
      obtain ⟨hheap, hkeep, hrefused⟩ := fnetNetbufFromBuf_none inv.heap hr
      exact inv.refused (fun _ => Nat.le_refl _) hheap hkeep hrefused _
    | some nb =>
      obtain ⟨hheap, hkeep, hbytes, htotal⟩ := fnetNetbufFromBuf_some inv.heap hr
      rw [← NetbufPool.set_null hnull] at hheap hkeep
      have hspec := inv.called hi [nb] hheap hkeep htotal
      rwa [hbytes] at hspec

/-- `fnet_netbuf_copy` into a null pointer; the chain it copies from keeps its bytes. -/
theorem copy_call {j offset : Nat} {len : CopyLen} {drain : Bool} (inv : PoolInv lost p)
    (hlt : offset < chainLength (p.chain i)) (hj : j < p.chains.length) (hnull : p.chain j = []) :
    ∃ lost', CallSpec lost lost' p (netbufCall p (.copy i j offset len drain))
      (bytesCall p.bytes (.copy i j offset len drain)) := by
  have hsub := inv.chain_subset i
  unfold netbufCall bytesCall
  dsimp only
  rw [p.bytes_getD i]
  cases hr : fnetNetbufCopy p.heap (p.chain i) offset len drain with
  | mk made h =>
    cases made with
    | none =>
      obtain ⟨gone, hheap, hkeep, hwhy⟩ := fnetNetbufCopy_none inv.heap hsub hlt hr
      rcases hwhy with ⟨hnone, rfl⟩ | hrefused
      · rw [hnone]
        have hsame := inv.same hheap hkeep
        exact ⟨lost, hsame.1, fun _ => Nat.le_refl _, hkeep.room, hkeep.asked,
          Or.inl ⟨rfl, hsame.2⟩⟩
      · exact ⟨_, inv.refused (fun _ => Nat.le_add_right _ _) hheap hkeep hrefused _⟩
    | some nb =>
      obtain ⟨hheap, hkeep, htotal, hbytes⟩ := fnetNetbufCopy_some inv.heap hsub hlt hr
      rw [hbytes]
      rw [← NetbufPool.set_null hnull] at hheap hkeep
      exact ⟨lost, inv.called hj _ hheap hkeep htotal⟩

/-- `fnet_netbuf_pullup` moves bytes between the pieces of a chain. -/
theorem pullup_call {len : Nat} (inv : PoolInv lost p) (hne : p.chain i ≠ []) :
    CallSpec lost lost p (netbufCall p (.pullup i len)) p.bytes := by
  have hi := NetbufPool.lt_of_chain_ne_nil hne
  unfold netbufCall
  dsimp only
  cases hr : fnetNetbufPullup p.heap (p.chain i) len with
  | mk made h =>
    cases made with
    | none =>
      obtain ⟨hheap, hkeep, -⟩ := fnetNetbufPullup_none (inv.focus hi) (inv.total i) hr
      have hperm := flatten_set_perm hi (p.chain i)
      rw [NetbufPool.chain, set_getD] at hperm
      have hsame := inv.same (hheap.perm hperm.symm) (hkeep.mono hperm.subset)
      exact ⟨hsame.1, fun _ => Nat.le_refl _, hkeep.room, hkeep.asked, Or.inl ⟨rfl, hsame.2⟩⟩
    | some nb =>
      obtain ⟨hheap, hkeep, htotal, hbytes, -⟩ :=
        fnetNetbufPullup_some (inv.focus hi) (inv.total i) hr
      have hspec := inv.called hi _ hheap hkeep htotal
      rwa [hbytes, ← p.bytes_getD i, set_getD] at hspec

/-- `fnet_netbuf_trim`, from the front or from the end. -/
theorem trim_call {len : Int} (inv : PoolInv lost p) (hne : p.chain i ≠ []) :
    CallSpec lost lost p (netbufCall p (.trim i len))
      (p.bytes.set i (trimBytes len (p.bytes.getD i []))) := by
  have hi := NetbufPool.lt_of_chain_ne_nil hne
  have hfocus := inv.focus hi
  have htotal := inv.total i
  rw [p.bytes_getD i]
  unfold netbufCall
  dsimp only
  cases hc : p.chain i with
  | nil => exact absurd hc hne
  | cons head next =>
    rw [hc] at hfocus htotal
    obtain ⟨hheap, hkeep, hbytes, htotal'⟩ := fnetNetbufTrim_spec hfocus htotal
      (Prod.eta (fnetNetbufTrim p.heap (head :: next) len)).symm
    have hspec := inv.called hi _ hheap hkeep htotal'
    rwa [hbytes] at hspec

/-- `fnet_netbuf_cut_center`, wherever the part to be cut begins and ends. -/
theorem cutCenter_call {offset len : Nat} (inv : PoolInv lost p) (hne : p.chain i ≠ []) :
    CallSpec lost lost p (netbufCall p (.cutCenter i offset len))
      (p.bytes.set i (cutBytes offset len (p.bytes.getD i []))) := by
  have hi := NetbufPool.lt_of_chain_ne_nil hne
  have hfocus := inv.focus hi
  have htotal := inv.total i
  have hmine := p.bytes_getD i
  rw [hmine]
  unfold netbufCall
  dsimp only
  cases hc : p.chain i with
  | nil => exact absurd hc hne
  | cons head next =>
    rw [hc] at hfocus htotal hmine
    cases hr : fnetNetbufCutCenter p.heap (head :: next) offset len with
    | mk ret r =>
      obtain ⟨hheap, hkeep, htotal', hbytes⟩ := fnetNetbufCutCenter_spec hfocus htotal hr
      have hspec := inv.called hi _ hheap hkeep htotal'
      rcases hbytes with hbytes | ⟨hbytes, hrefused⟩
      · rwa [hbytes] at hspec
      · refine ⟨hspec.inv, hspec.grows, hspec.room, hspec.asked, Or.inr ⟨?_, hrefused⟩⟩
        rcases hspec.outcome with ⟨-, hsame⟩ | ⟨hsame, -⟩
        · rw [hsame, hbytes, ← hmine, set_getD]
        · exact hsame

/-- `fnet_netbuf_concat`, which takes the second pointer's chain. -/
theorem concat_call {j : Nat} (inv : PoolInv lost p) (hi : i < p.chains.length)
    (hj : j < p.chains.length) (hij : i ≠ j) :
    CallSpec lost lost p (netbufCall p (.concat i j))
      ((p.bytes.set i (p.bytes.getD i [] ++ p.bytes.getD j [])).set j []) := by
  -- the chain behind `j` is taken out, and then the one behind `i`
  have hi' : i < (p.chains.set j []).length := by rw [List.length_set]; exact hi
  have hperm := flatten_set_perm hi' (p.chain i)
  have hmine : (p.chains.set j []).set i (p.chain i) = p.chains.set j [] := by
    have hget : p.chain i = (p.chains.set j []).getD i [] := by
      rw [NetbufPool.chain, List.getD_eq_getElem _ _ hi, List.getD_eq_getElem _ _ hi',
        List.getElem_set_ne (Ne.symm hij)]
    rw [hget, set_getD]
  rw [hmine] at hperm
  have hheap : NetbufInv lost p.heap
      (p.chain i ++ p.chain j ++ ((p.chains.set j []).set i []).flatten) := by
    refine (inv.focus hj).perm ?_
    rw [List.append_assoc]
    exact (hperm.append_left (p.chain j)).trans (List.perm_append_comm_assoc ..)
  obtain ⟨hheap', hbytes, htotal⟩ := fnetNetbufConcat_spec hheap (inv.total i) (inv.total j)
  unfold netbufCall
  refine ⟨⟨?_, fun c hc => ?_⟩, fun _ => Nat.le_refl _, rfl, Nat.le_refl _, Or.inl ⟨rfl, ?_⟩⟩
  · dsimp only
    rw [List.set_comm _ _ hij]
    exact hheap'.perm (flatten_set_perm hi' _).symm
  · rcases List.mem_or_eq_of_mem_set hc with hc | rfl
    · rcases List.mem_or_eq_of_mem_set hc with hc | rfl
      · exact inv.totals c hc
      · exact htotal
    · exact nofun
  · rw [NetbufPool.bytes, List.map_set, List.map_set, hbytes, ← p.bytes_getD, ← p.bytes_getD]
    rfl

theorem freeChain_call (inv : PoolInv lost p) (hi : i < p.chains.length) :
    CallSpec lost lost p (netbufCall p (.freeChain i)) (p.bytes.set i []) := by
  obtain ⟨hheap, hkeep⟩ := (inv.focus hi).freeChain
  exact inv.called hi [] hheap hkeep nofun

/-- **One call.** -/
theorem netbufCall_spec (inv : PoolInv lost p) (call : NetbufCall) (hallowed : call.Allowed p) :
    ∃ lost', CallSpec lost lost' p (netbufCall p call) (bytesCall p.bytes call) := by
  cases call with
  | fromBuf i data drain => exact ⟨lost, fromBuf_call inv hallowed.1 hallowed.2⟩
  | copy i j offset len drain => exact copy_call inv hallowed.1 hallowed.2.1 hallowed.2.2
  | pullup i len => exact ⟨lost, pullup_call inv hallowed⟩
  | trim i len => exact ⟨lost, trim_call inv hallowed⟩
  | cutCenter i offset len => exact ⟨lost, cutCenter_call inv hallowed⟩
  | concat i j => exact ⟨lost, concat_call inv hallowed.1 hallowed.2.1 hallowed.2.2⟩
  | freeChain i => exact ⟨lost, freeChain_call inv hallowed⟩

/-! ## Runs of calls -/

/-- Nothing is allocated, and all of `n` pointers are null. -/
def emptyPool (room : Nat → Bool) (junk : Nat → UInt8) (n : Nat) : NetbufPool where
  heap :=
    { cells := fun _ => none, headers := 0, fresh := 0, asked := 0, room := room, junk := junk }
  chains := List.replicate n []

/-- How many of the allocations so far were refused. -/
def refusals (h : NetbufHeap) : Nat := (List.range h.asked).countP fun i => !h.room i

/-- How many net_bufs of the chains describe a piece of the data buffer `k`. -/
def NetbufPool.pieces (p : NetbufPool) (k : Nat) : Nat :=
  (p.chains.flatten.map Netbuf.data).count k

theorem emptyPool_inv (room : Nat → Bool) (junk : Nat → UInt8) (n : Nat) :
    PoolInv (fun _ => 0) (emptyPool room junk n) := by
  have hflat : (emptyPool room junk n).chains.flatten = [] := List.flatten_replicate_nil
  refine ⟨?_, fun c hc => ?_⟩
  · rw [hflat]
    exact ⟨Lib.counted_nil, fun _ hnb => absurd hnb List.not_mem_nil, rfl, fun _ _ => rfl⟩
  · rw [List.eq_of_mem_replicate hc]
    exact nofun

/-- The refusals up to some allocation, and those after it. -/
theorem refusals_split (h : NetbufHeap) {n : Nat} (hn : n ≤ h.asked) :
    refusals h = (List.range n).countP (fun i => !h.room i)
      + ((List.range (h.asked - n)).map (n + ·)).countP fun i => !h.room i := by
  obtain ⟨m, hm⟩ := Nat.exists_eq_add_of_le hn
  rw [refusals, hm, List.range_add, List.countP_append, Nat.add_sub_cancel_left]

/-- Refusals do not get fewer. -/
theorem refusals_le {h h' : NetbufHeap} (hroom : h'.room = h.room) (hasked : h.asked ≤ h'.asked) :
    refusals h ≤ refusals h' := by
  rw [refusals_split h' hasked, hroom]
  exact Nat.le_add_right _ _

/-- A refused call has a refusal of its own. -/
theorem refusals_lt {h h' : NetbufHeap} (hroom : h'.room = h.room) (hasked : h.asked ≤ h'.asked)
    (hrefused : Refused h h') : refusals h < refusals h' := by
  rw [refusals_split h' hasked, hroom]
  refine Nat.lt_add_of_pos_right (List.countP_pos_iff.mpr ?_)
  obtain ⟨i, hlo, hhi, hfalse⟩ := hrefused
  refine ⟨i, List.mem_map.mpr ⟨i - h.asked, List.mem_range.mpr (by omega), by omega⟩, ?_⟩
  rw [hfalse]
  rfl

/-- A run of calls: the invariant, what was done to the bytes, and what was lost. -/
theorem netbufCalls_spec (calls : List NetbufCall) :
    ∀ {lost : Nat → Nat} {p : NetbufPool}, PoolInv lost p → netbufCalls calls p = some p' →
      ∃ (lost' : Nat → Nat) (did : List NetbufCall),
        PoolInv lost' p' ∧ (∀ k, lost k ≤ lost' k) ∧ did.Sublist calls
        ∧ p'.bytes = did.foldl bytesCall p.bytes
        ∧ calls.length + refusals p.heap ≤ did.length + refusals p'.heap
        ∧ (refusals p'.heap ≤ refusals p.heap → lost' = lost) := by
  induction calls with
  | nil =>
    intro lost p inv hr
    obtain rfl := Option.some.inj hr
    exact ⟨lost, [], inv, fun _ => Nat.le_refl _, List.Sublist.refl _, rfl, Nat.le_refl _,
      fun _ => rfl⟩
  | cons call calls ih =>
    intro lost p inv hr
    rw [netbufCalls] at hr
    split at hr
    next hallowed =>
      obtain ⟨lost₁, hcall⟩ := netbufCall_spec inv call hallowed
      obtain ⟨lost', did, hinv, hgrows, hsub, hbytes, hcount, hlost⟩ := ih hcall.inv hr
      have hle := refusals_le hcall.room hcall.asked
      have hgrows' : ∀ k, lost k ≤ lost' k := fun k => Nat.le_trans (hcall.grows k) (hgrows k)
      rcases hcall.outcome with ⟨rfl, hdone⟩ | ⟨hsame, hrefused⟩
      · refine ⟨lost', call :: did, hinv, hgrows', hsub.cons_cons call, ?_, ?_, fun hno => hlost ?_⟩
        · rw [hbytes, hdone]
          rfl
        · rw [List.length_cons, List.length_cons]
          omega
        · omega
      · have hlt := refusals_lt hcall.room hcall.asked hrefused
        refine ⟨lost', did, hinv, hgrows', hsub.cons call, ?_, ?_, fun hno => ?_⟩
        · rw [hbytes, hsame]
        · rw [List.length_cons]
          omega
        · -- later calls would have to take a refusal back
          have := hsub.length_le
          omega
    next => cases hr

end

/-- **The net_buf functions work on strings of bytes.** Whatever data buffers the chains share, a
run of calls does to the bytes behind the pointers what the calls are to do to them one
after the other, except those calls that were left undone; and for each of these an
allocation was refused. -/
theorem netbufCalls_refine (room : Nat → Bool) (junk : Nat → UInt8) (n : Nat)
    (calls : List NetbufCall) (p : NetbufPool)
    (hr : netbufCalls calls (emptyPool room junk n) = some p) :
    ∃ did : List NetbufCall, did.Sublist calls
      ∧ p.bytes = did.foldl bytesCall (List.replicate n [])
      ∧ calls.length ≤ did.length + refusals p.heap
      ∧ ∀ i offset len, offset < chainLength (p.chain i) →
        fnetNetbufToBuf p.heap (p.chain i) offset len
          = (copiedBytes offset len (p.bytes.getD i [])).getD [] := by
  obtain ⟨_, did, hinv, -, hsub, hbytes, hcount, -⟩ :=
    netbufCalls_spec calls (emptyPool_inv room junk n) hr
  refine ⟨did, hsub, ?_, ?_, fun i offset len hlt => ?_⟩
  · rw [hbytes, NetbufPool.bytes, emptyPool, List.map_replicate]
    rfl
  · exact Nat.le_trans (Nat.le_add_right _ _) hcount
  · rw [p.bytes_getD i]
    exact fnetNetbufToBuf_eq len hinv.heap (hinv.chain_subset i) hlt

/-- Two chains over one data buffer, one of them cut in the middle, with the fifth allocation
refused. -/
def sharedRun : List NetbufCall :=
  [.fromBuf 0 [1, 2, 3, 4, 5, 6] false, .copy 0 1 0 .all false, .fromBuf 2 [7] false,
    .fromBuf 2 [8, 9] false, .cutCenter 0 2 2, .concat 1 2, .pullup 1 7, .trim 1 (-3)]

/-- `netbufCalls_refine` at `sharedRun`, in which one allocation is refused. -/
theorem netbufCalls_refine_shared :
    ∃ p, netbufCalls sharedRun (emptyPool (fun i => i != 4) (fun _ => 0) 3) = some p
      ∧ p.bytes = [[1, 2, 5, 6], [1, 2, 3, 4, 5], []]
      ∧ ∃ did : List NetbufCall, did.Sublist sharedRun
        ∧ p.bytes = did.foldl bytesCall (List.replicate 3 [])
        ∧ sharedRun.length ≤ did.length + refusals p.heap
        ∧ ∀ i offset len, offset < chainLength (p.chain i) →
          fnetNetbufToBuf p.heap (p.chain i) offset len
            = (copiedBytes offset len (p.bytes.getD i [])).getD [] := by
  have hrun : (netbufCalls sharedRun (emptyPool (fun i => i != 4) (fun _ => 0) 3)).map
      NetbufPool.bytes = some [[1, 2, 5, 6], [1, 2, 3, 4, 5], []] := by decide
  obtain ⟨p, hp, hbytes⟩ := Option.map_eq_some_iff.mp hrun
  exact ⟨p, hp, hbytes, netbufCalls_refine _ _ _ _ p hp⟩

/-- **Nothing is freed under a chain, and nothing leaks while there is memory.** After any run of
calls the descriptors that are allocated are those of the chains, and each of them lies in a
data buffer that is not free; if no allocation was refused, each data buffer counts the
pieces of it in the chains. -/
theorem netbufCalls_counters (room : Nat → Bool) (junk : Nat → UInt8) (n : Nat)
    (calls : List NetbufCall) (p : NetbufPool)
    (hr : netbufCalls calls (emptyPool room junk n) = some p) :
    p.heap.headers = p.chains.flatten.length
      ∧ (∀ nb ∈ p.chains.flatten, ∃ buffer, p.heap.cells.valueAt nb.data = some buffer
        ∧ nb.off + nb.length ≤ buffer.length)
      ∧ (refusals p.heap = 0 → ∀ k, p.heap.cells.refsAt k = p.pieces k) := by
  obtain ⟨lost, -, hinv, -, -, -, -, hlost⟩ := netbufCalls_spec calls (emptyPool_inv room junk n) hr
  refine ⟨hinv.heap.headers, hinv.heap.inside, fun hno k => ?_⟩
  have hzero : lost = fun _ => 0 := hlost (by rw [hno]; exact Nat.zero_le _)
  rw [hinv.heap.counted.refs k, hzero]
  rfl

/-- Three chains become one, which is copied. -/
def copyRun : List NetbufCall :=
  [.fromBuf 0 [1] false, .fromBuf 1 [2] false, .fromBuf 2 [3] false, .concat 0 1, .concat 0 2,
    .copy 0 1 0 .all false]

/-- `netbufCalls_counters` at `copyRun`. -/
theorem netbufCalls_counters_copied :
    ∃ p, netbufCalls copyRun (emptyPool (fun _ => true) (fun _ => 0) 3) = some p
      ∧ p.heap.headers = 6 ∧ ∀ k, p.heap.cells.refsAt k = p.pieces k := by
  have hrun : ((netbufCalls copyRun (emptyPool (fun _ => true) (fun _ => 0) 3)).any fun p =>
      p.chains.flatten.length == 6 && refusals p.heap == 0) = true := by decide
  obtain ⟨p, hp, hcheck⟩ := (Option.any_eq_true ..).mp hrun
  obtain ⟨hsix, hnone⟩ := Bool.and_eq_true_iff.mp hcheck
  obtain ⟨hheaders, -, hrefs⟩ := netbufCalls_counters _ _ _ _ p hp
  exact ⟨p, hp, hheaders.trans (eq_of_beq hsix), hrefs (eq_of_beq hnone)⟩

/-- **A lost reference is never given back.** References to a data buffer that no chain holds,
after some run of calls, are still there after any more calls: the buffer is never freed. -/
theorem lost_never_freed (room : Nat → Bool) (junk : Nat → UInt8) (n : Nat)
    (calls more : List NetbufCall) (p p' : NetbufPool) (k : Nat)
    (hr : netbufCalls calls (emptyPool room junk n) = some p)
    (hmore : netbufCalls more p = some p') :
    p.heap.cells.refsAt k + p'.pieces k ≤ p'.heap.cells.refsAt k + p.pieces k
      ∧ (p.pieces k < p.heap.cells.refsAt k → p'.heap.cells k ≠ none) := by
  obtain ⟨lost, -, hinv, -⟩ := netbufCalls_spec calls (emptyPool_inv room junk n) hr
  obtain ⟨lost', -, hinv', hgrows, -⟩ := netbufCalls_spec more hinv hmore
  have hrefs := hinv.heap.counted.refs k
  have hrefs' := hinv'.heap.counted.refs k
  have hgrow := hgrows k
  change _ = p.pieces k + lost k at hrefs
  change _ = p'.pieces k + lost' k at hrefs'
  refine ⟨by omega, fun hlost hnone => ?_⟩
  have := (hinv'.heap.counted.eq_none_iff.mp hnone).2
  omega

/-- There is no memory for the last net_buf of the copy. -/
theorem lost_never_freed_leak :
    ∃ p p', netbufCalls copyRun (emptyPool (fun i => i != 8) (fun _ => 0) 3) = some p
      ∧ netbufCalls [.freeChain 0] p = some p' ∧ p'.chains = [[], [], []]
      ∧ p'.heap.cells 1 ≠ none := by
  have hrun : ((netbufCalls copyRun (emptyPool (fun i => i != 8) (fun _ => 0) 3)).any fun p =>
      p.pieces 1 < p.heap.cells.refsAt 1
        && (netbufCalls [.freeChain 0] p).any (·.chains == [[], [], []])) = true := by decide
  obtain ⟨p, hp, hcheck⟩ := (Option.any_eq_true ..).mp hrun
  obtain ⟨hlost, hfree⟩ := Bool.and_eq_true_iff.mp hcheck
  obtain ⟨p', hp', hnull⟩ := (Option.any_eq_true ..).mp hfree
  exact ⟨p, p', hp, hp', eq_of_beq hnull,
    (lost_never_freed _ _ _ _ _ p p' 1 hp hp').2 (of_decide_eq_true hlost)⟩

end Datalogger
