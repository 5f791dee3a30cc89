import Datalogger.Net.Netbuf

/-!
# What the functions of `fnet_netbuf.c` do

`NetbufInv` says that the net_bufs of all chains are those that are allocated, that each lies
inside a data buffer that is not free, and that the counters of the buffers are right. It is
stated for the net_bufs of one chain and all `others`, so that every lemma below says three
things of a function: the invariant holds of the new chain and the others, the bytes of the
others are what they were (`Keeps`), and what the bytes of the new chain are.
-/

namespace Datalogger

open Lib (Cells Counted)

/-- `nbs` are all net_bufs of `h`; `lost` are references to data buffers that were not given
back. -/
structure NetbufInv (lost : Nat → Nat) (h : NetbufHeap) (nbs : List Netbuf) : Prop where
  counted : Counted lost h.cells (nbs.map Netbuf.data)
  inside : ∀ nb ∈ nbs, ∃ buffer, h.cells.valueAt nb.data = some buffer
    ∧ nb.off + nb.length ≤ buffer.length
  headers : h.headers = nbs.length
  fresh : ∀ k, h.fresh ≤ k → h.cells k = none

/-- What a function leaves alone: the bytes of the net_bufs `kept`, and what later
allocations find. -/
structure Keeps (h h' : NetbufHeap) (kept : List Netbuf) : Prop where
  bytes : ∀ nb ∈ kept, nb.bytes h' = nb.bytes h
  room : h'.room = h.room
  asked : h.asked ≤ h'.asked

/-- One of the allocations between `h` and `h'` was refused. -/
def Refused (h h' : NetbufHeap) : Prop := ∃ i, h.asked ≤ i ∧ i < h'.asked ∧ h.room i = false

/-- The first net_buf of a chain counts its bytes. -/
def TotalLength (nb : List Netbuf) : Prop := ∀ head ∈ nb.head?, head.totalLength = chainLength nb

section

variable {lost : Nat → Nat} {h h' h'' : NetbufHeap} {nb : Netbuf} {nbs kept : List Netbuf}

theorem Keeps.refl (h : NetbufHeap) (kept : List Netbuf) : Keeps h h kept :=
  ⟨fun _ _ => rfl, rfl, Nat.le_refl _⟩

theorem Keeps.trans (hk : Keeps h h' kept) (hk' : Keeps h' h'' kept) : Keeps h h'' kept :=
  ⟨fun nb hnb => (hk'.bytes nb hnb).trans (hk.bytes nb hnb), hk'.room.trans hk.room,
    Nat.le_trans hk.asked hk'.asked⟩

theorem Keeps.mono {kept' : List Netbuf} (hk : Keeps h h' kept) (hsub : kept' ⊆ kept) :
    Keeps h h' kept' :=
  ⟨fun nb hnb => hk.bytes nb (hsub hnb), hk.room, hk.asked⟩

/-- The bytes of a chain that is kept. -/
theorem Keeps.chainBytes (hk : Keeps h h' kept) {c : List Netbuf} (hsub : c ⊆ kept) :
    chainBytes h' c = chainBytes h c :=
  congrArg List.flatten (List.map_congr_left fun nb hnb => hk.bytes nb (hsub hnb))

/-- A refusal later on is a refusal. -/
theorem Refused.before (hk : Keeps h h' kept) (hr : Refused h' h'') : Refused h h'' := by
  obtain ⟨i, hlo, hhi, hroom⟩ := hr
  exact ⟨i, Nat.le_trans hk.asked hlo, hhi, hk.room ▸ hroom⟩

theorem Refused.after (hr : Refused h h') (hk : Keeps h' h'' kept) : Refused h h'' := by
  obtain ⟨i, hlo, hhi, hroom⟩ := hr
  exact ⟨i, hlo, Nat.lt_of_lt_of_le hhi hk.asked, hroom⟩

theorem chainBytes_append (c c' : List Netbuf) :
    chainBytes h (c ++ c') = chainBytes h c ++ chainBytes h c' :=
  List.flatMap_append ..

theorem chainBytes_cons (nb : Netbuf) (c : List Netbuf) :
    chainBytes h (nb :: c) = nb.bytes h ++ chainBytes h c :=
  List.flatMap_cons ..

theorem chainLength_append (c c' : List Netbuf) :
    chainLength (c ++ c') = chainLength c + chainLength c' := by
  induction c with
  | nil => exact (Nat.zero_add _).symm
  | cons nb c ih => rw [List.cons_append, chainLength, chainLength, ih, Nat.add_assoc]

/-! ## The invariant -/

/-- The invariant does not look at the order of the net_bufs. -/
theorem NetbufInv.perm {nbs' : List Netbuf} (inv : NetbufInv lost h nbs) (hp : nbs.Perm nbs') :
    NetbufInv lost h nbs' :=
  ⟨inv.counted.perm (hp.map _), fun nb hnb => inv.inside nb (hp.mem_iff.mpr hnb),
    inv.headers.trans hp.length_eq, inv.fresh⟩

/-- A net_buf describes as many bytes as it says: its data buffer is long enough. -/
theorem NetbufInv.length_bytes (inv : NetbufInv lost h nbs) (hnb : nb ∈ nbs) :
    (nb.bytes h).length = nb.length := by
  obtain ⟨buffer, hbuffer, hle⟩ := inv.inside nb hnb
  rw [Netbuf.bytes, hbuffer, Option.getD_some, List.length_take, List.length_drop]
  omega

/-- So does a chain. -/
theorem NetbufInv.length_chainBytes (inv : NetbufInv lost h nbs) {c : List Netbuf}
    (hsub : c ⊆ nbs) : (chainBytes h c).length = chainLength c := by
  induction c with
  | nil => rfl
  | cons nb c ih =>
    rw [chainBytes_cons, List.length_append, inv.length_bytes (hsub (List.mem_cons_self ..)),
      ih fun x hx => hsub (List.mem_cons_of_mem _ hx), chainLength]

/-- A shorter piece of what a net_buf describes. -/
theorem bytes_piece (nb : Netbuf) {nb' : Netbuf} (skip : Nat) (hdata : nb'.data = nb.data)
    (hoff : nb'.off = nb.off + skip) (hlen : skip + nb'.length ≤ nb.length) :
    nb'.bytes h = ((nb.bytes h).drop skip).take nb'.length := by
  rw [Netbuf.bytes, Netbuf.bytes, hdata, hoff, List.drop_take, List.drop_drop, List.take_take,
    Nat.min_eq_left (by omega)]

/-- Nothing that is stored changes when only the borders of a net_buf move. -/
theorem NetbufInv.reshape (inv : NetbufInv lost h (nb :: nbs)) (nb' : Netbuf)
    (hdata : nb'.data = nb.data) (hle : nb'.off + nb'.length ≤ nb.off + nb.length) :
    NetbufInv lost h (nb' :: nbs) := by
  refine ⟨?_, fun x hx => ?_, inv.headers, inv.fresh⟩
  · rw [List.map_cons, hdata]
    exact inv.counted
  · rcases List.mem_cons.mp hx with rfl | hx
    · obtain ⟨buffer, hbuffer, hinside⟩ := inv.inside nb (List.mem_cons_self ..)
      exact ⟨buffer, hdata ▸ hbuffer, Nat.le_trans hle hinside⟩
    · exact inv.inside x (List.mem_cons_of_mem _ hx)

/-- The borders of one piece may be drawn closer. -/
theorem NetbufInv.reshape_mid {nb' : Netbuf} {front back : List Netbuf}
    (inv : NetbufInv lost h (front ++ nb :: back)) (hdata : nb'.data = nb.data)
    (hle : nb'.off + nb'.length ≤ nb.off + nb.length) :
    NetbufInv lost h (front ++ nb' :: back) :=
  ((inv.perm List.perm_middle).reshape nb' hdata hle).perm List.perm_middle.symm

/-- `total_length` and `flags` are not part of the invariant. -/
theorem NetbufInv.renumber {c : List Netbuf} (inv : NetbufInv lost h (c ++ nbs)) (n : Nat) :
    NetbufInv lost h (setTotalLength n c ++ nbs) := by
  cases c with
  | nil => exact inv
  | cons nb c => exact inv.reshape _ rfl (Nat.le_refl _)

theorem chainBytes_setTotalLength (n : Nat) (c : List Netbuf) :
    chainBytes h (setTotalLength n c) = chainBytes h c := by
  cases c with
  | nil => rfl
  | cons nb c => rfl

theorem chainLength_setTotalLength (n : Nat) (c : List Netbuf) :
    chainLength (setTotalLength n c) = chainLength c := by
  cases c with
  | nil => rfl
  | cons nb c => rfl

/-- A `total_length` that is set to the lengths added up is right. -/
theorem totalLength_setTotalLength {n : Nat} {c : List Netbuf} (hn : chainLength c = n) :
    TotalLength (setTotalLength n c) := by
  cases c with
  | nil => exact nofun
  | cons nb c =>
    rintro head hhead
    obtain rfl := Option.some.inj hhead
    exact hn.symm.trans (chainLength_setTotalLength n (nb :: c)).symm

/-! ## The heap -/

/-- **Freeing a net_buf** counts its data buffer down and leaves those of all others alone. -/
theorem NetbufInv.free (inv : NetbufInv lost h (nb :: nbs)) :
    NetbufInv lost (fnetNetbufFree h nb) nbs ∧ Keeps h (fnetNetbufFree h nb) nbs := by
  have hvalue : ∀ x ∈ nbs, (fnetNetbufFree h nb).cells.valueAt x.data = h.cells.valueAt x.data :=
    fun x hx => inv.counted.valueAt_release (List.mem_map_of_mem hx)
  refine ⟨⟨inv.counted.release, fun x hx => ?_, ?_, fun k hk => ?_⟩, fun x hx => ?_, rfl,
    Nat.le_refl _⟩
  · rw [hvalue x hx]
    exact inv.inside x (List.mem_cons_of_mem _ hx)
  · show h.headers - 1 = nbs.length
    rw [inv.headers]
    rfl
  · show h.cells.release nb.data k = none
    have hcounted := inv.counted.release
    refine hcounted.eq_none_iff.mpr ?_
    have hnone := inv.counted.eq_none_iff.mp (inv.fresh k hk)
    exact ⟨fun hin => hnone.1 (List.mem_cons_of_mem _ hin), hnone.2⟩
  · rw [Netbuf.bytes, hvalue x hx]
    rfl

/-- Freeing a chain, net_buf after net_buf. -/
theorem NetbufInv.freeChain {c : List Netbuf} (inv : NetbufInv lost h (c ++ nbs)) :
    NetbufInv lost (fnetNetbufFreeChain h c) nbs ∧ Keeps h (fnetNetbufFreeChain h c) nbs := by
  induction c generalizing h with
  | nil => exact ⟨inv, Keeps.refl h nbs⟩
  | cons nb c ih =>
    obtain ⟨hinv, hkeep⟩ := inv.free
    obtain ⟨hinv', hkeep'⟩ := ih hinv
    exact ⟨hinv', (hkeep.mono (List.subset_append_right ..)).trans hkeep'⟩

/-- Another net_buf over a part of what one describes. -/
theorem NetbufInv.copy {copy : Netbuf} (inv : NetbufInv lost h nbs) (hnb : nb ∈ nbs)
    (hdata : copy.data = nb.data) (hle : copy.off + copy.length ≤ nb.off + nb.length) :
    NetbufInv lost { h.shareData nb.data with headers := h.headers + 1 } (copy :: nbs)
      ∧ ∀ x : Netbuf, x.bytes { h.shareData nb.data with headers := h.headers + 1 }
        = x.bytes h := by
  have hvalue : ∀ k, (h.cells.share nb.data).valueAt k = h.cells.valueAt k :=
    fun k => h.cells.valueAt_share
  have hcounted := inv.counted.share (List.mem_map_of_mem hnb)
  refine ⟨⟨?_, fun x hx => ?_, congrArg (· + 1) inv.headers, fun k hk => ?_⟩, fun x => ?_⟩
  · rw [List.map_cons, hdata]
    exact hcounted
  · show ∃ buffer, (h.cells.share nb.data).valueAt x.data = some buffer ∧ _
    rw [hvalue]
    rcases List.mem_cons.mp hx with rfl | hx
    · obtain ⟨buffer, hbuffer, hinside⟩ := inv.inside nb hnb
      exact ⟨buffer, hdata ▸ hbuffer, Nat.le_trans hle hinside⟩
    · exact inv.inside x hx
  · refine hcounted.eq_none_iff.mpr ?_
    have hnone := inv.counted.eq_none_iff.mp (inv.fresh k hk)
    refine ⟨fun hin => ?_, hnone.2⟩
    rcases List.mem_cons.mp hin with rfl | hin
    · exact hnone.1 (List.mem_map_of_mem hnb)
    · exact hnone.1 hin
  · show ((((h.cells.share nb.data).valueAt x.data).getD []).drop x.off).take x.length = _
    rw [hvalue]
    rfl

/-- Bytes into a data buffer that no other net_buf has a piece of. -/
theorem NetbufInv.fill (inv : NetbufInv lost h (nb :: nbs)) (halone : nb.data ∉ nbs.map Netbuf.data)
    (bytes : List UInt8) (hle : nb.off + nb.length ≤ bytes.length) :
    NetbufInv lost (h.fillData nb.data bytes) (nb :: nbs) ∧ Keeps h (h.fillData nb.data bytes) nbs
      ∧ nb.bytes (h.fillData nb.data bytes) = (bytes.drop nb.off).take nb.length := by
  obtain ⟨buffer, hbuffer, -⟩ := inv.inside nb (List.mem_cons_self ..)
  have hself := Cells.valueAt_write_self hbuffer bytes
  have hother : ∀ x ∈ nbs, (h.cells.write nb.data bytes).valueAt x.data = h.cells.valueAt x.data :=
    fun x hx => h.cells.valueAt_write_ne
      (fun he => halone (List.mem_map.mpr ⟨x, hx, he⟩)) bytes
  have hcounted := inv.counted.write nb.data bytes
  refine ⟨⟨hcounted, fun x hx => ?_, inv.headers, fun k hk => ?_⟩, ⟨fun x hx => ?_, rfl,
    Nat.le_refl _⟩, ?_⟩
  · rcases List.mem_cons.mp hx with rfl | hx
    · exact ⟨bytes, hself, hle⟩
    · obtain ⟨b, hb, hinside⟩ := inv.inside x (List.mem_cons_of_mem _ hx)
      exact ⟨b, (hother x hx).trans hb, hinside⟩
  · exact hcounted.eq_none_iff.mpr (inv.counted.eq_none_iff.mp (inv.fresh k hk))
  · show ((((h.cells.write nb.data bytes).valueAt x.data).getD []).drop x.off).take x.length = _
    rw [hother x hx]
    rfl
  · show ((((h.cells.write nb.data bytes).valueAt nb.data).getD []).drop nb.off).take nb.length = _
    rw [hself]
    rfl

/-! ## Allocations -/

theorem NetbufInv.asked (inv : NetbufInv lost h nbs) (n : Nat) :
    NetbufInv lost { h with asked := n } nbs :=
  ⟨inv.counted, inv.inside, inv.headers, inv.fresh⟩

/-- Asking for memory keeps all there is. -/
theorem Keeps.of_asked {n : Nat} (hn : h.asked ≤ n) : Keeps h { h with asked := n } kept :=
  ⟨fun _ _ => rfl, rfl, hn⟩

/-- An allocation asks once or twice, and fails only where it is refused. -/
theorem malloc_spec {drain ok : Bool} (hm : h.malloc drain = (ok, h')) :
    ∃ n, h.asked ≤ n ∧ h' = { h with asked := n } ∧ (ok = false → Refused h h') := by
  unfold NetbufHeap.malloc at hm
  split at hm
  next hroom =>
    obtain ⟨rfl, rfl⟩ := Prod.mk.inj hm
    exact ⟨_, Nat.le_succ _, rfl, nofun⟩
  next hroom =>
    have hfalse : h.room h.asked = false := Bool.eq_false_iff.mpr hroom
    split at hm
    next =>
      obtain ⟨rfl, rfl⟩ := Prod.mk.inj hm
      exact ⟨_, Nat.le_add_right _ 2, rfl,
        fun _ => ⟨h.asked, Nat.le_refl _, Nat.lt_add_of_pos_right Nat.two_pos, hfalse⟩⟩
    next =>
      obtain ⟨rfl, rfl⟩ := Prod.mk.inj hm
      exact ⟨_, Nat.le_succ _, rfl, fun _ => ⟨h.asked, Nat.le_refl _, Nat.lt_succ_self _, hfalse⟩⟩

/-- A descriptor is counted. -/
theorem newHeader_true {drain : Bool} (hn : h.newHeader drain = (true, h')) :
    ∃ n, h.asked ≤ n ∧ h' = { h with asked := n, headers := h.headers + 1 } := by
  unfold NetbufHeap.newHeader at hn
  cases hm : h.malloc drain with
  | mk ok h₁ =>
    obtain ⟨n, hn', rfl, -⟩ := malloc_spec hm
    rw [hm] at hn
    cases ok with
    | true =>
      obtain ⟨-, rfl⟩ := Prod.mk.inj hn
      exact ⟨n, hn', rfl⟩
    | false => cases hn

/-- Without memory for a descriptor the heap is as it was. -/
theorem newHeader_false {drain : Bool} (hn : h.newHeader drain = (false, h')) :
    ∃ n, h.asked ≤ n ∧ h' = { h with asked := n } ∧ Refused h h' := by
  unfold NetbufHeap.newHeader at hn
  cases hm : h.malloc drain with
  | mk ok h₁ =>
    obtain ⟨n, hn', hh₁, hrefused⟩ := malloc_spec hm
    rw [hm] at hn
    cases ok with
    | true => cases hn
    | false =>
      obtain ⟨-, rfl⟩ := Prod.mk.inj hn
      exact ⟨n, hn', hh₁, hrefused rfl⟩

/-- A data buffer has a name that was never used, and one reference. -/
theorem newData_some {len data : Nat} {drain : Bool} (hn : h.newData len drain = (some data, h')) :
    ∃ n, h.asked ≤ n ∧ data = h.fresh ∧ h' =
      { h with
        asked := n
        cells := h.cells.alloc h.fresh ((List.range len).map h.junk)
        fresh := h.fresh + 1 } := by
  unfold NetbufHeap.newData at hn
  cases hm : h.malloc drain with
  | mk ok h₁ =>
    obtain ⟨n, hn', rfl, -⟩ := malloc_spec hm
    rw [hm] at hn
    cases ok with
    | true =>
      obtain ⟨hdata, rfl⟩ := Prod.mk.inj hn
      exact ⟨n, hn', (Option.some.inj hdata).symm, rfl⟩
    | false => cases hn

/-- Without memory for a data buffer the heap is as it was. -/
theorem newData_none {len : Nat} {drain : Bool} (hn : h.newData len drain = (none, h')) :
    ∃ n, h.asked ≤ n ∧ h' = { h with asked := n } ∧ Refused h h' := by
  unfold NetbufHeap.newData at hn
  cases hm : h.malloc drain with
  | mk ok h₁ =>
    obtain ⟨n, hn', hh₁, hrefused⟩ := malloc_spec hm
    rw [hm] at hn
    cases ok with
    | true => cases hn
    | false =>
      obtain ⟨-, rfl⟩ := Prod.mk.inj hn
      exact ⟨n, hn', hh₁, hrefused rfl⟩

/-- The name of the next data buffer is not in use. -/
theorem NetbufInv.fresh_not_mem (inv : NetbufInv lost h nbs) : h.fresh ∉ nbs.map Netbuf.data :=
  (inv.counted.eq_none_iff.mp (inv.fresh _ (Nat.le_refl _))).1

/-- A net_buf over a new data buffer. -/
theorem NetbufInv.alloc (inv : NetbufInv lost h nbs) (nb : Netbuf) (hdata : nb.data = h.fresh)
    (bytes : List UInt8) (hle : nb.off + nb.length ≤ bytes.length) (n : Nat) :
    NetbufInv lost
        { h with
          asked := n
          cells := h.cells.alloc h.fresh bytes
          fresh := h.fresh + 1
          headers := h.headers + 1 } (nb :: nbs)
      ∧ ∀ x ∈ nbs, x.bytes { h with cells := h.cells.alloc h.fresh bytes } = x.bytes h := by
  have hother : ∀ x ∈ nbs, (h.cells.alloc h.fresh bytes).valueAt x.data = h.cells.valueAt x.data :=
    fun x hx => h.cells.valueAt_alloc_ne
      (fun he => inv.fresh_not_mem (List.mem_map.mpr ⟨x, hx, he⟩)) bytes
  have hcounted := inv.counted.alloc (inv.fresh _ (Nat.le_refl _)) bytes
  refine ⟨⟨?_, fun x hx => ?_, congrArg (· + 1) inv.headers, fun k hk => ?_⟩, fun x hx => ?_⟩
  · rw [List.map_cons, hdata]
    exact hcounted
  · rcases List.mem_cons.mp hx with rfl | hx
    · exact ⟨bytes, hdata ▸ h.cells.valueAt_alloc_self bytes, hle⟩
    · obtain ⟨b, hb, hinside⟩ := inv.inside x hx
      exact ⟨b, (hother x hx).trans hb, hinside⟩
  · have hlt : h.fresh < k := hk
    have hnone := inv.counted.eq_none_iff.mp (inv.fresh k (Nat.le_of_lt hlt))
    refine hcounted.eq_none_iff.mpr ⟨fun hin => ?_, hnone.2⟩
    rcases List.mem_cons.mp hin with rfl | hin
    · exact Nat.lt_irrefl _ hlt
    · exact hnone.1 hin
  · show ((((h.cells.alloc h.fresh bytes).valueAt x.data).getD []).drop x.off).take x.length = _
    rw [hother x hx]
    rfl

/-- A new net_buf describes a data buffer that is in no other one. -/
theorem fnetNetbufNew_some {len : Nat} {drain : Bool} (inv : NetbufInv lost h nbs)
    (hr : fnetNetbufNew h len drain = (some nb, h')) :
    NetbufInv lost h' (nb :: nbs) ∧ Keeps h h' nbs ∧ nb.data ∉ nbs.map Netbuf.data
      ∧ nb.off = 0 ∧ nb.length = len ∧ nb.totalLength = len := by
  unfold fnetNetbufNew at hr
  rw [if_neg (by omega)] at hr
  cases hheader : h.newHeader drain with
  | mk ok h₁ =>
    rw [hheader] at hr
    cases ok with
    | false => cases hr
    | true =>
      obtain ⟨n, hn, rfl⟩ := newHeader_true hheader
      dsimp only at hr
      cases hdata : NetbufHeap.newData { h with asked := n, headers := h.headers + 1 }
          (len : Int).toNat drain with
      | mk data h₂ =>
        rw [hdata] at hr
        cases data with
        | none => cases hr
        | some data =>
          obtain ⟨hnb, rfl⟩ := Prod.mk.inj hr
          obtain rfl := Option.some.inj hnb
          obtain ⟨n', hn', rfl, rfl⟩ := newData_some hdata
          have hlen : ((List.range (len : Int).toNat).map h.junk).length = len := by
            rw [List.length_map, List.length_range, Int.toNat_natCast]
          obtain ⟨hinv, hbytes⟩ := inv.alloc
            ⟨h.fresh, 0, (len : Int).toNat, (len : Int).toNat, 0⟩ rfl _ (by
              rw [hlen]
              show 0 + (len : Int).toNat ≤ len
              omega) n'
          exact ⟨hinv, ⟨hbytes, rfl, Nat.le_trans hn hn'⟩, inv.fresh_not_mem, rfl,
            Int.toNat_natCast len, Int.toNat_natCast len⟩

/-- If memory runs out between the two allocations, the descriptor is given back. -/
theorem fnetNetbufNew_none {len : Nat} {drain : Bool} (inv : NetbufInv lost h nbs)
    (hr : fnetNetbufNew h len drain = (none, h')) :
    NetbufInv lost h' nbs ∧ Keeps h h' nbs ∧ Refused h h' := by
  unfold fnetNetbufNew at hr
  rw [if_neg (by omega)] at hr
  cases hheader : h.newHeader drain with
  | mk ok h₁ =>
    rw [hheader] at hr
    cases ok with
    | false =>
      obtain ⟨-, rfl⟩ := Prod.mk.inj hr
      obtain ⟨n, hn, rfl, hrefused⟩ := newHeader_false hheader
      exact ⟨inv.asked n, Keeps.of_asked hn, hrefused⟩
    | true =>
      obtain ⟨n, hn, rfl⟩ := newHeader_true hheader
      dsimp only at hr
      cases hdata : NetbufHeap.newData { h with asked := n, headers := h.headers + 1 }
          (len : Int).toNat drain with
      | mk data h₂ =>
        rw [hdata] at hr
        cases data with
        | some data => cases hr
        | none =>
          obtain ⟨-, rfl⟩ := Prod.mk.inj hr
          obtain ⟨n', hn', rfl, i, hlo, hhi, hroom⟩ := newData_none hdata
          exact ⟨inv.asked n', Keeps.of_asked (Nat.le_trans hn hn'), i, Nat.le_trans hn hlo, hhi,
            hroom⟩

theorem chainBytes_singleton (nb : Netbuf) : chainBytes h [nb] = nb.bytes h := by
  rw [chainBytes_cons]
  exact List.append_nil _

/-- `fnet_netbuf_from_buf`: a new chain of these bytes. -/
theorem fnetNetbufFromBuf_some {data : List UInt8} {drain : Bool} (inv : NetbufInv lost h nbs)
    (hr : fnetNetbufFromBuf h data drain = (some nb, h')) :
    NetbufInv lost h' (nb :: nbs) ∧ Keeps h h' nbs ∧ chainBytes h' [nb] = data
      ∧ TotalLength [nb] := by
  unfold fnetNetbufFromBuf at hr
  cases hnew : fnetNetbufNew h data.length drain with
  | mk made h₁ =>
    rw [hnew] at hr
    cases made with
    | none => cases hr
    | some made =>
      obtain ⟨hmade, rfl⟩ := Prod.mk.inj hr
      obtain rfl := Option.some.inj hmade
      obtain ⟨hinv, hkeep, halone, hoff, hlen, htotal⟩ := fnetNetbufNew_some inv hnew
      obtain ⟨hinv', hkeep', hbytes⟩ := hinv.fill halone data (by omega)
      refine ⟨hinv', hkeep.trans hkeep', ?_, ?_⟩
      · rw [chainBytes_singleton, hbytes, hoff, hlen, List.drop_zero, List.take_length]
      · rintro head hhead
        obtain rfl := Option.some.inj hhead
        show made.totalLength = made.length + 0
        omega

/-- Without memory nothing is kept of the buffer. -/
theorem fnetNetbufFromBuf_none {data : List UInt8} {drain : Bool} (inv : NetbufInv lost h nbs)
    (hr : fnetNetbufFromBuf h data drain = (none, h')) :
    NetbufInv lost h' nbs ∧ Keeps h h' nbs ∧ Refused h h' := by
  unfold fnetNetbufFromBuf at hr
  cases hnew : fnetNetbufNew h data.length drain with
  | mk made h₁ =>
    rw [hnew] at hr
    cases made with
    | some made => cases hr
    | none =>
      obtain ⟨-, rfl⟩ := Prod.mk.inj hr
      exact fnetNetbufNew_none inv hnew

end

end Datalogger
