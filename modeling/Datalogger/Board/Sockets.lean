import Mathlib.Data.List.Basic

/-!
# Socket descriptors

`fnet_socket.c` hands out the indices of a table of ten entries, the lowest free one
first. `netprot_goodbye` gives one back, if it is in use at all.

Mirroring notes:
- An entry is in use or not. What is behind it, and so whether a call on it succeeds, is
  left to the environment, except that a call on a descriptor that is not in use fails.
- `setsockopt(SO_LINGER)` of the right size succeeds on every socket in use, and so does
  the `detach` of UDP and TCP that `closesocket` waits for.
-/

namespace Datalogger

/-- `SOCKET`. -/
abbrev Socket := Int

/-- `SOCKET_INVALID`. -/
def socketInvalid : Socket := -1

/-- `FNET_CFG_SOCKET_MAX`. -/
def fnetCfgSocketMax : Nat := 10

/-- `fnet_socket_desc`: which entries are in use. -/
structure SocketDesc where
  used : List Bool
  length_used : used.length = fnetCfgSocketMax

/-- The table when the stack starts. -/
def SocketDesc.empty : SocketDesc :=
  { used := List.replicate fnetCfgSocketMax false, length_used := List.length_replicate }

/-- An entry is written. -/
def SocketDesc.set (t : SocketDesc) (desc : Nat) (inUse : Bool) : SocketDesc :=
  { used := t.used.set desc inUse
    length_used := (List.length_set ..).trans t.length_used }

/-- `fnet_socket_desc_find` finds a socket. -/
def SocketDesc.IsOpen (t : SocketDesc) (s : Socket) : Prop :=
  0 ≤ s ∧ t.used[s.toNat]? = some true

instance (t : SocketDesc) (s : Socket) : Decidable (t.IsOpen s) :=
  inferInstanceAs (Decidable (_ ∧ _))

/-- `fnet_socket_desc_alloc`: the first entry that is free. -/
def fnetSocketDescAlloc (t : SocketDesc) : Option Nat := t.used.idxOf? false

/-- `socket`; `granted` says whether there is memory for it. A descriptor that was
reserved is freed again where there is not. -/
def socket (t : SocketDesc) (granted : Bool) : Socket × SocketDesc :=
  match fnetSocketDescAlloc t with
  | none => (socketInvalid, t)
  | some res => if granted then ((res : Int), t.set res true) else (socketInvalid, t)

/-- `closesocket`, where it succeeds. -/
def closesocket (t : SocketDesc) (s : Socket) : SocketDesc := t.set s.toNat false

/-- `netprot_goodbye`: the table it leaves, and the descriptor it closed. -/
def netprotGoodbye (t : SocketDesc) (s : Socket) : SocketDesc × Option Socket :=
  if t.IsOpen s then (closesocket t s, some s) else (t, none)

/-! ## What the calls do -/

theorem socketInvalid_not_isOpen (t : SocketDesc) : ¬ t.IsOpen socketInvalid :=
  fun h => absurd h.1 (by decide)

/-- An entry that is written is in use as it was written, and the others as before. -/
theorem SocketDesc.isOpen_set {t : SocketDesc} {desc : Nat} {inUse : Bool}
    (hlt : desc < fnetCfgSocketMax) (s : Socket) :
    (t.set desc inUse).IsOpen s ↔ if s = desc then inUse = true else t.IsOpen s := by
  have hlen : desc < t.used.length := by rw [t.length_used]; exact hlt
  by_cases hs : s = desc
  · subst hs
    rw [if_pos rfl]
    show 0 ≤ (desc : Int) ∧ (t.used.set desc inUse)[desc]? = some true ↔ _
    rw [List.getElem?_set_self hlen, Option.some.injEq]
    exact ⟨fun h => h.2, fun h => ⟨Int.natCast_nonneg desc, h⟩⟩
  · rw [if_neg hs]
    refine and_congr_right fun hnonneg => ?_
    have hne : desc ≠ s.toNat := fun heq => hs (by rw [heq, Int.toNat_of_nonneg hnonneg])
    show (t.used.set desc inUse)[s.toNat]? = some true ↔ _
    rw [List.getElem?_set_ne hne]

theorem SocketDesc.IsOpen.lt {t : SocketDesc} {s : Socket} (h : t.IsOpen s) :
    s.toNat < fnetCfgSocketMax := by
  obtain ⟨hlt, -⟩ := List.getElem?_eq_some_iff.mp h.2
  rw [← t.length_used]
  exact hlt

/-- **A descriptor that is handed out** was free, and is the only change. -/
theorem socket_spec (t : SocketDesc) (granted : Bool) :
    (socket t granted = (socketInvalid, t)) ∨
    (∃ d : Nat, (socket t granted).1 = d ∧ ¬ t.IsOpen d ∧
      ∀ s, (socket t granted).2.IsOpen s ↔ s = d ∨ t.IsOpen s) := by
  unfold socket fnetSocketDescAlloc
  cases halloc : t.used.idxOf? false with
  | none => exact Or.inl rfl
  | some d =>
    cases granted with
    | false => exact Or.inl rfl
    | true =>
      obtain ⟨hlt, hfree, -⟩ := List.findIdx?_eq_some_iff_getElem.mp halloc
      have hfree' : t.used[d] = false := by simpa using hfree
      refine Or.inr ⟨d, rfl, fun hopen => ?_, fun s => ?_⟩
      · have hused := hopen.2
        rw [Int.toNat_natCast, List.getElem?_eq_getElem hlt, hfree'] at hused
        cases hused
      · show (t.set d true).IsOpen s ↔ _
        rw [SocketDesc.isOpen_set (by rw [← t.length_used]; exact hlt)]
        by_cases hs : s = d
        · simp [hs]
        · simp [hs]

/-- The descriptors below it are in use. -/
theorem socket_lowest {t : SocketDesc} {granted : Bool} {d : Nat} (h : (socket t granted).1 = d)
    {i : Nat} (hi : i < d) : t.IsOpen i := by
  have hvalid : ¬ socketInvalid = d := by
    intro heq
    have hnonneg : (0 : Int) ≤ d := Int.natCast_nonneg d
    rw [← heq] at hnonneg
    exact absurd hnonneg (by decide)
  unfold socket fnetSocketDescAlloc at h
  cases halloc : t.used.idxOf? false with
  | none =>
    rw [halloc] at h
    exact absurd h hvalid
  | some res =>
    rw [halloc] at h
    cases granted with
    | false => exact absurd h hvalid
    | true =>
      obtain rfl : res = d := Int.ofNat_inj.mp h
      obtain ⟨hlt, -, hbefore⟩ := List.findIdx?_eq_some_iff_getElem.mp halloc
      have hused : t.used[i] = true := by simpa using hbefore i hi
      refine ⟨Int.natCast_nonneg i, ?_⟩
      rw [Int.toNat_natCast, List.getElem?_eq_getElem (Nat.lt_trans hi hlt), hused]

/-- While one is free, there is one to hand out. -/
theorem socket_granted {t : SocketDesc} {i : Nat} (hlt : i < fnetCfgSocketMax)
    (hfree : ¬ t.IsOpen i) :
    (socket t true).1 ≠ socketInvalid := by
  unfold socket fnetSocketDescAlloc
  cases halloc : t.used.idxOf? false with
  | none =>
    -- every entry is in use
    have hnot : false ∉ t.used := List.idxOf?_eq_none_iff.mp halloc
    have hlen : i < t.used.length := by rw [t.length_used]; exact hlt
    have hused : t.used[i] = true := by
      cases hi : t.used[i] with
      | true => rfl
      | false => exact absurd (hi ▸ List.getElem_mem hlen) hnot
    refine absurd ⟨Int.natCast_nonneg i, ?_⟩ hfree
    rw [Int.toNat_natCast, List.getElem?_eq_getElem hlen, hused]
  | some res =>
    intro heq
    have hnonneg : (0 : Int) ≤ res := Int.natCast_nonneg res
    rw [show (res : Int) = socketInvalid from heq] at hnonneg
    exact absurd hnonneg (by decide)

theorem SocketDesc.not_isOpen_empty (s : Socket) : ¬ SocketDesc.empty.IsOpen s := by
  intro ⟨_, hused⟩
  have hmem : true ∈ List.replicate fnetCfgSocketMax false := List.mem_of_getElem? hused
  exact absurd (List.eq_of_mem_replicate hmem) (by decide)

/-- A descriptor in use is closed, and is the only change. -/
theorem netprotGoodbye_open {t : SocketDesc} {s : Socket} (h : t.IsOpen s) :
    (netprotGoodbye t s).2 = some s ∧
      ∀ s', (netprotGoodbye t s).1.IsOpen s' ↔ s' ≠ s ∧ t.IsOpen s' := by
  have hs : ((s.toNat : Nat) : Int) = s := Int.toNat_of_nonneg h.1
  unfold netprotGoodbye
  rw [if_pos h]
  refine ⟨rfl, fun s' => ?_⟩
  show (t.set s.toNat false).IsOpen s' ↔ _
  rw [SocketDesc.isOpen_set h.lt, hs]
  by_cases heq : s' = s
  · simp [heq]
  · simp [heq]

/-- Any other is left alone. -/
theorem netprotGoodbye_closed {t : SocketDesc} {s : Socket} (h : ¬ t.IsOpen s) :
    netprotGoodbye t s = (t, none) := if_neg h

/-- Behind it the descriptor is not in use. -/
theorem not_isOpen_netprotGoodbye (t : SocketDesc) (s : Socket) :
    ¬ (netprotGoodbye t s).1.IsOpen s := by
  by_cases h : t.IsOpen s
  · rw [(netprotGoodbye_open h).2]
    exact fun hopen => hopen.1 rfl
  · rw [netprotGoodbye_closed h]
    exact h

end Datalogger
