import Datalogger.Net.NetbufChains

/-!
# Copies of a chain

`fnet_netbuf_copy` copies no bytes: the new chain describes the same data buffers, each with one
more reference. `fnet_netbuf_to_buf` copies the bytes out. Both find their first net_buf in
the same way, and of a chain with more than `offset` bytes both give the same bytes.

When there is no memory for another net_buf, `fnet_netbuf_copy` frees what it has made. Of
all but the first it frees the descriptors only: the references to their data buffers are lost.
-/

namespace Datalogger

section

variable {lost : Nat → Nat} {h h' : NetbufHeap} {nbs c c' made : List Netbuf}

/-- The bytes that `fnet_netbuf_copy` and `fnet_netbuf_to_buf` are asked for. -/
def copiedBytes (offset : Nat) (len : CopyLen) (s : List UInt8) : Option (List UInt8) :=
  match len with
  | .all => some (s.drop offset)
  | .bytes n => if s.length - offset < n then none else some ((s.drop offset).take n)

/-! ## Finding the first net_buf -/

/-- The loop stops at the net_buf that the offset lies in. -/
theorem seekLoop_some {offset : Nat} (c : List Netbuf) :
    ∀ {before : Nat}, before ≤ offset → offset < before + chainLength c →
      ∃ o front tmp rest, seekLoop offset before c = some (o, tmp :: rest)
        ∧ c = front ++ tmp :: rest ∧ offset = before + chainLength front + o ∧ o < tmp.length := by
  induction c with
  | nil => exact fun hle hlt => absurd hlt (Nat.not_lt_of_le hle)
  | cons nb rest ih =>
    intro before hle hlt
    rw [chainLength] at hlt
    rw [seekLoop]
    split
    next hskip =>
      obtain ⟨o, front, tmp, rest', hseek, hsplit, hoffset, ho⟩ := ih hskip (by omega)
      refine ⟨o, nb :: front, tmp, rest', hseek, congrArg (nb :: ·) hsplit, ?_, ho⟩
      rw [chainLength]
      omega
    next hhere =>
      refine ⟨_, [], nb, rest, rfl, rfl, ?_, ?_⟩
      · rw [chainLength]
        omega
      · omega

/-- The same, for the first net_buf too. -/
theorem seek_some {offset : Nat} (hlt : offset < chainLength c) :
    ∃ o front tmp rest, seek offset c = some (o, tmp :: rest) ∧ c = front ++ tmp :: rest
      ∧ offset = chainLength front + o ∧ o < tmp.length := by
  cases c with
  | nil => exact absurd hlt (Nat.not_lt_zero _)
  | cons nb rest =>
    rw [seek]
    split
    next hhere => exact ⟨offset, [], nb, rest, rfl, rfl, (Nat.zero_add _).symm, hhere⟩
    next =>
      obtain ⟨o, front, tmp, rest', hseek, hsplit, hoffset, ho⟩ :=
        seekLoop_some (nb :: rest) (Nat.zero_le offset) (by omega)
      exact ⟨o, front, tmp, rest', hseek, hsplit, by omega, ho⟩

/-- The bytes from `offset` on, seen from the net_buf it lies in. -/
theorem drop_seek {o : Nat} {tmp : Netbuf} {front rest : List Netbuf} (inv : NetbufInv lost h nbs)
    (hsub : front ++ tmp :: rest ⊆ nbs) (ho : o < tmp.length) :
    (chainBytes h (front ++ tmp :: rest)).drop (chainLength front + o)
      = (tmp.bytes h).drop o ++ chainBytes h rest := by
  have hfront := inv.length_chainBytes (c := front) fun x hx => hsub (List.mem_append_left _ hx)
  have htmp := inv.length_bytes (hsub (List.mem_append_right _ (List.mem_cons_self ..)))
  rw [chainBytes_mid, ← hfront, List.drop_length_add_append,
    List.drop_append_of_le_length (by omega)]

/-- The length that is gone on with is that of the bytes asked for. -/
theorem copyLen_some {offset : Nat} {len : CopyLen} {l : Int} (inv : NetbufInv lost h nbs)
    (hsub : c ⊆ nbs) (hlt : offset < chainLength c) (hr : copyLen c offset len = some l) :
    ∃ n : Nat, l = n ∧ n ≤ chainLength c - offset
      ∧ copiedBytes offset len (chainBytes h c) = some (((chainBytes h c).drop offset).take n) := by
  have hlength := inv.length_chainBytes hsub
  cases len with
  | all =>
    obtain rfl := Option.some.inj hr
    refine ⟨chainLength c - offset, (Int.ofNat_sub (Nat.le_of_lt hlt)).symm, Nat.le_refl _, ?_⟩
    rw [copiedBytes, List.take_of_length_le]
    rw [List.length_drop]
    omega
  | bytes n =>
    unfold copyLen at hr
    dsimp only at hr
    split at hr
    next => cases hr
    next hfits =>
      obtain rfl := Option.some.inj hr
      refine ⟨n, rfl, by omega, ?_⟩
      unfold copiedBytes
      exact if_neg (by omega)

/-- The lengths that are refused are those of no part of the chain. -/
theorem copyLen_none {offset : Nat} {len : CopyLen} (inv : NetbufInv lost h nbs) (hsub : c ⊆ nbs)
    (hlt : offset < chainLength c) (hr : copyLen c offset len = none) :
    copiedBytes offset len (chainBytes h c) = none := by
  have hlength := inv.length_chainBytes hsub
  cases len with
  | all => cases hr
  | bytes n =>
    unfold copyLen at hr
    dsimp only at hr
    split at hr
    next hmuch =>
      unfold copiedBytes
      exact if_pos (by omega)
    next => cases hr

/-! ## `fnet_netbuf_to_buf` -/

/-- The loop writes the bytes from the offset on, as many as are asked for. -/
theorem toBufLoop_eq (inv : NetbufInv lost h nbs) (c : List Netbuf) (hsub : c ⊆ nbs) :
    ∀ (totLen o : Nat), o ≤ headLength c →
      toBufLoop h totLen o c = ((chainBytes h c).drop o).take totLen := by
  induction c with
  | nil =>
    intro totLen o _
    rw [toBufLoop, chainBytes, List.flatMap_nil, List.drop_nil, List.take_nil]
  | cons nb rest ih =>
    intro totLen o ho
    change o ≤ nb.length at ho
    have hnb := inv.length_bytes (hsub (List.mem_cons_self ..))
    have hleft : ((nb.bytes h).drop o).length = nb.length - o := by rw [List.length_drop, hnb]
    rw [toBufLoop, chainBytes_cons, List.drop_append_of_le_length (by omega), List.take_append,
      hleft]
    by_cases hall : nb.length - o > totLen
    · rw [if_pos hall, Nat.sub_self, if_neg (Nat.lt_irrefl 0),
        show totLen - (nb.length - o) = 0 by omega,
        List.take_zero, List.append_nil]
    · rw [if_neg hall, List.take_of_length_le (by omega), List.take_of_length_le (by omega)]
      by_cases hmore : 0 < totLen - (nb.length - o)
      · rw [if_pos hmore, ih (fun x hx => hsub (List.mem_cons_of_mem _ hx)) _ 0 (Nat.zero_le _),
          List.drop_zero]
      · rw [if_neg hmore, show totLen - (nb.length - o) = 0 by omega, List.take_zero,
          List.append_nil]

/-- `fnet_netbuf_to_buf` writes the bytes it is asked for, or none. -/
theorem fnetNetbufToBuf_eq {offset : Nat} (len : CopyLen) (inv : NetbufInv lost h nbs)
    (hsub : c ⊆ nbs) (hlt : offset < chainLength c) :
    fnetNetbufToBuf h c offset len = (copiedBytes offset len (chainBytes h c)).getD [] := by
  unfold fnetNetbufToBuf
  cases hlen : copyLen c offset len with
  | none =>
    rw [copyLen_none inv hsub hlt hlen]
    rfl
  | some l =>
    obtain ⟨n, rfl, -, hbytes⟩ := copyLen_some inv hsub hlt hlen
    dsimp only
    rw [hbytes, Option.getD_some]
    split
    next hzero => rw [show n = 0 by omega, List.take_zero]
    next =>
      obtain ⟨o, front, tmp, rest, hseek, rfl, rfl, ho⟩ := seek_some hlt
      have htmp := inv.length_bytes (hsub (List.mem_append_right _ (List.mem_cons_self ..)))
      rw [hseek]
      dsimp only
      rw [Int.toNat_natCast, toBufLoop_eq inv _ (fun x hx => hsub (List.mem_append_right _ hx)) _ _
        (Nat.le_of_lt ho), drop_seek inv hsub ho, chainBytes_cons,
        List.drop_append_of_le_length (by omega)]

/-! ## `fnet_netbuf_copy` -/

/-- Of the copies made so far, the references of all but the first are lost. -/
theorem abandonCopies_spec {first : Netbuf} {others : List Netbuf}
    (inv : NetbufInv lost h (first :: others ++ nbs)) :
    NetbufInv (fun k => lost k + (others.map Netbuf.data).count k)
        (abandonCopies h (first :: others)) nbs
      ∧ Keeps h (abandonCopies h (first :: others)) nbs := by
  obtain ⟨hinv, hkeep⟩ := inv.free
  have hcounted : Lib.Counted lost (fnetNetbufFree h first).cells
      (others.map Netbuf.data ++ nbs.map Netbuf.data) := by
    rw [← List.map_append]
    exact hinv.counted
  refine ⟨⟨hcounted.lose, fun x hx => hinv.inside x (List.mem_append_right _ hx), ?_, hinv.fresh⟩,
    ⟨fun x hx => hkeep.bytes x (List.mem_append_right _ hx), rfl, Nat.le_refl _⟩⟩
  show (fnetNetbufFree h first).headers - others.length = nbs.length
  rw [hinv.headers]
  show (others ++ nbs).length - others.length = nbs.length
  rw [List.length_append, Nat.add_sub_cancel_left]

/-- A net_buf more, which describes a part of what `nb` does. -/
theorem NetbufInv.copyOf {nb : Netbuf} {n : Nat} (inv : NetbufInv lost h nbs) (copy : Netbuf)
    (hnb : nb ∈ nbs) (hn : h.asked ≤ n) (hdata : copy.data = nb.data)
    (hle : copy.off + copy.length ≤ nb.off + nb.length)
    (hr : h' = { h with asked := n, headers := h.headers + 1 }.shareData nb.data) :
    NetbufInv lost h' (copy :: nbs) ∧ Keeps h h' nbs ∧ copy.bytes h' = copy.bytes h := by
  obtain ⟨hinv, hbytes⟩ := (inv.asked n).copy hnb hdata hle
  subst hr
  exact ⟨hinv, ⟨fun x _ => hbytes x, rfl, hn⟩, hbytes copy⟩

/-- The copies behind the first one. -/
theorem copyLoop_some {drain : Bool} (c : List Netbuf) :
    ∀ {h : NetbufHeap} {totLen : Nat} {made : List Netbuf},
      NetbufInv lost h (made ++ nbs) → c ⊆ nbs →
      0 < totLen → totLen ≤ chainLength c → copyLoop h drain totLen made c = (some c', h') →
      ∃ copies, c' = made ++ copies ∧ NetbufInv lost h' (c' ++ nbs) ∧ Keeps h h' (made ++ nbs)
        ∧ chainBytes h' copies = (chainBytes h c).take totLen := by
  induction c with
  | nil => exact fun _ _ hpos hle => absurd hle (Nat.not_le_of_lt hpos)
  | cons nb rest ih =>
    intro h totLen made inv hsub hpos hle hr
    have hnb : nb ∈ made ++ nbs := List.mem_append_right _ (hsub (List.mem_cons_self ..))
    have hlen := inv.length_bytes hnb
    rw [chainLength] at hle
    rw [copyLoop] at hr
    cases hheader : h.newHeader drain with
    | mk ok h₁ =>
      rw [hheader] at hr
      cases ok with
      | false => cases hr
      | true =>
        obtain ⟨n, hn, rfl⟩ := newHeader_true hheader
        dsimp only at hr
        have hmin : (if (totLen : Int) - nb.length < 0
            then ((totLen : Int) - nb.length + nb.length).toNat else nb.length)
              = min totLen nb.length := by
          split
          next => omega
          next => omega
        rw [hmin] at hr
        -- the copy of `nb`
        generalize hcopy : (⟨nb.data, nb.off, min totLen nb.length, 0, nb.flags⟩ : Netbuf)
          = copy at hr
        have hdata : copy.data = nb.data := by rw [← hcopy]
        have hoff : copy.off = nb.off + 0 := by rw [← hcopy, Nat.add_zero]
        have hlength : copy.length = min totLen nb.length := by rw [← hcopy]
        obtain ⟨hinv, hkeep, hsame⟩ := inv.copyOf copy hnb hn hdata (by omega) rfl
        have hpiece : copy.bytes h = (nb.bytes h).take totLen := by
          rw [bytes_piece nb 0 hdata hoff (by omega), List.drop_zero, hlength, ← hlen,
            ← List.take_eq_take_min]
        have hplaced := hinv.perm List.perm_middle.symm
        rw [List.append_cons] at hplaced
        split at hr
        next hmore =>
          rw [show (totLen : Int) - nb.length = (totLen - nb.length : Nat) by omega] at hr
          obtain ⟨copies, rfl, hinv', hkeep', hbytes⟩ := ih hplaced
            (fun x hx => hsub (List.mem_cons_of_mem _ hx)) (by omega) (by omega) hr
          refine ⟨copy :: copies, List.append_assoc .., hinv',
            hkeep.trans (hkeep'.mono fun x hx => ?_), ?_⟩
          · rcases List.mem_append.mp hx with hx | hx
            · exact List.mem_append_left _ (List.mem_append_left _ hx)
            · exact List.mem_append_right _ hx
          · have hmem : copy ∈ made ++ [copy] ++ nbs :=
              List.mem_append_left _ (List.mem_append_right _ (List.mem_cons_self ..))
            rw [chainBytes_cons, chainBytes_cons, hkeep'.bytes copy hmem, hsame, hpiece, hbytes,
              List.take_append, hlen, hkeep.chainBytes fun x hx =>
                List.mem_append_right _ (hsub (List.mem_cons_of_mem _ hx))]
        next hlast =>
          obtain ⟨hc, rfl⟩ := Prod.mk.inj hr
          obtain rfl := Option.some.inj hc
          refine ⟨[copy], rfl, hplaced, hkeep, ?_⟩
          rw [chainBytes_singleton, hsame, hpiece, chainBytes_cons, List.take_append_of_le_length]
          omega

/-- When a copy is given up, the others are as they were; references may be lost. -/
theorem copyLoop_none {drain : Bool} (c : List Netbuf) :
    ∀ {h : NetbufHeap} {totLen : Nat} {made : List Netbuf},
      NetbufInv lost h (made ++ nbs) → c ⊆ nbs →
      0 < totLen → totLen ≤ chainLength c → made ≠ [] →
      copyLoop h drain totLen made c = (none, h') →
      ∃ gone : List Netbuf, NetbufInv (fun k => lost k + (gone.map Netbuf.data).count k) h' nbs
        ∧ Keeps h h' nbs ∧ Refused h h' := by
  induction c with
  | nil => exact fun _ _ hpos hle => absurd hle (Nat.not_le_of_lt hpos)
  | cons nb rest ih =>
    intro h totLen made inv hsub hpos hle hmade hr
    have hnb : nb ∈ made ++ nbs := List.mem_append_right _ (hsub (List.mem_cons_self ..))
    rw [chainLength] at hle
    rw [copyLoop] at hr
    cases hheader : h.newHeader drain with
    | mk ok h₁ =>
      rw [hheader] at hr
      cases ok with
      | false =>
        obtain ⟨-, rfl⟩ := Prod.mk.inj hr
        obtain ⟨n, hn, rfl, hrefused⟩ := newHeader_false hheader
        cases made with
        | nil => exact absurd rfl hmade
        | cons first others =>
          obtain ⟨hinv, hkeep⟩ := abandonCopies_spec (inv.asked n)
          exact ⟨others, hinv, (Keeps.of_asked hn).trans hkeep, hrefused.after hkeep⟩
      | true =>
        obtain ⟨n, hn, rfl⟩ := newHeader_true hheader
        dsimp only at hr
        split at hr
        next hmore =>
          generalize hcopy : (⟨nb.data, nb.off, _, 0, nb.flags⟩ : Netbuf) = copy at hr
          have hlength : copy.length = nb.length := by
            rw [← hcopy]
            exact if_neg (by omega)
          have hoff : copy.off = nb.off := by rw [← hcopy]
          obtain ⟨hinv, hkeep, -⟩ := inv.copyOf copy hnb hn (by rw [← hcopy]) (by omega) rfl
          have hplaced := hinv.perm List.perm_middle.symm
          rw [List.append_cons] at hplaced
          rw [show (totLen : Int) - nb.length = (totLen - nb.length : Nat) by omega] at hr
          obtain ⟨gone, hinv', hkeep', hrefused⟩ := ih hplaced
            (fun x hx => hsub (List.mem_cons_of_mem _ hx)) (by omega) (by omega)
            (List.append_ne_nil_of_right_ne_nil _ (List.cons_ne_nil _ _)) hr
          have hkept := hkeep.mono (List.subset_append_right made nbs)
          exact ⟨gone, hinv', hkept.trans hkeep', hrefused.before hkept⟩
        next => cases hr

/-- `fnet_netbuf_copy`: a chain of the bytes asked for, over the data buffers of the other. -/
theorem fnetNetbufCopy_some {offset : Nat} {len : CopyLen} {drain : Bool}
    (inv : NetbufInv lost h nbs) (hsub : c ⊆ nbs) (hlt : offset < chainLength c)
    (hr : fnetNetbufCopy h c offset len drain = (some c', h')) :
    NetbufInv lost h' (c' ++ nbs) ∧ Keeps h h' nbs ∧ TotalLength c'
      ∧ copiedBytes offset len (chainBytes h c) = some (chainBytes h' c') := by
  unfold fnetNetbufCopy at hr
  cases hlen : copyLen c offset len with
  | none => rw [hlen] at hr; cases hr
  | some l =>
    obtain ⟨total, rfl, hle, hcopied⟩ := copyLen_some inv hsub hlt hlen
    rw [hlen] at hr
    dsimp only at hr
    cases hheader : h.newHeader drain with
    | mk ok h₁ =>
      rw [hheader] at hr
      cases ok with
      | false => cases hr
      | true =>
        obtain ⟨n, hn, rfl⟩ := newHeader_true hheader
        obtain ⟨o, front, tmp, rest, hseek, rfl, rfl, ho⟩ := seek_some hlt
        rw [hseek] at hr
        dsimp only at hr
        have htmp : tmp ∈ nbs := hsub (List.mem_append_right _ (List.mem_cons_self ..))
        have htmpLength := inv.length_bytes htmp
        have hrest : rest ⊆ nbs := fun x hx =>
          hsub (List.mem_append_right _ (List.mem_cons_of_mem _ hx))
        have hleft :
            (total : Int) - ((tmp.length : Int) - o) ≤ 0 ↔ total ≤ tmp.length - o := by omega
        have hmin : (if (total : Int) - ((tmp.length : Int) - o) ≤ 0 then (total : Int).toNat
            else tmp.length - o) = min total (tmp.length - o) := by
          split
          next => omega
          next => omega
        rw [hmin] at hr
        -- the first net_buf of the copy
        generalize hcopy : (⟨tmp.data, tmp.off + o, min total (tmp.length - o), (total : Int).toNat,
          ((front ++ tmp :: rest).head?.map Netbuf.flags).getD 0⟩ : Netbuf) = copy at hr
        have hdata : copy.data = tmp.data := by rw [← hcopy]
        have hoff : copy.off = tmp.off + o := by rw [← hcopy]
        have hlength : copy.length = min total (tmp.length - o) := by rw [← hcopy]
        have htotal : copy.totalLength = total := by rw [← hcopy]; exact Int.toNat_natCast total
        obtain ⟨hinv, hkeep, hsame⟩ := inv.copyOf copy htmp hn hdata (by omega) rfl
        have hdropped : ((tmp.bytes h).drop o).length = tmp.length - o := by
          rw [List.length_drop, htmpLength]
        have hpiece : copy.bytes h = ((tmp.bytes h).drop o).take total := by
          rw [bytes_piece tmp o hdata hoff (by omega), hlength, ← hdropped, ← List.take_eq_take_min]
        rw [hcopied, drop_seek inv hsub ho, List.take_append, hdropped]
        rw [chainLength_append, chainLength] at hle
        split at hr
        next hone =>
          obtain ⟨hc, rfl⟩ := Prod.mk.inj hr
          obtain rfl := Option.some.inj hc
          refine ⟨hinv, hkeep, ?_, ?_⟩
          · rintro head hhead
            obtain rfl := Option.some.inj hhead
            show copy.totalLength = copy.length + 0
            omega
          · rw [chainBytes_singleton, hsame, hpiece, show total - (tmp.length - o) = 0 by omega,
              List.take_zero, List.append_nil]
        next hmore =>
          rw [show (total : Int) - ((tmp.length : Int) - o) = (total - (tmp.length - o) : Nat) by
            omega] at hr
          obtain ⟨copies, rfl, hinv', hkeep', hbytes⟩ := copyLoop_some rest hinv hrest (by omega)
            (by omega) hr
          have hall : chainBytes h' ([copy] ++ copies)
              = ((tmp.bytes h).drop o).take total
                ++ (chainBytes h rest).take (total - (tmp.length - o)) := by
            rw [chainBytes_append, chainBytes_singleton,
              hkeep'.bytes copy (List.mem_append_left _ (List.mem_cons_self ..)), hsame, hpiece,
              hbytes, hkeep.chainBytes hrest]
          refine ⟨hinv', hkeep.trans (hkeep'.mono (List.subset_append_right ..)), ?_,
            congrArg some hall.symm⟩
          rintro head hhead
          obtain rfl := Option.some.inj hhead
          rw [htotal, ← hinv'.length_chain, hall, List.length_append, List.length_take,
            List.length_take, hdropped, inv.length_chainBytes hrest]
          omega

/-- `fnet_netbuf_copy` gives nothing when it is asked for more than there is or when there is no
memory; then references may be lost. -/
theorem fnetNetbufCopy_none {offset : Nat} {len : CopyLen} {drain : Bool}
    (inv : NetbufInv lost h nbs) (hsub : c ⊆ nbs) (hlt : offset < chainLength c)
    (hr : fnetNetbufCopy h c offset len drain = (none, h')) :
    ∃ gone : List Netbuf, NetbufInv (fun k => lost k + (gone.map Netbuf.data).count k) h' nbs
      ∧ Keeps h h' nbs
      ∧ (copiedBytes offset len (chainBytes h c) = none ∧ gone = [] ∨ Refused h h') := by
  unfold fnetNetbufCopy at hr
  cases hlen : copyLen c offset len with
  | none =>
    rw [hlen] at hr
    obtain ⟨-, rfl⟩ := Prod.mk.inj hr
    exact ⟨[], inv, Keeps.refl h nbs, Or.inl ⟨copyLen_none inv hsub hlt hlen, rfl⟩⟩
  | some l =>
    obtain ⟨total, rfl, hle, -⟩ := copyLen_some inv hsub hlt hlen
    rw [hlen] at hr
    dsimp only at hr
    cases hheader : h.newHeader drain with
    | mk ok h₁ =>
      rw [hheader] at hr
      cases ok with
      | false =>
        obtain ⟨-, rfl⟩ := Prod.mk.inj hr
        obtain ⟨n, hn, rfl, hrefused⟩ := newHeader_false hheader
        exact ⟨[], inv.asked n, Keeps.of_asked hn, Or.inr hrefused⟩
      | true =>
        obtain ⟨n, hn, rfl⟩ := newHeader_true hheader
        obtain ⟨o, front, tmp, rest, hseek, rfl, rfl, ho⟩ := seek_some hlt
        rw [hseek] at hr
        dsimp only at hr
        have htmp : tmp ∈ nbs := hsub (List.mem_append_right _ (List.mem_cons_self ..))
        have hrest : rest ⊆ nbs := fun x hx =>
          hsub (List.mem_append_right _ (List.mem_cons_of_mem _ hx))
        rw [chainLength_append, chainLength] at hle
        split at hr
        next => cases hr
        next hmore =>
          rw [show (total : Int) - ((tmp.length : Int) - o) = (total - (tmp.length - o) : Nat) by
            omega] at hr
          generalize hcopy : (⟨tmp.data, tmp.off + o, tmp.length - o, (total : Int).toNat,
            ((front ++ tmp :: rest).head?.map Netbuf.flags).getD 0⟩ : Netbuf) = copy at hr
          have hlength : copy.length = tmp.length - o := by rw [← hcopy]
          have hoff : copy.off = tmp.off + o := by rw [← hcopy]
          obtain ⟨hinv, hkeep, -⟩ := inv.copyOf copy htmp hn (by rw [← hcopy]) (by omega) rfl
          obtain ⟨gone, hinv', hkeep', hrefused⟩ := copyLoop_none rest hinv hrest (by omega)
            (by omega) (List.cons_ne_nil _ _) hr
          exact ⟨gone, hinv', hkeep.trans hkeep', Or.inr (hrefused.before hkeep)⟩

end

end Datalogger
