import Datalogger.Net.NetbufSpec

/-!
# Chains of net_bufs as strings of bytes

What `fnet_netbuf_trim`, `fnet_netbuf_cut_center`, `fnet_netbuf_pullup` and
`fnet_netbuf_concat` make of the bytes of their chains: a piece is cut from the front, the end
or the middle, nothing changes but the pieces the bytes are in, two chains become one.
-/

namespace Datalogger

section

variable {lost : Nat → Nat} {h h' : NetbufHeap} {others c c' : List Netbuf}

theorem NetbufInv.subset_left (_ : NetbufInv lost h (c ++ others)) : c ⊆ c ++ others :=
  List.subset_append_left ..

theorem NetbufInv.length_chain (inv : NetbufInv lost h (c ++ others)) :
    (chainBytes h c).length = chainLength c :=
  inv.length_chainBytes inv.subset_left

/-- A net_buf of a chain is made shorter, and those behind it are to go. -/
theorem NetbufInv.cutMiddle {nb : Netbuf} {front rest : List Netbuf}
    (inv : NetbufInv lost h (front ++ nb :: rest ++ others)) (nb' : Netbuf)
    (hdata : nb'.data = nb.data)
    (hle : nb'.off + nb'.length ≤ nb.off + nb.length) :
    NetbufInv lost h (rest ++ (front ++ [nb'] ++ others)) := by
  have hinv : NetbufInv lost h (front ++ nb' :: (rest ++ others)) := by
    rw [List.append_assoc, List.cons_append] at inv
    exact inv.reshape_mid hdata hle
  refine hinv.perm ?_
  rw [List.append_cons, ← List.append_assoc, ← List.append_assoc rest]
  exact List.perm_append_comm.append_right others

/-! ## `fnet_netbuf_trim` -/

/-- The loop has freed net_bufs of `done` bytes when it comes to `c`. -/
theorem trimFrontLoop_spec {len : Nat} (c : List Netbuf) :
    ∀ {h : NetbufHeap} {done totLen : Nat}, NetbufInv lost h (c ++ others) → done ≤ len →
      trimFrontLoop len h (done + headLength c) c = (totLen, c', h') →
      NetbufInv lost h' (c' ++ others) ∧ Keeps h h' others
        ∧ ∃ done', done' ≤ len ∧ totLen = done' + headLength c' ∧ (c' ≠ [] → len < totLen)
          ∧ (chainBytes h c).drop (len - done) = (chainBytes h' c').drop (len - done') := by
  induction c with
  | nil =>
    intro h done totLen inv hdone hr
    obtain ⟨htot, hr⟩ := Prod.mk.inj hr
    obtain ⟨rfl, rfl⟩ := Prod.mk.inj hr
    exact ⟨inv, Keeps.refl h others, done, hdone, htot.symm, fun hne => absurd rfl hne, rfl⟩
  | cons nb rest ih =>
    intro h done totLen inv hdone hr
    rw [trimFrontLoop] at hr
    change (if done + nb.length ≤ len then _ else _) = _ at hr
    split at hr
    next hle =>
      -- the net_buf is cut whole
      obtain ⟨hinv, hkeep⟩ := inv.free
      change trimFrontLoop len _ (done + nb.length + headLength rest) rest = _ at hr
      obtain ⟨hinv', hkeep', done', hdone', htot, hlt, hbytes⟩ := ih hinv hle hr
      refine ⟨hinv', (hkeep.mono (List.subset_append_right ..)).trans hkeep', done', hdone', htot,
        hlt, ?_⟩
      rw [← hbytes, hkeep.chainBytes hinv.subset_left, chainBytes_cons, List.drop_append,
        inv.length_bytes (List.mem_cons_self ..), List.drop_of_length_le (by
          rw [inv.length_bytes (List.mem_cons_self ..)]
          omega), List.nil_append, Nat.sub_sub]
    next hlt =>
      obtain ⟨htot, hr⟩ := Prod.mk.inj hr
      obtain ⟨rfl, rfl⟩ := Prod.mk.inj hr
      exact ⟨inv, Keeps.refl h others, done, hdone, htot.symm,
        fun _ => htot ▸ Nat.lt_of_not_le hlt, rfl⟩

/-- Cutting at the front drops bytes. -/
theorem trimFront_spec {len : Nat} {head : Netbuf} {next : List Netbuf}
    (inv : NetbufInv lost h (head :: next ++ others)) (hle : len ≤ head.totalLength)
    (hr : trimFront h len (head :: next) = (c', h')) :
    NetbufInv lost h' (c' ++ others) ∧ Keeps h h' others
      ∧ chainBytes h' c' = (chainBytes h (head :: next)).drop len
      ∧ ∀ head' ∈ c'.head?, head'.totalLength = head.totalLength - len := by
  rw [trimFront, if_neg (by omega)] at hr
  cases hloop : trimFrontLoop len h head.length (head :: next) with
  | mk totLen r =>
    obtain ⟨found, h₁⟩ := r
    rw [hloop] at hr
    rw [← Nat.zero_add head.length] at hloop
    obtain ⟨hinv, hkeep, done, hdone, htot, hlt, hbytes⟩ := trimFrontLoop_spec (head :: next) inv
      (Nat.zero_le len) hloop
    rw [Nat.sub_zero] at hbytes
    cases found with
    | nil =>
      obtain ⟨rfl, rfl⟩ := Prod.mk.inj hr
      refine ⟨hinv, hkeep, ?_, nofun⟩
      rw [hbytes]
      exact List.drop_nil.symm
    | cons nb rest =>
      obtain ⟨rfl, rfl⟩ := Prod.mk.inj hr
      have hlt := hlt (List.cons_ne_nil _ _)
      change totLen = done + nb.length at htot
      -- the loop has cut `done` bytes; the others go from the front of `nb`
      have hskip : nb.length - (totLen - len) = len - done := by omega
      refine ⟨hinv.reshape _ rfl ?_, hkeep, ?_, ?_⟩
      · show nb.off + (nb.length - (totLen - len)) + (totLen - len) ≤ nb.off + nb.length
        omega
      · have hlen := hinv.length_bytes (List.mem_cons_self ..)
        have hpiece : len - done + (totLen - len) ≤ nb.length := by omega
        rw [hskip, hbytes, chainBytes_cons, chainBytes_cons,
          List.drop_append_of_le_length (by omega)]
        refine congrArg (· ++ _) ?_
        refine Eq.trans (bytes_piece nb (len - done) rfl rfl hpiece) ?_
        refine List.take_of_length_le ?_
        rw [List.length_drop, hlen]
        show nb.length - (len - done) ≤ totLen - len
        omega
      · rintro head' hhead
        obtain rfl := Option.some.inj hhead
        rfl

/-- The net_bufs in front of the one in which the chain will end. -/
theorem trimEndSplit_spec {target : Nat} {front back : List Netbuf} (c : List Netbuf) :
    ∀ {done totLen : Nat}, trimEndSplit target (done + headLength c) c = (totLen, front, back) →
      c = front ++ back ∧ totLen = done + chainLength front + headLength back
        ∧ (front ≠ [] → done + chainLength front < target) ∧ (back ≠ [] → target ≤ totLen)
        ∧ (back = [] → c ≠ [] → done + chainLength c < target) := by
  induction c generalizing front with
  | nil =>
    intro done totLen hr
    obtain ⟨htot, hr⟩ := Prod.mk.inj hr
    obtain ⟨rfl, rfl⟩ := Prod.mk.inj hr
    exact ⟨rfl, htot.symm, fun hne => absurd rfl hne, fun hne => absurd rfl hne,
      fun _ hne => absurd rfl hne⟩
  | cons nb rest ih =>
    intro done totLen hr
    rw [trimEndSplit] at hr
    change (if done + nb.length < target then _ else _) = _ at hr
    split at hr
    next hlt =>
      cases hrec : trimEndSplit target (done + nb.length + headLength rest) rest with
      | mk tot r =>
        obtain ⟨front', back'⟩ := r
        change ((trimEndSplit target (done + nb.length + headLength rest) rest).1,
          nb :: (trimEndSplit target (done + nb.length + headLength rest) rest).2.1,
          (trimEndSplit target (done + nb.length + headLength rest) rest).2.2) = _ at hr
        rw [hrec] at hr
        dsimp only at hr
        obtain ⟨htot, hr⟩ := Prod.mk.inj hr
        obtain ⟨rfl, rfl⟩ := Prod.mk.inj hr
        obtain ⟨hsplit, htot', hfront, hback, hend⟩ := ih hrec
        refine ⟨congrArg (nb :: ·) hsplit, ?_, fun _ => ?_, fun hne => htot ▸ hback hne,
          fun hnil _ => ?_⟩
        · rw [← htot, htot', chainLength]
          omega
        · rw [chainLength]
          by_cases hnil : front' = []
          · subst hnil
            exact hlt
          · have := hfront hnil
            omega
        · rw [chainLength]
          by_cases hrest : rest = []
          · subst hrest
            exact hlt
          · have := hend hnil hrest
            omega
    next hge =>
      obtain ⟨htot, hr⟩ := Prod.mk.inj hr
      obtain ⟨rfl, rfl⟩ := Prod.mk.inj hr
      refine ⟨rfl, ?_, fun hne => absurd rfl hne, fun _ => htot ▸ Nat.le_of_not_lt hge,
        fun hnil => absurd hnil (List.cons_ne_nil _ _)⟩
      rw [← htot]
      rfl

/-- Cutting at the end keeps the first bytes. -/
theorem trimEnd_spec {cut : Nat} {head : Netbuf} {next : List Netbuf}
    (inv : NetbufInv lost h (head :: next ++ others)) (htotal : TotalLength (head :: next))
    (hle : cut ≤ head.totalLength) (hr : trimEnd h cut (head :: next) = (c', h')) :
    NetbufInv lost h' (c' ++ others) ∧ Keeps h h' others
      ∧ chainBytes h' c' = (chainBytes h (head :: next)).take (head.totalLength - cut)
      ∧ TotalLength c' := by
  have htotal : head.totalLength = chainLength (head :: next) := htotal head rfl
  rw [trimEnd, if_neg (by omega)] at hr
  cases hloop : trimEndSplit (head.totalLength - cut) head.length (head :: next) with
  | mk totLen r =>
    obtain ⟨front, back⟩ := r
    rw [hloop] at hr
    rw [← Nat.zero_add head.length] at hloop
    obtain ⟨hsplit, htot, hfront, hback, hend⟩ := trimEndSplit_spec (head :: next) hloop
    cases back with
    | nil =>
      have := hend rfl (List.cons_ne_nil _ _)
      omega
    | cons nb rest =>
      have hback := hback (List.cons_ne_nil _ _)
      change totLen = 0 + chainLength front + nb.length at htot
      rw [hsplit] at inv htotal ⊢
      -- what is left of `nb`, and what comes after it
      have hkept : nb.length + (head.totalLength - cut) - totLen
          = head.totalLength - cut - chainLength front := by omega
      have hfits : chainLength front ≤ head.totalLength - cut := by
        by_cases hnil : front = []
        · subst hnil
          exact Nat.zero_le _
        · have := hfront hnil
          omega
      have hbytes : (chainBytes h (front ++ nb :: rest)).take (head.totalLength - cut)
          = chainBytes h front
            ++ (nb.bytes h).take (head.totalLength - cut - chainLength front) := by
        have hnb := inv.length_bytes (List.mem_append_left others
          (List.mem_append_right front (List.mem_cons_self ..)))
        have hlen := inv.length_chainBytes (c := front) fun x hx =>
          List.mem_append_left _ (List.mem_append_left _ hx)
        rw [chainBytes_append, chainBytes_cons, List.take_append, hlen,
          List.take_of_length_le (by omega), List.take_append_of_le_length (by omega)]
      dsimp only at hr
      rw [hkept] at hr
      have hcut := inv.cutMiddle { nb with length := head.totalLength - cut - chainLength front }
        rfl (show nb.off + (head.totalLength - cut - chainLength front)
          ≤ nb.off + nb.length by omega)
      obtain ⟨hinv, hkeep⟩ := hcut.freeChain
      split at hr
      next hzero =>
        obtain ⟨rfl, rfl⟩ := Prod.mk.inj hr
        -- only the first net_buf can be cut to nothing: the loop would have stopped before
        have hnil : front = [] := by
          refine Classical.byContradiction fun hne => ?_
          have := hfront hne
          change head.totalLength - cut - chainLength front = 0 at hzero
          omega
        subst hnil
        obtain ⟨hinv', hkeep'⟩ := hinv.free
        refine ⟨hinv', (hkeep.mono (List.subset_append_right ..)).trans hkeep', ?_, nofun⟩
        change head.totalLength - cut - 0 = 0 at hzero
        rw [Nat.sub_zero] at hzero
        rw [hzero, List.take_zero]
        rfl
      next hpos =>
        obtain ⟨rfl, rfl⟩ := Prod.mk.inj hr
        refine ⟨hinv.renumber _, hkeep.mono (List.subset_append_right ..), ?_,
          totalLength_setTotalLength ?_⟩
        · rw [chainBytes_setTotalLength, hkeep.chainBytes hinv.subset_left, chainBytes_append,
            chainBytes_singleton, hbytes, ← List.drop_zero (l := nb.bytes h)]
          refine congrArg (chainBytes h front ++ ·) (bytes_piece nb 0 rfl rfl ?_)
          show 0 + (head.totalLength - cut - chainLength front) ≤ nb.length
          omega
        · rw [chainLength_append]
          show chainLength front + (head.totalLength - cut - chainLength front + 0) = _
          omega

/-- What `fnet_netbuf_trim` makes of a string of bytes. -/
def trimBytes (len : Int) (s : List UInt8) : List UInt8 :=
  if s.length < len.natAbs then s
  else if 0 < len then s.drop len.toNat
  else s.take (s.length - (-len).toNat)

/-- A chain's bytes are as many as its first net_buf is told. -/
theorem NetbufInv.renumbered {n : Nat} (inv : NetbufInv lost h (c ++ others))
    (hn : (chainBytes h c).length = n) : TotalLength (setTotalLength n c) :=
  totalLength_setTotalLength (inv.length_chain.symm.trans hn)

/-- `fnet_netbuf_trim`: cuts at the front or at the end, but never more than there is. -/
theorem fnetNetbufTrim_spec {len : Int} {head : Netbuf} {next : List Netbuf}
    (inv : NetbufInv lost h (head :: next ++ others)) (htotal : TotalLength (head :: next))
    (hr : fnetNetbufTrim h (head :: next) len = (c', h')) :
    NetbufInv lost h' (c' ++ others) ∧ Keeps h h' others
      ∧ chainBytes h' c' = trimBytes len (chainBytes h (head :: next)) ∧ TotalLength c' := by
  have hlength : (chainBytes h (head :: next)).length = head.totalLength :=
    inv.length_chain.trans (htotal head rfl).symm
  unfold fnetNetbufTrim at hr
  unfold trimBytes
  rw [hlength]
  by_cases hzero : len = 0
  · rw [if_pos hzero] at hr
    obtain ⟨rfl, rfl⟩ := Prod.mk.inj hr
    refine ⟨inv, Keeps.refl h others, ?_, htotal⟩
    rw [if_neg (by omega), if_neg (by omega), List.take_of_length_le (by omega)]
  · rw [if_neg hzero] at hr
    by_cases hmuch : head.totalLength < len.natAbs
    · -- more than there is is not cut
      have hsame : (head :: next, h) = (c', h') := by
        split at hr
        next => rwa [trimFront, if_pos (by omega)] at hr
        next => rwa [trimEnd, if_pos (by omega)] at hr
      obtain ⟨rfl, rfl⟩ := Prod.mk.inj hsame
      rw [if_pos hmuch]
      exact ⟨inv, Keeps.refl h others, rfl, htotal⟩
    · rw [if_neg hmuch]
      by_cases hpos : 0 < len
      · rw [if_pos hpos] at hr ⊢
        obtain ⟨hinv, hkeep, hbytes, hheads⟩ := trimFront_spec inv (by omega) hr
        refine ⟨hinv, hkeep, hbytes, fun head' hhead' => ?_⟩
        rw [hheads head' hhead', ← hinv.length_chain, hbytes, List.length_drop, hlength]
      · rw [if_neg hpos] at hr ⊢
        exact trimEnd_spec inv htotal (by omega) hr

/-! ## `fnet_netbuf_cut_center` -/

/-- The order of two chains in front of the others does not matter. -/
theorem NetbufInv.swap {a b : List Netbuf} (inv : NetbufInv lost h (a ++ b ++ others)) :
    NetbufInv lost h (b ++ (a ++ others)) :=
  inv.perm (by
    rw [← List.append_assoc]
    exact List.perm_append_comm.append_right others)

theorem NetbufInv.unswap {a b : List Netbuf} (inv : NetbufInv lost h (b ++ (a ++ others))) :
    NetbufInv lost h (a ++ b ++ others) :=
  inv.perm (by
    rw [← List.append_assoc]
    exact List.perm_append_comm.append_right others)

/-- The loop of `fnet_netbuf_cut_center` stops where the one of `fnet_netbuf_trim` does. -/
theorem cutSplit_eq (offset : Nat) (c : List Netbuf) :
    ∀ totLen, cutSplit offset totLen c = trimEndSplit (offset + 1) totLen c := by
  induction c with
  | nil => exact fun _ => rfl
  | cons nb rest ih =>
    intro totLen
    rw [cutSplit, trimEndSplit, ih]
    by_cases hle : totLen ≤ offset
    · rw [if_pos hle, if_pos (Nat.lt_succ_of_le hle)]
    · rw [if_neg hle, if_neg (by omega)]

/-- What `fnet_netbuf_cut_center` makes of a string of bytes. -/
def cutBytes (offset len : Nat) (s : List UInt8) : List UInt8 :=
  if s.length < len + offset then s else s.take offset ++ s.drop (offset + len)

/-- Bytes that are moved down over a gap. -/
theorem closeGap (buffer : List UInt8) {off o len l : Nat} (hinside : off + l ≤ buffer.length)
    (hgap : o + len ≤ l) (moved : List UInt8)
    (hmoved : moved = (buffer.drop (off + o + len)).take (l - o - len)) :
    ((buffer.take (off + o) ++ moved ++
        buffer.drop (off + o + moved.length)).drop off).take (l - len)
      = ((buffer.drop off).take l).take o ++ ((buffer.drop off).take l).drop (o + len) := by
  have hlen : moved.length = l - o - len := by
    rw [hmoved, List.length_take, List.length_drop]
    omega
  have hkept : (buffer.take (off + o)).drop off = (buffer.drop off).take o := by
    rw [List.drop_take, Nat.add_sub_cancel_left]
  have hrest : ((buffer.drop off).take l).drop (o + len) = moved := by
    rw [List.drop_take, List.drop_drop, hmoved, Nat.add_assoc, Nat.sub_sub]
  have htaken : ((buffer.drop off).take o).length = o := by
    rw [List.length_take, List.length_drop]
    omega
  rw [hrest, List.take_take, Nat.min_eq_left (by omega), List.append_assoc,
    List.drop_append_of_le_length (by rw [List.length_take]; omega), hkept, ← List.append_assoc,
    List.take_left' (by rw [List.length_append, htaken, hlen]; omega)]

section

variable {nb : Netbuf} {front rest : List Netbuf} {o : Nat}

/-- The bytes of a chain, seen from one of its net_bufs. -/
theorem chainBytes_mid (nb : Netbuf) (front rest : List Netbuf) :
    chainBytes h (front ++ nb :: rest)
      = chainBytes h front ++ (nb.bytes h ++ chainBytes h rest) := by
  rw [chainBytes_append, chainBytes_cons]

theorem NetbufInv.length_front (inv : NetbufInv lost h (front ++ nb :: rest ++ others)) :
    (chainBytes h front).length = chainLength front :=
  inv.length_chainBytes fun _ hx => List.mem_append_left _ (List.mem_append_left _ hx)

theorem NetbufInv.length_mid (inv : NetbufInv lost h (front ++ nb :: rest ++ others)) :
    (nb.bytes h).length = nb.length :=
  inv.length_bytes (List.mem_append_left _ (List.mem_append_right _ (List.mem_cons_self ..)))

/-- A cut that starts `o` bytes into the net_buf `nb`. -/
theorem cutBytes_mid {offset : Nat} (len : Nat)
    (inv : NetbufInv lost h (front ++ nb :: rest ++ others))
    (hoffset : offset = chainLength front + o) (ho : o ≤ nb.length)
    (hle : len + offset ≤ chainLength (front ++ nb :: rest)) :
    cutBytes offset len (chainBytes h (front ++ nb :: rest))
      = chainBytes h front ++ ((nb.bytes h).take o
        ++ ((nb.bytes h).drop (o + len) ++ (chainBytes h rest).drop (o + len - nb.length))) := by
  have hfront := inv.length_front
  have hnb := inv.length_mid
  rw [cutBytes, if_neg (by rw [inv.length_chain]; omega), chainBytes_mid, hoffset, ← hfront,
    List.take_length_add_append, Nat.add_assoc, List.drop_length_add_append,
    List.take_append_of_le_length (by omega), List.drop_append, hnb, List.append_assoc]

/-- Making `nb` shorter. -/
theorem NetbufInv.shorten {n : Nat} (inv : NetbufInv lost h (front ++ nb :: rest ++ others))
    (hn : n ≤ nb.length) :
    NetbufInv lost h (front ++ { nb with length := n } :: rest ++ others)
      ∧ Netbuf.bytes h { nb with length := n } = (nb.bytes h).take n := by
  rw [List.append_assoc, List.cons_append] at inv ⊢
  refine ⟨inv.reshape_mid rfl (Nat.add_le_add_left hn _), ?_⟩
  exact bytes_piece nb 0 rfl rfl (by rw [Nat.zero_add]; exact hn)

/-- `nb` and all behind it. -/
theorem cutFromNetbuf_spec {len total : Nat}
    (inv : NetbufInv lost h (front ++ nb :: rest ++ others)) (hle : len ≤ total)
    (hr : fnetNetbufTrim h ({ nb with totalLength := total } :: rest) len = (c', h'))
    (hpos : 0 < len) :
    NetbufInv lost h' (front ++ c' ++ others) ∧ Keeps h h' others
      ∧ chainBytes h' (front ++ c')
        = chainBytes h front ++ (nb.bytes h ++ chainBytes h rest).drop len := by
  -- to `fnet_netbuf_trim` the net_bufs in front are others
  have hinv : NetbufInv lost h ({ nb with totalLength := total } :: rest ++ (front ++ others)) := by
    have hswap := inv.swap
    rw [List.cons_append] at hswap ⊢
    exact hswap.reshape _ rfl (Nat.le_refl _)
  rw [fnetNetbufTrim, if_neg (by omega), if_pos (by omega), Int.toNat_natCast] at hr
  obtain ⟨hinv', hkeep, hbytes, -⟩ := trimFront_spec hinv hle hr
  refine ⟨hinv'.unswap, hkeep.mono (List.subset_append_right ..), ?_⟩
  rw [chainBytes_append, hkeep.chainBytes (List.subset_append_left ..), hbytes, chainBytes_cons]
  rfl

/-- The end of `nb`, and net_bufs behind it. -/
theorem cutThroughNetbuf_spec {len total : Nat}
    (inv : NetbufInv lost h (front ++ nb :: rest ++ others)) (ho : o ≤ nb.length)
    (hle : len ≤ total) (hpos : 0 < len) (hlen : len ≤ chainLength rest)
    (hr : fnetNetbufTrim h (setTotalLength total rest) len = (c', h')) :
    NetbufInv lost h' (front ++ { nb with length := o } :: c' ++ others) ∧ Keeps h h' others
      ∧ chainBytes h' (front ++ { nb with length := o } :: c')
        = chainBytes h front ++ ((nb.bytes h).take o ++ (chainBytes h rest).drop len) := by
  cases rest with
  | nil => exact absurd hlen (Nat.not_le_of_lt hpos)
  | cons next rest =>
    have hcut := inv.cutMiddle { nb with length := o } rfl (Nat.add_le_add_left ho _)
    have hinv := hcut.renumber total
    rw [fnetNetbufTrim, if_neg (by omega), if_pos (by omega), Int.toNat_natCast] at hr
    obtain ⟨hinv', hkeep, hbytes, -⟩ := trimFront_spec hinv hle hr
    have hall := hinv'.unswap
    rw [List.append_assoc front] at hall
    refine ⟨hall, hkeep.mono (List.subset_append_right ..), ?_⟩
    have hfront : chainBytes h' (front ++ [{ nb with length := o }])
        = chainBytes h front ++ (nb.bytes h).take o := by
      rw [hkeep.chainBytes (List.subset_append_left ..), chainBytes_append, chainBytes_singleton,
        inv.shorten ho |>.2]
    rw [List.append_cons, chainBytes_append, hfront, hbytes, List.append_assoc]
    rfl

/-- Inside `nb`, when no other net_buf has a piece of its data buffer. -/
theorem cutInPlace_spec {len : Nat} {moved : List UInt8}
    (inv : NetbufInv lost h (front ++ nb :: rest ++ others)) (hone : h.cells.refsAt nb.data = 1)
    (hle : o + len ≤ nb.length)
    (hmoved : moved = (((h.cells.valueAt nb.data).getD []).drop (nb.off + o + len)).take
      (nb.length - o - len))
    (hr : h' = h.fillData nb.data (((h.cells.valueAt nb.data).getD []).take (nb.off + o) ++ moved
      ++ ((h.cells.valueAt nb.data).getD []).drop (nb.off + o + moved.length))) :
    NetbufInv lost h' (front ++ { nb with length := nb.length - len } :: rest ++ others)
      ∧ Keeps h h' others
      ∧ chainBytes h' (front ++ { nb with length := nb.length - len } :: rest)
        = chainBytes h front
          ++ ((nb.bytes h).take o ++ ((nb.bytes h).drop (o + len) ++ chainBytes h rest)) := by
  obtain ⟨buffer, hbuffer, hinside⟩ := inv.inside nb
    (List.mem_append_left _ (List.mem_append_right _ (List.mem_cons_self ..)))
  rw [hbuffer, Option.getD_some] at hmoved hr
  have hfocus : NetbufInv lost h (nb :: (front ++ (rest ++ others))) := by
    rw [List.append_assoc, List.cons_append] at inv
    exact inv.perm List.perm_middle
  -- with one reference no other net_buf sees the bytes move
  have halone := hfocus.counted.not_mem_of_refs_one hone
  have hsize : nb.off + nb.length
      ≤ (buffer.take (nb.off + o) ++ moved ++ buffer.drop (nb.off + o + moved.length)).length := by
    have : moved.length = nb.length - o - len := by
      rw [hmoved, List.length_take, List.length_drop]
      omega
    rw [List.length_append, List.length_append, List.length_take, List.length_drop]
    omega
  obtain ⟨hinv, hkeep, hbytes⟩ := hfocus.fill halone _ hsize
  rw [← hr] at hinv hkeep hbytes
  have hinv' : NetbufInv lost h' (front ++ nb :: rest ++ others) := by
    rw [List.append_assoc, List.cons_append]
    exact hinv.perm List.perm_middle.symm
  obtain ⟨hshort, hpiece⟩ := hinv'.shorten (Nat.sub_le nb.length len)
  refine ⟨hshort, hkeep.mono fun x hx => ?_, ?_⟩
  · exact List.mem_append_right _ (List.mem_append_right _ hx)
  · rw [chainBytes_mid, hkeep.chainBytes (List.subset_append_left ..),
      hkeep.chainBytes fun x hx => List.mem_append_right _ (List.mem_append_left _ hx), hpiece,
      hbytes,
      List.take_take, Nat.min_eq_left (Nat.sub_le ..), closeGap buffer hinside hle moved hmoved,
      List.append_assoc (List.take ..)]
    rw [Netbuf.bytes, hbuffer]
    rfl

/-- Inside `nb`, when others have pieces of its data buffer: what is behind the cut goes to a new
net_buf. -/
theorem cutSplitNew_spec {len n : Nat} {tail : Netbuf} {h₁ : NetbufHeap}
    (inv : NetbufInv lost h (front ++ nb :: rest ++ others)) (hle : o + len + n = nb.length)
    (hnew : fnetNetbufNew h n false = (some tail, h₁))
    (hr : h' = h₁.fillData tail.data (((nb.bytes h₁).drop (o + len)).take n)) :
    NetbufInv lost h' (front ++ { nb with length := o } :: tail :: rest ++ others)
      ∧ Keeps h h' others
      ∧ chainBytes h' (front ++ { nb with length := o } :: tail :: rest)
        = chainBytes h front
          ++ ((nb.bytes h).take o ++ ((nb.bytes h).drop (o + len) ++ chainBytes h rest)) := by
  obtain ⟨hinv, hkeep, halone, hoff, htail, -⟩ := fnetNetbufNew_some inv hnew
  have hmem : nb ∈ front ++ nb :: rest ++ others :=
    List.mem_append_left _ (List.mem_append_right _ (List.mem_cons_self ..))
  have hnb := inv.length_mid
  have hwhole : ((nb.bytes h).drop (o + len)).take n = (nb.bytes h).drop (o + len) :=
    List.take_of_length_le (by rw [List.length_drop]; omega)
  rw [hkeep.bytes nb hmem, hwhole] at hr
  obtain ⟨hinv', hkeep', hbytes⟩ := hinv.fill halone ((nb.bytes h).drop (o + len)) (by
    rw [List.length_drop, hoff, htail]
    omega)
  rw [← hr] at hinv' hkeep' hbytes
  -- the new data buffer is in no other net_buf, so that filling it changes none
  have hboth := hkeep.trans hkeep'
  have htailBytes : tail.bytes h' = (nb.bytes h).drop (o + len) := by
    rw [hbytes, hoff, htail, List.drop_zero, hwhole]
  have hplaced : NetbufInv lost h' (front ++ nb :: (tail :: rest) ++ others) := by
    rw [List.append_cons, List.append_assoc, List.cons_append]
    refine hinv'.perm ?_
    rw [List.append_cons, List.append_assoc (front ++ [nb])]
    exact List.perm_middle.symm
  obtain ⟨hshort, hpiece⟩ := hplaced.shorten (show o ≤ nb.length by omega)
  refine ⟨hshort, hboth.mono (List.subset_append_right ..), ?_⟩
  rw [chainBytes_mid, chainBytes_cons, hpiece, htailBytes, hboth.bytes nb hmem,
    hboth.chainBytes fun x hx => List.mem_append_left _ (List.mem_append_left _ hx),
    hboth.chainBytes fun x hx =>
      List.mem_append_left _ (List.mem_append_right _ (List.mem_cons_of_mem _ hx))]

end

/-- `fnet_netbuf_cut_center`: the bytes from `offset` on go, or nothing, when there are fewer or
there is no memory for another net_buf. -/
theorem fnetNetbufCutCenter_spec {offset len : Nat} {head : Netbuf} {next : List Netbuf}
    {ret : Bool}
    (inv : NetbufInv lost h (head :: next ++ others)) (htotal : TotalLength (head :: next))
    (hr : fnetNetbufCutCenter h (head :: next) offset len = (ret, c', h')) :
    NetbufInv lost h' (c' ++ others) ∧ Keeps h h' others ∧ TotalLength c'
      ∧ (chainBytes h' c' = cutBytes offset len (chainBytes h (head :: next))
        ∨ chainBytes h' c' = chainBytes h (head :: next) ∧ Refused h h') := by
  have hlength := inv.length_chain
  have hhead : head.totalLength = chainLength (head :: next) := htotal head rfl
  unfold fnetNetbufCutCenter at hr
  dsimp only at hr
  -- in the cases left, the new chain has its bytes from the cut
  have done : ∀ {c'' : List Netbuf}, len + offset ≤ head.totalLength →
      NetbufInv lost h' (c'' ++ others) →
      chainBytes h' c'' = cutBytes offset len (chainBytes h (head :: next)) →
      NetbufInv lost h' (setTotalLength (head.totalLength - len) c'' ++ others)
        ∧ TotalLength (setTotalLength (head.totalLength - len) c'')
        ∧ chainBytes h' (setTotalLength (head.totalLength - len) c'')
          = cutBytes offset len (chainBytes h (head :: next)) := by
    intro c'' hle hinv hbytes
    refine ⟨hinv.renumber _, hinv.renumbered ?_, (chainBytes_setTotalLength _ _).trans hbytes⟩
    rw [hbytes, cutBytes, if_neg (by omega), List.length_append, List.length_take, List.length_drop]
    omega
  by_cases hzero : len = 0
  · rw [if_pos hzero] at hr
    obtain ⟨-, hr⟩ := Prod.mk.inj hr
    obtain ⟨rfl, rfl⟩ := Prod.mk.inj hr
    refine ⟨inv, Keeps.refl h others, htotal, Or.inl ?_⟩
    rw [cutBytes, hzero, Nat.add_zero, List.take_append_drop, ite_self]
  rw [if_neg hzero] at hr
  by_cases hmuch : head.totalLength < len + offset
  · rw [if_pos hmuch] at hr
    obtain ⟨-, hr⟩ := Prod.mk.inj hr
    obtain ⟨rfl, rfl⟩ := Prod.mk.inj hr
    refine ⟨inv, Keeps.refl h others, htotal, Or.inl ?_⟩
    rw [cutBytes, if_pos (by omega)]
  rw [if_neg hmuch] at hr
  -- from the beginning of the chain
  by_cases hfront : offset = 0
  · rw [if_pos hfront] at hr
    obtain ⟨-, hr⟩ := Prod.mk.inj hr
    obtain ⟨hinv, hkeep, hbytes, htotal'⟩ := fnetNetbufTrim_spec inv htotal hr
    refine ⟨hinv, hkeep, htotal', Or.inl ?_⟩
    rw [hbytes, trimBytes, if_neg (by omega), if_pos (by omega), cutBytes, if_neg (by omega),
      hfront, List.take_zero, Nat.zero_add, Int.toNat_natCast]
    rfl
  rw [if_neg hfront, ← Nat.zero_add head.length, cutSplit_eq] at hr
  cases hloop : trimEndSplit (offset + 1) (0 + head.length) (head :: next) with
  | mk totLen r =>
    obtain ⟨front, back⟩ := r
    rw [hloop] at hr
    obtain ⟨hsplit, htot, hin, hback, hend⟩ := trimEndSplit_spec (head :: next) hloop
    cases back with
    | nil =>
      have := hend rfl (List.cons_ne_nil _ _)
      omega
    | cons nb rest =>
      have hback := hback (List.cons_ne_nil _ _)
      change totLen = 0 + chainLength front + nb.length at htot
      rw [hsplit] at inv hhead done hlength ⊢
      have hbefore : chainLength front ≤ offset := by
        by_cases hnil : front = []
        · subst hnil
          exact Nat.zero_le _
        · have := hin hnil
          omega
      -- `o`: where the cut starts in `nb`
      obtain ⟨o, ho⟩ := Nat.exists_eq_add_of_le hbefore
      have hchain : head.totalLength = chainLength front + (nb.length + chainLength rest) := by
        rw [hhead, chainLength_append, chainLength]
      have hcut := cutBytes_mid len inv ho (by omega) (by omega)
      have hnb := inv.length_mid
      have hkept : nb.length - (totLen - offset) = o := by omega
      dsimp only at hr
      -- from the beginning of `nb`
      by_cases hstart : totLen - nb.length = offset
      · rw [if_pos hstart] at hr
        cases htrim : fnetNetbufTrim h
          ({ nb with totalLength := head.totalLength } :: rest) len with
        | mk found h₁ =>
          rw [htrim] at hr
          obtain ⟨-, hr⟩ := Prod.mk.inj hr
          obtain ⟨rfl, rfl⟩ := Prod.mk.inj hr
          obtain ⟨hinv, hkeep, hbytes⟩ := cutFromNetbuf_spec inv (by omega) htrim (by omega)
          have hzero : o = 0 := by omega
          obtain ⟨hinv', htotal', hbytes'⟩ := done (by omega) hinv (by
            rw [hbytes, hcut, hzero, List.take_zero, Nat.zero_add, List.drop_append, hnb]
            rfl)
          exact ⟨hinv', hkeep, htotal', Or.inl hbytes'⟩
      rw [if_neg hstart] at hr
      -- inside `nb`: in place if nothing else has a piece of its data buffer
      by_cases hinside : len < totLen - offset
      · have hrest : totLen - offset - len = nb.length - o - len := by omega
        have hnone : o + len - nb.length = 0 := by omega
        rw [hnone, List.drop_zero] at hcut
        rw [if_pos hinside, hkept, hrest] at hr
        by_cases hone : h.cells.refsAt nb.data = 1
        · rw [if_pos hone] at hr
          obtain ⟨-, hr⟩ := Prod.mk.inj hr
          obtain ⟨rfl, hheap⟩ := Prod.mk.inj hr
          obtain ⟨hinv, hkeep, hbytes⟩ := cutInPlace_spec inv hone (by omega) rfl hheap.symm
          obtain ⟨hinv', htotal', hbytes'⟩ := done (by omega) hinv (hbytes.trans hcut.symm)
          exact ⟨hinv', hkeep, htotal', Or.inl hbytes'⟩
        · rw [if_neg hone] at hr
          cases hnew : fnetNetbufNew h (nb.length - o - len : Nat) false with
          | mk made h₁ =>
            rw [hnew] at hr
            cases made with
            | none =>
              obtain ⟨-, hr⟩ := Prod.mk.inj hr
              obtain ⟨rfl, rfl⟩ := Prod.mk.inj hr
              obtain ⟨hinv, hkeep, hrefused⟩ := fnetNetbufNew_none inv hnew
              rw [hsplit] at htotal ⊢
              exact ⟨hinv, hkeep.mono (List.subset_append_right ..), htotal,
                Or.inr ⟨hkeep.chainBytes (List.subset_append_left ..), hrefused⟩⟩
            | some tail =>
              obtain ⟨-, hr⟩ := Prod.mk.inj hr
              obtain ⟨rfl, hheap⟩ := Prod.mk.inj hr
              obtain ⟨hinv, hkeep, hbytes⟩ := cutSplitNew_spec inv (by omega) hnew hheap.symm
              obtain ⟨hinv', htotal', hbytes'⟩ := done (by omega) hinv (hbytes.trans hcut.symm)
              exact ⟨hinv', hkeep, htotal', Or.inl hbytes'⟩
      rw [if_neg hinside] at hr
      have hdropped : (nb.bytes h).drop (o + len) = [] := List.drop_of_length_le (by omega)
      rw [hdropped, List.nil_append] at hcut
      -- up to the end of `nb`, or into those behind it
      by_cases hend : totLen - offset = len
      · rw [if_pos hend] at hr
        obtain ⟨-, hr⟩ := Prod.mk.inj hr
        obtain ⟨rfl, rfl⟩ := Prod.mk.inj hr
        obtain ⟨hinv, hpiece⟩ := inv.shorten (Nat.sub_le nb.length len)
        obtain ⟨hinv', htotal', hbytes'⟩ := done (by omega) hinv (by
          have hnone : o + len - nb.length = 0 := by omega
          have hlast : nb.length - len = o := by omega
          rw [hcut, chainBytes_mid, hpiece, hnone, hlast, List.drop_zero])
        exact ⟨hinv', Keeps.refl h others, htotal', Or.inl hbytes'⟩
      · rw [if_neg hend, hkept] at hr
        cases htrim : fnetNetbufTrim h (setTotalLength head.totalLength rest)
            (len - (totLen - offset) : Nat) with
        | mk found h₁ =>
          rw [htrim] at hr
          obtain ⟨-, hr⟩ := Prod.mk.inj hr
          obtain ⟨rfl, rfl⟩ := Prod.mk.inj hr
          obtain ⟨hinv, hkeep, hbytes⟩ := cutThroughNetbuf_spec inv (show o ≤ nb.length by omega)
            (by omega) (by omega) (by omega) htrim
          have hmore : len - (totLen - offset) = o + len - nb.length := by omega
          obtain ⟨hinv', htotal', hbytes'⟩ := done (by omega) hinv (by rw [hbytes, hcut, hmore])
          exact ⟨hinv', hkeep, htotal', Or.inl hbytes'⟩

/-! ## `fnet_netbuf_concat` -/

/-- `fnet_netbuf_concat`: one chain of the bytes of both. -/
theorem fnetNetbufConcat_spec (inv : NetbufInv lost h (c ++ c' ++ others)) (htotal : TotalLength c)
    (htotal' : TotalLength c') :
    NetbufInv lost h (fnetNetbufConcat c c' ++ others)
      ∧ chainBytes h (fnetNetbufConcat c c') = chainBytes h c ++ chainBytes h c'
      ∧ TotalLength (fnetNetbufConcat c c') := by
  cases c with
  | nil => exact ⟨inv, rfl, htotal'⟩
  | cons head next =>
    cases c' with
    | nil =>
      rw [List.append_nil] at inv
      exact ⟨inv, (List.append_nil _).symm, htotal⟩
    | cons nb2 next2 =>
      have hinv := inv.reshape { head with
        flags := head.flags ||| nb2.flags
        totalLength := head.totalLength + nb2.totalLength } rfl (Nat.le_refl _)
      refine ⟨hinv, chainBytes_append (head :: next) (nb2 :: next2), ?_⟩
      rintro head' hhead'
      obtain rfl := Option.some.inj hhead'
      show head.totalLength + nb2.totalLength = chainLength (head :: next ++ nb2 :: next2)
      rw [htotal head rfl, htotal' nb2 rfl, chainLength_append]

/-! ## `fnet_netbuf_pullup` -/

/-- The pieces that are copied whole end before `len`, and the next one reaches it. -/
theorem pullupSplit_some {len : Nat} {middle behind : List Netbuf} {last : Netbuf}
    (c : List Netbuf) :
    ∀ {done : Nat}, done < len → pullupSplit len done c = some (middle, last, behind) →
      c = middle ++ last :: behind ∧ done + chainLength middle < len
        ∧ len ≤ done + chainLength middle + last.length := by
  induction c generalizing middle with
  | nil =>
    intro done _ hr
    rw [pullupSplit] at hr
    cases hr
  | cons nb rest ih =>
    intro done hdone hr
    rw [pullupSplit] at hr
    split at hr
    next hlt =>
      obtain ⟨⟨middle', last', behind'⟩, hrec, hr⟩ := Option.map_eq_some_iff.mp hr
      cases hr
      obtain ⟨hsplit, hbefore, hreach⟩ := ih hlt hrec
      refine ⟨congrArg (nb :: ·) hsplit, ?_, ?_⟩
      · show done + (nb.length + chainLength middle') < len
        omega
      · show len ≤ done + (nb.length + chainLength middle') + last.length
        omega
    next hge =>
      cases hr
      exact ⟨rfl, hdone, Nat.le_of_not_lt hge⟩

/-- The loop runs off the end only of a chain that is too short. -/
theorem pullupSplit_none {len : Nat} (c : List Netbuf) :
    ∀ {done : Nat}, done < len → pullupSplit len done c = none → done + chainLength c < len := by
  induction c with
  | nil => exact fun hdone _ => hdone
  | cons nb rest ih =>
    intro done hdone hr
    rw [pullupSplit] at hr
    split at hr
    next hlt =>
      have := ih hlt (Option.map_eq_none_iff.mp hr)
      rw [chainLength]
      omega
    next => cases hr

/-- The loop appends the bytes of the pieces and frees them one after the other. -/
theorem pullupMiddle_eq (copied : List UInt8) (inv : NetbufInv lost h (c ++ others)) :
    pullupMiddle h copied c = (copied ++ chainBytes h c, fnetNetbufFreeChain h c) := by
  induction c generalizing h copied with
  | nil => exact congrArg (·, h) (List.append_nil copied).symm
  | cons nb rest ih =>
    obtain ⟨hinv, hkeep⟩ := inv.free
    rw [pullupMiddle, ih _ hinv, hkeep.chainBytes hinv.subset_left, chainBytes_cons,
      List.append_assoc]
    rfl

/-- The new data buffer of `first`: what is in it when `middle` has been freed, and what is
left. -/
theorem pullupData_spec {len data : Nat} {first last : Netbuf} {middle behind : List Netbuf}
    {h₁ : NetbufHeap}
    (inv : NetbufInv lost h (first :: (middle ++ last :: (behind ++ others))))
    (hbefore : first.length + chainLength middle < len)
    (hreach : len ≤ first.length + chainLength middle + last.length)
    (hdata : h.newData len false = (some data, h₁)) :
    let r := pullupMiddle (h₁.releaseData first.data) (first.bytes h₁) middle
    let h' := r.2.fillData data (r.1 ++ (last.bytes r.2).take (len - r.1.length))
    r.1.length = first.length + chainLength middle
      ∧ NetbufInv lost h' ({ first with data := data, off := 0, length := len }
          :: last :: (behind ++ others))
      ∧ Keeps h h' (last :: (behind ++ others))
      ∧ Netbuf.bytes h' { first with data := data, off := 0, length := len }
        = first.bytes h ++ chainBytes h middle
          ++ (last.bytes h).take (len - (first.length + chainLength middle)) := by
  obtain ⟨n, hn, hname, hheap⟩ := newData_some hdata
  intro r h'
  -- with a descriptor of its own, the new data buffer is a net_buf
  have hsize : ((List.range len).map h.junk).length = len := by
    rw [List.length_map, List.length_range]
  have hfit : 0 + len ≤ ((List.range len).map h.junk).length := by omega
  obtain ⟨hnew, hkept⟩ := inv.alloc { first with data := data, off := 0, length := len } hname _
    hfit n
  have hkeep₁ : Keeps h h₁ (first :: (middle ++ last :: (behind ++ others))) := by
    rw [hheap]
    exact ⟨hkept, rfl, hn⟩
  -- the old data buffer of `first` is counted down, and so are those copied whole
  have hfree := (hnew.perm (List.Perm.swap ..)).free
  have hmid : NetbufInv lost (h₁.releaseData first.data) (middle
      ++ ({ first with data := data, off := 0, length := len } :: last :: (behind ++ others))) := by
    rw [hheap]
    exact hfree.1.perm List.perm_middle.symm
  have hkeep₂ : Keeps h₁ (h₁.releaseData first.data) (middle ++ last :: (behind ++ others)) := by
    rw [hheap]
    exact ⟨fun x hx => hfree.2.bytes x (List.mem_cons_of_mem _ hx), rfl, Nat.le_refl _⟩
  obtain ⟨hinv₃, hkeep₃⟩ := hmid.freeChain
  have hr : r = (first.bytes h₁ ++ chainBytes (h₁.releaseData first.data) middle,
      fnetNetbufFreeChain (h₁.releaseData first.data) middle) := pullupMiddle_eq _ hmid
  have hfirst : first.bytes h₁ = first.bytes h :=
    hkeep₁.bytes first (List.mem_cons_self ..)
  have hmiddle : chainBytes (h₁.releaseData first.data) middle = chainBytes h middle :=
    (hkeep₂.chainBytes (List.subset_append_left ..)).trans
      (hkeep₁.chainBytes fun x hx => List.mem_cons_of_mem _ (List.mem_append_left _ hx))
  have hrest : Keeps h r.2 (last :: (behind ++ others)) := by
    rw [hr]
    exact ((hkeep₁.mono fun x hx => List.mem_cons_of_mem _ (List.mem_append_right _ hx)).trans
      (hkeep₂.mono (List.subset_append_right ..))).trans (hkeep₃.mono (List.subset_cons_self ..))
  have hcopied : r.1 = first.bytes h ++ chainBytes h middle := by
    rw [hr, hfirst, hmiddle]
  have hcopiedLength : r.1.length = first.length + chainLength middle := by
    rw [hcopied, List.length_append, inv.length_bytes (List.mem_cons_self ..),
      inv.length_chainBytes fun x hx => List.mem_cons_of_mem _ (List.mem_append_left _ hx)]
  have hlast : (last.bytes r.2).length = last.length := by
    rw [hrest.bytes last (List.mem_cons_self ..)]
    exact inv.length_bytes
      (List.mem_cons_of_mem _ (List.mem_append_right _ (List.mem_cons_self ..)))
  have hwhole : (r.1 ++ (last.bytes r.2).take (len - r.1.length)).length = len := by
    rw [List.length_append, List.length_take, hlast]
    omega
  -- the name of the new data buffer was never used
  have halone : data ∉ (last :: (behind ++ others)).map Netbuf.data := fun hin =>
    inv.fresh_not_mem (hname ▸ List.map_subset _ (fun x hx =>
      List.mem_cons_of_mem _ (List.mem_append_right _ hx)) hin)
  have hfreed : r.2 = fnetNetbufFreeChain (h₁.releaseData first.data) middle :=
    congrArg Prod.snd hr
  rw [← hfreed] at hinv₃
  obtain ⟨hinv₄, hkeep₄, hbytes⟩ := hinv₃.fill halone
    (r.1 ++ (last.bytes r.2).take (len - r.1.length))
      (by rw [hwhole]; exact Nat.le_of_eq (Nat.zero_add _))
  refine ⟨hcopiedLength, hinv₄, hrest.trans hkeep₄, hbytes.trans ?_⟩
  show ((r.1 ++ (last.bytes r.2).take (len - r.1.length)).drop 0).take len = _
  rw [List.drop_zero, List.take_of_length_le (Nat.le_of_eq hwhole), hcopiedLength, hcopied,
    hrest.bytes last (List.mem_cons_self ..)]

/-- The net_buf from which the last bytes were taken goes, or becomes shorter. -/
theorem pullupRest_spec {taken : Nat} {copied : List UInt8} {new last : Netbuf}
    {behind : List Netbuf} (inv : NetbufInv lost h (new :: last :: (behind ++ others)))
    (hbytes : new.bytes h = copied ++ (last.bytes h).take taken) (htaken : taken ≤ last.length)
    (hr : (if last.length - taken = 0 then (some (new :: behind), fnetNetbufFree h last)
      else (some (new :: { last with off := last.off + taken, length := last.length - taken }
        :: behind), h)) = (some c', h')) :
    NetbufInv lost h' (c' ++ others) ∧ Keeps h h' others
      ∧ chainBytes h' c' = copied ++ (last.bytes h ++ chainBytes h behind) ∧
        c'.head? = some new := by
  have hlast := inv.length_bytes (List.mem_cons_of_mem _ (List.mem_cons_self ..))
  have hfront := inv.perm (List.Perm.swap ..)
  split at hr
  next hgone =>
    obtain ⟨hc, rfl⟩ := Prod.mk.inj hr
    obtain rfl := Option.some.inj hc
    obtain ⟨hinv, hkeep⟩ := hfront.free
    refine ⟨hinv, hkeep.mono fun x hx => ?_, ?_, rfl⟩
    · exact List.mem_cons_of_mem _ (List.mem_append_right _ hx)
    · rw [hkeep.chainBytes (List.subset_append_left (_ :: behind) others), chainBytes_cons, hbytes,
        List.take_of_length_le (by omega), List.append_assoc]
  next =>
    obtain ⟨hc, rfl⟩ := Prod.mk.inj hr
    obtain rfl := Option.some.inj hc
    have hshort := hfront.reshape
      { last with off := last.off + taken, length := last.length - taken } rfl
      (show last.off + taken + (last.length - taken) ≤ last.off + last.length by omega)
    refine ⟨hshort.perm (List.Perm.swap ..), Keeps.refl h others, ?_, rfl⟩
    have hpiece : Netbuf.bytes h
        { last with off := last.off + taken, length := last.length - taken }
          = (last.bytes h).drop taken := by
      refine Eq.trans (bytes_piece last taken rfl rfl ?_) (List.take_of_length_le ?_)
      · exact Nat.le_of_eq (Nat.add_sub_cancel' htaken)
      · exact Nat.le_of_eq (by rw [List.length_drop, hlast])
    rw [chainBytes_cons, chainBytes_cons, hbytes, hpiece, List.append_assoc,
      ← List.append_assoc (List.take ..), List.take_append_drop]

/-- `fnet_netbuf_pullup`: the same bytes, with the first `len` of them in the first net_buf. -/
theorem fnetNetbufPullup_some {len : Nat} (inv : NetbufInv lost h (c ++ others))
    (htotal : TotalLength c) (hr : fnetNetbufPullup h c len = (some c', h')) :
    NetbufInv lost h' (c' ++ others) ∧ Keeps h h' others ∧ TotalLength c'
      ∧ chainBytes h' c' = chainBytes h c ∧ len ≤ headLength c' := by
  cases c with
  | nil => cases hr
  | cons first next =>
    have hhead : first.totalLength = chainLength (first :: next) := htotal first rfl
    rw [fnetNetbufPullup] at hr
    split at hr
    next => cases hr
    next henough =>
      split at hr
      next hshort =>
        obtain ⟨hc, rfl⟩ := Prod.mk.inj hr
        obtain rfl := Option.some.inj hc
        -- the first net_buf is long enough
        refine ⟨inv, Keeps.refl h others, htotal, rfl, ?_⟩
        show len ≤ first.length
        omega
      next hlong =>
        cases hsplit : pullupSplit len first.length next with
        | none => rw [hsplit] at hr; cases hr
        | some r =>
          obtain ⟨middle, last, behind⟩ := r
          rw [hsplit] at hr
          obtain ⟨hnext, hbefore, hreach⟩ := pullupSplit_some next (by omega) hsplit
          have hfocus : NetbufInv lost h (first :: (middle ++ last :: (behind ++ others))) := by
            rw [hnext, List.cons_append, List.append_assoc, List.cons_append] at inv
            exact inv
          dsimp only at hr
          cases hdata : h.newData len false with
          | mk data h₁ =>
            rw [hdata] at hr
            cases data with
            | none => cases hr
            | some data =>
              obtain ⟨hcopied, hinv, hkeep, hbytes⟩ := pullupData_spec hfocus hbefore hreach hdata
              dsimp only at hr
              rw [hcopied] at hr hinv hkeep hbytes
              generalize NetbufHeap.fillData _ _ _ = h₂ at hr hinv hkeep hbytes
              have hlast := hkeep.bytes last (List.mem_cons_self ..)
              rw [← hlast] at hbytes
              obtain ⟨hinv', hkeep', hsame, hnew⟩ := pullupRest_spec hinv hbytes (by omega) hr
              have hall : chainBytes h' c' = chainBytes h (first :: next) := by
                rw [hsame, hlast, hkeep.chainBytes fun x hx =>
                  List.mem_cons_of_mem _ (List.mem_append_left _ hx), hnext, chainBytes_cons,
                  chainBytes_mid, List.append_assoc]
              refine ⟨hinv', (hkeep.mono fun x hx => ?_).trans hkeep', fun head' hhead' => ?_, hall,
                ?_⟩
              · exact List.mem_cons_of_mem _ (List.mem_append_right _ hx)
              · rw [hnew] at hhead'
                obtain rfl := Option.some.inj hhead'
                rw [← hinv'.length_chain, hall, inv.length_chain]
                exact hhead
              · cases c' with
                | nil => cases hnew
                | cons new rest =>
                  obtain rfl := Option.some.inj hnew
                  exact Nat.le_refl _

/-- `fnet_netbuf_pullup` does nothing when the chain is too short, or when there is no memory. -/
theorem fnetNetbufPullup_none {len : Nat} (inv : NetbufInv lost h (c ++ others))
    (htotal : TotalLength c) (hr : fnetNetbufPullup h c len = (none, h')) :
    NetbufInv lost h' (c ++ others) ∧ Keeps h h' (c ++ others)
      ∧ (chainLength c < len ∨ c = [] ∨ Refused h h') := by
  cases c with
  | nil =>
    obtain ⟨-, rfl⟩ := Prod.mk.inj hr
    exact ⟨inv, Keeps.refl h _, Or.inr (Or.inl rfl)⟩
  | cons first next =>
    have hhead : first.totalLength = chainLength (first :: next) := htotal first rfl
    rw [fnetNetbufPullup] at hr
    split at hr
    next hshort =>
      obtain ⟨-, rfl⟩ := Prod.mk.inj hr
      exact ⟨inv, Keeps.refl h _, Or.inl (hhead ▸ hshort)⟩
    next henough =>
      split at hr
      next => cases hr
      next hlong =>
        cases hsplit : pullupSplit len first.length next with
        | none =>
          -- `total_length` says that the chain is long enough
          have := pullupSplit_none next (by omega) hsplit
          rw [chainLength] at hhead
          omega
        | some r =>
          rw [hsplit] at hr
          dsimp only at hr
          cases hdata : h.newData len false with
          | mk data h₁ =>
            rw [hdata] at hr
            cases data with
            | some data =>
              dsimp only at hr
              split at hr
              next => cases hr
              next => cases hr
            | none =>
              obtain ⟨-, rfl⟩ := Prod.mk.inj hr
              obtain ⟨n, hn, rfl, hrefused⟩ := newData_none hdata
              exact ⟨inv.asked n, Keeps.of_asked hn, Or.inr (Or.inr hrefused)⟩

end

end Datalogger
