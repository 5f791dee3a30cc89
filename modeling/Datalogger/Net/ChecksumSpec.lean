import Datalogger.Net.Checksum

/-!
# What the checksum is for

`fnet_checksum.c` quotes the definition of the Internet checksum: the one's complement of the
one's complement sum of all 16-bit words, an odd last octet padded on the right with zeros.
The words are meant in network order and the carries are meant to go around at each
addition; the code loads words in the order of its core and folds the carries in
at the end. `fnetChecksum_internet` says that what it stores is the checksum of the
definition all the same.

The receiver adds the checksum up with the rest and looks for `0`. It finds that for what was
sent, however either side has cut it into net_bufs (`fnetChecksum_verifies`), and for nothing
that differs in one word, but for `0x0000` and `0xffff` in each other's place
(`fnetChecksum_detects`). The transport protocols start the sum over their segment and end
it over the addresses, in two functions; `transportChecksum_verifies` is the same for them.
-/

namespace Datalogger

open Lib (leBytes ocSum residue)

/-! ## The definition -/

/-- The 16-bit words in network order, an odd octet padded on the right. -/
def networkWords : List UInt8 → List Nat
  | [] => []
  | [b] => [256 * b.toNat]
  | b0 :: b1 :: d => (256 * b0.toNat + b1.toNat) :: networkWords d

/-- The Internet checksum of the definition. -/
def internetChecksum (d : List UInt8) : Nat := 65535 - ocSum 65535 (networkWords d)

/-- A 16-bit number in network order. -/
def inNetworkOrder (n : Nat) : List UInt8 := [UInt8.ofNat (n / 256), UInt8.ofNat (n % 256)]

/-! ## The last steps of the code -/

/-- Two folds of 16 bits are enough for a sum of 32. -/
theorem fold_eq_residue {s : Nat} (h : s < 4294967296) :
    (s / 65536 + s % 65536 + (s / 65536 + s % 65536) / 65536) % 65536 = residue 65535 s := by
  obtain ⟨q, r, hs, hr⟩ : ∃ q r, s = 65536 * q + r ∧ r < 65536 :=
    ⟨s / 65536, s % 65536, by omega, by omega⟩
  have hq : s / 65536 = q := by omega
  have hr' : s % 65536 = r := by omega
  rw [hq, hr']
  have hmod : (q + r) % 65535 = s % 65535 := by omega
  rcases Nat.lt_or_ge (q + r) 65536 with hlt | hge
  · rw [Nat.div_eq_of_lt hlt, Nat.add_zero, Nat.mod_eq_of_lt hlt]
    exact Lib.residue_unique (by omega) hmod (by omega)
  · have hone : (q + r) / 65536 = 1 := by omega
    have hlast : (q + r + 1) % 65536 = q + r - 65535 := by omega
    rw [hone, hlast]
    refine Lib.residue_unique (by omega) ?_ (by omega)
    rw [← hmod]
    exact (Nat.mod_eq_sub_mod (by omega)).symm

/-- Folding the carries in makes the digit of the sum. -/
theorem addCarries_toNat {s : Nat} (h : s < 4294967296) :
    (addCarries (UInt32.ofNat s)).toUInt16.toNat = residue 65535 s := by
  have hs : (UInt32.ofNat s).toNat = s := UInt32.toNat_ofNat_of_lt' h
  have hhigh : (UInt32.ofNat s >>> 16).toNat = s / 65536 := by
    rw [UInt32.toNat_shiftRight, hs, Nat.shiftRight_eq_div_pow]
    rfl
  have hlow : (UInt32.ofNat s &&& 0xffff).toNat = s % 65536 := by
    rw [UInt32.toNat_and, hs]
    exact Nat.and_two_pow_sub_one_eq_mod s 16
  obtain ⟨t, ht⟩ : ∃ t, t = (UInt32.ofNat s >>> 16) + (UInt32.ofNat s &&& 0xffff) := ⟨_, rfl⟩
  have htNat : t.toNat = s / 65536 + s % 65536 := by
    rw [ht, UInt32.toNat_add, hhigh, hlow]
    omega
  have htHigh : (t >>> 16).toNat = t.toNat / 65536 := by
    rw [UInt32.toNat_shiftRight, Nat.shiftRight_eq_div_pow]
    rfl
  -- after the first step there is one carry at most, which the second one adds
  have hfold : (t + (t >>> 16)).toNat = t.toNat + t.toNat / 65536 := by
    rw [UInt32.toNat_add, htHigh]
    omega
  unfold addCarries
  dsimp only
  rw [← ht, UInt32.toNat_toUInt16, hfold, htNat]
  exact fold_eq_residue h

theorem complementOf_toNat (x : UInt32) : (complementOf x).toNat = 65535 - x.toUInt16.toNat := by
  have hx : x.toNat < 4294967296 := x.toNat_lt
  have hnot : (~~~x).toNat = 4294967295 - x.toNat := UInt32.toNat_not x
  have hand : (0xffff &&& ~~~x).toNat = (4294967295 - x.toNat) % 65536 := by
    rw [UInt32.toNat_and, hnot, Nat.and_comm]
    exact Nat.and_two_pow_sub_one_eq_mod _ 16
  rw [complementOf, UInt32.toNat_toUInt16, hand, UInt32.toNat_toUInt16]
  omega

/-- The number the code returns for a sum. -/
theorem complement_addCarries {s : Nat} (h : s < 4294967296) :
    (complementOf (addCarries (UInt32.ofNat s))).toNat = 65535 - residue 65535 s := by
  rw [complementOf_toNat, addCarries_toNat h]

theorem wordSum_le : ∀ d : List UInt8, wordSum d ≤ 65535 * ((d.length + 1) / 2)
  | [] => Nat.zero_le _
  | [b] => by
    have hb : b.toNat < 256 := b.toNat_lt
    rw [wordSum_singleton]
    simp only [List.length_singleton]
    omega
  | b0 :: b1 :: d => by
    have h0 : b0.toNat < 256 := b0.toNat_lt
    have h1 : b1.toNat < 256 := b1.toNat_lt
    have ih := wordSum_le d
    have hhalf : (d.length + 1 + 1 + 1) / 2 = (d.length + 1) / 2 + 1 := by omega
    rw [wordSum_cons_cons, List.length_cons, List.length_cons, hhalf]
    omega

/-- The accumulator does not overflow on the packets of the Internet. -/
theorem wordSum_lt {d : List UInt8} (h : d.length ≤ 131070) : wordSum d < 4294836226 := by
  have hle := wordSum_le d
  have hmul : 65535 * ((d.length + 1) / 2) ≤ 65535 * 65535 := Nat.mul_le_mul_left _ (by omega)
  omega

/-- The chain `nb` starts with the bytes `d`, no more than the accumulator takes, and is cut
so that `fnet_checksum_nb` can add them. -/
structure ChainBytes (nb : List (List UInt8)) (d : List UInt8) : Prop where
  ne : nb ≠ []
  front : d <+: nb.flatten
  max : d.length ≤ 131070
  aligned : NoEmptyBehindOdd nb d.length

/-- What is added up for such a chain. -/
theorem ChainBytes.sum {nb : List (List UInt8)} {d : List UInt8} (h : ChainBytes nb d) :
    fnetChecksumNb nb d.length = some (UInt32.ofNat (wordSum d)) := by
  obtain ⟨rest, hrest⟩ := h.front
  have hlen : d.length ≤ nb.flatten.length := by
    rw [← hrest, List.length_append]
    omega
  rw [fnetChecksumNb_eq h.ne hlen h.aligned, ← hrest, List.take_left' rfl]

/-- What `fnet_checksum` returns for it. -/
theorem ChainBytes.checksum {nb : List (List UInt8)} {d : List UInt8} (h : ChainBytes nb d) :
    ∃ c, fnetChecksum nb d.length = some c ∧ c.toNat = 65535 - residue 65535 (wordSum d) := by
  have hlt := wordSum_lt h.max
  refine ⟨_, ?_, complement_addCarries (s := wordSum d) (by omega)⟩
  rw [fnetChecksum, h.sum]
  rfl

/-- The receiver accepts a chain if the words add up to all ones. -/
theorem ChainBytes.accepted_iff {nb : List (List UInt8)} {d : List UInt8} (h : ChainBytes nb d) :
    fnetChecksum nb d.length = some 0 ↔ residue 65535 (wordSum d) = 65535 := by
  obtain ⟨c, hc, hval⟩ := h.checksum
  have hle := Lib.residue_le (m := 65535) (by omega) (wordSum d)
  have hzero : (0 : UInt16).toNat = 0 := rfl
  rw [hc, Option.some.injEq, ← UInt16.toNat_inj, hzero]
  omega

/-! ## Byte order -/

/-- In the other byte order every word, and so the sum, is multiplied by 256. -/
theorem networkWords_sum : ∀ d : List UInt8,
    (networkWords d).sum % 65535 = (256 * wordSum d) % 65535 ∧
    ((networkWords d).sum = 0 ↔ wordSum d = 0)
  | [] => ⟨rfl, Iff.rfl⟩
  | [b] => by
    rw [networkWords, List.sum_singleton, wordSum_singleton]
    exact ⟨rfl, by omega⟩
  | b0 :: b1 :: d => by
    -- `256 * b0 + b1` is `256 * (b0 + 256 * b1)`, without a multiple of 65535
    obtain ⟨hmod, hzero⟩ := networkWords_sum d
    rw [networkWords, List.sum_cons, wordSum_cons_cons]
    exact ⟨by omega, by omega⟩

/-- A word has 16 bits. -/
theorem networkWords_le : ∀ d : List UInt8, ∀ w ∈ networkWords d, w ≤ 65535
  | [], _, h => absurd h List.not_mem_nil
  | [b], w, h => by
    have hb : b.toNat < 256 := b.toNat_lt
    obtain rfl := List.mem_singleton.mp h
    omega
  | b0 :: b1 :: d, w, h => by
    have h0 : b0.toNat < 256 := b0.toNat_lt
    have h1 : b1.toNat < 256 := b1.toNat_lt
    rcases List.mem_cons.mp h with rfl | hrest
    · omega
    · exact networkWords_le d w hrest

/-- Exchanging the bytes of a digit multiplies it by 256. -/
theorem residue_mul_256 {r : Nat} (hr : r ≤ 65535) :
    residue 65535 (256 * r) = r % 256 * 256 + r / 256 := by
  refine (Lib.residue_unique ?_ ?_ ?_).symm <;> omega

/-- The sum of the definition is the sum of the code with its bytes exchanged. -/
theorem ocSum_networkWords (d : List UInt8) :
    ocSum 65535 (networkWords d)
      = residue 65535 (wordSum d) % 256 * 256 + residue 65535 (wordSum d) / 256 := by
  obtain ⟨hmod, hzero⟩ := networkWords_sum d
  have hle := Lib.residue_le (m := 65535) (by omega) (wordSum d)
  rw [Lib.ocSum_eq_residue (networkWords_le d), ← residue_mul_256 hle]
  refine Lib.residue_congr (by omega) ?_ ?_
  · exact hmod.trans (Nat.ModEq.mul_left 256 (Lib.residue_mod (m := 65535) (wordSum d)).symm)
  · have hres : residue 65535 (wordSum d) = 0 ↔ wordSum d = 0 := Lib.residue_eq_zero_iff
    omega

/-- **The code computes the Internet checksum.** For every chain of net_bufs the number
`fnet_checksum` returns, stored as the core stores it, is the checksum of the definition in
network order. -/
theorem fnetChecksum_internet (nb : List (List UInt8)) (d : List UInt8) (h : ChainBytes nb d) :
    ∃ c, fnetChecksum nb d.length = some c ∧
      leBytes 2 c.toNat = inNetworkOrder (internetChecksum d) := by
  obtain ⟨c, hc, hval⟩ := h.checksum
  refine ⟨c, hc, ?_⟩
  have hle := Lib.residue_le (m := 65535) (by omega) (wordSum d)
  have hsum := ocSum_networkWords d
  obtain ⟨r, hr⟩ : ∃ r, r = residue 65535 (wordSum d) := ⟨_, rfl⟩
  rw [← hr] at hval hle hsum
  -- the two bytes, which the core stores the other way round
  have hhigh : internetChecksum d / 256 = 255 - r % 256 := by
    rw [internetChecksum, hsum]
    omega
  have hlow : internetChecksum d % 256 = 255 - r / 256 := by
    rw [internetChecksum, hsum]
    omega
  have hbyte : UInt8.ofNat c.toNat = UInt8.ofNat (c.toNat % 256) := by
    apply UInt8.toNat_inj.mp
    rw [UInt8.toNat_ofNat', UInt8.toNat_ofNat']
    omega
  have hc0 : c.toNat % 256 = 255 - r % 256 := by omega
  have hc1 : c.toNat / 256 = 255 - r / 256 := by omega
  show [UInt8.ofNat c.toNat, UInt8.ofNat (c.toNat / 256)] = _
  rw [inNetworkOrder, hhigh, hlow, hbyte, hc0, hc1]

/-! ## Sender and receiver -/

/-- A word in its place. -/
theorem wordSum_insert {before : List UInt8} (heven : before.length % 2 = 0) (w : UInt16)
    (after : List UInt8) :
    wordSum (before ++ leBytes 2 w.toNat ++ after) = wordSum before + wordSum after + w.toNat := by
  have hw : w.toNat < 65536 := w.toNat_lt
  have hword : wordSum (leBytes 2 w.toNat ++ after) = w.toNat + wordSum after := by
    show wordSum (UInt8.ofNat w.toNat :: UInt8.ofNat (w.toNat / 256) :: after) = _
    rw [wordSum_cons_cons, UInt8.toNat_ofNat', UInt8.toNat_ofNat']
    omega
  rw [List.append_assoc, wordSum_append_even heven, hword]
  omega

/-- **The receiver accepts what was sent.** The checksum is computed with its field `0`; with
it in the field, `fnet_checksum` returns `0` for every cut of the bytes into net_bufs. -/
theorem fnetChecksum_verifies (before after : List UInt8) (heven : before.length % 2 = 0)
    (nb nb' : List (List UInt8)) (h : ChainBytes nb (before ++ leBytes 2 0 ++ after)) (c : UInt16)
    (hc : fnetChecksum nb (before ++ leBytes 2 0 ++ after).length = some c)
    (h' : ChainBytes nb' (before ++ leBytes 2 c.toNat ++ after)) :
    fnetChecksum nb' (before ++ leBytes 2 c.toNat ++ after).length = some 0 := by
  obtain ⟨c', hc', hval⟩ := h.checksum
  obtain rfl : c = c' := Option.some.inj (hc.symm.trans hc')
  have hzero := wordSum_insert heven 0 after
  rw [show (0 : UInt16).toNat = 0 from rfl, Nat.add_zero] at hzero
  -- a number and its complement add up to all ones
  rw [h'.accepted_iff, wordSum_insert heven, ← hzero, hval]
  exact Lib.residue_add_complement (by omega) _

/-- Words that add up to nothing are all zero. -/
theorem wordSum_eq_zero_iff : ∀ d : List UInt8, wordSum d = 0 ↔ ∀ b ∈ d, b = 0
  | [] => by simp
  | [b] => by
    have hb : b = 0 ↔ b.toNat = 0 := by rw [← UInt8.toNat_inj]; rfl
    rw [wordSum_singleton, List.forall_mem_singleton, hb]
  | b0 :: b1 :: d => by
    have h0 : b0 = 0 ↔ b0.toNat = 0 := by rw [← UInt8.toNat_inj]; rfl
    have h1 : b1 = 0 ↔ b1.toNat = 0 := by rw [← UInt8.toNat_inj]; rfl
    have ih := wordSum_eq_zero_iff d
    rw [wordSum_cons_cons, List.forall_mem_cons, List.forall_mem_cons, ← ih, h0, h1]
    omega

/-- **A change of one word is found**, unless it exchanges `0x0000` and `0xffff`. -/
theorem fnetChecksum_detects (before after : List UInt8) (heven : before.length % 2 = 0)
    (w w' : UInt16) (nb nb' : List (List UInt8))
    (h : ChainBytes nb (before ++ leBytes 2 w.toNat ++ after))
    (hsent : fnetChecksum nb (before ++ leBytes 2 w.toNat ++ after).length = some 0)
    (h' : ChainBytes nb' (before ++ leBytes 2 w'.toNat ++ after)) :
    fnetChecksum nb' (before ++ leBytes 2 w'.toNat ++ after).length = some 0 ↔
      w' = w ∨ w = 0 ∧ w' = 0xffff ∨ w = 0xffff ∧ w' = 0 ∧ ∃ b ∈ before ++ after, b ≠ 0 := by
  have hw : w.toNat < 65536 := w.toNat_lt
  have hw' : w'.toNat < 65536 := w'.toNat_lt
  have hsame : w' = w ↔ w'.toNat = w.toNat := UInt16.toNat_inj.symm
  have hzero : ∀ x : UInt16, x = 0 ↔ x.toNat = 0 := fun x => by rw [← UInt16.toNat_inj]; rfl
  have hones : ∀ x : UInt16, x = 0xffff ↔ x.toNat = 65535 := fun x => by
    rw [← UInt16.toNat_inj]; rfl
  have hrest : (∃ b ∈ before ++ after, b ≠ 0) ↔ 0 < wordSum before + wordSum after := by
    have hb := wordSum_eq_zero_iff before
    have ha := wordSum_eq_zero_iff after
    constructor
    · rintro ⟨b, hmem, hne⟩
      refine Nat.pos_of_ne_zero fun hsum => hne ?_
      rcases List.mem_append.mp hmem with hbefore | hafter
      · exact hb.mp (by omega) b hbefore
      · exact ha.mp (by omega) b hafter
    · intro hpos
      by_contra hnone
      have hall : ∀ b ∈ before ++ after, b = 0 := fun b hmem => by
        by_contra hne
        exact hnone ⟨b, hmem, hne⟩
      have hb0 := hb.mpr fun b hmem => hall b (List.mem_append_left _ hmem)
      have ha0 := ha.mpr fun b hmem => hall b (List.mem_append_right _ hmem)
      omega
  -- both sums are multiples of 65535, and not both zero
  rw [h.accepted_iff, wordSum_insert heven, Lib.residue_eq_self_iff (by omega)] at hsent
  rw [h'.accepted_iff, wordSum_insert heven, Lib.residue_eq_self_iff (by omega), hsame, hzero,
    hzero, hones, hones, hrest]
  omega

/-! ## The transport protocols -/

/-- The checksum of a segment: `fnet_udp_output` and the like start it over their chain, and
`fnet_ip_output` ends it once it knows the source address; the input functions do both. -/
def transportChecksum (nb : List (List UInt8)) (protocol len : UInt16) (ipSrc ipDest : List UInt8)
    (addrSize : Int) : Option UInt16 :=
  (fnetChecksumPseudoStart nb protocol len).map fun sum =>
    fnetChecksumPseudoEnd sum ipSrc ipDest addrSize

/-- Everything the checksum of a segment is over. -/
def pseudoSum (d : List UInt8) (protocol len : UInt16) (ipSrc ipDest : List UInt8) : Nat :=
  wordSum d + (protocol.toNat + (swapBytes len).toNat) + (wordSum ipSrc + wordSum ipDest)

/-- Two addresses of a length the protocols have. -/
structure Addresses (ipSrc ipDest : List UInt8) (addrSize : Nat) : Prop where
  src : ipSrc.length = addrSize
  dest : ipDest.length = addrSize
  max : addrSize ≤ 16

/-- The addresses of one datagram do not add up to much. -/
theorem Addresses.sum_le {ipSrc ipDest : List UInt8} {addrSize : Nat}
    (h : Addresses ipSrc ipDest addrSize) : wordSum ipSrc + wordSum ipDest ≤ 1048560 := by
  have hsrc := wordSum_le ipSrc
  have hdest := wordSum_le ipDest
  have hs : 65535 * ((ipSrc.length + 1) / 2) ≤ 65535 * 8 :=
    Nat.mul_le_mul_left _ (by have := h.src; have := h.max; omega)
  have hd : 65535 * ((ipDest.length + 1) / 2) ≤ 65535 * 8 :=
    Nat.mul_le_mul_left _ (by have := h.dest; have := h.max; omega)
  omega

theorem toUInt32_eq_ofNat (x : UInt16) : x.toUInt32 = UInt32.ofNat x.toNat := by
  have hx : x.toNat < 65536 := x.toNat_lt
  apply UInt32.toNat_inj.mp
  rw [UInt16.toNat_toUInt32, UInt32.toNat_ofNat_of_lt']
  show _ < 4294967296
  omega

/-- The end of the sum, whatever it starts with. -/
theorem pseudoEnd_sum {ipSrc ipDest : List UInt8} {addrSize : Nat}
    (h : Addresses ipSrc ipDest addrSize) (s : Nat) :
    fnetChecksumLow (fnetChecksumLow (UInt32.ofNat s) addrSize ipSrc) addrSize ipDest
      = UInt32.ofNat (s + (wordSum ipSrc + wordSum ipDest)) := by
  rw [fnetChecksumLow_eq, fnetChecksumLow_eq, List.take_of_length_le (Nat.le_of_eq h.src),
    List.take_of_length_le (Nat.le_of_eq h.dest), UInt32.ofNat_add, UInt32.ofNat_add,
    UInt32.add_assoc]

/-- The parts of a segment's checksum make that of the whole. -/
theorem ChainBytes.transport {nb : List (List UInt8)} {d : List UInt8} (h : ChainBytes nb d)
    (protocol : UInt16) {len : UInt16} (hlen : len.toNat = d.length) {ipSrc ipDest : List UInt8}
    {addrSize : Nat} (haddr : Addresses ipSrc ipDest addrSize) :
    ∃ c, transportChecksum nb protocol len ipSrc ipDest addrSize = some c ∧
      c.toNat = 65535 - residue 65535 (pseudoSum d protocol len ipSrc ipDest) := by
  have hsize : len.toNat < 65536 := len.toNat_lt
  have hprot : protocol.toNat < 65536 := protocol.toNat_lt
  have hswap : (swapBytes len).toNat < 65536 := UInt16.toNat_lt _
  have hwords := wordSum_le d
  have hmul : 65535 * ((d.length + 1) / 2) ≤ 65535 * 32768 := Nat.mul_le_mul_left _ (by omega)
  have haddrs := haddr.sum_le
  obtain ⟨s, hs⟩ : ∃ s, s = wordSum d + (protocol.toNat + (swapBytes len).toNat) := ⟨_, rfl⟩
  have hstart : fnetChecksumPseudoStart nb protocol len
      = some (addCarries (UInt32.ofNat s)).toUInt16 := by
    rw [fnetChecksumPseudoStart, hlen, h.sum, hs, UInt32.ofNat_add, UInt32.ofNat_add,
      toUInt32_eq_ofNat, toUInt32_eq_ofNat]
    rfl
  -- the carries are added twice, which is the same as at the end
  have hfold := addCarries_toNat (s := s) (by omega)
  have hle := Lib.residue_le (m := 65535) (by omega) s
  refine ⟨fnetChecksumPseudoEnd (addCarries (UInt32.ofNat s)).toUInt16 ipSrc ipDest addrSize,
    by rw [transportChecksum, hstart]; rfl, ?_⟩
  rw [fnetChecksumPseudoEnd, toUInt32_eq_ofNat, hfold, pseudoEnd_sum haddr,
    complement_addCarries (by omega), Lib.residue_add, pseudoSum, hs]

/-- The same number as for the segment in one buffer. -/
theorem fnetChecksumPseudoBuf_eq {d : List UInt8} (protocol : UInt16) {len : UInt16}
    (hlen : len.toNat = d.length) {ipSrc ipDest : List UInt8} {addrSize : Nat}
    (haddr : Addresses ipSrc ipDest addrSize) :
    (fnetChecksumPseudoBuf d len protocol ipSrc ipDest addrSize).toNat
      = 65535 - residue 65535 (pseudoSum d protocol len ipSrc ipDest) := by
  have hsize : len.toNat < 65536 := len.toNat_lt
  have hprot : protocol.toNat < 65536 := protocol.toNat_lt
  have hswap : (swapBytes len).toNat < 65536 := UInt16.toNat_lt _
  have hwords := wordSum_le d
  have hmul : 65535 * ((d.length + 1) / 2) ≤ 65535 * 32768 := Nat.mul_le_mul_left _ (by omega)
  have haddrs := haddr.sum_le
  have hbuf : fnetChecksumLow 0 len.toNat d + (protocol.toUInt32 + (swapBytes len).toUInt32)
      = UInt32.ofNat (wordSum d + (protocol.toNat + (swapBytes len).toNat)) := by
    rw [fnetChecksumLow_eq, UInt32.zero_add, hlen, List.take_length, UInt32.ofNat_add,
      UInt32.ofNat_add, toUInt32_eq_ofNat, toUInt32_eq_ofNat]
  rw [fnetChecksumPseudoBuf, hbuf, pseudoEnd_sum haddr, complement_addCarries (by omega), pseudoSum]

/-- **A segment is accepted with the checksum it was sent with.** Started over the chain and
ended over the addresses, the checksum is that of the segment in one buffer; and with it in its
field, the receiver's sum over any cut of the segment is `0`. -/
theorem transportChecksum_verifies (before after : List UInt8) (heven : before.length % 2 = 0)
    (protocol len : UInt16) (hlen : len.toNat = (before ++ leBytes 2 0 ++ after).length)
    (ipSrc ipDest : List UInt8) (addrSize : Nat) (haddr : Addresses ipSrc ipDest addrSize)
    (nb nb' : List (List UInt8)) (h : ChainBytes nb (before ++ leBytes 2 0 ++ after)) (c : UInt16)
    (hc : transportChecksum nb protocol len ipSrc ipDest addrSize = some c)
    (h' : ChainBytes nb' (before ++ leBytes 2 c.toNat ++ after)) :
    c = fnetChecksumPseudoBuf (before ++ leBytes 2 0 ++ after) len protocol ipSrc ipDest addrSize ∧
      transportChecksum nb' protocol len ipSrc ipDest addrSize = some 0 := by
  obtain ⟨c', hc', hval⟩ := h.transport protocol hlen haddr
  obtain rfl : c = c' := Option.some.inj (hc.symm.trans hc')
  refine ⟨?_, ?_⟩
  · apply UInt16.toNat_inj.mp
    rw [hval, fnetChecksumPseudoBuf_eq protocol hlen haddr]
  · have hlen' : len.toNat = (before ++ leBytes 2 c.toNat ++ after).length := by
      rw [hlen]
      simp only [List.length_append, Lib.length_leBytes]
    obtain ⟨z, hz, hzval⟩ := h'.transport protocol hlen' haddr
    have hzero := wordSum_insert heven 0 after
    rw [show (0 : UInt16).toNat = 0 from rfl, Nat.add_zero] at hzero
    -- the checksum stands in a word of its own
    have hsplit : pseudoSum (before ++ leBytes 2 c.toNat ++ after) protocol len ipSrc ipDest
        = pseudoSum (before ++ leBytes 2 0 ++ after) protocol len ipSrc ipDest + c.toNat := by
      rw [pseudoSum, pseudoSum, wordSum_insert heven, hzero]
      omega
    have hall := Lib.residue_add_complement (m := 65535) (by omega)
      (pseudoSum (before ++ leBytes 2 0 ++ after) protocol len ipSrc ipDest)
    rw [hsplit, hval, hall] at hzval
    have hz0 : z = 0 := by
      apply UInt16.toNat_inj.mp
      rw [hzval]
      rfl
    rw [hz, hz0]

/-! ## A datagram -/

/-- Pieces that are not empty are not empty behind an odd number of bytes. -/
theorem noEmptyBehindOdd_of_ne {nb : List (List UInt8)} (h : ∀ f ∈ nb, f ≠ []) (len : Nat) :
    NoEmptyBehindOdd nb len := by
  intro pre post hsplit
  exact absurd rfl (h [] (by rw [hsplit]; exact List.mem_append_right pre (List.mem_cons_self ..)))

/-- Eight bytes of a header with the checksum in the last two, and three of data. -/
def headerFront : List UInt8 := [0x13, 0x57, 0x00, 0x35, 0x00, 0x0b]

/-- A payload of an odd number of bytes. -/
def threeBytes : List UInt8 := [0xde, 0xad, 0xbe]

/-- The sender's chain: the header and the data. -/
theorem senderChain (w : Nat) :
    ChainBytes [headerFront ++ leBytes 2 w, threeBytes]
    (headerFront ++ leBytes 2 w ++ threeBytes) := by
  refine ⟨by simp, ?_, ?_, noEmptyBehindOdd_of_ne ?_ _⟩
  · simp
  · simp [headerFront, threeBytes]
  · simp [headerFront, threeBytes]

/-- The receiver's chain: cut inside words, with a byte of padding behind. -/
theorem receiverChain (w : Nat) :
    ChainBytes [headerFront.take 3, headerFront.drop 3 ++ leBytes 2 w, threeBytes ++ [0xff]]
      (headerFront ++ leBytes 2 w ++ threeBytes) := by
  refine ⟨by simp, ⟨[0xff], ?_⟩, ?_, noEmptyBehindOdd_of_ne ?_ _⟩
  · simp [headerFront]
  · simp [headerFront, threeBytes]
  · simp [headerFront, threeBytes]

/-- The checksum of the datagram. -/
theorem fnetChecksum_datagram :
    fnetChecksum [headerFront ++ leBytes 2 0, threeBytes]
    (headerFront ++ leBytes 2 0 ++ threeBytes).length
      = some 47695 := by
  obtain ⟨c, hc, hval⟩ := (senderChain 0).checksum
  have hsum : 65535 - residue 65535 (wordSum (headerFront ++ leBytes 2 0 ++ threeBytes))
    = 47695 := by
    decide
  rw [hc, show c = 47695 from UInt16.toNat_inj.mp (hval.trans hsum)]

theorem fnetChecksum_internet_datagram :
    ∃ c, fnetChecksum [headerFront.take 3, headerFront.drop 3 ++ leBytes 2 0, threeBytes ++ [0xff]]
        (headerFront ++ leBytes 2 0 ++ threeBytes).length = some c ∧
      leBytes 2 c.toNat
        = inNetworkOrder (internetChecksum (headerFront ++ leBytes 2 0 ++ threeBytes)) :=
  fnetChecksum_internet _ _ (receiverChain 0)

theorem fnetChecksum_verifies_datagram :
    fnetChecksum [headerFront.take 3, headerFront.drop 3 ++ leBytes 2 47695, threeBytes ++ [0xff]]
      (headerFront ++ leBytes 2 47695 ++ threeBytes).length = some 0 :=
  fnetChecksum_verifies headerFront threeBytes (by decide) _ _ (senderChain 0) 47695
    fnetChecksum_datagram (receiverChain 47695)

/-- Accepted with the checksum, so refused with any other. -/
theorem fnetChecksum_detects_datagram :
    fnetChecksum [headerFront ++ leBytes 2 47694, threeBytes]
        (headerFront ++ leBytes 2 47694 ++ threeBytes).length = some 0 ↔
      (47694 : UInt16) = 47695 ∨ (47695 : UInt16) = 0 ∧ (47694 : UInt16) = 0xffff ∨
        (47695 : UInt16) = 0xffff ∧ (47694 : UInt16) = 0 ∧
          ∃ b ∈ headerFront ++ threeBytes, b ≠ 0 :=
  fnetChecksum_detects headerFront threeBytes (by decide) 47695 47694 _ _ (senderChain 47695)
    ((senderChain 47695).accepted_iff.mpr (by decide)) (senderChain 47694)

/-- The addresses of `headerFront`. -/
theorem boardAddresses : Addresses [192, 168, 1, 2] [192, 168, 1, 9] 4 := ⟨rfl, rfl, by decide⟩

theorem transportChecksum_verifies_datagram :
    (16844 : UInt16) = fnetChecksumPseudoBuf (headerFront ++ leBytes 2 0 ++ threeBytes) 11
        (swapBytes 17) [192, 168, 1, 2] [192, 168, 1, 9] (4 : Nat) ∧
      transportChecksum [headerFront.take 3, headerFront.drop 3 ++ leBytes 2 16844,
        threeBytes ++ [0xff]]
        (swapBytes 17) 11 [192, 168, 1, 2] [192, 168, 1, 9] (4 : Nat) = some 0 := by
  have hlen : (11 : UInt16).toNat = (headerFront ++ leBytes 2 0 ++ threeBytes).length := rfl
  obtain ⟨c, hc, hval⟩ := (senderChain 0).transport (swapBytes 17) hlen boardAddresses
  have hsum : 65535 - residue 65535 (pseudoSum (headerFront ++ leBytes 2 0 ++ threeBytes)
      (swapBytes 17) 11 [192, 168, 1, 2] [192, 168, 1, 9]) = 16844 := by decide
  rw [show c = 16844 from UInt16.toNat_inj.mp (hval.trans hsum)] at hc
  exact transportChecksum_verifies headerFront threeBytes (by decide) (swapBytes 17) 11 hlen _ _ 4
    boardAddresses _ _ (senderChain 0) 16844 hc (receiverChain 16844)

end Datalogger
