import Mathlib.Tactic.Ring
import Datalogger.Lib.LittleEndian
import Datalogger.Lib.OnesComplement

/-!
# `fnet_checksum.c`

The Internet checksum of a chain of net_bufs, as the FNET stack computes it: 16-bit words are
loaded as the little-endian core sees them and added in a 32-bit accumulator, 16 or 4 at a
time, and a word that two net_bufs share is put together from its bytes. The file shows
that the unrolled loops add every word once and that it does not matter how the bytes are
cut into net_bufs (`fnetChecksumNb_eq`): the checksum of a chain is the one that
`fnet_checksum_buf` computes of its bytes (`fnetChecksum_eq_buf`). `ChecksumSpec.lean`
compares the result with the definition of the Internet checksum that the source quotes.

Mirroring notes:
- `d_ptr` is the list of the bytes from the pointer on. The load of the last odd byte reads
  one byte more; it is masked out.
- A net_buf is its bytes here; `fnet_checksum_nb` goes through the chain from the first one.
- Behind the last net_buf the source loads through a null pointer. What it finds decides
  nothing if all bytes have been added; if some are missing, the result is `none`.
-/

namespace Datalogger

/-- `FNET_HTONS` and `FNET_NTOHS` on the little-endian core. -/
def swapBytes (x : UInt16) : UInt16 := UInt16.ofNat (x.toNat % 256 * 256 + x.toNat / 256)

/-- `*d_ptr`. -/
def loadWord (d : List UInt8) : UInt16 :=
  UInt16.ofNat ((d.getD 0 0).toNat + 256 * (d.getD 1 0).toNat)

/-- `k` times `sum += *d_ptr++`. -/
def addWords : Nat → UInt32 → List UInt8 → UInt32 × List UInt8
  | 0, sum, d => (sum, d)
  | k + 1, sum, d => addWords k (sum + (loadWord d).toUInt32) (d.drop 2)

/-- The loop that adds `k` words at a time, and `current_length` put right behind it. -/
def wordLoop (k : Nat) (sum : UInt32) (currentLength : Int) (d : List UInt8) :
    UInt32 × Int × List UInt8 :=
  if _h : 0 < k ∧ 0 ≤ currentLength - 2 * k then
    wordLoop k (addWords k sum d).1 (currentLength - 2 * k) (addWords k sum d).2
  else (sum, currentLength, d)
  termination_by currentLength.toNat
  decreasing_by omega

/-- `fnet_checksum_low`. -/
def fnetChecksumLow (sum : UInt32) (currentLength : Int) (d : List UInt8) : UInt32 :=
  let r32 := wordLoop 16 sum currentLength d
  let r8 := wordLoop 4 r32.1 r32.2.1 r32.2.2
  let r2 := wordLoop 1 r8.1 r8.2.1 r8.2.2
  if r2.2.1 ≠ 0 then r2.1 + (loadWord r2.2.2 &&& swapBytes 0xFF00).toUInt32 else r2.1

/-- The `while(len)` loop of `fnet_checksum_nb`; `nbs` is `tmp_nb->next`. -/
def checksumNbLoop (sum : UInt32) (len currentLength : Int) (d : List UInt8) :
    List (List UInt8) → Option UInt32
  | [] =>
    if len = 0 then some sum
    else if len - currentLength = 0 then some (fnetChecksumLow sum currentLength d)
    else none
  | nb :: nbs =>
    if len = 0 then some sum
    else
      let len' := len - currentLength
      let sum' := fnetChecksumLow sum currentLength d
      if currentLength % 2 ≠ 0 ∧ len' ≠ 0 then
        -- the previous fragment was odd: its last word goes on here
        let sum'' := sum' + (swapBytes (nb.getD 0 0).toUInt16).toUInt32
        checksumNbLoop sum'' (len' - 1)
          (if (nb.length : Int) > len' - 1 then len' - 1 else -1 + nb.length) (nb.drop 1) nbs
      else
        checksumNbLoop sum' len' (if (nb.length : Int) > len' then len' else nb.length) nb nbs

/-- `fnet_checksum_nb`. -/
def fnetChecksumNb (nb : List (List UInt8)) (len : Int) : Option UInt32 :=
  match nb with
  | [] => none
  | first :: next =>
    checksumNbLoop 0 len (if (first.length : Int) > len then len else first.length) first next

/-- Adding in the accumulated carries and the potential last one. -/
def addCarries (sum : UInt32) : UInt32 :=
  let sum := (sum >>> 16) + (sum &&& 0xffff)
  sum + (sum >>> 16)

/-- `(unsigned short)(0xffff & ~sum)`. -/
def complementOf (sum : UInt32) : UInt16 := (0xffff &&& ~~~sum).toUInt16

/-- `fnet_checksum`. -/
def fnetChecksum (nb : List (List UInt8)) (len : Int) : Option UInt16 :=
  (fnetChecksumNb nb len).map fun sum => complementOf (addCarries sum)

/-- `fnet_checksum_buf`. -/
def fnetChecksumBuf (buf : List UInt8) (bufLen : Int) : UInt16 :=
  complementOf (addCarries (fnetChecksumLow 0 bufLen buf))

/-- `fnet_checksum_pseudo_buf`. -/
def fnetChecksumPseudoBuf (buf : List UInt8) (bufLen protocol : UInt16) (ipSrc ipDest : List UInt8)
    (addrSize : Int) : UInt16 :=
  let sum := fnetChecksumLow 0 bufLen.toNat buf
  let sum := sum + (protocol.toUInt32 + (swapBytes bufLen).toUInt32)
  let sum := fnetChecksumLow sum addrSize ipSrc
  let sum := fnetChecksumLow sum addrSize ipDest
  complementOf (addCarries sum)

/-- `fnet_checksum_pseudo_start`. -/
def fnetChecksumPseudoStart (nb : List (List UInt8)) (protocol protocolLen : UInt16) :
    Option UInt16 :=
  (fnetChecksumNb nb protocolLen.toNat).map fun sum =>
    (addCarries (sum + (protocol.toUInt32 + (swapBytes protocolLen).toUInt32))).toUInt16

/-- `fnet_checksum_pseudo_end`. -/
def fnetChecksumPseudoEnd (sumS : UInt16) (ipSrc ipDest : List UInt8) (addrSize : Int) : UInt16 :=
  let sum := fnetChecksumLow sumS.toUInt32 addrSize ipSrc
  let sum := fnetChecksumLow sum addrSize ipDest
  complementOf (addCarries sum)

/-! ## The words of a buffer -/

/-- The 16-bit words of a buffer in the order of the core, an odd byte padded with zero. -/
def words : List UInt8 → List Nat
  | [] => []
  | [b] => [b.toNat]
  | b0 :: b1 :: d => (b0.toNat + 256 * b1.toNat) :: words d

/-- Their sum. -/
def wordSum (d : List UInt8) : Nat := (words d).sum

@[simp] theorem wordSum_nil : wordSum [] = 0 := rfl

@[simp] theorem wordSum_singleton (b : UInt8) : wordSum [b] = b.toNat := rfl

@[simp] theorem wordSum_cons_cons (b0 b1 : UInt8) (d : List UInt8) :
    wordSum (b0 :: b1 :: d) = b0.toNat + 256 * b1.toNat + wordSum d := List.sum_cons ..

/-- A word is loaded from two bytes, or from what is there of them. -/
theorem loadWord_toNat (d : List UInt8) :
    (loadWord d).toNat = (d.getD 0 0).toNat + 256 * (d.getD 1 0).toNat := by
  have h0 : (d.getD 0 0).toNat < 256 := UInt8.toNat_lt _
  have h1 : (d.getD 1 0).toNat < 256 := UInt8.toNat_lt _
  rw [loadWord, UInt16.toNat_ofNat_of_lt']
  show _ < 65536
  omega

/-- The first word and the others. -/
theorem wordSum_take_succ (d : List UInt8) (n : Nat) :
    wordSum (d.take (n + 2)) = (loadWord d).toNat + wordSum ((d.drop 2).take n) := by
  rw [loadWord_toNat]
  match d with
  | [] => simp
  | [b] => simp
  | b0 :: b1 :: d => simp

/-- The words of two parts, the first of them whole words. -/
theorem wordSum_take_add (d : List UInt8) (k n : Nat) :
    wordSum (d.take (2 * k + n))
      = wordSum (d.take (2 * k)) + wordSum ((d.drop (2 * k)).take n) := by
  induction k generalizing d with
  | zero => simp
  | succ k ih =>
    have hsplit : 2 * (k + 1) + n = 2 * k + n + 2 := by omega
    have hmul : 2 * (k + 1) = 2 * k + 2 := by omega
    rw [hsplit, wordSum_take_succ, ih, hmul, wordSum_take_succ d (2 * k), List.drop_drop,
      Nat.add_comm 2 (2 * k), Nat.add_assoc]

/-- Behind an even number of bytes a new word begins. -/
theorem wordSum_append_even {d : List UInt8} (h : d.length % 2 = 0) (e : List UInt8) :
    wordSum (d ++ e) = wordSum d + wordSum e := by
  obtain ⟨k, hk⟩ : ∃ k, d.length = 2 * k := ⟨d.length / 2, by omega⟩
  have hall := wordSum_take_add (d ++ e) k (2 * e.length)
  rw [List.take_of_length_le (by rw [List.length_append]; omega), List.take_left' hk,
    List.drop_left' hk, List.take_of_length_le (by omega)] at hall
  exact hall

/-- Behind an odd number the next byte completes a word. -/
theorem wordSum_append_odd {d : List UInt8} (h : d.length % 2 = 1) (b : UInt8) (e : List UInt8) :
    wordSum (d ++ b :: e) = wordSum d + 256 * b.toNat + wordSum e := by
  match d with
  | [] => simp at h
  | [x] =>
    rw [List.singleton_append, wordSum_cons_cons, wordSum_singleton]
  | x :: y :: d =>
    have hrest := wordSum_append_odd (d := d) (by simp only [List.length_cons] at h; omega) b e
    rw [List.cons_append, List.cons_append, wordSum_cons_cons, wordSum_cons_cons, hrest]
    ring

/-! ## The loops add every word once -/

theorem toUInt32_loadWord (d : List UInt8) :
    (loadWord d).toUInt32 = UInt32.ofNat (loadWord d).toNat := by
  apply UInt32.toNat_inj.mp
  have hlt : (loadWord d).toNat < 65536 := UInt16.toNat_lt _
  rw [UInt16.toNat_toUInt32, UInt32.toNat_ofNat_of_lt']
  show _ < 4294967296
  omega

/-- Adding `k` words adds their sum, and goes on behind them. -/
theorem addWords_eq (k : Nat) (sum : UInt32) (d : List UInt8) :
    addWords k sum d = (sum + UInt32.ofNat (wordSum (d.take (2 * k))), d.drop (2 * k)) := by
  induction k generalizing sum d with
  | zero => simp [addWords]
  | succ k ih =>
    have hmul : 2 * (k + 1) = 2 * k + 2 := by omega
    rw [addWords, ih, hmul, wordSum_take_succ, toUInt32_loadWord, UInt32.ofNat_add,
      UInt32.add_assoc,
      List.drop_drop, Nat.add_comm 2 (2 * k)]

/-- A loop adds whole words and leaves less than it takes in one pass. -/
theorem wordLoop_spec {k : Nat} (hk : 0 < k) (sum : UInt32) (n : Nat) (d : List UInt8) :
    ∃ j m : Nat, n = 2 * j + m ∧ m < 2 * k ∧
      wordLoop k sum n d
        = (sum + UInt32.ofNat (wordSum (d.take (2 * j))), (m : Int), d.drop (2 * j)) := by
  induction n using Nat.strongRecOn generalizing sum d with
  | ind n ih =>
    rcases Nat.lt_or_ge n (2 * k) with hlt | hge
    · refine ⟨0, n, by omega, hlt, ?_⟩
      rw [wordLoop, dif_neg (by omega)]
      simp
    · obtain ⟨j, m, hn, hm, hloop⟩ :=
        ih (n - 2 * k) (by omega) (addWords k sum d).1 (addWords k sum d).2
      refine ⟨k + j, m, by omega, hm, ?_⟩
      have hsub : (n : Int) - 2 * k = (n - 2 * k : Nat) := by omega
      have hmul : 2 * (k + j) = 2 * k + 2 * j := by omega
      rw [wordLoop, dif_pos ⟨hk, by omega⟩, hsub, hloop, addWords_eq, hmul, wordSum_take_add,
        UInt32.ofNat_add, UInt32.add_assoc, List.drop_drop]

/-- The last byte of an odd number, which counts as a word of its own. -/
theorem lowByte (d : List UInt8) :
    (loadWord d &&& swapBytes 0xFF00).toUInt32 = UInt32.ofNat (wordSum (d.take 1)) := by
  have hmask : swapBytes 0xFF00 = 255 := by decide
  have h0 : (d.getD 0 0).toNat < 256 := UInt8.toNat_lt _
  have hsum : wordSum (d.take 1) = (d.getD 0 0).toNat := by
    cases d with
    | nil => rfl
    | cons b d => simp
  apply UInt32.toNat_inj.mp
  rw [UInt16.toNat_toUInt32, hmask, UInt16.toNat_and, loadWord_toNat, hsum,
    UInt32.toNat_ofNat_of_lt' (show _ < 4294967296 by omega)]
  show _ &&& (2 ^ 8 - 1) = _
  rw [Nat.and_two_pow_sub_one_eq_mod]
  omega

/-- **The unrolled loops add every word once.** -/
theorem fnetChecksumLow_eq (sum : UInt32) (n : Nat) (d : List UInt8) :
    fnetChecksumLow sum n d = sum + UInt32.ofNat (wordSum (d.take n)) := by
  obtain ⟨j1, m1, hn, hm1, h1⟩ := wordLoop_spec (k := 16) (by omega) sum n d
  unfold fnetChecksumLow
  rw [h1]
  dsimp only
  obtain ⟨j2, m2, hn2, hm2, h2⟩ := wordLoop_spec (k := 4) (by omega)
    (sum + UInt32.ofNat (wordSum (d.take (2 * j1)))) m1 (d.drop (2 * j1))
  rw [h2]
  dsimp only
  obtain ⟨j3, m3, hn3, hm3, h3⟩ := wordLoop_spec (k := 1) (by omega)
    (sum + UInt32.ofNat (wordSum (d.take (2 * j1)))
      + UInt32.ofNat (wordSum ((d.drop (2 * j1)).take (2 * j2)))) m2
    ((d.drop (2 * j1)).drop (2 * j2))
  rw [h3]
  dsimp only
  -- what the three loops have added, and the odd byte
  have hall : wordSum (d.take n) = wordSum (d.take (2 * j1))
      + (wordSum ((d.drop (2 * j1)).take (2 * j2))
        + (wordSum (((d.drop (2 * j1)).drop (2 * j2)).take (2 * j3))
          + wordSum ((((d.drop (2 * j1)).drop (2 * j2)).drop (2 * j3)).take m3))) := by
    rw [hn, hn2, hn3, wordSum_take_add, wordSum_take_add, wordSum_take_add]
  rw [hall, UInt32.ofNat_add, UInt32.ofNat_add, UInt32.ofNat_add]
  rcases Nat.eq_zero_or_pos m3 with rfl | hpos
  · rw [if_neg (by simp), List.take_zero, wordSum_nil]
    have hnone : UInt32.ofNat 0 = 0 := rfl
    rw [hnone, UInt32.add_zero]
    simp only [UInt32.add_assoc]
  · have hone : m3 = 1 := by omega
    subst hone
    rw [if_pos (by decide), lowByte]
    simp only [UInt32.add_assoc]

/-! ## The cut into net_bufs does not matter -/

/-- No empty net_buf stands behind an odd number of bytes when more are to be added. -/
def NoEmptyBehindOdd (nb : List (List UInt8)) (len : Nat) : Prop :=
  ∀ pre post, nb = pre ++ [] :: post → pre.flatten.length < len → pre.flatten.length % 2 = 0

/-- A byte that is the second one of its word. -/
theorem swapBytes_byte (b : UInt8) :
    (swapBytes b.toUInt16).toUInt32 = UInt32.ofNat (256 * b.toNat) := by
  have hb : b.toNat < 256 := b.toNat_lt
  apply UInt32.toNat_inj.mp
  rw [UInt16.toNat_toUInt32, swapBytes, UInt8.toNat_toUInt16,
    UInt32.toNat_ofNat_of_lt' (show _ < 4294967296 by omega),
    UInt16.toNat_ofNat_of_lt' (show _ < 65536 by omega)]
  omega

@[simp] theorem checksumNbLoop_zero (sum : UInt32) (currentLength : Int) (d : List UInt8)
    (nbs : List (List UInt8)) : checksumNbLoop sum 0 currentLength d nbs = some sum := by
  cases nbs <;> exact if_pos rfl

/-- The last fragment. -/
theorem checksumNbLoop_inside (sum : UInt32) {len : Nat} {d : List UInt8} (h : len ≤ d.length)
    (nbs : List (List UInt8)) :
    checksumNbLoop sum len len d nbs = some (sum + UInt32.ofNat (wordSum (d.take len))) := by
  rcases Nat.eq_zero_or_pos len with rfl | hpos
  · have hnone : UInt32.ofNat 0 = 0 := rfl
    rw [Int.natCast_zero, checksumNbLoop_zero, List.take_zero, wordSum_nil, hnone, UInt32.add_zero]
  · have hne : ¬ (len : Int) = 0 := by omega
    cases nbs with
    | nil => rw [checksumNbLoop, if_neg hne, if_pos (Int.sub_self _), fnetChecksumLow_eq]
    | cons nb nbs =>
      rw [checksumNbLoop, if_neg hne]
      dsimp only
      rw [Int.sub_self, if_neg (fun h => h.2 rfl), checksumNbLoop_zero, fnetChecksumLow_eq]

/-- A fragment with an even number of bytes, and more to come. -/
theorem checksumNbLoop_even (sum : UInt32) {len : Nat} {d : List UInt8} (hlt : d.length < len)
    (heven : d.length % 2 = 0) (nb : List UInt8) (nbs : List (List UInt8)) :
    checksumNbLoop sum len d.length d (nb :: nbs)
      = checksumNbLoop (sum + UInt32.ofNat (wordSum d)) (len - d.length : Nat)
          (min (len - d.length) nb.length : Nat) nb nbs := by
  have hsub : (len : Int) - d.length = (len - d.length : Nat) := by omega
  have hcur : (if (nb.length : Int) > (len - d.length : Nat) then ((len - d.length : Nat) : Int)
      else nb.length) = (min (len - d.length) nb.length : Nat) := by
    split <;> omega
  rw [checksumNbLoop, if_neg (by omega)]
  dsimp only
  rw [if_neg (fun h => h.1 (by omega)), fnetChecksumLow_eq, List.take_length, hsub, hcur]

/-- One with an odd number; the next one has the other byte of the word. -/
theorem checksumNbLoop_odd (sum : UInt32) {len : Nat} {d : List UInt8} (hlt : d.length < len)
    (hodd : d.length % 2 = 1) (b : UInt8) (t : List UInt8) (nbs : List (List UInt8)) :
    checksumNbLoop sum len d.length d ((b :: t) :: nbs)
      = checksumNbLoop (sum + UInt32.ofNat (wordSum d) + UInt32.ofNat (256 * b.toNat))
          (len - d.length - 1 : Nat) (min (len - d.length - 1) t.length : Nat) t nbs := by
  have hsub : (len : Int) - d.length - 1 = (len - d.length - 1 : Nat) := by omega
  have hcur : (if ((b :: t).length : Int) > (len - d.length - 1 : Nat)
      then ((len - d.length - 1 : Nat) : Int) else -1 + ((b :: t).length : Int))
      = (min (len - d.length - 1) t.length : Nat) := by
    rw [List.length_cons]
    split <;> omega
  rw [checksumNbLoop, if_neg (by omega)]
  dsimp only
  rw [if_pos ⟨by omega, by omega⟩, fnetChecksumLow_eq, List.take_length, hsub, hcur,
    List.getD_cons_zero, swapBytes_byte, List.drop_one, List.tail_cons]

/-- **The loop of `fnet_checksum_nb`**, entered where a word begins. -/
theorem checksumNbLoop_eq (nbs : List (List UInt8)) :
    ∀ (sum : UInt32) (len : Nat) (d : List UInt8), len ≤ (d ++ nbs.flatten).length →
      NoEmptyBehindOdd (d :: nbs) len →
      checksumNbLoop sum len (min len d.length : Nat) d nbs
        = some (sum + UInt32.ofNat (wordSum ((d ++ nbs.flatten).take len))) := by
  induction nbs with
  | nil =>
    intro sum len d hlen _
    rw [List.flatten_nil, List.append_nil] at hlen ⊢
    rw [Nat.min_eq_left hlen]
    exact checksumNbLoop_inside sum hlen []
  | cons nb nbs ih =>
    intro sum len d hlen hempty
    rw [List.flatten_cons] at hlen ⊢
    rcases Nat.lt_or_ge d.length len with hlt | hin
    · rw [Nat.min_eq_right (Nat.le_of_lt hlt), List.take_append,
        List.take_of_length_le (Nat.le_of_lt hlt)]
      rw [List.length_append, List.length_append] at hlen
      rcases Nat.mod_two_eq_zero_or_one d.length with heven | hodd
      · have hnext : NoEmptyBehindOdd (nb :: nbs) (len - d.length) := by
          intro pre post hsplit hpre
          have hd := hempty (d :: pre) post (by rw [hsplit]; rfl)
          rw [List.flatten_cons, List.length_append] at hd
          have := hd (by omega)
          omega
        rw [checksumNbLoop_even sum hlt heven, ih _ _ nb (by rw [List.length_append]; omega) hnext,
          wordSum_append_even heven, UInt32.ofNat_add, UInt32.add_assoc]
      · cases nb with
        | nil =>
          have hd := hempty [d] nbs rfl
          rw [List.flatten_cons, List.flatten_nil, List.append_nil] at hd
          have := hd hlt
          omega
        | cons b t =>
          have hnext : NoEmptyBehindOdd (t :: nbs) (len - d.length - 1) := by
            intro pre post hsplit hpre
            cases pre with
            | nil => rfl
            | cons p pre =>
              obtain ⟨rfl, hrest⟩ := List.cons.inj hsplit
              have hd := hempty (d :: (b :: t) :: pre) post (by rw [hrest]; rfl)
              simp only [List.flatten_cons, List.length_append, List.length_cons] at hd hpre ⊢
              have := hd (by omega)
              omega
          have htake : ((b :: t) ++ nbs.flatten).take (len - d.length)
              = b :: (t ++ nbs.flatten).take (len - d.length - 1) := by
            obtain ⟨m, hm⟩ : ∃ m, len - d.length = m + 1 := ⟨len - d.length - 1, by omega⟩
            rw [hm, List.cons_append, List.take_succ_cons, Nat.add_sub_cancel]
          rw [List.length_cons] at hlen
          rw [checksumNbLoop_odd sum hlt hodd, ih _ _ t (by rw [List.length_append]; omega) hnext,
            htake, wordSum_append_odd hodd, UInt32.ofNat_add, UInt32.ofNat_add]
          simp only [UInt32.add_assoc]
    · rw [Nat.min_eq_left hin, List.take_append_of_le_length hin]
      exact checksumNbLoop_inside sum hin _

/-- `fnet_checksum_nb` adds the words of the bytes, however they are cut. -/
theorem fnetChecksumNb_eq {nb : List (List UInt8)} {len : Nat} (hne : nb ≠ [])
    (hlen : len ≤ nb.flatten.length) (hempty : NoEmptyBehindOdd nb len) :
    fnetChecksumNb nb len = some (UInt32.ofNat (wordSum (nb.flatten.take len))) := by
  cases nb with
  | nil => exact absurd rfl hne
  | cons first next =>
    have hcur : (if (first.length : Int) > len then (len : Int) else first.length)
        = (min len first.length : Nat) := by
      split <;> omega
    show checksumNbLoop 0 len _ first next = _
    rw [hcur, checksumNbLoop_eq next 0 len first hlen hempty, UInt32.zero_add]
    rfl

/-- The checksum of a chain is that of its bytes in one buffer, however they are cut. -/
theorem fnetChecksum_eq_buf {nb : List (List UInt8)} {len : Nat} (hne : nb ≠ [])
    (hlen : len ≤ nb.flatten.length) (hempty : NoEmptyBehindOdd nb len) :
    fnetChecksum nb len = some (fnetChecksumBuf (nb.flatten.take len) len) := by
  rw [fnetChecksum, fnetChecksumNb_eq hne hlen hempty, fnetChecksumBuf, fnetChecksumLow_eq,
    List.take_take, Nat.min_self, UInt32.zero_add]
  rfl

end Datalogger
