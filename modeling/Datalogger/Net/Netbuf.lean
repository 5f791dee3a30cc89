import Datalogger.Lib.RefCount

/-!
# `fnet_netbuf.c`

A net_buf describes a piece of a data buffer; a chain of net_bufs is a packet. Several
net_bufs may describe pieces of one data buffer, whose first word is a reference counter:
`fnet_netbuf_copy` makes a chain over the buffers of another one, and what cuts a chain
only moves the borders of its pieces. This file models the functions of
`fnet_netbuf.c`; `NetbufSpec.lean` says what each does to the bytes of its chain and that it
leaves the bytes of all others alone.

Mirroring notes:
- A chain is the list of its net_bufs, so `next` is the order of the list and the null
  pointer the empty list. `total_length` counts in the first net_buf of a chain; in those
  `fnet_netbuf_copy` makes behind it, the source leaves it unset.
- A data buffer is a cell with its reference counter; `data_ptr` is an offset into it.
- `room` tells of each allocation whether it succeeds. An allocation that drains the
  protocols is tried once more; what `fnet_prot_drain` frees belongs to other chains.
- A new data buffer holds whatever was in memory (`junk`).
- Lengths and offsets are not negative, except `FNET_NETBUF_COPYALL`.
- A loop that would run off the end of its chain stops there; the lengths of a chain, added
  up, are its `total_length`, and then none does but the one that follows.
- Trimming a whole chain away, `fnet_netbuf_trim` reads `nb->length` through the null pointer
  behind it. The loop ends there and the sum is not used; here it is 0 (`headLength`).
- Two reads are of net_bufs just freed: `tmp_nb->flags` in `fnet_netbuf_trim`, when the first
  net_buf went, and `loc_nb->next` in `fnet_netbuf_copy`, when it gives up. The allocator leaves
  both fields as they were, and they are taken to be.
- `fnet_netbuf_trim`, `_cut_center` and `_pullup` read `nb->total_length` before they test for
  a null pointer. Here they find nothing to do in the empty chain.
-/

namespace Datalogger

open Lib (Cells Counted)

/-- `fnet_netbuf_t`. -/
structure Netbuf where
  data : Nat
  off : Nat
  length : Nat
  totalLength : Nat
  flags : UInt32
  deriving DecidableEq, Repr

/-- The heap, as far as net_bufs use it: the data buffers, the number of `fnet_netbuf_t`
that are allocated, the first name that was never used, how many allocations were asked
for, and what allocations find. -/
structure NetbufHeap where
  cells : Cells Nat (List UInt8)
  headers : Nat
  fresh : Nat
  asked : Nat
  room : Nat → Bool
  junk : Nat → UInt8

namespace NetbufHeap

/-- `fnet_malloc_netbuf`, and once more after `fnet_prot_drain` if `drain` is set. -/
def malloc (h : NetbufHeap) (drain : Bool) : Bool × NetbufHeap :=
  if h.room h.asked then (true, { h with asked := h.asked + 1 })
  else if drain then (h.room (h.asked + 1), { h with asked := h.asked + 2 })
  else (false, { h with asked := h.asked + 1 })

/-- Allocating a `fnet_netbuf_t`. -/
def newHeader (h : NetbufHeap) (drain : Bool) : Bool × NetbufHeap :=
  let r := h.malloc drain
  if r.1 then (true, { r.2 with headers := r.2.headers + 1 }) else r

/-- Allocating a data buffer for `len` bytes, with its reference counter at 1. -/
def newData (h : NetbufHeap) (len : Nat) (drain : Bool) : Option Nat × NetbufHeap :=
  let r := h.malloc drain
  if r.1 then
    (some r.2.fresh,
      { r.2 with
        cells := r.2.cells.alloc r.2.fresh ((List.range len).map r.2.junk)
        fresh := r.2.fresh + 1 })
  else (none, r.2)

/-- Freeing a `fnet_netbuf_t`. -/
def freeHeader (h : NetbufHeap) : NetbufHeap := { h with headers := h.headers - 1 }

/-- `if(((int *)nb->data)[0] == 1) fnet_free_netbuf(nb->data) else` count down. -/
def releaseData (h : NetbufHeap) (data : Nat) : NetbufHeap :=
  { h with cells := h.cells.release data }

/-- One more reference. -/
def shareData (h : NetbufHeap) (data : Nat) : NetbufHeap := { h with cells := h.cells.share data }

/-- `fnet_memcpy` into a data buffer that holds nothing else. -/
def fillData (h : NetbufHeap) (data : Nat) (bytes : List UInt8) : NetbufHeap :=
  { h with cells := h.cells.write data bytes }

end NetbufHeap

/-- The bytes a net_buf describes. -/
def Netbuf.bytes (h : NetbufHeap) (nb : Netbuf) : List UInt8 :=
  (((h.cells.valueAt nb.data).getD []).drop nb.off).take nb.length

/-- The bytes of a chain. -/
def chainBytes (h : NetbufHeap) (nb : List Netbuf) : List UInt8 := nb.flatMap (Netbuf.bytes h)

/-- The lengths of a chain, added up. -/
def chainLength : List Netbuf → Nat
  | [] => 0
  | nb :: rest => nb.length + chainLength rest

/-- `nb->length` behind a step to the next net_buf. Behind the last one that is a read through
the null pointer, added to a sum that is not used any more. -/
def headLength : List Netbuf → Nat
  | [] => 0
  | nb :: _ => nb.length

/-- `fnet_netbuf_new`. -/
def fnetNetbufNew (h : NetbufHeap) (len : Int) (drain : Bool) : Option Netbuf × NetbufHeap :=
  if len < 0 then (none, h)
  else
    match h.newHeader drain with
    | (false, h) => (none, h)
    | (true, h) =>
      match h.newData len.toNat drain with
      | (none, h) => (none, h.freeHeader)
      | (some data, h) =>
        (some
          { data := data, off := 0, length := len.toNat, totalLength := len.toNat, flags := 0 },
          h)

/-- `fnet_netbuf_from_buf`; `data` is what `data_ptr` points to. -/
def fnetNetbufFromBuf (h : NetbufHeap) (data : List UInt8) (drain : Bool) :
    Option Netbuf × NetbufHeap :=
  match fnetNetbufNew h data.length drain with
  | (none, h) => (none, h)
  | (some nb, h) => (some nb, h.fillData nb.data data)

/-- `fnet_netbuf_free`; what it returns is the rest of the list. -/
def fnetNetbufFree (h : NetbufHeap) (nb : Netbuf) : NetbufHeap := (h.releaseData nb.data).freeHeader

/-- `fnet_netbuf_free_chain`. -/
def fnetNetbufFreeChain (h : NetbufHeap) (nb : List Netbuf) : NetbufHeap :=
  nb.foldl fnetNetbufFree h

/-! ## Copies -/

/-- `FNET_NETBUF_COPYALL`, or a number of bytes. -/
inductive CopyLen where
  | all
  | bytes (n : Nat)
  deriving DecidableEq, Repr

/-- The `len` that `fnet_netbuf_copy` and `fnet_netbuf_to_buf` go on with, if they do. -/
def copyLen (nb : List Netbuf) (offset : Nat) (len : CopyLen) : Option Int :=
  let totLen : Int := chainLength nb
  match len with
  | .all => some (totLen - offset)
  | .bytes n => if (n : Int) > totLen - offset ∨ totLen - offset < 0 then none else some n

/-- `while((tot_offset += tmp_nb->length) <= offset) tmp_nb = tmp_nb->next;` and the offset
in the net_buf that is found. -/
def seekLoop (offset : Nat) : Nat → List Netbuf → Option (Nat × List Netbuf)
  | _, [] => none
  | totOffset, nb :: rest =>
    if totOffset + nb.length ≤ offset then seekLoop offset (totOffset + nb.length) rest
    else some (nb.length + offset - (totOffset + nb.length), nb :: rest)

/-- The net_buf that `offset` lies in, with those behind it, and the offset in it. -/
def seek (offset : Nat) : List Netbuf → Option (Nat × List Netbuf)
  | [] => none
  | nb :: rest =>
    if offset < nb.length then some (offset, nb :: rest) else seekLoop offset 0 (nb :: rest)

/-- What `fnet_netbuf_copy` does when there is no memory for another net_buf: the first of
those made so far is freed, of the others only the descriptors. -/
def abandonCopies (h : NetbufHeap) : List Netbuf → NetbufHeap
  | [] => h
  | first :: others =>
    { fnetNetbufFree h first with headers := (fnetNetbufFree h first).headers - others.length }

/-- The `do ... while (tot_len > 0)` loop of `fnet_netbuf_copy`; `made` are the copies so far. -/
def copyLoop (h : NetbufHeap) (drain : Bool) (totLen : Int) (made : List Netbuf) :
    List Netbuf → Option (List Netbuf) × NetbufHeap
  | [] => (none, h)
  | nb :: rest =>
    match h.newHeader drain with
    | (false, h) => (none, abandonCopies h made)
    | (true, h) =>
      let h := h.shareData nb.data
      let left := totLen - nb.length
      let copy : Netbuf :=
        { data := nb.data
          off := nb.off
          length := if left < 0 then (left + nb.length).toNat else nb.length
          totalLength := 0
          flags := nb.flags }
      if 0 < left then copyLoop h drain left (made ++ [copy]) rest else (some (made ++ [copy]), h)

/-- `fnet_netbuf_copy`. -/
def fnetNetbufCopy (h : NetbufHeap) (nb : List Netbuf) (offset : Nat) (len : CopyLen)
    (drain : Bool) :
    Option (List Netbuf) × NetbufHeap :=
  match copyLen nb offset len with
  | none => (none, h)
  | some len =>
    match h.newHeader drain with
    | (false, h) => (none, h)
    | (true, h) =>
      match seek offset nb with
      | none => (none, h)
      | some (_, []) => (none, h)
      | some (totOffset, tmp :: rest) =>
        let h := h.shareData tmp.data
        let left := len - ((tmp.length : Int) - totOffset)
        let first : Netbuf :=
          { data := tmp.data
            off := tmp.off + totOffset
            length := if left ≤ 0 then len.toNat else tmp.length - totOffset
            totalLength := len.toNat
            flags := (nb.head?.map Netbuf.flags).getD 0 }
        if left ≤ 0 then (some [first], h) else copyLoop h drain left [first] rest

/-- The `do ... while(tot_len > 0)` loop of `fnet_netbuf_to_buf`: what is written to the buffer. -/
def toBufLoop (h : NetbufHeap) : Nat → Nat → List Netbuf → List UInt8
  | _, _, [] => []
  | totLen, totOffset, nb :: rest =>
    let curLen := if nb.length - totOffset > totLen then totLen else nb.length - totOffset
    let copied := ((nb.bytes h).drop totOffset).take curLen
    if 0 < totLen - curLen then copied ++ toBufLoop h (totLen - curLen) 0 rest else copied

/-- `fnet_netbuf_to_buf`: the bytes it writes. -/
def fnetNetbufToBuf (h : NetbufHeap) (nb : List Netbuf) (offset : Nat)
    (len : CopyLen) : List UInt8 :=
  match copyLen nb offset len with
  | none => []
  | some len =>
    if len = 0 then []
    else
      match seek offset nb with
      | none => []
      | some (totOffset, found) => toBufLoop h len.toNat totOffset found

/-! ## Making the first net_buf longer -/

/-- The net_bufs that are copied whole, the last one that is copied from, and those behind. -/
def pullupSplit (len : Nat) : Nat → List Netbuf → Option (List Netbuf × Netbuf × List Netbuf)
  | _, [] => none
  | totLen, nb :: rest =>
    if totLen + nb.length < len then
      (pullupSplit len (totLen + nb.length) rest).map fun r => (nb :: r.1, r.2)
    else some ([], nb, rest)

/-- The loop that copies net_bufs whole and frees them; `copied` is in the new buffer. -/
def pullupMiddle (h : NetbufHeap) (copied : List UInt8) : List Netbuf → List UInt8 × NetbufHeap
  | [] => (copied, h)
  | nb :: rest => pullupMiddle (fnetNetbufFree h nb) (copied ++ nb.bytes h) rest

/-- `fnet_netbuf_pullup`. -/
def fnetNetbufPullup (h : NetbufHeap) (nb : List Netbuf) (len : Nat) :
    Option (List Netbuf) × NetbufHeap :=
  match nb with
  | [] => (none, h)
  | first :: next =>
    if first.totalLength < len then (none, h)
    else if len ≤ first.length ∨ len ≤ 0 then (some (first :: next), h)
    else
      match pullupSplit len first.length next with
      | none => (none, h)
      | some (middle, last, behind) =>
        match h.newData len false with
        | (none, h) => (none, h)
        | (some data, h) =>
          let copied := first.bytes h
          let h := h.releaseData first.data
          let r := pullupMiddle h copied middle
          let rest := len - r.1.length
          let h := r.2.fillData data (r.1 ++ (last.bytes r.2).take rest)
          let first := { first with data := data, off := 0, length := len }
          if last.length - rest = 0 then (some (first :: behind), fnetNetbufFree h last)
          else
            (some (first :: { last with off := last.off + rest, length := last.length - rest }
              :: behind), h)

/-! ## Cutting -/

/-- `while(nb != 0 && len >= tot_len)`: net_bufs that are cut whole are freed. -/
def trimFrontLoop (len : Nat) (h : NetbufHeap) : Nat → List Netbuf → Nat × List Netbuf × NetbufHeap
  | totLen, [] => (totLen, [], h)
  | totLen, nb :: rest =>
    if totLen ≤ len then trimFrontLoop len (fnetNetbufFree h nb) (totLen + headLength rest) rest
    else (totLen, nb :: rest, h)

/-- `while(nb != 0 && (total_rem + len > tot_len))`: the net_bufs in front of the one in which the
chain will end, that one and those behind it. -/
def trimEndSplit (target : Nat) : Nat → List Netbuf → Nat × List Netbuf × List Netbuf
  | totLen, [] => (totLen, [], [])
  | totLen, nb :: rest =>
    if totLen < target then
      let r := trimEndSplit target (totLen + headLength rest) rest
      (r.1, nb :: r.2.1, r.2.2)
    else (totLen, [], nb :: rest)

/-- `total_length` of the first net_buf of a chain. -/
def setTotalLength (totalLength : Nat) : List Netbuf → List Netbuf
  | [] => []
  | nb :: rest => { nb with totalLength := totalLength } :: rest

/-- `fnet_netbuf_trim` with `len > 0`. -/
def trimFront (h : NetbufHeap) (len : Nat) : List Netbuf → List Netbuf × NetbufHeap
  | [] => ([], h)
  | head :: next =>
    if head.totalLength < len then (head :: next, h)
    else
      match trimFrontLoop len h head.length (head :: next) with
      | (_, [], h) => ([], h)
      | (totLen, nb :: rest, h) =>
        ({ nb with
            off := nb.off + (nb.length - (totLen - len))
            length := totLen - len
            flags := head.flags
            totalLength := head.totalLength - len } :: rest, h)

/-- `fnet_netbuf_trim` with `len < 0`; `cut` is `-len`. -/
def trimEnd (h : NetbufHeap) (cut : Nat) : List Netbuf → List Netbuf × NetbufHeap
  | [] => ([], h)
  | head :: next =>
    if head.totalLength < cut then (head :: next, h)
    else
      match trimEndSplit (head.totalLength - cut) head.length (head :: next) with
      | (_, _, []) => ([], h)
      | (totLen, front, nb :: rest) =>
        -- `nb->length += len + total_rem - tot_len`
        let nb := { nb with length := nb.length + (head.totalLength - cut) - totLen }
        let h := fnetNetbufFreeChain h rest
        if nb.length = 0 then ([], fnetNetbufFree h nb)
        else (setTotalLength (head.totalLength - cut) (front ++ [nb]), h)

/-- `fnet_netbuf_trim`. -/
def fnetNetbufTrim (h : NetbufHeap) (nb : List Netbuf) (len : Int) : List Netbuf × NetbufHeap :=
  if len = 0 then (nb, h)
  else if 0 < len then trimFront h len.toNat nb
  else trimEnd h (-len).toNat nb

/-- `while(nb != 0 && (offset >= tot_len))` of `fnet_netbuf_cut_center`: the net_bufs in front
of the one `offset` lies in, that one and those behind it, and the length up to its end. -/
def cutSplit (offset : Nat) : Nat → List Netbuf → Nat × List Netbuf × List Netbuf
  | totLen, [] => (totLen, [], [])
  | totLen, nb :: rest =>
    if totLen ≤ offset then
      let r := cutSplit offset (totLen + headLength rest) rest
      (r.1, nb :: r.2.1, r.2.2)
    else (totLen, [], nb :: rest)

/-- `fnet_netbuf_cut_center`: whether it returns a chain, and the one behind `nb_ptr`. -/
def fnetNetbufCutCenter (h : NetbufHeap) (chain : List Netbuf) (offset len : Nat) :
    Bool × List Netbuf × NetbufHeap :=
  match chain with
  | [] => (false, [], h)
  | head :: next =>
    if len = 0 then (false, chain, h)
    else if head.totalLength < len + offset then (false, chain, h)
    else if offset = 0 then
      let r := fnetNetbufTrim h chain len
      (!r.1.isEmpty, r.1, r.2)
    else
      match cutSplit offset head.length (head :: next) with
      | (_, _, []) => (false, chain, h)
      | (totLen, front, nb :: rest) =>
        let shorter := head.totalLength - len
        if totLen - nb.length = offset then
          -- from the beginning of a net_buf, with the length of the whole chain in it
          let r := fnetNetbufTrim h ({ nb with totalLength := head.totalLength } :: rest) len
          (true, setTotalLength shorter (front ++ r.1), r.2)
        else if len < totLen - offset then
          -- inside one net_buf: close the gap, or split it in two
          let kept := nb.length - (totLen - offset)
          if h.cells.refsAt nb.data = 1 then
            let buffer := (h.cells.valueAt nb.data).getD []
            let moved := (buffer.drop (nb.off + kept + len)).take (totLen - offset - len)
            let buffer := buffer.take (nb.off + kept) ++ moved
              ++ buffer.drop (nb.off + kept + moved.length)
            (true, setTotalLength shorter (front ++ { nb with length := nb.length - len } :: rest),
              h.fillData nb.data buffer)
          else
            match fnetNetbufNew h (totLen - offset - len : Nat) false with
            | (none, h) => (false, chain, h)
            | (some tail, h) =>
              let h := h.fillData tail.data
                (((nb.bytes h).drop (kept + len)).take (totLen - offset - len))
              (true,
                setTotalLength shorter (front ++ { nb with length := kept } :: tail :: rest), h)
        else if totLen - offset = len then
          (true, setTotalLength shorter (front ++ { nb with length := nb.length - len } :: rest), h)
        else
          let r := fnetNetbufTrim h (setTotalLength head.totalLength rest)
            (len - (totLen - offset) : Nat)
          (true,
            setTotalLength shorter
              (front ++ { nb with length := nb.length - (totLen - offset) } :: r.1), r.2)

/-- `fnet_netbuf_concat`. -/
def fnetNetbufConcat : List Netbuf → List Netbuf → List Netbuf
  | [], nb2 => nb2
  | nb1, [] => nb1
  | head :: next, nb2 :: next2 =>
    { head with
      flags := head.flags ||| nb2.flags
      totalLength := head.totalLength + nb2.totalLength } :: (next ++ nb2 :: next2)

end Datalogger
