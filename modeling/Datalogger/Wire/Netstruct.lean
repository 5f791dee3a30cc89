/-!
# `struct netstruct`

The packet buffer of `netprot_header.h`: a 28-byte header in network byte order
followed by the samples. `data` is the flexible `uint16_t data[0]` at the end of
the structure, so it is indexed by every sample number; how many samples the
static buffers behind it really hold is a matter of `capture.c`.
-/

namespace Datalogger

/-- `struct netstruct`: the fields in declaration order. -/
structure Netstruct where
  version : UInt8
  headerSize : UInt8
  flags : UInt8
  channelNo : UInt8
  count : UInt32
  tsS : UInt32
  tsNs : UInt32
  dtS : UInt32
  dtNs : UInt32
  size : UInt32
  data : Nat → UInt16

namespace Netstruct

/-- A buffer in `.bss`: every byte zero. -/
def zero : Netstruct :=
  { version := 0, headerSize := 0, flags := 0, channelNo := 0, count := 0, tsS := 0, tsNs := 0,
    dtS := 0, dtNs := 0, size := 0, data := fun _ => 0 }

/-- `data[0 .. m-1]`. -/
def samples (p : Netstruct) (m : Nat) : List UInt16 := (List.range m).map p.data

/-- `data[i] = x`. -/
def store (p : Netstruct) (i : Nat) (x : UInt16) : Netstruct :=
  { p with data := fun j => if j = i then x else p.data j }

theorem length_samples (p : Netstruct) (m : Nat) : (p.samples m).length = m := by
  simp [samples]

@[simp] theorem samples_zero (p : Netstruct) : p.samples 0 = [] := rfl

/-- A store behind the prefix does not show in it. -/
theorem samples_store_of_le (p : Netstruct) {i m : Nat} (x : UInt16) (h : m ≤ i) :
    (p.store i x).samples m = p.samples m := by
  apply List.map_congr_left
  intro j hj
  have hj : j < m := List.mem_range.mp hj
  simp only [store]
  rw [if_neg (by omega)]

/-- A store right behind the prefix extends it. -/
theorem samples_store_succ (p : Netstruct) (m : Nat) (x : UInt16) :
    (p.store m x).samples (m + 1) = p.samples m ++ [x] := by
  have hlast : (p.store m x).data m = x := by simp [store]
  have hprefix := samples_store_of_le p x (Nat.le_refl m)
  rw [samples] at hprefix ⊢
  rw [List.range_succ, List.map_append, hprefix, List.map_singleton, hlast]

end Netstruct

end Datalogger
