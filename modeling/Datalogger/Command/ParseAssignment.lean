import Datalogger.Command.Params
import Datalogger.Lib.Numerals

/-!
# `parse_assignment`

The scanner Ragel generated for `name=value`: six tables and a loop that looks the
next byte up by two binary searches, first among the state's single keys, then among
its ranges. The tables below are those of `parse_assignment.c`.

The function works in place. It returns pointers into the string it is given and
writes a null byte behind the name and behind a string value, so the result carries
offsets from `start` and the list `nulls` of the offsets it overwrote.

Mirroring notes:
- State 0 is the error state. The final states are not tested (`write data
  noerror nofinal`): what decides success is whether a value action has run.
- A `none` among the results is a null pointer that the code would follow.
- `valout->integer` keeps what it held when the value is no integer; nothing reads it
  then.
-/

namespace Datalogger

open Lib (cstr setZeros strtol)

/-! ## The tables -/

def assignmentActions : List Nat :=
  [0, 1, 0, 1, 1, 1, 3, 1,
   4, 1, 5, 2, 2, 3]

def assignmentKeyOffsets : List Nat :=
  [0, 0, 4, 12, 16, 26, 35, 46,
   48, 54, 54, 56, 59]

def assignmentTransKeys : List Nat :=
  [65, 90, 97, 122, 32, 61, 9, 13,
   65, 90, 97, 122, 32, 61, 9, 13,
   32, 34, 39, 43, 45, 48, 9, 13,
   49, 57, 32, 9, 13, 48, 57, 65,
   90, 97, 122, 32, 34, 39, 9, 13,
   48, 57, 65, 90, 97, 122, 48, 57,
   48, 57, 65, 70, 97, 102, 48, 57,
   120, 48, 57, 48, 57, 65, 70, 97,
   102, 0]

def assignmentSingleLengths : List Nat :=
  [0, 0, 2, 2, 6, 1, 3, 0,
   0, 0, 0, 1, 0]

def assignmentRangeLengths : List Nat :=
  [0, 2, 3, 1, 2, 4, 4, 1,
   3, 0, 1, 1, 3]

def assignmentIndexOffsets : List Nat :=
  [0, 0, 3, 9, 13, 22, 28, 36,
   38, 42, 43, 45, 48]

def assignmentIndicies : List Nat :=
  [0, 0, 1, 2, 3, 2, 4, 4,
   1, 5, 6, 5, 1, 6, 7, 7,
   8, 8, 9, 6, 10, 1, 11, 11,
   11, 11, 11, 1, 12, 13, 13, 12,
   12, 12, 12, 1, 14, 1, 15, 15,
   15, 1, 1, 14, 1, 16, 14, 1,
   15, 15, 15, 1, 0]

def assignmentTransTargs : List Nat :=
  [2, 0, 3, 4, 2, 3, 4, 5,
   7, 11, 10, 6, 6, 9, 10, 12,
   8]

def assignmentTransActions : List Nat :=
  [1, 0, 3, 3, 0, 0, 0, 0,
   11, 11, 11, 7, 0, 9, 5, 5,
   5]

/-- `assignment_start`. -/
def assignmentStart : Nat := 1

/-! ## One byte -/

/-- The entries of a key list, a range being two consecutive keys. -/
def keyRanges : List Nat → List (Nat × Nat)
  | lo :: hi :: keys => (lo, hi) :: keyRanges keys
  | _ => []

/-- The binary search `while (1)`, between `_lower` and one past `_upper`. A single
key is the range from itself to itself. -/
def searchKeys (keys : List (Nat × Nat)) (c : Nat) : Nat → Nat → Nat → Option Nat
  | 0, _, _ => none
  | fuel + 1, lower, upper =>
    if upper ≤ lower then none
    else
      let mid := lower + (upper - 1 - lower) / 2
      match keys[mid]? with
      | none => none
      | some (lo, hi) =>
        if c < lo then searchKeys keys c fuel lower mid
        else if hi < c then searchKeys keys c fuel (mid + 1) upper
        else some mid

/-- The transition `_trans` that `_match` is reached with. -/
def assignmentTrans (cs : Nat) (c : UInt8) : Nat :=
  let keys := assignmentTransKeys.drop (assignmentKeyOffsets.getD cs 0)
  let klen := assignmentSingleLengths.getD cs 0
  let rlen := assignmentRangeLengths.getD cs 0
  let trans := assignmentIndexOffsets.getD cs 0
  let singles := (keys.take klen).map fun k => (k, k)
  match searchKeys singles c.toNat klen 0 klen with
  | some i => trans + i
  | none =>
    match searchKeys (keyRanges ((keys.drop klen).take (2 * rlen))) c.toNat rlen 0 rlen with
    | some i => trans + klen + i
    | none => trans + klen + rlen

/-- The next state and the actions to run. -/
def assignmentNext (cs : Nat) (c : UInt8) : Nat × List Nat :=
  let trans := assignmentIndicies.getD (assignmentTrans cs c) 0
  let acts := assignmentTransActions.getD trans 0
  (assignmentTransTargs.getD trans 0,
    if acts = 0 then []
    else (assignmentActions.drop (acts + 1)).take (assignmentActions.getD acts 0))

/-- `enum valout_type`. -/
inductive ValoutType where
  | none
  | int
  | str
  deriving DecidableEq, Repr

/-- The scanner's variables; pointers are offsets from `start`, `none` being `NULL`. -/
structure Scan where
  cs : Nat
  name : Option Nat
  nameStart : Option Nat
  nameEnd : Option Nat
  valueStart : Option Nat
  valueEnd : Option Nat
  type : ValoutType
  string : Option Nat
  deriving DecidableEq, Repr

/-- The variables when the scanner starts. -/
def scanInit : Scan :=
  { cs := assignmentStart, name := none, nameStart := none, nameEnd := none
    valueStart := none, valueEnd := none, type := .none, string := none }

/-- The `switch` over the actions, with `p` at offset `p`. -/
def Scan.act (p : Nat) (s : Scan) : Nat → Scan
  | 0 => { s with nameStart := some p }
  | 1 => { s with name := s.nameStart, nameEnd := some p }
  | 2 => { s with valueStart := some p }
  | 3 => { s with valueEnd := some p, type := .int }
  | 4 => { s with valueStart := some p }
  | 5 => { s with string := s.valueStart, valueEnd := some p, type := .str }
  | _ => s

/-- One byte: enter the next state and run its actions. -/
def Scan.step (s : Scan) (p : Nat) (c : UInt8) : Scan :=
  (assignmentNext s.cs c).2.foldl (Scan.act p) { s with cs := (assignmentNext s.cs c).1 }

/-- The loop from `_resume` to `_out` over `[p, pe)`. -/
def scanExec (s : Scan) (p : Nat) : List UInt8 → Scan
  | [] => s
  | c :: rest => if s.cs = 0 then s else scanExec (s.step p c) (p + 1) rest

/-! ## The function -/

/-- What the caller of `parse_assignment` sees. -/
structure Assignment where
  ret : Int32
  name : Option Nat
  type : ValoutType
  string : Option Nat
  integer : Option Int32
  nulls : List Nat
  deriving DecidableEq

/-- The memory from an offset behind `start` on, as the caller finds it afterwards. -/
def Assignment.memAt (start : List UInt8) (a : Assignment) (off : Nat) : List UInt8 :=
  (setZeros start a.nulls).drop off

/-- The C string there. -/
def Assignment.textAt (start : List UInt8) (a : Assignment) (off : Nat) : List UInt8 :=
  cstr (a.memAt start off)

/-- `if (*name) { *name_end = '\0'; }`. -/
def Scan.nameNulls (s : Scan) : Option (List Nat) :=
  match s.name, s.nameEnd with
  | none, _ => some []
  | some _, some e => some [e]
  | some _, none => none

/-- The part behind the scanner, on the string at `start`. -/
def parseValue (start : List UInt8) (s : Scan) (nulls : List Nat) : Option Assignment :=
  match s.type with
  | .str => s.valueEnd.map fun e =>
      { ret := 0, name := s.name, type := .str, string := s.string, integer := none
        nulls := nulls ++ [e] }
  | .int => s.valueStart.map fun v =>
      { ret := 0, name := s.name, type := .int, string := s.string
        integer := some (strtol (cstr ((setZeros start nulls).drop v))), nulls := nulls }
  | .none => some
      { ret := -1, name := s.name, type := .none, string := s.string, integer := none
        nulls := nulls }

/-- `parse_assignment(start, start + strlen(start), …)`. -/
def parseAssignment (start : List UInt8) : Option Assignment :=
  let s := scanExec scanInit 0 start
  match s.nameNulls with
  | none => none
  | some nulls => parseValue start s nulls

end Datalogger
