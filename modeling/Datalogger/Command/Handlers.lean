import Datalogger.Command.ParseAssignment
import Datalogger.Lib.Writes

/-!
# The command handlers

The seven functions of `netprot_default_command_list`. Each is given the text behind
the command's name, the reply array and its size, and reads and writes the object
table. A handler's result holds what it returned, what it wrote into the reply array
(`writes`) and into the command text (`nulls`, which only SET has), the table it left
and the calls it made into the capture and trigger modules.

The table is a parameter of every handler; the result is `none` where the code would
read past one of its arrays or follow a null pointer.

Mirroring notes:
- The board is the ADC board, the configured default.
- SET, +OK and START do not look at `outlen`: SET's replies are `strcpy`s of any length.
- The size GET has left is an `int` that `snprintf` takes as unsigned, so a negative one
  is no bound (`snprintfTo`).
-/

namespace Datalogger

open Lib (CharArray Write ascii skipSpaces decimalInt strcpyTo strncpyTo snprintfTo)

/-- A call into `capture.c` or `trigger.c`. -/
inductive DriverCall where
  | captureSetup (n ignoreBuffers : Int32)
  | triggerIsrStart
  | triggerIsrStop
  deriving DecidableEq, Repr

/-- The outcome of a handler. -/
structure HandlerResult where
  ret : Int32
  writes : List Write
  nulls : List Nat
  objects : List NetprotObject
  calls : List DriverCall
  deriving DecidableEq

/-- The text behind the command name, and `outlen`. -/
abbrev Handler := List NetprotObject → List UInt8 → Nat → Option HandlerResult

/-- A handler that only replies. -/
def replies (objects : List NetprotObject) (ret : Int32) (writes : List Write) : HandlerResult :=
  { ret := ret, writes := writes, nulls := [], objects := objects, calls := [] }

def crlf : List UInt8 := [13, 10]

/-! ## SET -/

/-- The ways SET refuses. -/
inductive SetError where
  | objectNotFound
  | invalidAssignment
  | attrNotFound
  | attrReadOnly
  | attrTooLong
  | attrUnknownType
  deriving DecidableEq, Repr

/-- The reply to a refused SET. -/
def SetError.text : SetError → List UInt8
  | .objectNotFound => ascii "-ERR OBJECT NOT FOUND \x0d\x0a"
  | .invalidAssignment => ascii "-ERR INVALID ASSIGNMENT \x0d\x0a"
  | .attrNotFound => ascii "-ERR ATTR NOT FOUND \x0d\x0a"
  | .attrReadOnly => ascii "-ERR ATTR READ ONLY \x0d\x0a"
  | .attrTooLong => ascii "-ERR ATTR TOO LONG \x0d\x0a"
  | .attrUnknownType => ascii "-ERR ATTR UNKNOWN TYPE \x0d\x0a"

/-- The reply to a SET that succeeded. -/
def success : List UInt8 := ascii "+OK \x0d\x0a"

/-- The attribute SET assigns to, by its indices, and what it becomes. -/
structure SetTarget where
  obj : Nat
  attr : Nat
  param : NetprotParam
  deriving DecidableEq

/-- What SET decided, and the bytes of the command text it overwrote on the way. -/
structure SetRun where
  nulls : List Nat
  outcome : Except SetError SetTarget

/-- The read-only check and the assignment, behind `/* Check read only */`. -/
def setValue (i j : Nat) (attr : NetprotParam) (text : List UInt8) (a : Assignment) :
    Option (Except SetError SetTarget) :=
  if attr.flags &&& flagRo ≠ 0 then some (.error .attrReadOnly)
  else match a.type, attr.type with
    | .int, .int => a.integer.map fun v => .ok ⟨i, j, { attr with intval := v }⟩
    | .str, .str => a.string.map fun o =>
      if h : (a.textAt text o).length + 1 < 32 then
        .ok ⟨i, j, { attr with strval := CharArray.strcpy (a.memAt text o) (Nat.lt_of_succ_lt h) }⟩
      else .error .attrTooLong
    | _, _ => some (.error .attrUnknownType)

/-- From `/* Parse assignment */` on, with the object found and `text` at `ptr`. -/
def setAttr (i : Nat) (object : NetprotObject) (text : List UInt8) : Option SetRun :=
  match parseAssignment text with
  | none => none
  | some a =>
    if a.ret ≠ 0 then some ⟨a.nulls, .error .invalidAssignment⟩
    else match a.name with
      | none => none
      | some n =>
        match netprotFindAttr (a.textAt text n) object with
        | none => none
        | some (.error _) => some ⟨a.nulls, .error .attrNotFound⟩
        | some (.ok j) =>
          match object.attrs[j]? with
          | none => none
          | some attr => (setValue i j attr text a).map fun outcome => ⟨a.nulls, outcome⟩

/-- The text SET parses as an assignment. -/
def assignmentText (object : NetprotObject) (inp : List UInt8) : List UInt8 :=
  skipSpaces ((skipSpaces inp).drop object.name.text.length)

/-- What SET decides about `inp`; `nulls` are offsets from `inp`. -/
def setRun (objects : List NetprotObject) (inp : List UInt8) : Option SetRun :=
  match netprotFindObject objects (skipSpaces inp) with
  | none => none
  | some (.error _) => some ⟨[], .error .objectNotFound⟩
  | some (.ok i) =>
    match objects[i]? with
    | none => none
    | some object =>
      let text := assignmentText object inp
      (setAttr i object text).map fun r =>
        ⟨r.nulls.map (inp.length - text.length + ·), r.outcome⟩

/-- `netprot_objects[i].attrs[j] = p`. -/
def storeParam (objects : List NetprotObject) (i j : Nat) (p : NetprotParam) :
    List NetprotObject :=
  objects.modify i fun o => { o with attrs := o.attrs.set j p }

/-- The table SET leaves. -/
def SetRun.objects (objects : List NetprotObject) (r : SetRun) : List NetprotObject :=
  match r.outcome with
  | .error _ => objects
  | .ok t => storeParam objects t.obj t.attr t.param

/-- The text SET replies. -/
def SetRun.reply (r : SetRun) : List UInt8 :=
  match r.outcome with
  | .error e => e.text
  | .ok _ => success

/-- What SET leaves and returns. -/
def SetRun.result (objects : List NetprotObject) (r : SetRun) : HandlerResult :=
  { ret := match r.outcome with
      | .error _ => -1
      | .ok _ => 0
    writes := [strcpyTo 0 r.reply]
    nulls := r.nulls
    objects := r.objects objects
    calls := [] }

/-- `netprot_cmd_set`. -/
def netprotCmdSet : Handler := fun objects inp _ => (setRun objects inp).map (SetRun.result objects)

/-! ## GET -/

/-- `out[outlen] = '\0'`. -/
def nullTerminate (outlen : Nat) : Write := ⟨outlen, [0]⟩

/-- The loop over the attribute names: `off` is `outptr - out`. -/
def listParams : List NetprotParam → Nat → Int → Option (List Write)
  | [], _, _ => none
  | p :: ps, off, outRemaining =>
    if p.name.text = [] ∨ outRemaining = 0 then some []
    else
      let paramlen := p.name.text.length + 2
      (listParams ps (off + paramlen) (outRemaining - paramlen)).map
        (snprintfTo off outRemaining (p.name.text ++ ascii ", ") ++ ·)

/-- `GET <object>`: all attribute names. -/
def getList (object : NetprotObject) (outlen : Nat) : Option (List Write) :=
  (listParams object.attrs 1 (outlen - 1)).map
    (snprintfTo 0 outlen (ascii "+") ++ · ++ [nullTerminate outlen])

/-- The text of an attribute's value. -/
def NetprotParam.valueText (p : NetprotParam) : List UInt8 :=
  match p.type with
  | .int => decimalInt p.intval.toInt
  | .str => p.strval.text

/-- `/* Output Value */`. -/
def getValue (attr : NetprotParam) (outlen : Nat) : List Write :=
  snprintfTo 0 outlen (ascii "+" ++ attr.valueText ++ crlf) ++ [nullTerminate outlen]

/-- A GET that finds nothing. -/
def getFails (objects : List NetprotObject) (text : List UInt8) (outlen : Nat) : HandlerResult :=
  replies objects (-1) [strncpyTo 0 text outlen, nullTerminate outlen]

/-- `netprot_cmd_get`. -/
def netprotCmdGet : Handler := fun objects inp outlen =>
  let ptr := skipSpaces inp
  match netprotFindObject objects ptr with
  | none => none
  | some (.error _) => some (getFails objects (ascii "-ERR OBJECT NOT FOUND \x0d\x0a") outlen)
  | some (.ok i) =>
    match objects[i]? with
    | none => none
    | some object =>
      let ptr := skipSpaces (ptr.drop object.name.text.length)
      if ptr = [] then (getList object outlen).map (replies objects 0)
      else match netprotFindAttr ptr object with
        | none => none
        | some (.error _) => some (getFails objects (ascii "-ERR ATTR NOT FOUND \x0d\x0a") outlen)
        | some (.ok j) => object.attrs[j]?.map fun attr => replies objects 0 (getValue attr outlen)

/-! ## RESET -/

/-- The inner loop of RESET on one attribute list, entered with index `j`: the list and
the index it leaves. The first `j` entries are passed over. -/
def resetAttrs : Nat → List NetprotParam → Option (List NetprotParam × Nat)
  | _, [] => none
  | 0, p :: ps =>
    if p.name.text = [] then some (p :: ps, 0)
    else (resetAttrs 0 ps).map fun r => (p.restored :: r.1, r.2 + 1)
  | j + 1, p :: ps => (resetAttrs j ps).map fun r => (p :: r.1, r.2 + 1)

/-- The outer loop. The index `j` of the inner one is set to zero before it and not again. -/
def resetObjects : Nat → List NetprotObject → Option (List NetprotObject)
  | _, [] => none
  | j, o :: os =>
    if o.name.text = [] then some (o :: os)
    else match resetAttrs j o.attrs with
      | none => none
      | some r => (resetObjects r.2 os).map ({ o with attrs := r.1 } :: ·)

/-- `netprot_cmd_reset`. -/
def netprotCmdReset : Handler := fun objects _ outlen =>
  (resetObjects 0 objects).map fun objects =>
    replies objects 0 [strncpyTo 0 (ascii "+OK \x0d\x0a") outlen]

/-! ## PING, +OK, START and STOP -/

/-- `netprot_cmd_ping`. -/
def netprotCmdPing : Handler := fun objects _ outlen =>
  let retval := ascii "+PONG \x0d\x0a"
  if outlen < retval.length + 1 then some (replies objects (-1) [])
  else some (replies objects 0 [strcpyTo 0 retval])

/-- `netprot_cmd_ok`. -/
def netprotCmdOk : Handler := fun objects _ _ => some (replies objects 0 [strcpyTo 0 []])

/-- `CONFIG_SAMPLES_PER_BUFFER`. -/
def configSamplesPerBuffer : Int32 := 500

/-- What START does once it has found `CHANNEL DELAY`. -/
def startResult (objects : List NetprotObject) (captureDelay : NetprotParam) : HandlerResult :=
  { replies objects 0 [strcpyTo 0 []] with
    calls := [.captureSetup configSamplesPerBuffer captureDelay.intval, .triggerIsrStart] }

/-- `netprot_cmd_start`. The result of the search is not looked at, so when it fails the
pointer `capture_delay` is never set. -/
def netprotCmdStart : Handler := fun objects _ _ =>
  match netprotFindObjectAttr objects (ascii "CHANNEL") (ascii "DELAY") with
  | some (.ok captureDelay) => some (startResult objects captureDelay)
  | _ => none

/-- `netprot_cmd_stop`. -/
def netprotCmdStop : Handler := fun objects _ outlen =>
  let retval := ascii "+OK \x0d\x0a"
  if outlen < retval.length + 1 then
    some { replies objects (-1) [] with calls := [.triggerIsrStop] }
  else some { replies objects 0 [strcpyTo 0 retval] with calls := [.triggerIsrStop] }

end Datalogger
