import Datalogger.Board.Device
import Datalogger.Board.Dhcp
import Datalogger.Board.Sockets
import Datalogger.Broadcast.Bcast
import Datalogger.Session.GetCommands

/-!
# `main`

The board from `wait_dhcp` on, as a machine: `Pc` says where `main` stands, and an event
is what the next piece of it meets, a broadcast, a result of `connect` or `send`, a chunk
of commands, or an interrupt. An event that `main` does not wait for where it stands
changes nothing, so a run is any list of events (`boardStep`). `boardStep_cases` takes a step
apart into its pieces.

Mirroring notes:
- The trigger interrupt comes between any two pieces. A handler is one piece: while it
  runs the trigger is off, or it is left on or turned on.
- Whether a `connect`, `send` or `recv` on an open descriptor succeeds is up to the
  environment, and so is what is received. On one that is not open `connect` fails.
- A handler of the DHCP client that is called when `wait_dhcp` has returned writes to where
  its local was. The model lets the run go on; `main`'s own variables lie elsewhere.
- A run ends where the code is undefined: a chunk that fills `commandstr`, a handler that
  reads past its arrays, a reply without an end.
- Displays, messages and `bcast_flush` leave nothing behind and are left out.
-/

namespace Datalogger

open Lib (ascii strtok setZeros)

/-- The local state of the loop in `netprot_get_commands`. -/
structure CommandLoop where
  outstr : List UInt8
  commandstr : List UInt8
  pos : Nat
  deriving DecidableEq, Repr

/-- Where `main` stands. -/
inductive Pc where
  | boot
  | waitDhcp
  | setupListener
  | halted
  | connect
  | hello
  | helloSocket
  | helloConnect
  | poll
  | work
  | getCommands
  | commands (loop : CommandLoop)
  | stopTrigger
  | setEmpty
  | undefined
  deriving DecidableEq, Repr

/-- The variables of the board and of `main`. -/
structure Board where
  pc : Pc
  connected : Bool
  disconnect : Bool
  serverS : Socket
  bcastS : Socket
  sockets : SocketDesc
  device : Device
  dhcp : Option DhcpIf
  callbackParams : CallbackParams
  ticks : UInt32

/-- How `netprot_hello` ends behind `socket()`. -/
inductive HelloEnd where
  | connectError
  | notConnected
  | sendError
  | ok
  deriving DecidableEq, Repr

/-- What happens next. -/
inductive Event where
  | trigger (sample : UInt16)
  | timer
  | dhcpInit (granted bound : Bool)
  | poll (recv : DhcpRecv)
  | listen (granted bound : Bool)
  | broadcast (recv : Nat → Option (List UInt8))
  | goOn
  | socket (granted : Bool)
  | hello (how : HelloEnd)
  | send (results : List SendResult)
  | recv (locals : Locals) (recv : Recv)
  | command (sent : Bool)

/-- What a step does that can be seen from outside of it. -/
inductive Output where
  | handler (h : DhcpHandler) (inWaitDhcp : Bool)
  | hello (s : Socket)
  | opened (s : Socket)
  | closed (s : Socket)
  | connected
  | disconnected
  | processed (t : Turn)
  | packet (p : Netstruct)

/-! ## The pieces -/

/-- `fnet_dhcp_init` and the registration of the handlers. -/
def Board.dhcpInit (b : Board) (granted bound : Bool) : Board :=
  let r := socket b.sockets granted
  if r.1 ≠ socketInvalid ∧ bound then
    { b with
      pc := .waitDhcp
      sockets := r.2
      dhcp := some (fnetDhcpInit configDhcpTries)
      callbackParams := Datalogger.callbackParams configDhcpTries }
  else { b with pc := .setupListener }

/-- `fnet_poll_services`, whose only service is the DHCP client. -/
def Board.pollServices (b : Board) (recv : DhcpRecv) : Board × Option DhcpHandler :=
  match b.dhcp with
  | none => (b, none)
  | some dhcp =>
    let r := fnetDhcpStateMachine dhcp b.ticks recv
    match r.2 with
    | none => ({ b with dhcp := some r.1 }, none)
    | some h =>
      ({ b with dhcp := some r.1, callbackParams := h.call b.callbackParams }, some h)

/-- One turn of `while (callback_params.state == WAITING)`. -/
def Board.waitPoll (b : Board) (recv : DhcpRecv) : Board × List Output :=
  let r := b.pollServices recv
  ({ r.1 with
      pc := if r.1.callbackParams.state = .waiting then .waitDhcp else .setupListener },
    r.2.toList.map (.handler · true))

/-- `bcast_setup_listener`, and the `while (1)` behind it when it fails. -/
def Board.setupListener (b : Board) (granted bound : Bool) : Board :=
  let r := socket b.sockets granted
  if r.1 ≠ socketInvalid ∧ bound then { b with pc := .connect, sockets := r.2, bcastS := r.1 }
  else { b with pc := .halted }

/-- `bcast_check_broadcast` in `netprot_connect`. -/
def Board.checkBroadcast (b : Board) (recv : Nat → Option (List UInt8)) : Board :=
  if (bcastCheckBroadcast recv ⟨0, 0, []⟩ 4951).1 = 1 then { b with pc := .hello }
  else { b with pc := .poll }

/-- `netprot_goodbye(s)` at the start of `netprot_hello`. -/
def Board.helloGoodbye (b : Board) : Board × List Output :=
  let r := netprotGoodbye b.sockets b.serverS
  ({ b with pc := .helloSocket, sockets := r.1 }, .hello b.serverS :: r.2.toList.map .closed)

/-- `*s = socket(AF_INET, SOCK_STREAM, 0)`. -/
def Board.helloSocket (b : Board) (granted : Bool) : Board × List Output :=
  let r := socket b.sockets granted
  ({ b with pc := .helloConnect, sockets := r.2, serverS := r.1 },
    if r.1 = socketInvalid then [] else [.opened r.1])

/-- The rest of `netprot_hello`, and `connected = netprot_connect(...)`. -/
def Board.helloConnect (b : Board) (how : HelloEnd) : Board × List Output :=
  if b.sockets.IsOpen b.serverS ∧ how = .ok then
    ({ b with pc := .poll, connected := true }, [.connected])
  else ({ b with pc := .poll }, [])

/-- `fnet_poll_services()` in the main loop, and `if (connected)`. -/
def Board.mainPoll (b : Board) (recv : DhcpRecv) : Board × List Output :=
  let r := b.pollServices recv
  ({ r.1 with pc := if b.connected then .work else .connect }, r.2.toList.map (.handler · false))

/-- `if (disconnect)`, up to the flush. -/
def Board.goodbye (b : Board) : Board × List Output :=
  let r := netprotGoodbye b.sockets b.serverS
  ({ b with pc := .stopTrigger, disconnect := false, sockets := r.1 }, r.2.toList.map .closed)

/-- `trigger_isr_stop()`. -/
def Board.stopTrigger (b : Board) : Board :=
  { b with pc := .setEmpty, device := b.device.call .triggerIsrStop }

/-- `capture_set_empty()` and `connected = 0`. -/
def Board.setEmpty (b : Board) : Board × List Output :=
  ({ b with pc := .connect, device := b.device.setEmpty, connected := false }, [.disconnected])

/-- `netprot_send_capture`, once its loop is over. -/
def Board.sendCapture (b : Board) (results : List SendResult) : Board × List Output :=
  let r := netprotSendCapture b.device.sender results
  let b' := { b with device := { b.device with sender := r.sender } }
  match r.exit with
  | .running => (b, [])
  | .error => ({ b' with pc := .work, disconnect := true }, r.packet.toList.map .packet)
  | .done sent =>
    ({ b' with pc := if 0 < sent then .work else .getCommands }, r.packet.toList.map .packet)

/-- `netprot_get_commands` up to its loop. -/
def Board.getCommands (b : Board) (locals : Locals) : Recv → Board
  | .socketError => { b with pc := .work, disconnect := true }
  | .received bytes _ =>
    if bytes = [] then { b with pc := .work }
    else if commandstrLen ≤ bytes.length then { b with pc := .undefined }
    else
      let commandstr := (bytes ++ locals.commandstr.drop bytes.length).set bytes.length 0
      { b with pc := .commands ⟨locals.outstr, commandstr, 0⟩ }

/-- Behind the loop: `/* Update Display if ADC board */`. -/
def Board.updateDisplay (b : Board) : Board :=
  match netprotFindObjectAttr b.device.objects (ascii "CHANNEL") (ascii "NAME") with
  | some (.ok _) => { b with pc := .work }
  | _ => { b with pc := .undefined }

/-- One turn of the loop. -/
def Board.command (b : Board) (l : CommandLoop) (sent : Bool) : Board × List Output :=
  match strtok isNewline l.commandstr l.pos with
  | none => ({ b with pc := .undefined }, [])
  | some none => (b.updateDisplay, [])
  | some (some token) =>
    let t := processTurn b.device.objects l.outstr token.text
    match t.result, t.reply with
    | some res, some _ =>
      let b := { b with device := b.device.afterLine res }
      if sent then
        let commandstr := setZeros token.mem (res.nulls.map (token.start + ·))
        ({ b with pc := .commands ⟨t.outstr, commandstr, token.saved⟩ }, [.processed t])
      else ({ b with pc := .work, disconnect := true }, [.processed t])
    | _, _ => ({ b with pc := .undefined }, [])

/-! ## Steps -/

/-- One event. -/
def boardStep (b : Board) (e : Event) : Board × List Output :=
  match b.pc, e with
  | .undefined, _ => (b, [])
  | _, .trigger x => ({ b with device := b.device.triggerIsr x }, [])
  | _, .timer => ({ b with ticks := b.ticks + 1 }, [])
  | .boot, .dhcpInit granted bound => (b.dhcpInit granted bound, [])
  | .waitDhcp, .poll recv => b.waitPoll recv
  | .setupListener, .listen granted bound => (b.setupListener granted bound, [])
  | .connect, .broadcast recv => (b.checkBroadcast recv, [])
  | .hello, .goOn => b.helloGoodbye
  | .helloSocket, .socket granted => b.helloSocket granted
  | .helloConnect, .hello how => b.helloConnect how
  | .poll, .poll recv => b.mainPoll recv
  | .work, .goOn => if b.disconnect then b.goodbye else (b, [])
  | .work, .send results => if b.disconnect then (b, []) else b.sendCapture results
  | .stopTrigger, .goOn => (b.stopTrigger, [])
  | .setEmpty, .goOn => b.setEmpty
  | .getCommands, .recv locals recv => (b.getCommands locals recv, [])
  | .commands l, .command sent => b.command l sent
  | _, _ => (b, [])

/-- The board in front of `wait_dhcp`: `server_s` is not initialised, and neither is
`bcast_s`, which is set before it is used. -/
def Board.boot (mem : BufId → Netstruct) (serverS bcastS : Socket) : Board :=
  { pc := .boot, connected := false, disconnect := false, serverS := serverS, bcastS := bcastS
    sockets := SocketDesc.empty, device := Device.powerUp mem, dhcp := none
    callbackParams := Datalogger.callbackParams configDhcpTries, ticks := 0 }

/-- The board and the outputs after the events. -/
def boardRun (b : Board) (events : List Event) : Board × List Output := Lib.run boardStep b events

theorem boardRun_cons (b : Board) (e : Event) (events : List Event) :
    boardRun b (e :: events) = ((boardRun (boardStep b e).1 events).1,
      (boardStep b e).2 ++ (boardRun (boardStep b e).1 events).2) := rfl

theorem boardRun_snoc (b : Board) (events : List Event) (e : Event) :
    boardRun b (events ++ [e]) = ((boardStep (boardRun b events).1 e).1,
      (boardRun b events).2 ++ (boardStep (boardRun b events).1 e).2) :=
  Lib.run_snoc boardStep b events e

/-! ## What a step does -/

theorem Board.pollServices_none {b : Board} (h : b.dhcp = none) (recv : DhcpRecv) :
    b.pollServices recv = (b, none) := by
  unfold Board.pollServices
  rw [h]

/-- A poll is a pass of the client, and a call of the handler that the pass asks for. -/
theorem Board.pollServices_some {b : Board} {dhcp : DhcpIf} (h : b.dhcp = some dhcp)
    (recv : DhcpRecv) :
    b.pollServices recv =
      ({ b with
          dhcp := some (fnetDhcpStateMachine dhcp b.ticks recv).1
          callbackParams := (fnetDhcpStateMachine dhcp b.ticks recv).2.elim b.callbackParams
            (·.call b.callbackParams) },
        (fnetDhcpStateMachine dhcp b.ticks recv).2) := by
  unfold Board.pollServices
  rw [h]
  dsimp only
  split
  next hnone =>
    rw [hnone]
    rfl
  next handler hsome =>
    rw [hsome]
    rfl

/-- A poll changes nothing but the client and its parameters. -/
theorem Board.pollServices_frame (b : Board) (recv : DhcpRecv) :
    ∃ dhcp params, (b.pollServices recv).1 = { b with dhcp := dhcp, callbackParams := params } := by
  cases hdhcp : b.dhcp with
  | none =>
    rw [Board.pollServices_none hdhcp]
    exact ⟨b.dhcp, b.callbackParams, rfl⟩
  | some dhcp =>
    rw [Board.pollServices_some hdhcp]
    exact ⟨_, _, rfl⟩

/-- The pieces, each with the place it stands at and the event it takes. -/
inductive BoardStep (b : Board) : Event → Board × List Output → Prop
  | idle (e : Event) : BoardStep b e (b, [])
  | trigger (x : UInt16) :
      BoardStep b (.trigger x) ({ b with device := b.device.triggerIsr x }, [])
  | timer : BoardStep b .timer ({ b with ticks := b.ticks + 1 }, [])
  | dhcpInit (hpc : b.pc = .boot) (granted bound : Bool) :
      BoardStep b (.dhcpInit granted bound) (b.dhcpInit granted bound, [])
  | waitPoll (hpc : b.pc = .waitDhcp) (recv : DhcpRecv) : BoardStep b (.poll recv) (b.waitPoll recv)
  | setupListener (hpc : b.pc = .setupListener) (granted bound : Bool) :
      BoardStep b (.listen granted bound) (b.setupListener granted bound, [])
  | checkBroadcast (hpc : b.pc = .connect) (recv : Nat → Option (List UInt8)) :
      BoardStep b (.broadcast recv) (b.checkBroadcast recv, [])
  | helloGoodbye (hpc : b.pc = .hello) : BoardStep b .goOn b.helloGoodbye
  | helloSocket (hpc : b.pc = .helloSocket) (granted : Bool) :
      BoardStep b (.socket granted) (b.helloSocket granted)
  | helloConnect (hpc : b.pc = .helloConnect) (how : HelloEnd) :
      BoardStep b (.hello how) (b.helloConnect how)
  | mainPoll (hpc : b.pc = .poll) (recv : DhcpRecv) : BoardStep b (.poll recv) (b.mainPoll recv)
  | goodbye (hpc : b.pc = .work) (hdisconnect : b.disconnect = true) :
      BoardStep b .goOn b.goodbye
  | sendCapture (hpc : b.pc = .work) (hdisconnect : b.disconnect = false)
      (results : List SendResult) : BoardStep b (.send results) (b.sendCapture results)
  | stopTrigger (hpc : b.pc = .stopTrigger) : BoardStep b .goOn (b.stopTrigger, [])
  | setEmpty (hpc : b.pc = .setEmpty) : BoardStep b .goOn b.setEmpty
  | getCommands (hpc : b.pc = .getCommands) (locals : Locals) (recv : Recv) :
      BoardStep b (.recv locals recv) (b.getCommands locals recv, [])
  | command (l : CommandLoop) (hpc : b.pc = .commands l) (sent : Bool) :
      BoardStep b (.command sent) (b.command l sent)

/-- **Every step is one of the pieces.** -/
theorem boardStep_cases (b : Board) (e : Event) : BoardStep b e (boardStep b e) := by
  unfold boardStep
  split
  next => exact .idle _
  next x _ => exact .trigger x
  next => exact .timer
  next granted bound hpc => exact .dhcpInit hpc granted bound
  next recv hpc => exact .waitPoll hpc recv
  next granted bound hpc => exact .setupListener hpc granted bound
  next recv hpc => exact .checkBroadcast hpc recv
  next hpc => exact .helloGoodbye hpc
  next granted hpc => exact .helloSocket hpc granted
  next how hpc => exact .helloConnect hpc how
  next recv hpc => exact .mainPoll hpc recv
  next hpc =>
    split
    next hdisconnect => exact .goodbye hpc hdisconnect
    next => exact .idle _
  next results hpc =>
    split
    next => exact .idle _
    next hdisconnect => exact .sendCapture hpc (eq_false_of_ne_true hdisconnect) results
  next hpc => exact .stopTrigger hpc
  next hpc => exact .setEmpty hpc
  next locals recv hpc => exact .getCommands hpc locals recv
  next l sent hpc => exact .command l hpc sent
  next => exact .idle _

/-! ## What a step leaves alone -/

/-- `main` is in its loop. -/
def Pc.Looping : Pc → Prop
  | .boot | .waitDhcp | .setupListener => False
  | _ => True

/-- What is sent in a session. -/
def Output.InSession : Output → Prop
  | .processed _ | .packet _ => True
  | _ => False

/-- The piece changes nothing but the device, `disconnect` and where `main` stands in the
session. -/
structure SessionFrame (b : Board) (r : Board × List Output) : Prop where
  board : ∃ pc disconnect device,
    r.1 = { b with pc := pc, disconnect := disconnect, device := device } ∧
    pc.Looping ∧ pc ≠ .helloSocket
  outputs : ∀ o ∈ r.2, o.InSession

theorem sessionFrame_silent (b : Board) (disconnect : Bool) {pc : Pc} (hpc : pc.Looping)
    (hset : pc ≠ .helloSocket) :
    SessionFrame b ({ b with pc := pc, disconnect := disconnect }, []) :=
  ⟨⟨pc, disconnect, b.device, rfl, hpc, hset⟩, nofun⟩

theorem Board.sendCapture_frame {b : Board} (hpc : b.pc = .work) (results : List SendResult) :
    SessionFrame b (b.sendCapture results) := by
  have hpacket : ∀ o ∈ (netprotSendCapture b.device.sender results).packet.toList.map Output.packet,
      o.InSession := by
    intro o ho
    obtain ⟨p, -, rfl⟩ := List.mem_map.mp ho
    trivial
  unfold Board.sendCapture
  dsimp only
  split
  next =>
    exact ⟨⟨b.pc, b.disconnect, b.device, rfl, by rw [hpc]; trivial, by rw [hpc]; nofun⟩, nofun⟩
  next => exact ⟨⟨.work, true, _, rfl, trivial, nofun⟩, hpacket⟩
  next sent _ =>
    refine ⟨⟨_, b.disconnect, _, rfl, ?_, ?_⟩, hpacket⟩
    · split <;> trivial
    · split <;> nofun

theorem Board.getCommands_frame (b : Board) (locals : Locals) (recv : Recv) :
    SessionFrame b (b.getCommands locals recv, []) := by
  unfold Board.getCommands
  split
  next => exact sessionFrame_silent b true trivial nofun
  next bytes _ =>
    split
    next => exact sessionFrame_silent b b.disconnect trivial nofun
    next =>
      split
      next => exact sessionFrame_silent b b.disconnect trivial nofun
      next => exact sessionFrame_silent b b.disconnect trivial nofun

theorem Board.command_frame (b : Board) (l : CommandLoop) (sent : Bool) :
    SessionFrame b (b.command l sent) := by
  unfold Board.command
  split
  next => exact sessionFrame_silent b b.disconnect trivial nofun
  next =>
    unfold Board.updateDisplay
    split
    next => exact sessionFrame_silent b b.disconnect trivial nofun
    next => exact sessionFrame_silent b b.disconnect trivial nofun
  next token _ =>
    dsimp only
    split
    next =>
      have hprocessed : ∀ o ∈ [Output.processed (processTurn b.device.objects l.outstr token.text)],
          o.InSession := by
        intro o ho
        rw [List.mem_singleton.mp ho]
        trivial
      split
      next => exact ⟨⟨_, b.disconnect, _, rfl, trivial, nofun⟩, hprocessed⟩
      next => exact ⟨⟨.work, true, _, rfl, trivial, nofun⟩, hprocessed⟩
    next => exact sessionFrame_silent b b.disconnect trivial nofun

/-- The loop is never left. -/
theorem boardStep_looping {b : Board} (h : b.pc.Looping) (e : Event) :
    (boardStep b e).1.pc.Looping := by
  have hnot : ∀ {pc : Pc}, b.pc = pc → pc.Looping := fun hpc => hpc ▸ h
  have hsession : ∀ {r : Board × List Output}, SessionFrame b r → r.1.pc.Looping := by
    intro r hframe
    obtain ⟨pc, disconnect, device, heq, hpc, -⟩ := hframe.board
    rw [heq]
    exact hpc
  have hstep := boardStep_cases b e
  generalize boardStep b e = r at hstep
  cases hstep with
  | idle => exact h
  | trigger x => exact h
  | timer => exact h
  | dhcpInit hpc => exact absurd (hnot hpc) id
  | waitPoll hpc => exact absurd (hnot hpc) id
  | setupListener hpc => exact absurd (hnot hpc) id
  | checkBroadcast hpc recv =>
    unfold Board.checkBroadcast
    split <;> trivial
  | helloGoodbye => trivial
  | helloSocket => trivial
  | helloConnect hpc how =>
    unfold Board.helloConnect
    split <;> trivial
  | mainPoll hpc recv =>
    show Pc.Looping (if b.connected = true then .work else .connect)
    split <;> trivial
  | goodbye => trivial
  | sendCapture hpc hdisconnect results => exact hsession (Board.sendCapture_frame hpc results)
  | stopTrigger => trivial
  | setEmpty => trivial
  | getCommands hpc locals recv => exact hsession (b.getCommands_frame locals recv)
  | command l hpc sent => exact hsession (b.command_frame l sent)

/-- What becomes of a board that is not in its loop yet. -/
inductive StartStep (b : Board) : Board → Prop
  | other (device : Device) (ticks : UInt32) :
      StartStep b { b with device := device, ticks := ticks }
  | dhcpInit (hpc : b.pc = .boot) (granted bound : Bool) : StartStep b (b.dhcpInit granted bound)
  | waitPoll (hpc : b.pc = .waitDhcp) (recv : DhcpRecv) : StartStep b (b.waitPoll recv).1
  | loop {b' : Board} (hloop : b'.pc.Looping) : StartStep b b'

theorem boardStep_starting {b : Board} (h : ¬ b.pc.Looping) (e : Event) :
    StartStep b (boardStep b e).1 := by
  have hnot : ∀ {pc : Pc}, b.pc = pc → ¬ pc.Looping := fun hpc => hpc ▸ h
  have hstep := boardStep_cases b e
  generalize boardStep b e = r at hstep
  cases hstep with
  | idle => exact .other b.device b.ticks
  | trigger x => exact .other (b.device.triggerIsr x) b.ticks
  | timer => exact .other b.device (b.ticks + 1)
  | dhcpInit hpc granted bound => exact .dhcpInit hpc granted bound
  | waitPoll hpc recv => exact .waitPoll hpc recv
  | setupListener hpc granted bound =>
    refine .loop ?_
    unfold Board.setupListener
    dsimp only
    split <;> trivial
  | checkBroadcast hpc => exact absurd trivial (hnot hpc)
  | helloGoodbye hpc => exact absurd trivial (hnot hpc)
  | helloSocket hpc => exact absurd trivial (hnot hpc)
  | helloConnect hpc => exact absurd trivial (hnot hpc)
  | mainPoll hpc => exact absurd trivial (hnot hpc)
  | goodbye hpc => exact absurd trivial (hnot hpc)
  | sendCapture hpc => exact absurd trivial (hnot hpc)
  | stopTrigger hpc => exact absurd trivial (hnot hpc)
  | setEmpty hpc => exact absurd trivial (hnot hpc)
  | getCommands hpc => exact absurd trivial (hnot hpc)
  | command l hpc => exact absurd trivial (hnot hpc)

/-- An invariant of the board in front of its loop. -/
theorem boardRun_starting {I : Board → Prop} {b : Board} (hb : I b)
    (preserved : ∀ b b', ¬ b.pc.Looping → I b → StartStep b b' → ¬ b'.pc.Looping → I b')
    (events : List Event) (hpc : ¬ (boardRun b events).1.pc.Looping) : I (boardRun b events).1 := by
  have hrun : (boardRun b events).1.pc.Looping ∨ I (boardRun b events).1 := by
    refine Lib.run_invariant (I := fun b => b.pc.Looping ∨ I b) (Or.inr hb) (fun b e h => ?_) events
    by_cases hloop : b.pc.Looping
    · exact Or.inl (boardStep_looping hloop e)
    · by_cases hloop' : (boardStep b e).1.pc.Looping
      · exact Or.inl hloop'
      · exact Or.inr (preserved b _ hloop (h.resolve_left hloop)
          (boardStep_starting hloop e) hloop')
  exact hrun.resolve_left hpc

/-! ## A DHCP server -/

/-- The address is asked for, and a server offers it and gives it out for this long. -/
def leaseEvents (lease : DhcpLease) : List Event :=
  let offer : DhcpOptions :=
    { messageType := fnetDhcpOptionTypeOffer, ipAddress := 1, dhcpServer := 2, lease := lease }
  let ack : DhcpOptions := { offer with messageType := fnetDhcpOptionTypeAck }
  [.dhcpInit true true, .poll .nothing, .poll (.message offer), .poll (.message ack)]

end Datalogger
