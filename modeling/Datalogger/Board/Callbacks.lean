import Datalogger.Board.ServerSocket

/-!
# When the DHCP handlers are called

`wait_dhcp` registers two handlers on its local `callback_params` and returns without
taking them back. From then on `fnet_poll_services` in the main loop runs the client with
both of them. `callbacksInside_iff` says which polls call one: the client starts over, it
is out of tries, or it waits for an ACK and an acceptable one comes in time. And it says
how `wait_dhcp` has to end for none of them to ever come: without a client, or with one
that is bound for good. After any other end there is a run that calls a handler.
-/

namespace Datalogger

/-! ## Calls in the main loop -/

/-- A handler is called when `wait_dhcp` has returned. -/
def Output.Outside : Output → Prop
  | .handler _ inWaitDhcp => inWaitDhcp = false
  | _ => False

instance (o : Output) : Decidable o.Outside :=
  match o with
  | .handler _ inWaitDhcp => inferInstanceAs (Decidable (inWaitDhcp = false))
  | .hello _ | .opened _ | .closed _ | .connected | .disconnected | .processed _ | .packet _ =>
    isFalse id

/-- The handlers are called inside of `wait_dhcp` only. -/
def CallbacksInside (outs : List Output) : Prop := ∀ o ∈ outs, ¬ o.Outside

instance (outs : List Output) : Decidable (CallbacksInside outs) :=
  inferInstanceAs (Decidable (∀ o ∈ outs, ¬ o.Outside))

/-- A poll of the main loop meets a client that calls a handler. -/
def PollCalls (b : Board) (e : Event) : Prop :=
  ∃ recv dhcp, e = .poll recv ∧ b.pc = .poll ∧ b.dhcp = some dhcp ∧ DhcpCalls dhcp b.ticks recv

theorem callbacksInside_append {outs new : List Output} :
    CallbacksInside (outs ++ new) ↔ CallbacksInside outs ∧ CallbacksInside new := by
  unfold CallbacksInside
  simp only [List.mem_append, or_imp, forall_and]

/-- The poll calls what the client calls. -/
theorem pollServices_calls_iff {b : Board} {recv : DhcpRecv} :
    (b.pollServices recv).2 ≠ none ↔
      ∃ dhcp, b.dhcp = some dhcp ∧ DhcpCalls dhcp b.ticks recv := by
  cases hdhcp : b.dhcp with
  | none =>
    rw [Board.pollServices_none hdhcp]
    refine ⟨fun h => absurd rfl h, fun h => ?_⟩
    obtain ⟨_, heq, -⟩ := h
    cases heq
  | some dhcp =>
    rw [Board.pollServices_some hdhcp, fnetDhcpStateMachine_calls_iff]
    refine ⟨fun h => ⟨dhcp, rfl, h⟩, fun ⟨dhcp', heq, h⟩ => ?_⟩
    obtain rfl := Option.some.inj heq
    exact h

/-- Where a handler is called. -/
theorem boardStep_handler {b : Board} {e : Event} {h : DhcpHandler} {w : Bool}
    (hmem : .handler h w ∈ (boardStep b e).2) :
    ∃ recv, e = .poll recv ∧ (b.pollServices recv).2 = some h ∧
      (b.pc = .waitDhcp ∧ w = true ∨ b.pc = .poll ∧ w = false) := by
  have hsession : ∀ {r : Board × List Output}, SessionFrame b r → .handler h w ∈ r.2 → False :=
    fun hframe hmem => hframe.outputs _ hmem
  have hstep := boardStep_cases b e
  generalize boardStep b e = r at hstep hmem
  cases hstep with
  | idle => cases hmem
  | trigger x => cases hmem
  | timer => cases hmem
  | dhcpInit => cases hmem
  | waitPoll hpc recv =>
    obtain ⟨handler, hcalled, heq⟩ := List.mem_map.mp hmem
    obtain ⟨rfl, rfl⟩ := Output.handler.inj heq
    exact ⟨recv, rfl, Option.mem_toList.mp hcalled, Or.inl ⟨hpc, rfl⟩⟩
  | setupListener => cases hmem
  | checkBroadcast => cases hmem
  | helloGoodbye =>
    rcases List.mem_cons.mp hmem with heq | hmem
    · cases heq
    · obtain ⟨s, -, heq⟩ := List.mem_map.mp hmem
      cases heq
  | helloSocket hpc granted =>
    unfold Board.helloSocket at hmem
    dsimp only at hmem
    split at hmem
    next => cases hmem
    next => cases List.mem_singleton.mp hmem
  | helloConnect hpc how =>
    unfold Board.helloConnect at hmem
    split at hmem
    next => cases List.mem_singleton.mp hmem
    next => cases hmem
  | mainPoll hpc recv =>
    obtain ⟨handler, hcalled, heq⟩ := List.mem_map.mp hmem
    obtain ⟨rfl, rfl⟩ := Output.handler.inj heq
    exact ⟨recv, rfl, Option.mem_toList.mp hcalled, Or.inr ⟨hpc, rfl⟩⟩
  | goodbye =>
    obtain ⟨s, -, heq⟩ := List.mem_map.mp hmem
    cases heq
  | sendCapture hpc hdisconnect results =>
    exact (hsession (Board.sendCapture_frame hpc results) hmem).elim
  | stopTrigger => cases hmem
  | setEmpty => cases List.mem_singleton.mp hmem
  | getCommands => cases hmem
  | command l hpc sent => exact (hsession (b.command_frame l sent) hmem).elim

/-- **A step that calls a handler outside** is such a poll. -/
theorem boardStep_callbacksInside_iff {b : Board} {e : Event} :
    CallbacksInside (boardStep b e).2 ↔ ¬ PollCalls b e := by
  constructor
  · rintro hinside ⟨recv, dhcp, rfl, hpc, hdhcp, hcalls⟩
    obtain ⟨h, hcalled⟩ :=
      Option.ne_none_iff_exists'.mp (pollServices_calls_iff.mpr ⟨dhcp, hdhcp, hcalls⟩)
    have hstep : boardStep b (.poll recv) = b.mainPoll recv := by
      unfold boardStep
      rw [hpc]
    refine hinside (.handler h false) ?_ rfl
    rw [hstep]
    exact List.mem_map.mpr ⟨h, Option.mem_toList.mpr hcalled, rfl⟩
  · intro hnone o ho hout
    cases o with
    | handler h w =>
      obtain rfl : w = false := hout
      obtain ⟨recv, rfl, hcalled, hpc⟩ := boardStep_handler ho
      obtain ⟨dhcp, hdhcp, hcalls⟩ := pollServices_calls_iff.mp (by rw [hcalled]; nofun)
      exact hnone ⟨recv, dhcp, rfl, (hpc.resolve_left fun hwait => by cases hwait.2).1, hdhcp,
        hcalls⟩
    | _ => cases hout

/-- **The runs that call a handler outside**: one of their polls does. -/
theorem boardRun_callbacksInside_iff {b : Board} {events : List Event} :
    CallbacksInside (boardRun b events).2 ↔
      ∀ pre e post, events = pre ++ e :: post → ¬ PollCalls (boardRun b pre).1 e := by
  induction events using List.reverseRecOn with
  | nil => exact ⟨fun _ pre e post heq => absurd heq (by simp), fun _ => nofun⟩
  | append_singleton events e ih =>
    rw [boardRun_snoc, callbacksInside_append, ih, boardStep_callbacksInside_iff]
    constructor
    · intro ⟨hbefore, hlast⟩ pre e' post heq
      rcases Lib.snoc_eq_append_cons.mp heq with ⟨-, rfl, rfl⟩ | ⟨post', -, hold⟩
      · exact hlast
      · exact hbefore pre e' post' hold
    · intro hall
      refine ⟨fun pre e' post heq => hall pre e' (post ++ [e]) ?_, hall events e [] rfl⟩
      rw [heq, List.append_assoc, List.cons_append]

/-! ## A client that is bound for good -/

/-- `wait_dhcp` left no client that could call a handler again. -/
def NeverCalls (b : Board) : Prop :=
  ∀ dhcp, b.dhcp = some dhcp → dhcp.state = .bound ∧ dhcp.stateTimeout = fnetDhcpLeaseInfinity

theorem NeverCalls.pollServices {b : Board} (h : NeverCalls b) (recv : DhcpRecv) :
    b.pollServices recv = (b, none) := by
  cases hdhcp : b.dhcp with
  | none => exact Board.pollServices_none hdhcp recv
  | some dhcp =>
    obtain ⟨hbound, hinfinite⟩ := h dhcp hdhcp
    rw [Board.pollServices_some hdhcp, fnetDhcpStateMachine_infinite hbound hinfinite, ← hdhcp]
    rfl

/-- `main` has left `wait_dhcp`. -/
def Pc.DhcpDone (pc : Pc) : Prop := pc.Looping ∨ pc = .setupListener

/-- From `wait_dhcp` on the client changes in polls only. -/
theorem boardStep_dhcp {b : Board} (h : b.pc.DhcpDone) (e : Event) :
    (boardStep b e).1.pc.DhcpDone ∧ ((boardStep b e).1.dhcp = b.dhcp ∨
      ∃ recv, (boardStep b e).1.dhcp = (b.pollServices recv).1.dhcp) := by
  have hdone : (boardStep b e).1.pc.DhcpDone := by
    rcases h with hloop | hlisten
    · exact Or.inl (boardStep_looping hloop e)
    · have hstart := boardStep_starting (by rw [hlisten]; exact id) e
      generalize (boardStep b e).1 = b' at hstart
      cases hstart with
      | other device ticks => exact Or.inr hlisten
      | loop hloop => exact Or.inl hloop
      | dhcpInit hpc => cases hlisten.symm.trans hpc
      | waitPoll hpc => cases hlisten.symm.trans hpc
  refine ⟨hdone, ?_⟩
  have hsession : ∀ {r : Board × List Output}, SessionFrame b r → r.1.dhcp = b.dhcp := by
    intro r hframe
    obtain ⟨pc, disconnect, device, heq, -, -⟩ := hframe.board
    rw [heq]
  have hstep := boardStep_cases b e
  generalize boardStep b e = r at hstep
  cases hstep with
  | dhcpInit hpc =>
    rw [hpc] at h
    rcases h with h | h <;> cases h
  | waitPoll hpc recv => exact Or.inr ⟨recv, rfl⟩
  | mainPoll hpc recv => exact Or.inr ⟨recv, rfl⟩
  | setupListener hpc granted bound =>
    refine Or.inl ?_
    unfold Board.setupListener
    dsimp only
    split <;> rfl
  | checkBroadcast hpc recv =>
    refine Or.inl ?_
    unfold Board.checkBroadcast
    split <;> rfl
  | helloConnect hpc how =>
    refine Or.inl ?_
    unfold Board.helloConnect
    split <;> rfl
  | sendCapture hpc hdisconnect results =>
    exact Or.inl (hsession (Board.sendCapture_frame hpc results))
  | getCommands hpc locals recv => exact Or.inl (hsession (b.getCommands_frame locals recv))
  | command l hpc sent => exact Or.inl (hsession (b.command_frame l sent))
  | _ => exact Or.inl rfl

/-- Such a client stays as it is. -/
theorem NeverCalls.step {b : Board} (h : NeverCalls b) (hdone : b.pc.DhcpDone) (e : Event) :
    NeverCalls (boardStep b e).1 ∧ CallbacksInside (boardStep b e).2 := by
  constructor
  · intro dhcp hdhcp
    rcases (boardStep_dhcp hdone e).2 with hsame | ⟨recv, hpolled⟩
    · exact h dhcp (hsame.symm.trans hdhcp)
    · rw [h.pollServices recv] at hpolled
      exact h dhcp (hpolled.symm.trans hdhcp)
  · rw [boardStep_callbacksInside_iff]
    intro ⟨recv, dhcp, _, _, hdhcp, hcalls⟩
    refine pollServices_calls_iff.mpr ⟨dhcp, hdhcp, hcalls⟩ ?_
    rw [h.pollServices recv]

/-- **A client that is bound for good calls no handler again.** -/
theorem NeverCalls.run {b : Board} (h : NeverCalls b) (hdone : b.pc.DhcpDone)
    (events : List Event) :
    CallbacksInside (boardRun b events).2 := by
  have hrun : ((boardRun b events).1.pc.DhcpDone ∧ NeverCalls (boardRun b events).1) ∧
      CallbacksInside (boardRun b events).2 := by
    refine Lib.run_history (fun _ outs b => (b.pc.DhcpDone ∧ NeverCalls b) ∧ CallbacksInside outs)
      ⟨⟨hdone, h⟩, nofun⟩ (fun _ outs b e hb => ?_) events
    obtain ⟨⟨hdone, hnever⟩, hinside⟩ := hb
    obtain ⟨hnever', hnew⟩ := hnever.step hdone e
    exact ⟨⟨(boardStep_dhcp hdone e).1, hnever'⟩, callbacksInside_append.mpr ⟨hinside, hnew⟩⟩
  exact hrun.2

/-! ## Any other client -/

/-- In front of the loop nothing is called outside. -/
theorem boardRun_starting_inside {b : Board} (events : List Event)
    (hpc : ¬ (boardRun b events).1.pc.Looping) : CallbacksInside (boardRun b events).2 := by
  have hrun : (boardRun b events).1.pc.Looping ∨ CallbacksInside (boardRun b events).2 := by
    refine Lib.run_history (fun _ outs (b : Board) => b.pc.Looping ∨ CallbacksInside outs)
      (Or.inr nofun)
      (fun _ outs b e h => ?_) events
    by_cases hloop : b.pc.Looping
    · exact Or.inl (boardStep_looping hloop e)
    · refine Or.inr (callbacksInside_append.mpr ⟨h.resolve_left hloop, ?_⟩)
      rw [boardStep_callbacksInside_iff]
      intro ⟨_, _, _, hpoll, _⟩
      rw [hpoll] at hloop
      exact hloop trivial
  exact hrun.resolve_left hpc

/-- How far `wait_dhcp` is. -/
structure WaitInv (b : Board) : Prop where
  boot : b.pc = .boot → b.dhcp = none
  wait : b.pc = .waitDhcp →
    b.callbackParams.state = .waiting ∧ ∀ dhcp, b.dhcp = some dhcp → dhcp.Fresh
  done : b.pc = .setupListener → ∀ dhcp, b.dhcp = some dhcp → dhcp.Called

theorem StartStep.waitInv {b b' : Board} (h : WaitInv b) (hstep : StartStep b b')
    (hpc' : ¬ b'.pc.Looping) : WaitInv b' := by
  cases hstep with
  | other device ticks => exact ⟨h.boot, h.wait, h.done⟩
  | loop hloop => exact absurd hloop hpc'
  | dhcpInit hboot granted bound =>
    unfold Board.dhcpInit
    dsimp only
    split
    next =>
      refine ⟨nofun, fun _ => ⟨rfl, fun dhcp hdhcp => ?_⟩, nofun⟩
      obtain rfl := Option.some.inj hdhcp
      exact ⟨nofun, nofun⟩
    next =>
      refine ⟨nofun, nofun, fun _ dhcp hdhcp => ?_⟩
      cases (h.boot hboot).symm.trans hdhcp
  | waitPoll hwait recv =>
    obtain ⟨hwaiting, hfresh⟩ := h.wait hwait
    unfold Board.waitPoll
    dsimp only
    cases hdhcp : b.dhcp with
    | none =>
      rw [Board.pollServices_none hdhcp, if_pos hwaiting]
      exact ⟨nofun, fun _ => ⟨hwaiting, hfresh⟩, nofun⟩
    | some dhcp =>
      obtain ⟨hfresh', hcalled⟩ := fnetDhcpStateMachine_fresh (hfresh dhcp hdhcp) b.ticks recv
      rw [Board.pollServices_some hdhcp]
      dsimp only
      split
      next hstill =>
        refine ⟨nofun, fun _ => ⟨hstill, fun dhcp' heq => ?_⟩, nofun⟩
        obtain rfl := Option.some.inj heq
        exact hfresh'
      next hover =>
        -- the loop is over, so a handler was called
        refine ⟨nofun, nofun, fun _ dhcp' heq => ?_⟩
        obtain rfl := Option.some.inj heq
        refine hcalled fun hnone => hover ?_
        rw [hnone]
        exact hwaiting

/-- `main` looks for a server in vain. -/
theorem boardStep_noBroadcast {b : Board} (hpc : b.pc = .connect) :
    boardStep b (.broadcast fun _ => none) = ({ b with pc := .poll }, []) := by
  have hnone : (bcastCheckBroadcast (fun _ => none) ⟨0, 0, []⟩ 4951).1 ≠ 1 := by decide
  unfold boardStep
  rw [hpc]
  show (b.checkBroadcast fun _ => none, []) = _
  rw [Board.checkBroadcast, if_neg hnone]

/-- A handler that is called behind a step is called in the run. -/
theorem not_callbacksInside_cons {b : Board} {e : Event} {events : List Event}
    (h : ¬ CallbacksInside (boardRun (boardStep b e).1 events).2) :
    ¬ CallbacksInside (boardRun b (e :: events)).2 := by
  rw [boardRun_cons, callbacksInside_append]
  exact fun hinside => h hinside.2

/-- **What the client may do, it may do in the main loop.** -/
theorem DhcpMayCall.outside {dhcp : DhcpIf} {now : UInt32} (h : DhcpMayCall dhcp now) :
    ∀ {b : Board}, b.pc = .connect → b.connected = false → b.dhcp = some dhcp → b.ticks = now →
      ∃ events, ¬ CallbacksInside (boardRun b events).2 := by
  induction h with
  | calls recv hcalls =>
    intro b hpc _ hdhcp hticks
    refine ⟨[.broadcast fun _ => none, .poll recv], not_callbacksInside_cons ?_⟩
    rw [boardStep_noBroadcast hpc]
    intro hinside
    refine boardRun_callbacksInside_iff.mp hinside [] (.poll recv) [] rfl
      ⟨recv, _, rfl, rfl, hdhcp, ?_⟩
    rw [← hticks] at hcalls
    exact hcalls
  | tick _ ih =>
    intro b hpc hout hdhcp hticks
    obtain ⟨events, houtside⟩ :=
      ih (b := { b with ticks := b.ticks + 1 }) hpc hout hdhcp (by rw [hticks])
    have hstep : boardStep b .timer = ({ b with ticks := b.ticks + 1 }, []) := by
      unfold boardStep
      rw [hpc]
    refine ⟨.timer :: events, not_callbacksInside_cons ?_⟩
    rw [hstep]
    exact houtside
  | @pass dhcp now recv _ ih =>
    intro b hpc hout hdhcp hticks
    have hstep : boardStep { b with pc := .poll } (.poll recv)
      = { b with pc := .poll }.mainPoll recv := rfl
    have hpolled := Board.pollServices_some (b := { b with pc := .poll }) hdhcp recv
    have hturn : (boardStep { b with pc := .poll } (.poll recv)).1.pc = .connect ∧
        (boardStep { b with pc := .poll } (.poll recv)).1.connected = false ∧
        (boardStep { b with pc := .poll } (.poll recv)).1.dhcp
          = some (fnetDhcpStateMachine dhcp now recv).1 ∧
        (boardStep { b with pc := .poll } (.poll recv)).1.ticks = now := by
      rw [hstep]
      unfold Board.mainPoll
      rw [hpolled, ← hticks]
      refine ⟨?_, hout, rfl, rfl⟩
      show (if b.connected = true then Pc.work else .connect) = .connect
      rw [hout]
      rfl
    obtain ⟨hpc', hout', hdhcp', hticks'⟩ := hturn
    obtain ⟨events, houtside⟩ := ih hpc' hout' hdhcp' hticks'
    refine ⟨.broadcast (fun _ => none) :: .poll recv :: events, not_callbacksInside_cons ?_⟩
    rw [boardStep_noBroadcast hpc]
    exact not_callbacksInside_cons houtside

/-- **Any other end of `wait_dhcp`** has a run behind it that calls a handler. -/
theorem outside_of_not_neverCalls {serverS : Socket} {b : Board} (hpc : b.pc = .setupListener)
    (hbefore : BeforeLoop serverS b) (hwait : WaitInv b) (hnever : ¬ NeverCalls b) :
    ∃ events, ¬ CallbacksInside (boardRun b events).2 := by
  obtain ⟨dhcp, hdhcp, hfinite⟩ : ∃ dhcp, ∃ _ : b.dhcp = some dhcp,
      ¬ (dhcp.state = .bound ∧ dhcp.stateTimeout = fnetDhcpLeaseInfinity) := by
    simpa only [NeverCalls, not_forall] using hnever
  have hmay : DhcpMayCall dhcp b.ticks := by
    rcases hwait.done hpc dhcp hdhcp with hselecting | ⟨hbound, hnext⟩
    · exact mayCall_selecting hselecting b.ticks
    · exact mayCall_bound hbound hnext (fun hinfinite => hfinite ⟨hbound, hinfinite⟩) b.ticks
  -- the listener gets the second descriptor
  have hfree : ¬ b.sockets.IsOpen (1 : Nat) := fun hopen => by
    cases ((hbefore.sockets _).mp hopen).2
  have hlisten : (boardStep b (.listen true true)).1
      = { b with
          pc := .connect
          sockets := (socket b.sockets true).2
          bcastS := (socket b.sockets true).1 } := by
    have hstep : boardStep b (.listen true true) = (b.setupListener true true, []) := by
      unfold boardStep
      rw [hpc]
    rw [hstep]
    exact if_pos ⟨socket_granted (by decide) hfree, rfl⟩
  obtain ⟨events, houtside⟩ := hmay.outside (b := (boardStep b (.listen true true)).1)
    (by rw [hlisten]) (by rw [hlisten]; exact hbefore.connected) (by rw [hlisten]; exact hdhcp)
    (by rw [hlisten])
  exact ⟨.listen true true :: events, not_callbacksInside_cons houtside⟩

/-- **When the handlers stay inside of `wait_dhcp`.** In a run from power-up they do exactly
if no poll of the main loop meets a client that calls one. Where `wait_dhcp` has just ended
they do in whatever follows exactly if it leaves no client, or one that is bound for good. -/
theorem callbacksInside_iff (mem : BufId → Netstruct) (serverS bcastS : Socket)
    (events : List Event) :
    (CallbacksInside (boardRun (Board.boot mem serverS bcastS) events).2 ↔
      ∀ pre e post, events = pre ++ e :: post →
        ¬ PollCalls (boardRun (Board.boot mem serverS bcastS) pre).1 e) ∧
    ((boardRun (Board.boot mem serverS bcastS) events).1.pc = .setupListener →
      ((∀ post, CallbacksInside (boardRun (Board.boot mem serverS bcastS) (events ++ post)).2) ↔
        NeverCalls (boardRun (Board.boot mem serverS bcastS) events).1)) := by
  refine ⟨boardRun_callbacksInside_iff, fun hpc => ?_⟩
  have hstarting : ¬ (boardRun (Board.boot mem serverS bcastS) events).1.pc.Looping := by
    rw [hpc]
    exact id
  have happend : ∀ post, (boardRun (Board.boot mem serverS bcastS) (events ++ post)).2
      = (boardRun (Board.boot mem serverS bcastS) events).2
        ++ (boardRun (boardRun (Board.boot mem serverS bcastS) events).1 post).2 :=
    fun post => congrArg Prod.snd (Lib.run_append boardStep events post _)
  constructor
  · intro hinside
    have hboot : WaitInv (Board.boot mem serverS bcastS) := ⟨fun _ => rfl, nofun, nofun⟩
    have hwait := boardRun_starting hboot
      (fun _ _ _ h hstep hpc' => hstep.waitInv h hpc') events hstarting
    by_contra hnever
    obtain ⟨post, houtside⟩ := outside_of_not_neverCalls hpc
      (boardRun_beforeLoop mem serverS bcastS events hpc) hwait hnever
    have hwhole := hinside post
    rw [happend] at hwhole
    exact houtside (callbacksInside_append.mp hwhole).2
  · intro hnever post
    rw [happend]
    exact callbacksInside_append.mpr
      ⟨boardRun_starting_inside events hstarting, hnever.run (Or.inr hpc) post⟩

/-- The loop goes round three times: the lease is due, it is renewed, and once more. -/
def renewalEvents (lease : DhcpLease) : List Event :=
  let ack : DhcpOptions :=
    { messageType := fnetDhcpOptionTypeAck, ipAddress := 1, dhcpServer := 2, lease := lease }
  let silence : Event := .broadcast fun _ => none
  .listen true true :: List.replicate 11 .timer ++
    [silence, .poll .nothing, silence, .poll (.message ack), silence, .poll .nothing]

theorem callbacksInside_iff_forever :
    CallbacksInside (boardRun (Board.boot (fun _ => Netstruct.zero) 0 0)
      (leaseEvents ⟨fnetDhcpLeaseInfinity, 0, 0⟩ ++
        renewalEvents ⟨fnetDhcpLeaseInfinity, 0, 0⟩)).2 := by
  have hclient : (boardRun (Board.boot (fun _ => Netstruct.zero) 0 0)
      (leaseEvents ⟨fnetDhcpLeaseInfinity, 0, 0⟩)).1.dhcp.map (fun d => (d.state, d.stateTimeout))
        = some (.bound, fnetDhcpLeaseInfinity) := by decide
  refine ((callbacksInside_iff (fun _ => Netstruct.zero) 0 0
    (leaseEvents ⟨fnetDhcpLeaseInfinity, 0, 0⟩)).2 (by decide)).mpr (fun dhcp hdhcp => ?_) _
  rw [hdhcp] at hclient
  exact Prod.mk.inj (Option.some.inj hclient)

/-- An address for an hour, to be renewed after a second: the renewal calls `handler_updated`
in the main loop. -/
theorem not_callbacksInside_renewal :
    ¬ CallbacksInside (boardRun (Board.boot (fun _ => Netstruct.zero) 0 0)
      (leaseEvents ⟨3600, 1, 2⟩ ++ renewalEvents ⟨3600, 1, 2⟩)).2 := by
  decide

end Datalogger
