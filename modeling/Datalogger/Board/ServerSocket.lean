import Datalogger.Board.Main

/-!
# Who owns the server socket

`netprot_hello` begins with a `netprot_goodbye` on the socket of the last attempt, so one
variable, `server_s`, is closed on both ends of a session, whatever came of the attempt.
It may be closed already, or hold `SOCKET_INVALID`; then nothing happens. As long as it
never names a descriptor of somebody else, `SocketInv` holds: `server_s` is the only
server socket, if it is open.

`server_s` is not initialised, though, and the first attempt closes what it happens to
name. `serverSocketOwned_iff`: the rules hold in a run exactly if `server_s` starts as
neither of the two descriptors that are open, or no server is answered.
-/

namespace Datalogger

open Lib (ascii)

/-! ## The rules -/

/-- The server sockets behind one more output. -/
def serverSocketsStep (open_ : List Socket) : Output → List Socket
  | .opened s => s :: open_
  | .closed s => open_.erase s
  | _ => open_

/-- What `netprot_hello` got from `socket` and was not closed since. -/
def serverSockets (outs : List Output) : List Socket := outs.foldl serverSocketsStep []

/-- The descriptor of the DHCP client: the first. -/
def dhcpSocket : Socket := 0

/-- The descriptor of the broadcast listener: the second. -/
def bcastSocket : Socket := 1

/-- `netprot_goodbye` closes server sockets and nothing else, and there is one at most. -/
structure ServerSocketOwned (outs : List Output) : Prop where
  owns : ∀ before s after, outs = before ++ .closed s :: after → s ∈ serverSockets before
  spares : ∀ s, .closed s ∈ outs → s ≠ dhcpSocket ∧ s ≠ bcastSocket
  atMostOne : ∀ before after, outs = before ++ after → (serverSockets before).length ≤ 1

/-- `main` enters its loop, with the sockets of the DHCP client and the listener open. -/
structure LoopStart (b : Board) : Prop where
  pc : b.pc = .connect
  connected : b.connected = false
  bcastS : b.bcastS = bcastSocket
  sockets : ∀ s, b.sockets.IsOpen s ↔ s = dhcpSocket ∨ s = bcastSocket

/-- `server_s` happens to name one of the two. -/
def NamesOpenSocket (serverS : Socket) : Prop := serverS = dhcpSocket ∨ serverS = bcastSocket

instance (serverS : Socket) : Decidable (NamesOpenSocket serverS) :=
  inferInstanceAs (Decidable (_ ∨ _))

theorem not_namesOpenSocket_invalid : ¬ NamesOpenSocket socketInvalid := by decide

/-- A server is answered: `main` goes on into `netprot_hello`. -/
def AnswersServer (b : Board) (events : List Event) : Prop :=
  ∃ pre post, events = pre ++ .goOn :: post ∧ (boardRun b pre).1.pc = .hello

theorem serverSocketOwned_nil : ServerSocketOwned [] := by
  refine ⟨fun before s after heq => absurd heq (by simp), nofun, fun before after heq => ?_⟩
  rw [(List.nil_eq_append_iff.mp heq).1]
  exact Nat.zero_le 1

/-! ## One more output -/

/-- The output is about a server socket. -/
def Output.OnSocket : Output → Prop
  | .opened _ | .closed _ => True
  | _ => False

theorem serverSockets_snoc (outs : List Output) (o : Output) :
    serverSockets (outs ++ [o]) = serverSocketsStep (serverSockets outs) o := by
  rw [serverSockets, List.foldl_append]
  rfl

theorem serverSockets_snoc_of_not {o : Output} (ho : ¬ o.OnSocket) (outs : List Output) :
    serverSockets (outs ++ [o]) = serverSockets outs := by
  rw [serverSockets_snoc]
  cases o with
  | opened s => exact absurd trivial ho
  | closed s => exact absurd trivial ho
  | _ => rfl

/-- The rules, one output later. -/
theorem ServerSocketOwned.snoc {outs : List Output} (h : ServerSocketOwned outs) {o : Output}
    (hclosed : ∀ s, o = .closed s → s ∈ serverSockets outs ∧ s ≠ dhcpSocket ∧ s ≠ bcastSocket)
    (hone : (serverSockets (outs ++ [o])).length ≤ 1) : ServerSocketOwned (outs ++ [o]) := by
  refine ⟨fun before s after heq => ?_, fun s hs => ?_, fun before after heq => ?_⟩
  · rcases Lib.snoc_eq_append_cons.mp heq with ⟨-, rfl, heq'⟩ | ⟨after', -, hold⟩
    · exact (hclosed s heq'.symm).1
    · exact h.owns before s after' hold
  · rcases List.mem_append.mp hs with hold | hnew
    · exact h.spares s hold
    · exact (hclosed s (List.mem_singleton.mp hnew).symm).2
  · cases after with
    | nil =>
      rw [List.append_nil] at heq
      rw [← heq]
      exact hone
    | cons a after =>
      rcases Lib.snoc_eq_append_cons.mp heq with ⟨-, rfl, -⟩ | ⟨after', -, hold⟩
      · exact h.atMostOne before [] (List.append_nil _).symm
      · exact h.atMostOne before _ hold

theorem ServerSocketOwned.of_append {outs new : List Output} (h : ServerSocketOwned (outs ++ new)) :
    ServerSocketOwned outs := by
  refine ⟨fun before s after heq => h.owns before s (after ++ new) ?_,
    fun s hs => h.spares s (List.mem_append_left _ hs),
    fun before after heq => h.atMostOne before (after ++ new) ?_⟩
  · rw [heq, List.append_assoc, List.cons_append]
  · rw [heq, List.append_assoc]

/-! ## From power-up -/

/-- In front of the loop the DHCP client has the only socket, if it has one. -/
structure BeforeLoop (serverS : Socket) (b : Board) : Prop where
  connected : b.connected = false
  serverS : b.serverS = serverS
  unused : b.pc = .boot → b.dhcp = none
  sockets : ∀ s, b.sockets.IsOpen s ↔ b.dhcp ≠ none ∧ s = dhcpSocket

/-- A poll keeps the client, where there is one. -/
theorem Board.pollServices_dhcp (b : Board) (recv : DhcpRecv) :
    (b.pollServices recv).1.dhcp = none ↔ b.dhcp = none := by
  cases hdhcp : b.dhcp with
  | none =>
    rw [Board.pollServices_none hdhcp, hdhcp]
  | some dhcp =>
    rw [Board.pollServices_some hdhcp]
    exact ⟨nofun, nofun⟩

theorem StartStep.beforeLoop {serverS : Socket} {b b' : Board} (h : BeforeLoop serverS b)
    (hstep : StartStep b b') (hpc' : ¬ b'.pc.Looping) : BeforeLoop serverS b' := by
  cases hstep with
  | other device ticks => exact ⟨h.connected, h.serverS, h.unused, h.sockets⟩
  | loop hloop => exact absurd hloop hpc'
  | dhcpInit hboot granted bound =>
    have hnone : b.dhcp = none := h.unused hboot
    have hfree : ∀ s, ¬ b.sockets.IsOpen s := fun s hs => ((h.sockets s).mp hs).1 hnone
    unfold Board.dhcpInit
    dsimp only
    split
    next hgranted =>
      refine ⟨h.connected, h.serverS, nofun, fun s => ?_⟩
      rcases socket_spec b.sockets granted with hinvalid | ⟨d, hd, -, hopen⟩
      · rw [hinvalid] at hgranted
        exact absurd rfl hgranted.1
      · -- the lowest free descriptor is the first
        obtain rfl : d = 0 := Nat.eq_zero_of_not_pos fun hpos => hfree _ (socket_lowest hd hpos)
        rw [hopen]
        exact ⟨fun hs => ⟨nofun, hs.resolve_right (hfree s)⟩, fun hs => Or.inl hs.2⟩
    next => exact ⟨h.connected, h.serverS, nofun, h.sockets⟩
  | waitPoll hwait recv =>
    obtain ⟨dhcp, params, hpolled⟩ := b.pollServices_frame recv
    have hkept := b.pollServices_dhcp recv
    unfold Board.waitPoll
    dsimp only
    rw [hpolled] at hkept ⊢
    refine ⟨h.connected, h.serverS, fun hboot => ?_, fun s => ?_⟩
    · change (if _ then Pc.waitDhcp else .setupListener) = .boot at hboot
      split at hboot <;> cases hboot
    · rw [Ne, hkept]
      exact h.sockets s

/-- **The loop starts** as the results below need it, whenever the client and the listener
got their sockets. -/
theorem loopStart_setupListener {serverS : Socket} {b : Board} (h : BeforeLoop serverS b)
    (hdhcp : b.dhcp ≠ none) (granted bound : Bool)
    (hpc : (b.setupListener granted bound).pc = .connect) :
    LoopStart (b.setupListener granted bound) ∧
      (b.setupListener granted bound).serverS = serverS := by
  unfold Board.setupListener at hpc ⊢
  dsimp only at hpc ⊢
  split at hpc
  next hgranted =>
    rw [if_pos hgranted]
    rcases socket_spec b.sockets granted with hinvalid | ⟨d, hd, hfree, hopen⟩
    · rw [hinvalid] at hgranted
      exact absurd rfl hgranted.1
    · -- the first descriptor is in use, and the second is not
      have hsecond : d = 1 := by
        have hzero : b.sockets.IsOpen (0 : Nat) := (h.sockets _).mpr ⟨hdhcp, rfl⟩
        have hne : d ≠ 0 := fun heq => hfree (heq ▸ hzero)
        by_contra hne'
        obtain ⟨-, hone⟩ := (h.sockets _).mp (socket_lowest hd (show 1 < d by omega))
        cases hone
      subst hsecond
      refine ⟨⟨rfl, h.connected, hd, fun s => ?_⟩, h.serverS⟩
      rw [hopen, h.sockets]
      exact ⟨fun hs => hs.elim Or.inr fun hs => Or.inl hs.2,
        fun hs => hs.elim (fun heq => Or.inr ⟨hdhcp, heq⟩) Or.inl⟩
  next => cases hpc

/-- `main` is ready to listen, in a run from power-up. -/
theorem boardRun_beforeLoop (mem : BufId → Netstruct) (serverS bcastS : Socket)
    (events : List Event)
    (hpc : (boardRun (Board.boot mem serverS bcastS) events).1.pc = .setupListener) :
    BeforeLoop serverS (boardRun (Board.boot mem serverS bcastS) events).1 := by
  have hboot : BeforeLoop serverS (Board.boot mem serverS bcastS) :=
    ⟨rfl, rfl, fun _ => rfl, fun s => ⟨fun h => absurd h (SocketDesc.not_isOpen_empty s),
      fun h => absurd rfl h.1⟩⟩
  exact boardRun_starting hboot (fun _ _ _ h hstep hpc' => hstep.beforeLoop h hpc') events
    (by rw [hpc]; exact id)

/-! ## Runs that follow the rules -/

/-- The only descriptors in use are the two and `server_s`, and that is the server socket. -/
structure SocketInv (outs : List Output) (b : Board) : Prop where
  serverS : ¬ NamesOpenSocket b.serverS
  sockets : ∀ s, b.sockets.IsOpen s → s = dhcpSocket ∨ s = bcastSocket ∨ s = b.serverS
  spared : b.sockets.IsOpen dhcpSocket ∧ b.sockets.IsOpen bcastSocket
  server : serverSockets outs = if b.sockets.IsOpen b.serverS then [b.serverS] else []
  closed : b.pc = .helloSocket → ¬ b.sockets.IsOpen b.serverS
  owned : ServerSocketOwned outs

/-- A step that leaves the descriptors alone. -/
theorem SocketInv.frame {outs new : List Output} {b b' : Board} (h : SocketInv outs b)
    (hsockets : b'.sockets = b.sockets) (hserver : b'.serverS = b.serverS)
    (hclosed : b'.pc = .helloSocket → ¬ b.sockets.IsOpen b.serverS)
    (hnew : ∀ o ∈ new, ¬ o.OnSocket) : SocketInv (outs ++ new) b' := by
  have hboth : serverSockets (outs ++ new) = serverSockets outs ∧
    ServerSocketOwned (outs ++ new) := by
    induction new using List.reverseRecOn with
    | nil =>
      rw [List.append_nil]
      exact ⟨rfl, h.owned⟩
    | append_singleton new o ih =>
      obtain ⟨hsame, howned⟩ := ih fun p hp => hnew p (List.mem_append_left _ hp)
      have ho : ¬ o.OnSocket := hnew o (List.mem_append_right _ List.mem_cons_self)
      have hsame' := (serverSockets_snoc_of_not ho (outs ++ new)).trans hsame
      rw [← List.append_assoc]
      refine ⟨hsame', howned.snoc (fun s hs => ?_) ?_⟩
      · rw [hs] at ho
        exact absurd trivial ho
      · rw [hsame']
        exact h.owned.atMostOne outs [] (List.append_nil _).symm
  refine ⟨?_, fun s hs => ?_, ?_, ?_, fun hset => ?_, hboth.2⟩
  · rw [hserver]
    exact h.serverS
  · rw [hserver]
    rw [hsockets] at hs
    exact h.sockets s hs
  · rw [hsockets]
    exact h.spared
  · rw [hboth.1, hsockets, hserver]
    exact h.server
  · rw [hsockets, hserver]
    exact hclosed hset

/-- `netprot_goodbye` on `server_s`. -/
theorem SocketInv.goodbye {outs : List Output} {b b' : Board} (h : SocketInv outs b)
    (hsockets : b'.sockets = (netprotGoodbye b.sockets b.serverS).1)
    (hserver : b'.serverS = b.serverS) :
    SocketInv (outs ++ (netprotGoodbye b.sockets b.serverS).2.toList.map .closed) b' := by
  have hshut : ¬ b'.sockets.IsOpen b'.serverS := by
    rw [hsockets, hserver]
    exact not_isOpen_netprotGoodbye b.sockets b.serverS
  by_cases hopen : b.sockets.IsOpen b.serverS
  · obtain ⟨hclosed, hrest⟩ := netprotGoodbye_open hopen
    have hserverSockets := h.server
    rw [if_pos hopen] at hserverSockets
    have hnone : serverSockets (outs ++ [.closed b.serverS]) = [] := by
      rw [serverSockets_snoc, hserverSockets]
      exact List.erase_cons_head ..
    have hne : b.serverS ≠ dhcpSocket ∧ b.serverS ≠ bcastSocket := not_or.mp h.serverS
    rw [hclosed]
    show SocketInv (outs ++ [.closed b.serverS]) b'
    refine ⟨by rw [hserver]; exact h.serverS, fun s hs => ?_, ⟨?_, ?_⟩, ?_, fun _ => hshut, ?_⟩
    · rw [hsockets, hrest] at hs
      rw [hserver]
      exact h.sockets s hs.2
    · rw [hsockets, hrest]
      exact ⟨hne.1.symm, h.spared.1⟩
    · rw [hsockets, hrest]
      exact ⟨hne.2.symm, h.spared.2⟩
    · rw [hnone, if_neg hshut]
    · refine h.owned.snoc (fun s hs => ?_) (by rw [hnone]; exact Nat.zero_le 1)
      obtain rfl := Output.closed.inj hs
      rw [hserverSockets]
      exact ⟨List.mem_cons_self, hne⟩
  · rw [netprotGoodbye_closed hopen] at hsockets ⊢
    exact h.frame hsockets hserver (fun _ => hopen) nofun

/-- `*s = socket(AF_INET, SOCK_STREAM, 0)`. -/
theorem SocketInv.helloSocket {outs : List Output} {b : Board} (h : SocketInv outs b)
    (hpc : b.pc = .helloSocket) (granted : Bool) :
    SocketInv (outs ++ (b.helloSocket granted).2) (b.helloSocket granted).1 := by
  have hshut := h.closed hpc
  have hnone := h.server
  rw [if_neg hshut] at hnone
  have hother : ∀ s, b.sockets.IsOpen s → s = dhcpSocket ∨ s = bcastSocket := by
    intro s hs
    rcases h.sockets s hs with heq | heq | heq
    · exact Or.inl heq
    · exact Or.inr heq
    · rw [heq] at hs
      exact absurd hs hshut
  unfold Board.helloSocket
  dsimp only
  rcases socket_spec b.sockets granted with hinvalid | ⟨d, hd, hfree, hopen⟩
  · -- no descriptor: `server_s` names none
    rw [hinvalid, if_pos rfl, List.append_nil]
    have hnot := socketInvalid_not_isOpen b.sockets
    exact ⟨not_namesOpenSocket_invalid, fun s hs => (hother s hs).imp_right Or.inl, h.spared,
      hnone.trans (if_neg hnot).symm, fun _ => hnot, h.owned⟩
  · have hvalid : (socket b.sockets granted).1 ≠ socketInvalid := by
      rw [hd]
      exact fun heq => absurd (heq ▸ Int.natCast_nonneg d) (by decide)
    have hone : serverSockets (outs ++ [.opened (socket b.sockets granted).1])
        = [(socket b.sockets granted).1] := by
      rw [serverSockets_snoc, hnone]
      rfl
    have hhere : (socket b.sockets granted).2.IsOpen (socket b.sockets granted).1 := by
      rw [hopen, hd]
      exact Or.inl rfl
    rw [if_neg hvalid]
    refine ⟨?_, fun s hs => ?_, ⟨?_, ?_⟩, hone.trans (if_pos hhere).symm, nofun, ?_⟩
    · intro hnames
      have hnames' : (d : Int) = dhcpSocket ∨ (d : Int) = bcastSocket := hd ▸ hnames
      rcases hnames' with heq | heq
      · exact hfree (by rw [heq]; exact h.spared.1)
      · exact hfree (by rw [heq]; exact h.spared.2)
    · rw [hopen] at hs
      rcases hs with heq | hold
      · exact Or.inr (Or.inr (heq.trans hd.symm))
      · exact (hother s hold).imp_right Or.inl
    · rw [hopen]
      exact Or.inr h.spared.1
    · rw [hopen]
      exact Or.inr h.spared.2
    · exact h.owned.snoc nofun (by rw [hone]; exact Nat.le_refl 1)

/-- **Every step follows the rules.** -/
theorem boardStep_socketInv {outs : List Output} {b : Board} (h : SocketInv outs b)
    (hloop : b.pc.Looping) (e : Event) :
    SocketInv (outs ++ (boardStep b e).2) (boardStep b e).1 := by
  have hsession : ∀ {r : Board × List Output}, SessionFrame b r → SocketInv (outs ++ r.2) r.1 := by
    intro r hframe
    obtain ⟨pc, disconnect, device, heq, -, hset⟩ := hframe.board
    rw [heq]
    refine h.frame rfl rfl (fun hpc => absurd hpc hset) fun o ho => ?_
    have hin := hframe.outputs o ho
    cases o with
    | opened s => cases hin
    | closed s => cases hin
    | _ => exact id
  have hstep := boardStep_cases b e
  generalize boardStep b e = r at hstep
  cases hstep with
  | idle => exact h.frame rfl rfl h.closed nofun
  | trigger x => exact h.frame rfl rfl h.closed nofun
  | timer => exact h.frame rfl rfl h.closed nofun
  | dhcpInit hpc =>
    rw [hpc] at hloop
    cases hloop
  | waitPoll hpc =>
    rw [hpc] at hloop
    cases hloop
  | setupListener hpc =>
    rw [hpc] at hloop
    cases hloop
  | checkBroadcast hpc recv =>
    unfold Board.checkBroadcast
    split
    next => exact h.frame rfl rfl nofun nofun
    next => exact h.frame rfl rfl nofun nofun
  | helloGoodbye hpc =>
    have hhello : SocketInv (outs ++ [.hello b.serverS]) b :=
      h.frame rfl rfl h.closed fun o ho => by
        rw [List.mem_singleton.mp ho]
        exact id
    have hclosed : SocketInv (_ ++ _) b.helloGoodbye.1 := hhello.goodbye rfl rfl
    rw [List.append_assoc] at hclosed
    exact hclosed
  | helloSocket hpc granted => exact h.helloSocket hpc granted
  | helloConnect hpc how =>
    unfold Board.helloConnect
    split
    next =>
      refine h.frame rfl rfl nofun fun o ho => ?_
      rw [List.mem_singleton.mp ho]
      exact id
    next => exact h.frame rfl rfl nofun nofun
  | mainPoll hpc recv =>
    obtain ⟨dhcp, params, hpolled⟩ := b.pollServices_frame recv
    unfold Board.mainPoll
    dsimp only
    rw [hpolled]
    refine h.frame rfl rfl (fun hset => ?_) fun o ho => ?_
    · change (if b.connected = true then Pc.work else .connect) = .helloSocket at hset
      split at hset <;> cases hset
    · obtain ⟨handler, -, rfl⟩ := List.mem_map.mp ho
      exact id
  | goodbye hpc hdisconnect => exact h.goodbye rfl rfl
  | sendCapture hpc hdisconnect results => exact hsession (Board.sendCapture_frame hpc results)
  | stopTrigger hpc => exact h.frame rfl rfl nofun nofun
  | setEmpty hpc =>
    refine h.frame rfl rfl nofun fun o ho => ?_
    rw [List.mem_singleton.mp ho]
    exact id
  | getCommands hpc locals recv => exact hsession (b.getCommands_frame locals recv)
  | command l hpc sent => exact hsession (b.command_frame l sent)

/-- The rules hold where `server_s` names none of the two. -/
theorem serverSocketOwned_of_not_names {b : Board} (hstart : LoopStart b)
    (hserver : ¬ NamesOpenSocket b.serverS) (events : List Event) :
    ServerSocketOwned (boardRun b events).2 := by
  have hclosed : ¬ b.sockets.IsOpen b.serverS := fun hopen => hserver ((hstart.sockets _).mp hopen)
  have hinit : SocketInv [] b := by
    refine ⟨hserver, fun s hs => ?_, ⟨?_, ?_⟩, (if_neg hclosed).symm, fun _ => hclosed,
      serverSocketOwned_nil⟩
    · exact ((hstart.sockets s).mp hs).imp_right Or.inl
    · exact (hstart.sockets _).mpr (Or.inl rfl)
    · exact (hstart.sockets _).mpr (Or.inr rfl)
  have hrun : SocketInv (boardRun b events).2 (boardRun b events).1 ∧
    (boardRun b events).1.pc.Looping :=
    Lib.run_history (fun _ outs b => SocketInv outs b ∧ b.pc.Looping)
      ⟨hinit, by rw [hstart.pc]; trivial⟩
      (fun _ _ _ e h => ⟨boardStep_socketInv h.1 h.2 e, boardStep_looping h.2 e⟩) events
  exact hrun.1.owned

/-! ## The first server that is answered -/

/-- No server was answered yet: `main` looks for one, and nothing was opened or closed. -/
structure BeforeHello (b₀ : Board) (outs : List Output) (b : Board) : Prop where
  pc : b.pc = .connect ∨ b.pc = .hello ∨ b.pc = .poll
  connected : b.connected = false
  serverS : b.serverS = b₀.serverS
  sockets : b.sockets = b₀.sockets
  quiet : ∀ o ∈ outs, ¬ o.OnSocket

theorem BeforeHello.serverSockets {b₀ b : Board} {outs : List Output} (h : BeforeHello b₀ outs b) :
    serverSockets outs = [] := by
  have hquiet := h.quiet
  clear h
  induction outs using List.reverseRecOn with
  | nil => rfl
  | append_singleton outs o ih =>
    rw [serverSockets_snoc_of_not (hquiet o (List.mem_append_right _ List.mem_cons_self))]
    exact ih fun p hp => hquiet p (List.mem_append_left _ hp)

/-- Without an output about a socket the rules hold. -/
theorem BeforeHello.owned {b₀ b : Board} {outs : List Output} (h : BeforeHello b₀ outs b) :
    ServerSocketOwned outs := by
  refine ⟨fun before s after heq => ?_, fun s hs => absurd trivial (h.quiet _ hs),
    fun before after heq => ?_⟩
  · have hs : .closed s ∈ outs := by
      rw [heq]
      exact List.mem_append_right _ List.mem_cons_self
    exact absurd trivial (h.quiet _ hs)
  · have hbefore : BeforeHello b₀ before b :=
      { h with quiet := fun o ho => h.quiet o (by rw [heq]; exact List.mem_append_left _ ho) }
    rw [hbefore.serverSockets]
    exact Nat.zero_le 1

/-- **A step in front of the first `netprot_hello`** that is not that call. -/
theorem boardStep_beforeHello {b₀ b : Board} {outs : List Output} (h : BeforeHello b₀ outs b)
    {e : Event} (he : ¬ (e = .goOn ∧ b.pc = .hello)) :
    BeforeHello b₀ (outs ++ (boardStep b e).2) (boardStep b e).1 := by
  have hnot : ∀ {pc : Pc}, b.pc = pc → pc ≠ .connect → pc ≠ .hello → pc ≠ .poll → False := by
    intro pc hpc hconnect hhello hpoll
    rcases h.pc with heq | heq | heq
    · exact hconnect (hpc.symm.trans heq)
    · exact hhello (hpc.symm.trans heq)
    · exact hpoll (hpc.symm.trans heq)
  have hstep := boardStep_cases b e
  generalize boardStep b e = r at hstep
  cases hstep with
  | idle =>
    rw [List.append_nil]
    exact h
  | trigger x =>
    rw [List.append_nil]
    exact ⟨h.pc, h.connected, h.serverS, h.sockets, h.quiet⟩
  | timer =>
    rw [List.append_nil]
    exact ⟨h.pc, h.connected, h.serverS, h.sockets, h.quiet⟩
  | checkBroadcast hpc recv =>
    rw [List.append_nil]
    unfold Board.checkBroadcast
    split
    next => exact ⟨Or.inr (Or.inl rfl), h.connected, h.serverS, h.sockets, h.quiet⟩
    next => exact ⟨Or.inr (Or.inr rfl), h.connected, h.serverS, h.sockets, h.quiet⟩
  | helloGoodbye hpc => exact absurd ⟨rfl, hpc⟩ he
  | mainPoll hpc recv =>
    obtain ⟨dhcp, params, hpolled⟩ := b.pollServices_frame recv
    unfold Board.mainPoll
    dsimp only
    rw [hpolled]
    have hback : (if b.connected = true then Pc.work else .connect) = .connect := by
      rw [h.connected]
      rfl
    refine ⟨Or.inl hback, h.connected, h.serverS, h.sockets, fun o ho => ?_⟩
    rcases List.mem_append.mp ho with hold | hnew
    · exact h.quiet o hold
    · obtain ⟨handler, -, rfl⟩ := List.mem_map.mp hnew
      exact id
  | dhcpInit hpc => exact (hnot hpc nofun nofun nofun).elim
  | waitPoll hpc => exact (hnot hpc nofun nofun nofun).elim
  | setupListener hpc => exact (hnot hpc nofun nofun nofun).elim
  | helloSocket hpc => exact (hnot hpc nofun nofun nofun).elim
  | helloConnect hpc => exact (hnot hpc nofun nofun nofun).elim
  | goodbye hpc => exact (hnot hpc nofun nofun nofun).elim
  | sendCapture hpc => exact (hnot hpc nofun nofun nofun).elim
  | stopTrigger hpc => exact (hnot hpc nofun nofun nofun).elim
  | setEmpty hpc => exact (hnot hpc nofun nofun nofun).elim
  | getCommands hpc => exact (hnot hpc nofun nofun nofun).elim
  | command l hpc => exact (hnot hpc nofun nofun nofun).elim

/-- The first `netprot_hello` closes a socket that was never its own. -/
theorem not_owned_first_hello {b₀ b : Board} {outs : List Output} (hstart : LoopStart b₀)
    (hserver : NamesOpenSocket b₀.serverS) (h : BeforeHello b₀ outs b) :
    ¬ ServerSocketOwned (outs ++ b.helloGoodbye.2) := by
  intro howned
  have hopen : b.sockets.IsOpen b.serverS := by
    rw [h.sockets, h.serverS]
    exact (hstart.sockets _).mpr hserver
  have houts : outs ++ b.helloGoodbye.2
    = (outs ++ [.hello b.serverS]) ++ .closed b.serverS :: [] := by
    rw [Board.helloGoodbye, (netprotGoodbye_open hopen).1, List.append_assoc]
    rfl
  have hmem := howned.owns _ _ _ houts
  rw [serverSockets_snoc_of_not id, h.serverSockets] at hmem
  cases hmem

theorem answersServer_snoc {b : Board} {events : List Event} {e : Event} :
    AnswersServer b (events ++ [e]) ↔
      AnswersServer b events ∨ (e = .goOn ∧ (boardRun b events).1.pc = .hello) := by
  constructor
  · intro ⟨pre, post, heq, hpc⟩
    rcases Lib.snoc_eq_append_cons.mp heq with ⟨-, rfl, rfl⟩ | ⟨post', -, hold⟩
    · exact Or.inr ⟨rfl, hpc⟩
    · exact Or.inl ⟨pre, post', hold, hpc⟩
  · rintro (⟨pre, post, rfl, hpc⟩ | ⟨rfl, hpc⟩)
    · exact ⟨pre, post ++ [e], by rw [List.append_assoc, List.cons_append], hpc⟩
    · exact ⟨events, [], rfl, hpc⟩

/-- Where `server_s` names one of the two, the rules hold until a server is answered. -/
theorem boardRun_names {b : Board} (hstart : LoopStart b) (hserver : NamesOpenSocket b.serverS)
    (events : List Event) :
    (¬ AnswersServer b events ∧ BeforeHello b (boardRun b events).2 (boardRun b events).1) ∨
      (AnswersServer b events ∧ ¬ ServerSocketOwned (boardRun b events).2) := by
  induction events using List.reverseRecOn with
  | nil =>
    refine Or.inl ⟨fun ⟨pre, post, heq, _⟩ => ?_,
      ⟨Or.inl hstart.pc, hstart.connected, rfl, rfl, nofun⟩⟩
    exact absurd heq (by simp)
  | append_singleton events e ih =>
    rw [boardRun_snoc]
    rcases ih with ⟨hnone, hbefore⟩ | ⟨hanswered, hbroken⟩
    · by_cases hanswers : e = .goOn ∧ (boardRun b events).1.pc = .hello
      · refine Or.inr ⟨answersServer_snoc.mpr (Or.inr hanswers), ?_⟩
        obtain ⟨rfl, hpc⟩ := hanswers
        have hstep : boardStep (boardRun b events).1 .goOn
          = (boardRun b events).1.helloGoodbye := by
          unfold boardStep
          rw [hpc]
        rw [hstep]
        exact not_owned_first_hello hstart hserver hbefore
      · exact Or.inl ⟨fun h => (answersServer_snoc.mp h).elim hnone hanswers,
          boardStep_beforeHello hbefore hanswers⟩
    · exact Or.inr ⟨answersServer_snoc.mpr (Or.inl hanswered),
        fun howned => hbroken howned.of_append⟩

/-- **When the server socket is the only one closed.** In a run of the loop of `main` the
rules hold exactly if `server_s` starts as neither of the two descriptors that are open, or
no server is answered. -/
theorem serverSocketOwned_iff {b : Board} (hstart : LoopStart b) (events : List Event) :
    ServerSocketOwned (boardRun b events).2 ↔
      ¬ NamesOpenSocket b.serverS ∨ ¬ AnswersServer b events := by
  by_cases hserver : NamesOpenSocket b.serverS
  · rcases boardRun_names hstart hserver events with ⟨hnone, hbefore⟩ | ⟨hanswered, hbroken⟩
    · exact ⟨fun _ => Or.inr hnone, fun _ => hbefore.owned⟩
    · exact ⟨fun howned => absurd howned hbroken,
        fun h => absurd hanswered (h.resolve_left (not_not_intro hserver))⟩
  · exact ⟨fun _ => Or.inl hserver, fun _ => serverSocketOwned_of_not_names hstart hserver events⟩

/-- A board that listens, with this in `server_s`. -/
def listeningBoard (serverS : Socket) : Board :=
  (boardRun (Board.boot (fun _ => Netstruct.zero) serverS 0)
    (leaseEvents ⟨3600, 1800, 3150⟩)).1.setupListener true true

/-- A server that is answered twice, and does not take the first connection. -/
def answeredTwice : List Event :=
  let server : Event := .broadcast fun _ => some (ascii "IP='10.0.0.1'")
  [server, .goOn, .socket true, .hello .notConnected, .poll .nothing, server, .goOn, .socket true,
    .hello .ok]

theorem serverSocketOwned_iff_invalid :
    LoopStart (listeningBoard socketInvalid) ∧
      ServerSocketOwned (boardRun (listeningBoard socketInvalid) answeredTwice).2 := by
  have hbefore := boardRun_beforeLoop (fun _ => Netstruct.zero) socketInvalid 0
    (leaseEvents ⟨3600, 1800, 3150⟩) (by decide)
  obtain ⟨hstart, hserver⟩ :=
    loopStart_setupListener hbefore (by decide) true true (by decide)
  refine ⟨hstart, (serverSocketOwned_iff hstart answeredTwice).mpr (Or.inl ?_)⟩
  rw [hserver]
  exact not_namesOpenSocket_invalid

/-- Where `server_s` happens to be 0, the first server that is answered closes the socket of
the DHCP client. -/
theorem not_serverSocketOwned_dhcp :
    LoopStart (listeningBoard dhcpSocket) ∧
      ¬ ServerSocketOwned (boardRun (listeningBoard dhcpSocket) answeredTwice).2 := by
  have hbefore := boardRun_beforeLoop (fun _ => Netstruct.zero) dhcpSocket 0
    (leaseEvents ⟨3600, 1800, 3150⟩) (by decide)
  obtain ⟨hstart, hserver⟩ :=
    loopStart_setupListener hbefore (by decide) true true (by decide)
  have hanswers : AnswersServer (listeningBoard dhcpSocket) answeredTwice :=
    ⟨answeredTwice.take 1, answeredTwice.drop 2, rfl, by decide⟩
  refine ⟨hstart, fun howned => ?_⟩
  rcases boardRun_names hstart (by rw [hserver]; decide) answeredTwice with
    ⟨hnone, -⟩ | ⟨-, hbroken⟩
  · exact hnone hanswers
  · exact hbroken howned

end Datalogger
