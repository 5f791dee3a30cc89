import Datalogger.Board.Main

/-!
# The sessions are isolated

Outside of a session the trigger is off and no buffer is waiting. So a packet has a START
of its own session in front of it, and behind a STOP at most the buffer that was waiting
goes out (`sessionIsolation`).

The argument has two halves. `Isolated` ties the two flags to `connected` and to where
`main` stands; its weight lies in the end of a session, where the trigger is turned off
before the waiting buffer is dropped. `Accounted` ties them to the outputs: a flag that is
up has a START behind it, and behind a STOP the trigger is off and a packet and a waiting
buffer are one together.
-/

namespace Datalogger

open Lib (ascii cstr strtok)

/-! ## Outputs -/

/-- A START was processed. -/
def Output.Starts : Output → Prop
  | .processed t => commandOf t.command = some .start
  | _ => False

/-- A STOP was processed. -/
def Output.Stops : Output → Prop
  | .processed t => commandOf t.command = some .stop
  | _ => False

/-- A session begins or ends. -/
def Output.Boundary : Output → Prop
  | .connected | .disconnected => True
  | _ => False

/-- A capture packet is sent. -/
def Output.isPacket : Output → Bool
  | .packet _ => true
  | _ => false

/-- A START was processed, and no session began or ended since. -/
def StartedThisSession (outs : List Output) : Prop :=
  ∃ before o since, outs = before ++ o :: since ∧ o.Starts ∧ ∀ p ∈ since, ¬ p.Boundary

/-- Every packet follows a START of its session. -/
def PacketsFollowStart (outs : List Output) : Prop :=
  ∀ before p after, outs = before ++ .packet p :: after → StartedThisSession before

/-- Behind a STOP at most one packet is sent until the next START. -/
def OnePacketAfterStop (outs : List Output) : Prop :=
  ∀ before o since after, outs = before ++ o :: (since ++ after) → o.Stops →
    (∀ p ∈ since, ¬ p.Starts) → since.countP Output.isPacket ≤ 1

/-- None of the outputs the two properties are about. -/
def Output.Silent (o : Output) : Prop :=
  ¬ o.Starts ∧ ¬ o.Stops ∧ ¬ o.Boundary ∧ o.isPacket = false

theorem StartedThisSession.snoc {outs : List Output} (h : StartedThisSession outs) {o : Output}
    (ho : ¬ o.Boundary) : StartedThisSession (outs ++ [o]) := by
  obtain ⟨before, s, since, rfl, hs, hsince⟩ := h
  refine ⟨before, s, since ++ [o], by rw [List.append_assoc, List.cons_append], hs, fun p hp => ?_⟩
  rcases List.mem_append.mp hp with hold | hnew
  · exact hsince p hold
  · rw [List.mem_singleton.mp hnew]
    exact ho

theorem PacketsFollowStart.snoc {outs : List Output} (h : PacketsFollowStart outs) {o : Output}
    (ho : o.isPacket = true → StartedThisSession outs) : PacketsFollowStart (outs ++ [o]) := by
  intro before p after heq
  rcases Lib.snoc_eq_append_cons.mp heq with ⟨-, rfl, rfl⟩ | ⟨after', -, hold⟩
  · exact ho rfl
  · exact h before p after' hold

/-! ## The flags and the outputs -/

/-- What the outputs say about the trigger and the waiting buffer. -/
structure Accounted (outs : List Output) (on full : Bool) : Prop where
  started : on = true ∨ full = true → StartedThisSession outs
  stopped : ∀ before o since, outs = before ++ o :: since → o.Stops → (∀ p ∈ since, ¬ p.Starts) →
    on = false ∧ since.countP Output.isPacket + full.toNat ≤ 1
  packets : PacketsFollowStart outs
  onePacket : OnePacketAfterStop outs

theorem accounted_nil : Accounted [] false false := by
  refine ⟨by simp, fun before o since h => ?_, fun before p after h => ?_,
    fun before o since after h => ?_⟩ <;> exact absurd h (by simp)

/-- The bound on the packets behind a STOP, one output later. -/
theorem OnePacketAfterStop.snoc {outs : List Output} (h : OnePacketAfterStop outs) {o : Output}
    (hstopped : ∀ before s since, outs ++ [o] = before ++ s :: since → s.Stops →
      (∀ p ∈ since, ¬ p.Starts) → since.countP Output.isPacket ≤ 1) :
    OnePacketAfterStop (outs ++ [o]) := by
  intro before s since after heq hs hsince
  rcases List.eq_nil_or_concat after with rfl | ⟨after', last, rfl⟩
  · rw [List.append_nil] at heq
    exact hstopped before s since heq hs hsince
  · rw [List.concat_eq_append, ← List.append_assoc] at heq
    rcases Lib.snoc_eq_append_cons.mp heq with ⟨hnil, -, -⟩ | ⟨since', hsince', hold⟩
    · exact absurd hnil (by simp)
    · obtain ⟨hbefore, -⟩ := List.append_inj' hsince' rfl
      rw [← hbefore] at hold
      exact h before s since after' hold hs hsince

/-- **One more output**: each field from what the output is. -/
theorem Accounted.snoc {outs : List Output} {on full on' full' : Bool} (h : Accounted outs on full)
    {o : Output} (hstarted : on' = true ∨ full' = true → StartedThisSession (outs ++ [o]))
    (hpacket : o.isPacket = true → full = true)
    (hstop : o.Stops → on' = false)
    (hkept : ¬ o.Starts → on = false →
      on' = false ∧ (if o.isPacket then 1 else 0) + full'.toNat ≤ full.toNat) :
    Accounted (outs ++ [o]) on' full' := by
  have hstopped : ∀ before s since, outs ++ [o] = before ++ s :: since → s.Stops →
      (∀ p ∈ since, ¬ p.Starts) → on' = false ∧ since.countP Output.isPacket + full'.toNat ≤ 1 := by
    intro before s since heq hs hsince
    rcases Lib.snoc_eq_append_cons.mp heq with ⟨rfl, -, rfl⟩ | ⟨since', rfl, hold⟩
    · refine ⟨hstop hs, ?_⟩
      cases full' <;> simp
    · obtain ⟨hoff, hle⟩ := h.stopped before s since' hold hs
        fun p hp => hsince p (List.mem_append_left _ hp)
      obtain ⟨hoff', hle'⟩ := hkept (hsince o (List.mem_append_right _ List.mem_cons_self)) hoff
      refine ⟨hoff', ?_⟩
      rw [List.countP_append, List.countP_singleton]
      omega
  refine ⟨hstarted, hstopped, h.packets.snoc fun hp => h.started (Or.inr (hpacket hp)), ?_⟩
  exact h.onePacket.snoc fun before s since heq hs hsince =>
    Nat.le_of_add_right_le (hstopped before s since heq hs hsince).2

/-- A silent output changes nothing. -/
theorem Accounted.silent {outs : List Output} {on full : Bool} (h : Accounted outs on full)
    {o : Output} (ho : o.Silent) : Accounted (outs ++ [o]) on full := by
  obtain ⟨-, hstop, hboundary, hpacket⟩ := ho
  refine h.snoc (fun hflag => (h.started hflag).snoc hboundary) (fun hp => ?_)
    (fun hs => absurd hs hstop) fun _ hoff => ⟨hoff, ?_⟩
  · rw [hpacket] at hp
    cases hp
  · rw [hpacket]
    simp

theorem Accounted.silents {on full : Bool} (new : List Output) :
    ∀ {outs : List Output}, Accounted outs on full → (∀ o ∈ new, o.Silent) →
      Accounted (outs ++ new) on full := by
  induction new with
  | nil =>
    intro outs h _
    rw [List.append_nil]
    exact h
  | cons o new ih =>
    intro outs h hnew
    have hrest := ih (h.silent (hnew o List.mem_cons_self)) fun p hp =>
      hnew p (List.mem_cons_of_mem o hp)
    rw [List.append_assoc] at hrest
    exact hrest

/-- With both flags down anything but a packet may come. -/
theorem Accounted.boundary {outs : List Output} (h : Accounted outs false false) {o : Output}
    (ho : o.isPacket = false) : Accounted (outs ++ [o]) false false := by
  refine h.snoc (by simp) (fun hp => ?_) (fun _ => rfl) fun _ _ => ⟨rfl, ?_⟩
  · rw [ho] at hp
    cases hp
  · rw [ho]
    simp

/-- Between outputs the interrupt raises the flag only while it is on, and both flags can
fall at any time. -/
theorem Accounted.flags {outs : List Output} {on full on' full' : Bool} (h : Accounted outs on full)
    (hon : on' = true → on = true) (hraised : full' = true → on = true ∨ full = true) :
    Accounted outs on' full' := by
  refine ⟨fun hflag => h.started (hflag.elim (fun hup => Or.inl (hon hup)) hraised),
    fun before o since heq hs hsince => ?_, h.packets, h.onePacket⟩
  obtain ⟨hoff, hle⟩ := h.stopped before o since heq hs hsince
  refine ⟨eq_false_of_ne_true fun hup => ?_, ?_⟩
  · rw [hon hup] at hoff
    cases hoff
  · cases full' with
    | false =>
      rw [Bool.toNat_false]
      omega
    | true =>
      have hfull : full = true := (hraised rfl).resolve_left (by rw [hoff]; nofun)
      rw [hfull] at hle
      exact hle

/-- START. -/
theorem Accounted.start {outs : List Output} {on full : Bool} (h : Accounted outs on full)
    {t : Turn} (ht : commandOf t.command = some .start) :
    Accounted (outs ++ [.processed t]) true false := by
  refine h.snoc (fun _ => ⟨outs, .processed t, [], rfl, ht, nofun⟩) nofun (fun hs => ?_)
    fun hstart => absurd ht hstart
  cases ht.symm.trans hs

/-- STOP. -/
theorem Accounted.stop {outs : List Output} {on full : Bool} (h : Accounted outs on full)
    (t : Turn) : Accounted (outs ++ [.processed t]) false full := by
  refine h.snoc (fun hflag => (h.started (Or.inr (hflag.resolve_left nofun))).snoc id) nofun
    (fun _ => rfl) fun _ _ => ⟨rfl, ?_⟩
  show 0 + full.toNat ≤ full.toNat
  omega

/-- A packet is the buffer that was waiting. -/
theorem Accounted.packet {outs : List Output} {on : Bool} (h : Accounted outs on true)
    (p : Netstruct) : Accounted (outs ++ [.packet p]) on false :=
  h.snoc (fun _ => (h.started (Or.inr rfl)).snoc id) (fun _ => rfl) nofun
    fun _ hoff => ⟨hoff, Nat.le_refl 1⟩

/-! ## Where `main` stands -/

/-- What `connected` is there, where it is always the same. -/
def Pc.connected? : Pc → Option Bool
  | .boot | .waitDhcp | .setupListener | .halted | .connect | .hello | .helloSocket
  | .helloConnect => some false
  | .work | .getCommands | .commands _ | .stopTrigger | .setEmpty => some true
  | .poll | .undefined => none

/-- No trigger and no waiting buffer. -/
structure Device.Quiet (d : Device) : Prop where
  triggerOff : d.triggerOn = false
  empty : d.bufFull = false

/-- The board is quiet outside of a session, and its trigger is off once it is stopped. -/
structure Isolated (b : Board) : Prop where
  pc : ∀ c, b.pc.connected? = some c → b.connected = c
  quiet : b.connected = false → b.device.Quiet
  stopped : b.pc = .setEmpty → b.device.triggerOn = false

/-- The two properties of a run so far. -/
structure IsolationInv (outs : List Output) (b : Board) : Prop where
  isolated : Isolated b
  accounted : Accounted outs b.device.triggerOn b.device.bufFull

theorem Device.triggerIsr_bufFull {d : Device} {x : UInt16} (h : (d.triggerIsr x).bufFull = true) :
    d.triggerOn = true ∨ d.bufFull = true := by
  cases hon : d.triggerOn with
  | true => exact Or.inl rfl
  | false =>
    rw [Device.triggerIsr_off hon] at h
    exact Or.inr h

theorem silent_handler (h : DhcpHandler) (w : Bool) : (Output.handler h w).Silent :=
  ⟨id, id, id, rfl⟩

theorem silent_closed (s : Socket) : (Output.closed s).Silent := ⟨id, id, id, rfl⟩

/-- A step that stays outside of the session and leaves the device alone. -/
theorem Isolated.outside {b b' : Board} (h : Isolated b) (hconnected : b'.connected = b.connected)
    (hdevice : b'.device = b.device) (hpc : ∀ c, b'.pc.connected? = some c → b.connected = c)
    (hstopped : b'.pc ≠ .setEmpty) : Isolated b' := by
  refine ⟨fun c hc => ?_, fun hout => ?_, fun hset => absurd hset hstopped⟩
  · rw [hconnected]
    exact hpc c hc
  · rw [hdevice]
    exact h.quiet (hconnected.symm.trans hout)

/-- A step without outputs that leaves both as they are. -/
theorem IsolationInv.moves {outs : List Output} {b b' : Board} (h : IsolationInv outs b)
    (hconnected : b'.connected = b.connected) (hdevice : b'.device = b.device)
    (hpc : ∀ c, b'.pc.connected? = some c → b.connected = c) (hset : b'.pc ≠ .setEmpty) :
    IsolationInv (outs ++ []) b' := by
  rw [List.append_nil]
  refine ⟨h.isolated.outside hconnected hdevice hpc hset, ?_⟩
  rw [hdevice]
  exact h.accounted

/-! ## Steps -/

/-- A line keeps the board isolated: it is inside of a session. -/
theorem command_isolationInv {outs : List Output} {b : Board} (h : IsolationInv outs b)
    {l : CommandLoop} (hpc : b.pc = .commands l) (sent : Bool) :
    IsolationInv (outs ++ (b.command l sent).2) (b.command l sent).1 := by
  have hin : b.connected = true := h.isolated.pc true (by rw [hpc]; rfl)
  have hinside : ∀ {b' : Board}, b'.connected = true →
      (∀ c, b'.pc.connected? = some c → true = c) → b'.pc ≠ .setEmpty → Isolated b' := by
    intro b' hconnected hpc' hset
    refine ⟨fun c hc => hconnected.trans (hpc' c hc), fun hout => ?_, fun heq => absurd heq hset⟩
    rw [hconnected] at hout
    cases hout
  have hidle : ∀ pc : Pc, (∀ c, pc.connected? = some c → true = c) → pc ≠ .setEmpty →
      IsolationInv (outs ++ []) { b with pc := pc } := fun pc hpc' hset =>
    h.moves rfl rfl (fun c hc => hin.trans (hpc' c hc)) hset
  unfold Board.command
  cases strtok isNewline l.commandstr l.pos with
  | none => exact hidle .undefined nofun nofun
  | some token? =>
    cases token? with
    | none =>
      simp only
      unfold Board.updateDisplay
      split
      next => exact hidle .work (fun c hc => Option.some.inj hc) nofun
      next => exact hidle .undefined nofun nofun
    | some token =>
      simp only
      obtain ⟨hcommand, -, hresult⟩ := processTurn_inputs b.device.objects l.outstr token.text
      generalize processTurn b.device.objects l.outstr token.text = t at *
      split
      next res reply hres hreply =>
        -- the flags behind the line, from the calls it made
        have haccounted : Accounted (outs ++ [.processed t]) (b.device.afterLine res).triggerOn
            (b.device.afterLine res).bufFull := by
          have hspec := process_calls (hresult.symm.trans hres)
          rw [← hcommand] at hspec
          generalize hcalls : res.calls = calls at hspec
          cases hspec with
          | start hcmd delay =>
            rw [b.device.afterLine_start hcalls]
            exact h.accounted.start hcmd
          | stop =>
            rw [b.device.afterLine_stop hcalls]
            exact h.accounted.stop t
          | other hstart hstop =>
            rw [b.device.afterLine_other hcalls]
            exact h.accounted.silent ⟨hstart, hstop, id, rfl⟩
        split
        next => exact ⟨hinside hin (fun c hc => Option.some.inj hc) nofun, haccounted⟩
        next => exact ⟨hinside hin (fun c hc => Option.some.inj hc) nofun, haccounted⟩
      next => exact hidle .undefined nofun nofun

/-- `netprot_send_capture` keeps the board isolated. -/
theorem sendCapture_isolationInv {outs : List Output} {b : Board} (h : IsolationInv outs b)
    (hpc : b.pc = .work) (results : List SendResult) :
    IsolationInv (outs ++ (b.sendCapture results).2) (b.sendCapture results).1 := by
  have hin : b.connected = true := h.isolated.pc true (by rw [hpc]; rfl)
  obtain ⟨hempty, hwaiting⟩ := netprotSendCapture_waiting b.device.sender results
  have haccounted : Accounted
      (outs ++ (netprotSendCapture b.device.sender results).packet.toList.map .packet)
      b.device.triggerOn (netprotSendCapture b.device.sender results).sender.capture.bufFull := by
    rw [hempty]
    cases hpacket : (netprotSendCapture b.device.sender results).packet with
    | none =>
      rw [show (none : Option Netstruct).toList.map Output.packet = [] from rfl, List.append_nil]
      exact h.accounted.flags id nofun
    | some p =>
      have hfull : b.device.bufFull = true := (hwaiting p hpacket).1
      have hacc := h.accounted
      rw [hfull] at hacc
      exact hacc.packet p
  have hinside : ∀ (disconnect : Bool) (pc : Pc), (∀ c, pc.connected? = some c → true = c) →
      pc ≠ .setEmpty →
      IsolationInv (outs ++ (netprotSendCapture b.device.sender results).packet.toList.map .packet)
        { b with
          device := { b.device with sender := (netprotSendCapture b.device.sender results).sender }
          pc := pc, disconnect := disconnect } := by
    intro disconnect pc hpc' hset
    refine ⟨⟨fun c hc => hin.trans (hpc' c hc), fun hout => ?_, fun heq => absurd heq hset⟩,
      haccounted⟩
    exact absurd (hin.symm.trans hout) (by decide)
  unfold Board.sendCapture
  dsimp only
  split
  next =>
    rw [List.append_nil]
    exact h
  next => exact hinside true .work (fun c hc => Option.some.inj hc) nofun
  next sent _ =>
    split
    next => exact hinside b.disconnect .work (fun c hc => Option.some.inj hc) nofun
    next => exact hinside b.disconnect .getCommands (fun c hc => Option.some.inj hc) nofun

/-- A poll keeps the board isolated wherever it goes on. -/
theorem poll_isolationInv {outs : List Output} {b : Board} (h : IsolationInv outs b)
    (recv : DhcpRecv) (w : Bool) {pc : Pc} (hpc : ∀ c, pc.connected? = some c → b.connected = c)
    (hset : pc ≠ .setEmpty) :
    IsolationInv (outs ++ (b.pollServices recv).2.toList.map (.handler · w))
      { (b.pollServices recv).1 with pc := pc } := by
  obtain ⟨dhcp, params, hpolled⟩ := b.pollServices_frame recv
  rw [hpolled]
  refine ⟨h.isolated.outside rfl rfl hpc hset, ?_⟩
  refine h.accounted.silents _ fun o ho => ?_
  obtain ⟨handler, -, rfl⟩ := List.mem_map.mp ho
  exact silent_handler handler w

/-- **Every step keeps the sessions isolated.** -/
theorem boardStep_isolationInv {outs : List Output} {b : Board} (h : IsolationInv outs b)
    (e : Event) :
    IsolationInv (outs ++ (boardStep b e).2) (boardStep b e).1 := by
  have hquiet : b.connected = false → b.device.triggerOn = false ∧ b.device.bufFull = false :=
    fun hout => ⟨(h.isolated.quiet hout).triggerOff, (h.isolated.quiet hout).empty⟩
  have hstep := boardStep_cases b e
  generalize boardStep b e = r at hstep
  cases hstep with
  | idle =>
    rw [List.append_nil]
    exact h
  | trigger x =>
    rw [List.append_nil]
    refine ⟨⟨h.isolated.pc, fun hout => ?_, fun hset => ?_⟩, ?_⟩
    · show (b.device.triggerIsr x).Quiet
      rw [Device.triggerIsr_off (hquiet hout).1]
      exact h.isolated.quiet hout
    · show (b.device.triggerIsr x).triggerOn = false
      rw [Device.triggerIsr_triggerOn]
      exact h.isolated.stopped hset
    · show Accounted outs (b.device.triggerIsr x).triggerOn (b.device.triggerIsr x).bufFull
      rw [Device.triggerIsr_triggerOn]
      exact h.accounted.flags id Device.triggerIsr_bufFull
  | timer =>
    rw [List.append_nil]
    exact ⟨⟨h.isolated.pc, h.isolated.quiet, h.isolated.stopped⟩, h.accounted⟩
  | dhcpInit hpc granted bound =>
    have hout : b.connected = false := h.isolated.pc false (by rw [hpc]; rfl)
    unfold Board.dhcpInit
    dsimp only
    split
    next => exact h.moves rfl rfl (fun c hc => hout.trans (Option.some.inj hc)) nofun
    next => exact h.moves rfl rfl (fun c hc => hout.trans (Option.some.inj hc)) nofun
  | waitPoll hpc recv =>
    have hout : b.connected = false := h.isolated.pc false (by rw [hpc]; rfl)
    refine poll_isolationInv h recv true (fun c hc => ?_) ?_
    · split at hc <;> exact hout.trans (Option.some.inj hc)
    · split <;> nofun
  | setupListener hpc granted bound =>
    have hout : b.connected = false := h.isolated.pc false (by rw [hpc]; rfl)
    unfold Board.setupListener
    dsimp only
    split
    next => exact h.moves rfl rfl (fun c hc => hout.trans (Option.some.inj hc)) nofun
    next => exact h.moves rfl rfl (fun c hc => hout.trans (Option.some.inj hc)) nofun
  | checkBroadcast hpc recv =>
    have hout : b.connected = false := h.isolated.pc false (by rw [hpc]; rfl)
    unfold Board.checkBroadcast
    split
    next => exact h.moves rfl rfl (fun c hc => hout.trans (Option.some.inj hc)) nofun
    next => exact h.moves rfl rfl nofun nofun
  | helloGoodbye hpc =>
    have hout : b.connected = false := h.isolated.pc false (by rw [hpc]; rfl)
    refine ⟨h.isolated.outside rfl rfl (fun c hc => hout.trans (Option.some.inj hc)) nofun, ?_⟩
    refine h.accounted.silents _ fun o ho => ?_
    rcases List.mem_cons.mp ho with rfl | ho
    · exact ⟨id, id, id, rfl⟩
    · obtain ⟨s, -, rfl⟩ := List.mem_map.mp ho
      exact silent_closed s
  | helloSocket hpc granted =>
    have hout : b.connected = false := h.isolated.pc false (by rw [hpc]; rfl)
    refine ⟨h.isolated.outside rfl rfl (fun c hc => hout.trans (Option.some.inj hc)) nofun, ?_⟩
    refine h.accounted.silents _ fun o ho => ?_
    unfold Board.helloSocket at ho
    dsimp only at ho
    split at ho
    next => cases ho
    next =>
      rw [List.mem_singleton.mp ho]
      exact ⟨id, id, id, rfl⟩
  | helloConnect hpc how =>
    have hout : b.connected = false := h.isolated.pc false (by rw [hpc]; rfl)
    unfold Board.helloConnect
    split
    next =>
      -- a session begins, and both flags are down
      refine ⟨⟨nofun, nofun, nofun⟩, ?_⟩
      have hacc := h.accounted
      rw [(hquiet hout).1, (hquiet hout).2] at hacc
      show Accounted _ b.device.triggerOn b.device.bufFull
      rw [(hquiet hout).1, (hquiet hout).2]
      exact hacc.boundary rfl
    next => exact h.moves rfl rfl nofun nofun
  | mainPoll hpc recv =>
    refine poll_isolationInv h recv false (fun c hc => ?_) ?_
    · cases hconnected : b.connected with
      | true =>
        rw [hconnected] at hc
        exact Option.some.inj hc
      | false =>
        rw [hconnected] at hc
        exact Option.some.inj hc
    · split <;> nofun
  | goodbye hpc =>
    have hin : b.connected = true := h.isolated.pc true (by rw [hpc]; rfl)
    refine ⟨h.isolated.outside rfl rfl (fun c hc => hin.trans (Option.some.inj hc)) nofun, ?_⟩
    refine h.accounted.silents _ fun o ho => ?_
    obtain ⟨s, -, rfl⟩ := List.mem_map.mp ho
    exact silent_closed s
  | sendCapture hpc _ results => exact sendCapture_isolationInv h hpc results
  | stopTrigger hpc =>
    rw [List.append_nil]
    have hin : b.connected = true := h.isolated.pc true (by rw [hpc]; rfl)
    refine ⟨⟨fun c hc => hin.trans (Option.some.inj hc), fun hout => ?_, fun _ => rfl⟩, ?_⟩
    · exact absurd (hin.symm.trans hout) (by decide)
    · show Accounted outs false b.device.bufFull
      exact h.accounted.flags nofun Or.inr
  | setEmpty hpc =>
    have hoff := h.isolated.stopped hpc
    refine ⟨⟨fun c hc => Option.some.inj hc, fun _ => ⟨hoff, rfl⟩, nofun⟩, ?_⟩
    have hacc : Accounted outs false false := h.accounted.flags nofun nofun
    show Accounted _ b.device.triggerOn false
    rw [hoff]
    exact hacc.boundary rfl
  | getCommands hpc locals recv =>
    have hin : b.connected = true := h.isolated.pc true (by rw [hpc]; rfl)
    unfold Board.getCommands
    split
    next => exact h.moves rfl rfl (fun c hc => hin.trans (Option.some.inj hc)) nofun
    next bytes _ =>
      split
      next => exact h.moves rfl rfl (fun c hc => hin.trans (Option.some.inj hc)) nofun
      next =>
        split
        next => exact h.moves rfl rfl nofun nofun
        next => exact h.moves rfl rfl (fun c hc => hin.trans (Option.some.inj hc)) nofun
  | command l hpc sent => exact command_isolationInv h hpc sent

/-- **Session isolation.** In every run from power-up the trigger is off and no buffer is
waiting while the board is not connected, every packet follows a START of its session, and
behind a STOP at most one packet goes out until the next START. -/
theorem sessionIsolation (mem : BufId → Netstruct) (serverS bcastS : Socket) (events : List Event) :
    ((boardRun (Board.boot mem serverS bcastS) events).1.connected = false →
      (boardRun (Board.boot mem serverS bcastS) events).1.device.triggerOn = false ∧
        (boardRun (Board.boot mem serverS bcastS) events).1.device.bufFull = false) ∧
    PacketsFollowStart (boardRun (Board.boot mem serverS bcastS) events).2 ∧
    OnePacketAfterStop (boardRun (Board.boot mem serverS bcastS) events).2 := by
  have hboot : IsolationInv [] (Board.boot mem serverS bcastS) := by
    refine ⟨⟨fun c hc => Option.some.inj hc, fun _ => ⟨rfl, rfl⟩, nofun⟩, accounted_nil⟩
  have hrun : IsolationInv (boardRun (Board.boot mem serverS bcastS) events).2
      (boardRun (Board.boot mem serverS bcastS) events).1 :=
    Lib.run_history (fun _ outs b => IsolationInv outs b) hboot
      (fun _ _ b e h => boardStep_isolationInv h e) events
  refine ⟨fun hout => ?_, hrun.accounted.packets, hrun.accounted.onePacket⟩
  have hquiet := hrun.isolated.quiet hout
  exact ⟨hquiet.triggerOff, hquiet.empty⟩

end Datalogger
