/-!
# The DHCP client and `wait_dhcp`'s handlers

`fnet_dhcp.c`'s state machine runs once with every `fnet_poll_services`. `wait_dhcp`
registers two handlers with it, which note in a local of `wait_dhcp` how the client fares.
`fnetDhcpStateMachine_calls_iff` says in which passes the client calls a handler.

Mirroring notes:
- Of the options only those the state machine looks at are kept, in host order; how they
  are found in a message is left out. `fnet_dhcp_receive_message` drops what is not for
  this client, so such a message is no message.
- When `recvfrom` fails, its -1 passes the test for a short message, and what is still in
  the buffer is looked at. If that is for this client (its own last message is) the -1 goes
  out as the result, and it is `FNET_DHCP_ISTIMEOUT` too (`socketError`).
- Nothing but the client sets the address of the interface, and it marks the address
  automatic before it is bound, so the branches for an address set by the user are left out.
- The address requested is 0, so the client starts in `INIT`. What `fnet_dhcp_send_message`
  sends is left out; it notes the time.
-/

namespace Datalogger

/-- `fnet_timer_get_interval`. -/
def fnetTimerGetInterval (start end_ : UInt32) : UInt32 :=
  if start ≤ end_ then end_ - start else 0xffffffff - start + end_ + 1

/-- `fnet_dhcp_state_t`. -/
inductive DhcpState where
  | init
  | selecting
  | requesting
  | initReboot
  | rebooting
  | bound
  | renewing
  | rebinding
  deriving DecidableEq, Repr

/-- The times of a lease, in seconds. -/
structure DhcpLease where
  leaseTime : UInt32
  t1 : UInt32
  t2 : UInt32
  deriving DecidableEq, Repr

/-- `struct fnet_dhcp_options_in`. -/
structure DhcpOptions where
  messageType : UInt8
  ipAddress : UInt32
  dhcpServer : UInt32
  lease : DhcpLease
  deriving DecidableEq, Repr

def fnetDhcpLeaseInfinity : UInt32 := 0xffffffff
def fnetDhcpLeaseMin : UInt32 := 180
def fnetDhcpLeaseMax : UInt32 := 0xffffffff / (1000 * 2)
def fnetTimerPeriodMs : UInt32 := 100

def fnetDhcpOptionTypeOffer : UInt8 := 2
def fnetDhcpOptionTypeAck : UInt8 := 5
def fnetDhcpOptionTypeNak : UInt8 := 6

/-- `fnet_dhcp_if`. -/
structure DhcpIf where
  state : DhcpState
  stateTimeout : UInt32
  stateTimeoutNextState : DhcpState
  leaseObtainedTime : UInt32
  stateSendTimeout : UInt32
  sendRequestTime : UInt32
  retriesUntilLinkLocal : Nat
  lease : DhcpLease
  deriving DecidableEq, Repr

/-- What `recvfrom` has for the client. -/
inductive DhcpRecv where
  | nothing
  | socketError
  | message (options : DhcpOptions)
  deriving DecidableEq, Repr

/-- What `fnet_dhcp_receive_message` returns. -/
inductive DhcpReceived where
  | nothing
  | isTimeout
  | options (options : DhcpOptions)
  deriving DecidableEq, Repr

/-- The two handlers that can be registered. -/
inductive DhcpHandler where
  | discover
  | updated
  deriving DecidableEq, Repr

/-! ## The state machine -/

/-- `fnet_dhcp_receive_message`. -/
def fnetDhcpReceiveMessage (dhcp : DhcpIf) (now : UInt32) (recv : DhcpRecv) : DhcpReceived :=
  if fnetTimerGetInterval dhcp.sendRequestTime now < dhcp.stateSendTimeout then
    match recv with
    | .nothing => .nothing
    | .socketError => .isTimeout
    | .message options => .options options
  else .isTimeout

/-- Seconds of the lease in ticks. -/
def leaseTicks (seconds : UInt32) : UInt32 := seconds * 1000 / fnetTimerPeriodMs

/-- `fnet_dhcp_change_state`. -/
def fnetDhcpChangeState (dhcp : DhcpIf) (now : UInt32) : DhcpState → DhcpIf
  | .init => { dhcp with state := .init }
  | .initReboot => { dhcp with state := .initReboot }
  | .selecting =>
    { dhcp with state := .selecting, sendRequestTime := now
                stateSendTimeout := 4 * 1000 / fnetTimerPeriodMs }
  | .bound =>
    { dhcp with state := .bound, stateTimeoutNextState := .renewing
                leaseObtainedTime := dhcp.sendRequestTime
                stateTimeout := if dhcp.lease.t1 = fnetDhcpLeaseInfinity then fnetDhcpLeaseInfinity
                  else leaseTicks dhcp.lease.t1 }
  | .requesting =>
    { dhcp with state := .requesting, sendRequestTime := now, stateTimeoutNextState := .init
                leaseObtainedTime := now
                stateSendTimeout := 4 * 1000 / fnetTimerPeriodMs
                stateTimeout := 4 * (4 * 1000) / fnetTimerPeriodMs }
  | .rebooting =>
    { dhcp with state := .rebooting, sendRequestTime := now, stateTimeoutNextState := .init
                leaseObtainedTime := now
                stateTimeout := 2 * (4 * 1000) / fnetTimerPeriodMs
                stateSendTimeout := 4 * 1000 / fnetTimerPeriodMs }
  | .renewing =>
    { dhcp with state := .renewing, sendRequestTime := now, stateTimeoutNextState := .rebinding
                stateTimeout := leaseTicks dhcp.lease.t2
                stateSendTimeout := 60 * 1000 / fnetTimerPeriodMs }
  | .rebinding =>
    { dhcp with state := .rebinding, sendRequestTime := now, stateTimeoutNextState := .init
                stateTimeout := leaseTicks dhcp.lease.leaseTime
                stateSendTimeout := 60 * 1000 / fnetTimerPeriodMs }

/-- `fnet_dhcp_apply_params` with these options as the current ones. -/
def fnetDhcpApplyParams (dhcp : DhcpIf) (now : UInt32) (lease : DhcpLease) :
    DhcpIf × Option DhcpHandler :=
  (fnetDhcpChangeState { dhcp with lease := lease } now .bound, some .updated)

/-- The lease of a link-local address. -/
def linkLocalLease : DhcpLease :=
  { leaseTime := fnetDhcpLeaseInfinity, t1 := fnetDhcpLeaseInfinity, t2 := fnetDhcpLeaseInfinity }

/-- The options that must be present in an ACK. -/
def DhcpOptions.Acceptable (o : DhcpOptions) : Prop :=
  o.messageType = fnetDhcpOptionTypeAck ∧ o.ipAddress ≠ 0 ∧ o.dhcpServer ≠ 0 ∧ o.lease.leaseTime ≠ 0

instance (o : DhcpOptions) : Decidable o.Acceptable := inferInstanceAs (Decidable (_ ∧ _ ∧ _ ∧ _))

/-- `/* Check T1, T2 and lease time */`. -/
def DhcpLease.checked (l : DhcpLease) : DhcpLease :=
  if l.leaseTime = fnetDhcpLeaseInfinity then
    { l with t1 := fnetDhcpLeaseInfinity, t2 := fnetDhcpLeaseInfinity }
  else
    let leaseTime :=
      if l.leaseTime < fnetDhcpLeaseMin then fnetDhcpLeaseMin
      else if fnetDhcpLeaseMax < l.leaseTime then fnetDhcpLeaseMax
      else l.leaseTime
    if l.t1 = 0 ∨ l.t2 = 0 ∨ l.leaseTime ≠ leaseTime then
      { leaseTime := leaseTime, t1 := leaseTime >>> 1, t2 := leaseTime - leaseTime / 8 }
    else { l with leaseTime := leaseTime }

/-- `case FNET_DHCP_STATE_SELECTING`. -/
def dhcpSelecting (dhcp : DhcpIf) (now : UInt32) (recv : DhcpRecv) : DhcpIf × Option DhcpHandler :=
  match fnetDhcpReceiveMessage dhcp now recv with
  | .isTimeout =>
    if 0 < dhcp.retriesUntilLinkLocal then
      let dhcp := { dhcp with retriesUntilLinkLocal := dhcp.retriesUntilLinkLocal - 1 }
      if dhcp.retriesUntilLinkLocal = 0 then
        fnetDhcpApplyParams { dhcp with leaseObtainedTime := now } now linkLocalLease
      else (fnetDhcpChangeState dhcp now .init, none)
    else (fnetDhcpChangeState dhcp now .init, none)
  | .options options =>
    if options.messageType = fnetDhcpOptionTypeOffer then
      (fnetDhcpChangeState dhcp now .requesting, none)
    else (dhcp, none)
  | .nothing => (dhcp, none)

/-- `case FNET_DHCP_STATE_BOUND`. -/
def dhcpBound (dhcp : DhcpIf) (now : UInt32) : DhcpIf × Option DhcpHandler :=
  if dhcp.stateTimeout < fnetTimerGetInterval dhcp.leaseObtainedTime now then
    (fnetDhcpChangeState dhcp now dhcp.stateTimeoutNextState, none)
  else (dhcp, none)

/-- The cases that wait for an ACK. -/
def dhcpAwaitAck (dhcp : DhcpIf) (now : UInt32) (recv : DhcpRecv) : DhcpIf × Option DhcpHandler :=
  if fnetTimerGetInterval dhcp.leaseObtainedTime now < dhcp.stateTimeout then
    match fnetDhcpReceiveMessage dhcp now recv with
    | .isTimeout => ({ dhcp with sendRequestTime := now }, none)
    | .options options =>
      if options.Acceptable then
        fnetDhcpApplyParams { dhcp with leaseObtainedTime := dhcp.sendRequestTime } now
          options.lease.checked
      else if options.messageType = fnetDhcpOptionTypeNak then
        (fnetDhcpChangeState dhcp now .init, none)
      else (dhcp, none)
    | .nothing => (dhcp, none)
  else (fnetDhcpChangeState dhcp now dhcp.stateTimeoutNextState, none)

/-- `fnet_dhcp_state_machine`: the client behind the pass, and the handler it called. -/
def fnetDhcpStateMachine (dhcp : DhcpIf) (now : UInt32) (recv : DhcpRecv) :
    DhcpIf × Option DhcpHandler :=
  match dhcp.state with
  | .init => (fnetDhcpChangeState dhcp now .selecting, some .discover)
  | .selecting => dhcpSelecting dhcp now recv
  | .bound => dhcpBound dhcp now
  | .initReboot => (fnetDhcpChangeState dhcp now .rebooting, some .discover)
  | .renewing | .rebinding | .rebooting | .requesting => dhcpAwaitAck dhcp now recv

/-- `fnet_dhcp_init`, with its fields as they are in `.bss`. -/
def fnetDhcpInit (retriesUntilLinkLocal : Nat) : DhcpIf :=
  { state := .init, stateTimeout := 0, stateTimeoutNextState := .init, leaseObtainedTime := 0
    stateSendTimeout := 0, sendRequestTime := 0, retriesUntilLinkLocal := retriesUntilLinkLocal
    lease := { leaseTime := 0, t1 := 0, t2 := 0 } }

/-! ## `wait_dhcp` -/

/-- `CONFIG_DHCP_TRIES`. -/
def configDhcpTries : Nat := 10

/-- `enum callback_state`. -/
inductive CallbackState where
  | waiting
  | timeout
  | success
  deriving DecidableEq, Repr

/-- `struct callback_params_t`. -/
structure CallbackParams where
  maxTries : Nat
  curTry : Nat
  state : CallbackState
  deriving DecidableEq, Repr

/-- `callback_params` when the handlers are registered. -/
def callbackParams (tries : Nat) : CallbackParams :=
  { maxTries := tries + 1, curTry := 1, state := .waiting }

/-- `handler_discover`. -/
def handlerDiscover (p : CallbackParams) : CallbackParams :=
  if p.maxTries = p.curTry then { p with state := .timeout } else { p with curTry := p.curTry + 1 }

/-- `handler_updated`. -/
def handlerUpdated (p : CallbackParams) : CallbackParams := { p with state := .success }

/-- The handler is called on `callback_params`. -/
def DhcpHandler.call : DhcpHandler → CallbackParams → CallbackParams
  | .discover => handlerDiscover
  | .updated => handlerUpdated

/-! ## When a handler is called -/

/-- The client waits for an ACK. -/
def DhcpState.AwaitsAck : DhcpState → Prop
  | .requesting | .rebooting | .renewing | .rebinding => True
  | .init | .selecting | .initReboot | .bound => False

/-- The client calls a handler in this pass: it starts over, a discover went unanswered
for the last time, or it is given an address. -/
inductive DhcpCalls (dhcp : DhcpIf) (now : UInt32) (recv : DhcpRecv) : Prop
  | init (hstate : dhcp.state = .init ∨ dhcp.state = .initReboot)
  | linkLocal (hstate : dhcp.state = .selecting) (hretries : dhcp.retriesUntilLinkLocal = 1)
      (htimeout : fnetDhcpReceiveMessage dhcp now recv = .isTimeout)
  | ack (hstate : dhcp.state.AwaitsAck) (options : DhcpOptions)
      (hintime : fnetTimerGetInterval dhcp.leaseObtainedTime now < dhcp.stateTimeout)
      (hreceived : fnetDhcpReceiveMessage dhcp now recv = .options options)
      (hacceptable : options.Acceptable)

theorem dhcpSelecting_calls_iff {dhcp : DhcpIf} {now : UInt32} {recv : DhcpRecv} :
    (dhcpSelecting dhcp now recv).2 ≠ none ↔
      dhcp.retriesUntilLinkLocal = 1 ∧ fnetDhcpReceiveMessage dhcp now recv = .isTimeout := by
  unfold dhcpSelecting
  cases fnetDhcpReceiveMessage dhcp now recv with
  | nothing => exact ⟨fun h => absurd rfl h, fun h => by cases h.2⟩
  | options options =>
    simp only
    split
    next => exact ⟨fun h => absurd rfl h, fun h => by cases h.2⟩
    next => exact ⟨fun h => absurd rfl h, fun h => by cases h.2⟩
  | isTimeout =>
    simp only
    by_cases hone : dhcp.retriesUntilLinkLocal = 1
    · rw [if_pos (by omega), if_pos (by omega)]
      exact ⟨fun _ => ⟨hone, trivial⟩, fun _ => nofun⟩
    · refine ⟨fun h => ?_, fun h => absurd h.1 hone⟩
      split at h
      next =>
        rw [if_neg (by omega)] at h
        exact absurd rfl h
      next => exact absurd rfl h

theorem dhcpAwaitAck_calls_iff {dhcp : DhcpIf} {now : UInt32} {recv : DhcpRecv} :
    (dhcpAwaitAck dhcp now recv).2 ≠ none ↔
      fnetTimerGetInterval dhcp.leaseObtainedTime now < dhcp.stateTimeout ∧
        ∃ o, fnetDhcpReceiveMessage dhcp now recv = .options o ∧ o.Acceptable := by
  unfold dhcpAwaitAck
  split
  next hintime =>
    cases fnetDhcpReceiveMessage dhcp now recv with
    | nothing => exact ⟨fun h => absurd rfl h, fun ⟨_, o, ho, _⟩ => by cases ho⟩
    | isTimeout => exact ⟨fun h => absurd rfl h, fun ⟨_, o, ho, _⟩ => by cases ho⟩
    | options options =>
      simp only
      split
      next hack => exact ⟨fun _ => ⟨hintime, options, rfl, hack⟩, fun _ => nofun⟩
      next hack =>
        refine ⟨fun h => ?_, fun ⟨_, o, ho, hacceptable⟩ => ?_⟩
        · split at h
          next => exact absurd rfl h
          next => exact absurd rfl h
        · cases ho
          exact absurd hacceptable hack
  next hlate => exact ⟨fun h => absurd rfl h, fun h => absurd h.1 hlate⟩

/-- **The passes that call a handler.** -/
theorem fnetDhcpStateMachine_calls_iff {dhcp : DhcpIf} {now : UInt32} {recv : DhcpRecv} :
    (fnetDhcpStateMachine dhcp now recv).2 ≠ none ↔ DhcpCalls dhcp now recv := by
  have hack : ∀ hstate : dhcp.state.AwaitsAck,
      (dhcpAwaitAck dhcp now recv).2 ≠ none ↔ DhcpCalls dhcp now recv := by
    intro hstate
    rw [dhcpAwaitAck_calls_iff]
    constructor
    · intro ⟨hintime, o, hreceived, hacceptable⟩
      exact .ack hstate o hintime hreceived hacceptable
    · intro h
      cases h with
      | init hinit => rcases hinit with hinit | hinit <;> rw [hinit] at hstate <;> cases hstate
      | linkLocal hselecting =>
        rw [hselecting] at hstate
        cases hstate
      | ack _ o hintime hreceived hacceptable => exact ⟨hintime, o, hreceived, hacceptable⟩
  unfold fnetDhcpStateMachine
  cases hstate : dhcp.state with
  | init => exact ⟨fun _ => .init (Or.inl hstate), fun _ => nofun⟩
  | initReboot => exact ⟨fun _ => .init (Or.inr hstate), fun _ => nofun⟩
  | requesting => exact hack (by rw [hstate]; trivial)
  | rebooting => exact hack (by rw [hstate]; trivial)
  | renewing => exact hack (by rw [hstate]; trivial)
  | rebinding => exact hack (by rw [hstate]; trivial)
  | selecting =>
    simp only [dhcpSelecting_calls_iff]
    constructor
    · intro ⟨hretries, htimeout⟩
      exact .linkLocal hstate hretries htimeout
    · intro h
      cases h with
      | init hinit => rcases hinit with hinit | hinit <;> rw [hinit] at hstate <;> cases hstate
      | linkLocal _ hretries htimeout => exact ⟨hretries, htimeout⟩
      | ack hack =>
        rw [hstate] at hack
        cases hack
  | bound =>
    have hnone : (dhcpBound dhcp now).2 = none := by
      unfold dhcpBound
      split <;> rfl
    refine ⟨fun h => absurd hnone h, fun h => ?_⟩
    cases h with
    | init hinit => rcases hinit with hinit | hinit <;> rw [hinit] at hstate <;> cases hstate
    | linkLocal hselecting =>
      rw [hselecting] at hstate
      cases hstate
    | ack hack =>
      rw [hstate] at hack
      cases hack

/-- A lease whose T1 never expires is kept as it is. -/
theorem fnetDhcpStateMachine_infinite {dhcp : DhcpIf} (hstate : dhcp.state = .bound)
    (htimeout : dhcp.stateTimeout = fnetDhcpLeaseInfinity) (now : UInt32) (recv : DhcpRecv) :
    fnetDhcpStateMachine dhcp now recv = (dhcp, none) := by
  have hnever : ¬ dhcp.stateTimeout < fnetTimerGetInterval dhcp.leaseObtainedTime now := by
    rw [htimeout, UInt32.not_lt]
    exact UInt32.le_iff_toNat_le.mpr
      (Nat.le_of_lt_succ (fnetTimerGetInterval dhcp.leaseObtainedTime now).toNat_lt)
  unfold fnetDhcpStateMachine
  simp only [hstate, dhcpBound, if_neg hnever]

/-! ## Whether one is called again -/

/-- Some server and some time make the client call a handler. -/
inductive DhcpMayCall : DhcpIf → UInt32 → Prop
  | calls {dhcp : DhcpIf} {now : UInt32} (recv : DhcpRecv) (h : DhcpCalls dhcp now recv) :
      DhcpMayCall dhcp now
  | tick {dhcp : DhcpIf} {now : UInt32} (h : DhcpMayCall dhcp (now + 1)) : DhcpMayCall dhcp now
  | pass {dhcp : DhcpIf} {now : UInt32} (recv : DhcpRecv)
      (h : DhcpMayCall (fnetDhcpStateMachine dhcp now recv).1 now) : DhcpMayCall dhcp now

/-- The counter of the ticks wraps around. -/
theorem fnetTimerGetInterval_eq (start end_ : UInt32) :
    fnetTimerGetInterval start end_ = end_ - start := by
  unfold fnetTimerGetInterval
  split
  next => rfl
  next => grind

theorem DhcpMayCall.ticks {dhcp : DhcpIf} :
    ∀ (n : Nat) {now : UInt32}, DhcpMayCall dhcp (now + UInt32.ofNat n) → DhcpMayCall dhcp now
  | 0, now, h => by
    rw [show UInt32.ofNat 0 = 0 from rfl, UInt32.add_zero] at h
    exact h
  | n + 1, now, h => by
    refine .tick (DhcpMayCall.ticks n ?_)
    rw [UInt32.ofNat_add, UInt32.add_comm (UInt32.ofNat n), ← UInt32.add_assoc] at h
    exact h

/-- There is a time at which everything but infinity is over. -/
theorem DhcpMayCall.of_late {dhcp : DhcpIf} {now : UInt32} (start : UInt32)
    (h : ∀ late, fnetTimerGetInterval start late = fnetDhcpLeaseInfinity → DhcpMayCall dhcp late) :
    DhcpMayCall dhcp now := by
  have hlate := h (start + fnetDhcpLeaseInfinity) (by
    rw [fnetTimerGetInterval_eq, UInt32.add_comm, UInt32.add_sub_cancel])
  refine .ticks (start + fnetDhcpLeaseInfinity - now).toNat ?_
  rw [UInt32.ofNat_toNat, UInt32.add_comm, UInt32.sub_add_cancel]
  exact hlate

theorem mayCall_init {dhcp : DhcpIf} (hstate : dhcp.state = .init) (now : UInt32) :
    DhcpMayCall dhcp now := .calls .nothing (.init (Or.inl hstate))

/-- An unanswered discover is followed by the next one, or by the link-local address. -/
theorem mayCall_selecting {dhcp : DhcpIf} (hstate : dhcp.state = .selecting) (now : UInt32) :
    DhcpMayCall dhcp now := by
  have htimeout : fnetDhcpReceiveMessage dhcp now .socketError = .isTimeout := by
    unfold fnetDhcpReceiveMessage
    split <;> rfl
  by_cases hretries : dhcp.retriesUntilLinkLocal = 1
  · exact .calls .socketError (.linkLocal hstate hretries htimeout)
  · refine .pass .socketError (mayCall_init ?_ now)
    unfold fnetDhcpStateMachine
    rw [hstate]
    simp only [dhcpSelecting, htimeout]
    split
    next =>
      rw [if_neg (by omega)]
      rfl
    next => rfl

/-- A request that was just sent is acknowledged, if it is not too late for that. -/
theorem mayCall_awaitAck {dhcp : DhcpIf} {now : UInt32} (hstate : dhcp.state.AwaitsAck)
    (hsent : dhcp.sendRequestTime = now) (hwindow : 0 < dhcp.stateSendTimeout)
    (hlate : DhcpMayCall (fnetDhcpChangeState dhcp now dhcp.stateTimeoutNextState) now) :
    DhcpMayCall dhcp now := by
  by_cases hintime : fnetTimerGetInterval dhcp.leaseObtainedTime now < dhcp.stateTimeout
  · let ack : DhcpOptions :=
      { messageType := fnetDhcpOptionTypeAck, ipAddress := 1, dhcpServer := 1
        lease := { leaseTime := fnetDhcpLeaseMin, t1 := 0, t2 := 0 } }
    refine .calls (.message ack) (.ack hstate ack hintime ?_ (by decide))
    unfold fnetDhcpReceiveMessage
    rw [fnetTimerGetInterval_eq, hsent, UInt32.sub_self, if_pos hwindow]
  · refine .pass .nothing ?_
    have hpass : fnetDhcpStateMachine dhcp now .nothing
        = (fnetDhcpChangeState dhcp now dhcp.stateTimeoutNextState, none) := by
      have hawait : fnetDhcpStateMachine dhcp now .nothing = dhcpAwaitAck dhcp now .nothing := by
        unfold fnetDhcpStateMachine
        cases hcase : dhcp.state <;> rw [hcase] at hstate <;> first | rfl | cases hstate
      rw [hawait, dhcpAwaitAck, if_neg hintime]
    rw [hpass]
    exact hlate

/-- **A lease that expires** is renewed, or the client starts over. -/
theorem mayCall_bound {dhcp : DhcpIf} (hstate : dhcp.state = .bound)
    (hnext : dhcp.stateTimeoutNextState = .renewing)
    (htimeout : dhcp.stateTimeout ≠ fnetDhcpLeaseInfinity) (now : UInt32) :
    DhcpMayCall dhcp now := by
  refine DhcpMayCall.of_late dhcp.leaseObtainedTime fun late hlate => .pass .nothing ?_
  have hexpired : dhcp.stateTimeout < fnetTimerGetInterval dhcp.leaseObtainedTime late := by
    rw [hlate]
    refine UInt32.lt_of_le_of_ne ?_ htimeout
    exact UInt32.le_iff_toNat_le.mpr (Nat.le_of_lt_succ dhcp.stateTimeout.toNat_lt)
  have hpass : (fnetDhcpStateMachine dhcp late .nothing).1
      = fnetDhcpChangeState dhcp late .renewing := by
    unfold fnetDhcpStateMachine
    rw [hstate]
    simp only [dhcpBound, if_pos hexpired, hnext]
  have hwindow : (0 : UInt32) < 60 * 1000 / fnetTimerPeriodMs := by decide
  rw [hpass]
  refine mayCall_awaitAck trivial rfl hwindow ?_
  show DhcpMayCall
      (fnetDhcpChangeState (fnetDhcpChangeState dhcp late .renewing) late .rebinding) late
  exact mayCall_awaitAck trivial rfl hwindow (mayCall_init rfl late)

/-! ## The states `wait_dhcp` can leave the client in -/

/-- The client never returns to an address that it asked for before. -/
structure DhcpIf.Fresh (dhcp : DhcpIf) : Prop where
  state : dhcp.state ≠ .initReboot
  next : dhcp.stateTimeoutNextState ≠ .initReboot

/-- Where a handler was called just now. -/
def DhcpIf.Called (dhcp : DhcpIf) : Prop :=
  dhcp.state = .selecting ∨ dhcp.state = .bound ∧ dhcp.stateTimeoutNextState = .renewing

theorem DhcpIf.Fresh.change {dhcp : DhcpIf} (h : dhcp.Fresh) (now : UInt32) (state : DhcpState)
    (hstate : state ≠ .initReboot) : (fnetDhcpChangeState dhcp now state).Fresh := by
  cases state with
  | init => exact ⟨nofun, h.next⟩
  | initReboot => exact absurd rfl hstate
  | selecting => exact ⟨nofun, h.next⟩
  | requesting => exact ⟨nofun, nofun⟩
  | rebooting => exact ⟨nofun, nofun⟩
  | bound => exact ⟨nofun, nofun⟩
  | renewing => exact ⟨nofun, nofun⟩
  | rebinding => exact ⟨nofun, nofun⟩

/-- What a pass does to the client: nothing much, a change of state, or a call. -/
theorem fnetDhcpStateMachine_fresh {dhcp : DhcpIf} (h : dhcp.Fresh) (now : UInt32)
    (recv : DhcpRecv) :
    (fnetDhcpStateMachine dhcp now recv).1.Fresh ∧
      ((fnetDhcpStateMachine dhcp now recv).2 ≠ none →
        (fnetDhcpStateMachine dhcp now recv).1.Called) := by
  have hack : (dhcpAwaitAck dhcp now recv).1.Fresh ∧
      ((dhcpAwaitAck dhcp now recv).2 ≠ none → (dhcpAwaitAck dhcp now recv).1.Called) := by
    unfold dhcpAwaitAck
    split
    next =>
      split
      next => exact ⟨⟨h.state, h.next⟩, fun hnone => absurd rfl hnone⟩
      next =>
        split
        next => exact ⟨⟨nofun, nofun⟩, fun _ => Or.inr ⟨rfl, rfl⟩⟩
        next =>
          split
          next => exact ⟨h.change now .init nofun, fun hnone => absurd rfl hnone⟩
          next => exact ⟨h, fun hnone => absurd rfl hnone⟩
      next => exact ⟨h, fun hnone => absurd rfl hnone⟩
    next => exact ⟨h.change now _ h.next, fun hnone => absurd rfl hnone⟩
  unfold fnetDhcpStateMachine
  cases hstate : dhcp.state with
  | init => exact ⟨h.change now .selecting nofun, fun _ => Or.inl rfl⟩
  | initReboot => exact absurd hstate h.state
  | requesting => exact hack
  | rebooting => exact hack
  | renewing => exact hack
  | rebinding => exact hack
  | bound =>
    simp only
    unfold dhcpBound
    split
    next => exact ⟨h.change now _ h.next, fun hnone => absurd rfl hnone⟩
    next => exact ⟨h, fun hnone => absurd rfl hnone⟩
  | selecting =>
    simp only
    unfold dhcpSelecting
    split
    next =>
      split
      next =>
        dsimp only
        split
        next => exact ⟨⟨nofun, nofun⟩, fun _ => Or.inr ⟨rfl, rfl⟩⟩
        next => exact ⟨⟨nofun, h.next⟩, fun hnone => absurd rfl hnone⟩
      next => exact ⟨h.change now .init nofun, fun hnone => absurd rfl hnone⟩
    next =>
      split
      next => exact ⟨h.change now .requesting nofun, fun hnone => absurd rfl hnone⟩
      next => exact ⟨h, fun hnone => absurd rfl hnone⟩
    next => exact ⟨h, fun hnone => absurd rfl hnone⟩

end Datalogger
