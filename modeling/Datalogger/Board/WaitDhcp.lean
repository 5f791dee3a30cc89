import Datalogger.Board.Main
import Datalogger.Lib.CInt
import Datalogger.Lib.Trace

/-!
# `wait_dhcp` and the address

`wait_dhcp` gives up when `handler_discover` is called once more than `tries` times, and the
client takes a link-local address when `tries` discovers have gone unanswered, so that the
address should always come first. The two counters go apart when a request is lost: the
client starts over, and only `cur_try` has moved. `wait_dhcp_address_iff` says exactly in
which runs that makes `wait_dhcp` give up.

Mirroring notes:
- `tries + 1` is `int` arithmetic, so there is no run for the largest `int`.
- The time and what `recvfrom` has are arbitrary at every poll.
-/

namespace Datalogger

open Lib (checkedAdd countRun)

/-! ## The loop -/

/-- The DHCP client and `callback_params` in the loop of `wait_dhcp`. -/
structure Wait where
  dhcp : DhcpIf
  params : CallbackParams
  deriving DecidableEq

/-- What a `fnet_poll_services` meets. -/
structure Poll where
  now : UInt32
  recv : DhcpRecv

/-- One turn of `while (callback_params.state == WAITING)`, and the handler it calls. -/
def Wait.poll (w : Wait) (p : Poll) : Wait × List DhcpHandler :=
  if w.params.state = .waiting then
    let r := fnetDhcpStateMachine w.dhcp p.now p.recv
    ({ dhcp := r.1, params := r.2.elim w.params (·.call w.params) }, r.2.toList)
  else (w, [])

/-- In front of the loop, when `fnet_dhcp_init` has succeeded. -/
def waitInit (tries : Nat) : Wait := { dhcp := fnetDhcpInit tries, params := callbackParams tries }

/-- `wait_dhcp` up to the loop: `max_tries` has to fit in `int`. -/
def waitDhcp (tries : Int32) : Option Wait :=
  (checkedAdd tries 1).map fun _ => waitInit tries.toInt.toNat

/-- The board's poll is this one. -/
theorem Board.waitPoll_poll {b : Board} {dhcp : DhcpIf} (hdhcp : b.dhcp = some dhcp)
    (hwait : b.callbackParams.state = .waiting) (recv : DhcpRecv) :
    let w := (Wait.poll ⟨dhcp, b.callbackParams⟩ ⟨b.ticks, recv⟩).1
    (b.waitPoll recv).1.dhcp = some w.dhcp ∧ (b.waitPoll recv).1.callbackParams = w.params := by
  unfold Board.waitPoll Board.pollServices Wait.poll
  rw [hdhcp, if_pos hwait]
  dsimp only
  cases hcall : (fnetDhcpStateMachine dhcp b.ticks recv).2 with
  | none => exact ⟨rfl, rfl⟩
  | some h => exact ⟨rfl, rfl⟩

/-! ## The attempts that are given up -/

/-- The message is a NAK. -/
def DhcpReceived.IsNak : DhcpReceived → Prop
  | .options o => o.messageType = fnetDhcpOptionTypeNak
  | _ => False

instance : (r : DhcpReceived) → Decidable r.IsNak
  | .options o => inferInstanceAs (Decidable (o.messageType = fnetDhcpOptionTypeNak))
  | .nothing => instDecidableFalse
  | .isTimeout => instDecidableFalse

/-- The discover goes unanswered, and it is not the last one before the link-local address. -/
def DhcpIf.Unanswered (dhcp : DhcpIf) (p : Poll) : Prop :=
  dhcp.state = .selecting ∧ fnetDhcpReceiveMessage dhcp p.now p.recv = .isTimeout ∧
    dhcp.retriesUntilLinkLocal ≠ 1

/-- The request is refused, or has been out for too long. -/
def DhcpIf.RequestLost (dhcp : DhcpIf) (p : Poll) : Prop :=
  dhcp.state = .requesting ∧
    (dhcp.stateTimeout ≤ fnetTimerGetInterval dhcp.leaseObtainedTime p.now ∨
      (fnetDhcpReceiveMessage dhcp p.now p.recv).IsNak)

instance (dhcp : DhcpIf) (p : Poll) : Decidable (dhcp.Unanswered p) :=
  inferInstanceAs (Decidable (_ ∧ _ ∧ _))

instance (dhcp : DhcpIf) (p : Poll) : Decidable (dhcp.RequestLost p) :=
  inferInstanceAs (Decidable (_ ∧ _))

/-- The discovers of a run that have gone unanswered. -/
def unanswered (tries : Nat) (polls : List Poll) : Nat :=
  countRun Wait.poll (fun w p => w.params.state = .waiting ∧ w.dhcp.Unanswered p)
    (waitInit tries) polls

/-- The requests of a run that were lost. -/
def lostRequests (tries : Nat) (polls : List Poll) : Nat :=
  countRun Wait.poll (fun w p => w.params.state = .waiting ∧ w.dhcp.RequestLost p) (waitInit tries)
    polls

/-- No request was lost, or there is an attempt left. -/
def AttemptLeft (tries : Nat) (polls : List Poll) : Prop :=
  lostRequests tries polls = 0 ∨ lostRequests tries polls + unanswered tries polls < tries

/-- That is so before every poll of the run. -/
def AttemptsLast (tries : Nat) (polls : List Poll) : Prop :=
  ∀ before p since, polls = before ++ p :: since → AttemptLeft tries before

/-! ## One poll -/

/-- The client has no address yet, and a request that is out too long is given up. -/
def DhcpIf.Trying (dhcp : DhcpIf) : Prop :=
  dhcp.state = .init ∨ dhcp.state = .selecting ∨
    dhcp.state = .requesting ∧ dhcp.stateTimeoutNextState = .init

/-- What a poll does to a client that has no address yet. -/
inductive DhcpPass (dhcp : DhcpIf) (p : Poll) : DhcpIf × Option DhcpHandler → Prop
  | discover (dhcp' : DhcpIf) (hstate : dhcp.state = .init) (hstate' : dhcp'.state = .selecting)
      (hretries : dhcp'.retriesUntilLinkLocal = dhcp.retriesUntilLinkLocal) :
      DhcpPass dhcp p (dhcp', some .discover)
  | waits (dhcp' : DhcpIf) (hstate : dhcp.state ≠ .init) (hstate' : dhcp'.state ≠ .init)
      (hretries : dhcp'.retriesUntilLinkLocal = dhcp.retriesUntilLinkLocal)
      (htrying : dhcp'.Trying) (hunanswered : ¬ dhcp.Unanswered p) (hlost : ¬ dhcp.RequestLost p) :
      DhcpPass dhcp p (dhcp', none)
  | unanswered (dhcp' : DhcpIf) (h : dhcp.Unanswered p) (hstate' : dhcp'.state = .init)
      (hretries : dhcp'.retriesUntilLinkLocal = dhcp.retriesUntilLinkLocal - 1) :
      DhcpPass dhcp p (dhcp', none)
  | lost (dhcp' : DhcpIf) (h : dhcp.RequestLost p) (hstate' : dhcp'.state = .init)
      (hretries : dhcp'.retriesUntilLinkLocal = dhcp.retriesUntilLinkLocal) :
      DhcpPass dhcp p (dhcp', none)
  | updated (dhcp' : DhcpIf) (hstate : dhcp.state ≠ .init) (hunanswered : ¬ dhcp.Unanswered p)
      (hlost : ¬ dhcp.RequestLost p) :
      DhcpPass dhcp p (dhcp', some .updated)

/-- A discover: an offer, the link-local address, or nothing. -/
theorem dhcpSelecting_pass {dhcp : DhcpIf} (hstate : dhcp.state = .selecting) (p : Poll) :
    DhcpPass dhcp p (dhcpSelecting dhcp p.now p.recv) := by
  have hinit : dhcp.state ≠ .init := by rw [hstate]; decide
  have hlost : ¬ dhcp.RequestLost p := fun h => absurd (hstate.symm.trans h.1) (by decide)
  -- only a discover that has timed out is unanswered
  have hanswered : fnetDhcpReceiveMessage dhcp p.now p.recv ≠ .isTimeout → ¬ dhcp.Unanswered p :=
    fun hne h => hne h.2.1
  unfold dhcpSelecting
  cases hreceived : fnetDhcpReceiveMessage dhcp p.now p.recv with
  | nothing =>
    rw [hreceived] at hanswered
    exact .waits dhcp hinit hinit rfl (Or.inr (Or.inl hstate)) (hanswered (by decide)) hlost
  | options o =>
    rw [hreceived] at hanswered
    have hne : DhcpReceived.options o ≠ .isTimeout := fun h => by cases h
    dsimp only
    split
    next =>
      have hrequesting : (fnetDhcpChangeState dhcp p.now .requesting).state ≠ .init := by
        show DhcpState.requesting ≠ .init
        decide
      exact .waits _ hinit hrequesting rfl (Or.inr (Or.inr ⟨rfl, rfl⟩)) (hanswered hne) hlost
    next => exact .waits dhcp hinit hinit rfl (Or.inr (Or.inl hstate)) (hanswered hne) hlost
  | isTimeout =>
    dsimp only
    by_cases hone : dhcp.retriesUntilLinkLocal = 1
    · rw [if_pos (by omega), if_pos (by omega)]
      exact .updated _ hinit (fun h => h.2.2 hone) hlost
    · have hunanswered : dhcp.Unanswered p := ⟨hstate, hreceived, hone⟩
      split
      next =>
        rw [if_neg (by omega)]
        exact .unanswered _ hunanswered rfl rfl
      next hnone =>
        refine .unanswered _ hunanswered rfl ?_
        show dhcp.retriesUntilLinkLocal = dhcp.retriesUntilLinkLocal - 1
        omega

/-- A request: it is answered, sent again, or lost. -/
theorem dhcpAwaitAck_pass {dhcp : DhcpIf} (hstate : dhcp.state = .requesting)
    (hnext : dhcp.stateTimeoutNextState = .init) (p : Poll) :
    DhcpPass dhcp p (dhcpAwaitAck dhcp p.now p.recv) := by
  have hinit : dhcp.state ≠ .init := by rw [hstate]; decide
  have hunanswered : ¬ dhcp.Unanswered p := fun h => absurd (hstate.symm.trans h.1) (by decide)
  have htrying : dhcp.Trying := Or.inr (Or.inr ⟨hstate, hnext⟩)
  unfold dhcpAwaitAck
  split
  next hintime =>
    -- in time a request is lost by a NAK only
    have hkept : ¬ (fnetDhcpReceiveMessage dhcp p.now p.recv).IsNak → ¬ dhcp.RequestLost p :=
      fun hnak h => h.2.elim (UInt32.not_le.mpr hintime) hnak
    cases hreceived : fnetDhcpReceiveMessage dhcp p.now p.recv with
    | nothing =>
      rw [hreceived] at hkept
      exact .waits dhcp hinit hinit rfl htrying hunanswered (hkept id)
    | isTimeout =>
      rw [hreceived] at hkept
      exact .waits _ hinit hinit rfl htrying hunanswered (hkept id)
    | options o =>
      rw [hreceived] at hkept
      dsimp only
      split
      next hack =>
        have hnak : o.messageType ≠ fnetDhcpOptionTypeNak := by rw [hack.1]; decide
        exact .updated _ hinit hunanswered (hkept hnak)
      next =>
        split
        next hnak =>
          have hlost : dhcp.RequestLost p := ⟨hstate, Or.inr (by rw [hreceived]; exact hnak)⟩
          exact .lost _ hlost rfl rfl
        next hnak => exact .waits dhcp hinit hinit rfl htrying hunanswered (hkept hnak)
  next hlate =>
    rw [hnext]
    exact .lost _ ⟨hstate, Or.inl (UInt32.not_lt.mp hlate)⟩ rfl rfl

/-- **What a poll does**, case by case. -/
theorem fnetDhcpStateMachine_pass {dhcp : DhcpIf} (h : dhcp.Trying) (p : Poll) :
    DhcpPass dhcp p (fnetDhcpStateMachine dhcp p.now p.recv) := by
  unfold fnetDhcpStateMachine
  rcases h with hstate | hstate | ⟨hstate, hnext⟩
  · rw [hstate]
    exact .discover _ hstate rfl rfl
  · rw [hstate]
    exact dhcpSelecting_pass hstate p
  · rw [hstate]
    exact dhcpAwaitAck_pass hstate hnext p

/-! ## The two counters -/

/-- The state in front of a poll. -/
def waitRun (tries : Nat) (polls : List Poll) : Wait := (Lib.run Wait.poll (waitInit tries) polls).1

/-- The handlers called so far. -/
def handlersRun (tries : Nat) (polls : List Poll) : List DhcpHandler :=
  (Lib.run Wait.poll (waitInit tries) polls).2

theorem unanswered_snoc (tries : Nat) (polls : List Poll) (p : Poll) :
    unanswered tries (polls ++ [p]) = unanswered tries polls
      + if (waitRun tries polls).params.state = .waiting ∧ (waitRun tries polls).dhcp.Unanswered p
        then 1 else 0 :=
  Lib.countRun_snoc _ _ p polls _

theorem lostRequests_snoc (tries : Nat) (polls : List Poll) (p : Poll) :
    lostRequests tries (polls ++ [p]) = lostRequests tries polls
      + if (waitRun tries polls).params.state = .waiting ∧ (waitRun tries polls).dhcp.RequestLost p
        then 1 else 0 :=
  Lib.countRun_snoc _ _ p polls _

theorem attemptsLast_snoc {tries : Nat} {polls : List Poll} {p : Poll} :
    AttemptsLast tries (polls ++ [p]) ↔ AttemptsLast tries polls ∧ AttemptLeft tries polls := by
  constructor
  · intro h
    refine ⟨fun before q since heq => ?_, h polls p [] rfl⟩
    exact h before q (since ++ [p]) (by rw [heq, List.append_assoc, List.cons_append])
  · intro h before q since heq
    rcases Lib.snoc_eq_append_cons.mp heq with ⟨-, rfl, -⟩ | ⟨since', -, hpolls⟩
    · exact h.2
    · exact h.1 before q since' hpolls

/-- The loop goes on: the client's counter has moved with the unanswered discovers, and
`cur_try` with these and the lost requests. -/
structure Attempt (tries : Nat) (polls : List Poll) (w : Wait) : Prop where
  trying : w.dhcp.Trying
  retries : w.dhcp.retriesUntilLinkLocal + unanswered tries polls = tries
  retries_pos : 0 < w.dhcp.retriesUntilLinkLocal
  curTry : w.params.curTry + (if w.dhcp.state = .init then 1 else 0)
    = lostRequests tries polls + unanswered tries polls + 2
  curTry_le : w.params.curTry ≤ tries + 1
  last : AttemptsLast tries polls

/-- What holds of `wait_dhcp` after these polls. -/
structure CounterInv (tries : Nat) (polls : List Poll) (handlers : List DhcpHandler) (w : Wait) :
    Prop where
  maxTries : w.params.maxTries = tries + 1
  updated : .updated ∈ handlers ↔ w.params.state = .success
  waiting : w.params.state = .waiting → Attempt tries polls w
  success : w.params.state = .success → AttemptsLast tries polls ∧ AttemptLeft tries polls
  timeout : w.params.state = .timeout → ¬ AttemptsLast tries polls

theorem CounterInv.init {tries : Nat} (h : 0 < tries) :
    CounterInv tries [] [] (waitInit tries) where
  maxTries := rfl
  updated := iff_of_false List.not_mem_nil fun hsuccess => CallbackState.noConfusion hsuccess
  waiting := fun _ =>
    { trying := Or.inl rfl, retries := rfl, retries_pos := h, curTry := rfl
      curTry_le := Nat.le_add_left 1 tries
      last := fun before p since heq => absurd heq.symm (by simp) }
  success := fun hsuccess => CallbackState.noConfusion hsuccess
  timeout := fun htimeout => CallbackState.noConfusion htimeout

/-- An attempt is left, unless the client is about to start one more than `tries`. -/
theorem Attempt.left_iff {tries : Nat} {polls : List Poll} {w : Wait} (h : Attempt tries polls w) :
    AttemptLeft tries polls ↔ ¬ (w.dhcp.state = .init ∧ w.params.curTry = tries + 1) := by
  have hretries := h.retries
  have hpos := h.retries_pos
  have hcur := h.curTry
  have hle := h.curTry_le
  unfold AttemptLeft
  by_cases hinit : w.dhcp.state = .init
  · rw [if_pos hinit] at hcur
    simp only [hinit, true_and]
    omega
  · rw [if_neg hinit] at hcur
    simp only [hinit, false_and, not_false_iff, iff_true]
    omega

/-- A poll of a loop that has ended. -/
theorem CounterInv.ended {tries : Nat} {polls : List Poll}
    (h : CounterInv tries polls (handlersRun tries polls) (waitRun tries polls))
    (hended : (waitRun tries polls).params.state ≠ .waiting) (p : Poll) :
    CounterInv tries (polls ++ [p]) (handlersRun tries polls) (waitRun tries polls) where
  maxTries := h.maxTries
  updated := h.updated
  waiting := fun hwaiting => absurd hwaiting hended
  success := fun hsuccess => by
    obtain ⟨hlast, hleft⟩ := h.success hsuccess
    refine ⟨attemptsLast_snoc.mpr ⟨hlast, hleft⟩, ?_⟩
    unfold AttemptLeft at hleft ⊢
    rw [unanswered_snoc, lostRequests_snoc, if_neg fun hp => hended hp.1,
      if_neg fun hp => hended hp.1]
    exact hleft
  timeout := fun htimeout hlast => h.timeout htimeout (attemptsLast_snoc.mp hlast).1

/-- A loop that goes on. -/
theorem Attempt.inv {tries : Nat} {polls : List Poll} {handlers : List DhcpHandler} {w : Wait}
    (h : Attempt tries polls w) (hmax : w.params.maxTries = tries + 1)
    (hwaiting : w.params.state = .waiting) (hnot : .updated ∉ handlers) :
    CounterInv tries polls handlers w where
  maxTries := hmax
  updated := iff_of_false hnot (by rw [hwaiting]; decide)
  waiting := fun _ => h
  success := fun hsuccess => absurd (hwaiting.symm.trans hsuccess) (by decide)
  timeout := fun htimeout => absurd (hwaiting.symm.trans htimeout) (by decide)

/-- A poll that calls no handler. -/
theorem Attempt.quiet {tries : Nat} {polls : List Poll} {w : Wait} (h : Attempt tries polls w)
    (hstate : w.dhcp.state ≠ .init) {p : Poll} {dhcp' : DhcpIf} (htrying : dhcp'.Trying)
    (hretries : dhcp'.retriesUntilLinkLocal + unanswered tries (polls ++ [p]) = tries)
    (hpos : 0 < dhcp'.retriesUntilLinkLocal)
    (hcur : w.params.curTry + (if dhcp'.state = .init then 1 else 0)
      = lostRequests tries (polls ++ [p]) + unanswered tries (polls ++ [p]) + 2) :
    Attempt tries (polls ++ [p]) { dhcp := dhcp', params := w.params } where
  trying := htrying
  retries := hretries
  retries_pos := hpos
  curTry := hcur
  curTry_le := h.curTry_le
  last := attemptsLast_snoc.mpr ⟨h.last, h.left_iff.mpr fun hlast => hstate hlast.1⟩

/-- A poll that starts an attempt: `handler_discover` lets it be one of `tries`, or gives up. -/
theorem Attempt.discover {tries : Nat} {polls : List Poll} {w : Wait} (h : Attempt tries polls w)
    (hmax : w.params.maxTries = tries + 1) (hwaiting : w.params.state = .waiting)
    (hstate : w.dhcp.state = .init) {handlers : List DhcpHandler} (hnot : .updated ∉ handlers)
    {p : Poll} {dhcp' : DhcpIf} (hstate' : dhcp'.state = .selecting)
    (hretries : dhcp'.retriesUntilLinkLocal = w.dhcp.retriesUntilLinkLocal)
    (hu : unanswered tries (polls ++ [p]) = unanswered tries polls)
    (hl : lostRequests tries (polls ++ [p]) = lostRequests tries polls) :
    CounterInv tries (polls ++ [p]) (handlers ++ [.discover])
    ⟨dhcp', handlerDiscover w.params⟩ := by
  have hcur := h.curTry
  have hle := h.curTry_le
  have hnot' : .updated ∉ handlers ++ [DhcpHandler.discover] := by simpa using hnot
  rw [if_pos hstate] at hcur
  unfold handlerDiscover
  by_cases hlast : w.params.maxTries = w.params.curTry
  · -- one attempt more than `tries`
    rw [if_pos hlast]
    have hleft : ¬ AttemptLeft tries polls := fun hleft =>
      h.left_iff.mp hleft ⟨hstate, hlast.symm.trans hmax⟩
    exact
      { maxTries := hmax
        updated := iff_of_false hnot' fun hsuccess => CallbackState.noConfusion hsuccess
        waiting := fun hstill => CallbackState.noConfusion hstill
        success := fun hsuccess => CallbackState.noConfusion hsuccess
        timeout := fun _ hall => hleft (attemptsLast_snoc.mp hall).2 }
  · rw [if_neg hlast]
    have hne : w.params.curTry ≠ tries + 1 := fun heq => hlast (hmax.trans heq.symm)
    have hleft : AttemptLeft tries polls := h.left_iff.mpr fun hinit => hne hinit.2
    refine Attempt.inv ?_ hmax hwaiting hnot'
    exact
      { trying := Or.inr (Or.inl hstate')
        retries := by rw [hretries, hu]; exact h.retries
        retries_pos := by rw [hretries]; exact h.retries_pos
        curTry := by
          rw [hu, hl, if_neg (by rw [hstate']; decide)]
          exact hcur
        curTry_le := by
          show w.params.curTry + 1 ≤ tries + 1
          omega
        last := attemptsLast_snoc.mpr ⟨h.last, hleft⟩ }

/-- A poll that applies an address. -/
theorem Attempt.updated {tries : Nat} {polls : List Poll} {w : Wait} (h : Attempt tries polls w)
    (hmax : w.params.maxTries = tries + 1) (hstate : w.dhcp.state ≠ .init)
    (handlers : List DhcpHandler) {p : Poll} (dhcp' : DhcpIf)
    (hu : unanswered tries (polls ++ [p]) = unanswered tries polls)
    (hl : lostRequests tries (polls ++ [p]) = lostRequests tries polls) :
    CounterInv tries (polls ++ [p]) (handlers ++ [.updated]) ⟨dhcp', handlerUpdated w.params⟩ := by
  have hleft : AttemptLeft tries polls := h.left_iff.mpr fun hinit => hstate hinit.1
  have hleft' : AttemptLeft tries (polls ++ [p]) := by
    unfold AttemptLeft
    rw [hu, hl]
    exact hleft
  exact
    { maxTries := hmax
      updated := iff_of_true (List.mem_append_right _ (List.mem_singleton.mpr rfl)) rfl
      waiting := fun hstill => CallbackState.noConfusion hstill
      success := fun _ => ⟨attemptsLast_snoc.mpr ⟨h.last, hleft⟩, hleft'⟩
      timeout := fun htimeout => CallbackState.noConfusion htimeout }

/-- A poll of the loop, by what it does to the client. -/
theorem CounterInv.pass {tries : Nat} {polls : List Poll} {handlers : List DhcpHandler}
    (h : CounterInv tries polls handlers (waitRun tries polls))
    (hwaiting : (waitRun tries polls).params.state = .waiting) {p : Poll}
    {r : DhcpIf × Option DhcpHandler} (hpass : DhcpPass (waitRun tries polls).dhcp p r) :
    CounterInv tries (polls ++ [p]) (handlers ++ r.2.toList)
      { dhcp := r.1
        params := r.2.elim (waitRun tries polls).params
          (·.call (waitRun tries polls).params) } := by
  have hu := unanswered_snoc tries polls p
  have hl := lostRequests_snoc tries polls p
  have hA := h.waiting hwaiting
  simp only [hwaiting, true_and] at hu hl
  generalize waitRun tries polls = w at *
  have hnot : .updated ∉ handlers := fun hmem =>
    absurd (hwaiting.symm.trans (h.updated.mp hmem)) (by decide)
  have hretries := hA.retries
  have hpos := hA.retries_pos
  have hcur := hA.curTry
  cases hpass with
  | discover dhcp' hstate hstate' hsame =>
    rw [if_neg fun hp => absurd (hstate.symm.trans hp.1) (by decide)] at hu hl
    exact hA.discover h.maxTries hwaiting hstate hnot hstate' hsame hu hl
  | waits dhcp' hstate hstate' hsame htrying hunanswered hlost =>
    rw [if_neg hunanswered] at hu
    rw [if_neg hlost] at hl
    rw [if_neg hstate] at hcur
    refine Attempt.inv (hA.quiet hstate htrying ?_ ?_ ?_) h.maxTries hwaiting (by simpa using hnot)
    · rw [hsame, hu]
      exact hretries
    · rw [hsame]
      exact hpos
    · rw [hu, hl, if_neg hstate']
      exact hcur
  | unanswered dhcp' hunanswered hstate' hone =>
    -- both counters move
    have hstate : w.dhcp.state ≠ .init := by rw [hunanswered.1]; decide
    have hlost : ¬ w.dhcp.RequestLost p := fun hp =>
      absurd (hunanswered.1.symm.trans hp.1) (by decide)
    have hnotone := hunanswered.2.2
    rw [if_pos hunanswered] at hu
    rw [if_neg hlost] at hl
    rw [if_neg hstate] at hcur
    refine Attempt.inv (hA.quiet hstate (Or.inl hstate') ?_ ?_ ?_) h.maxTries hwaiting
      (by simpa using hnot)
    · rw [hone, hu]
      omega
    · rw [hone]
      omega
    · rw [hu, hl, if_pos hstate']
      omega
  | lost dhcp' hlost hstate' hsame =>
    -- only `cur_try` will move
    have hstate : w.dhcp.state ≠ .init := by rw [hlost.1]; decide
    have hunanswered : ¬ w.dhcp.Unanswered p := fun hp =>
      absurd (hlost.1.symm.trans hp.1) (by decide)
    rw [if_neg hunanswered] at hu
    rw [if_pos hlost] at hl
    rw [if_neg hstate] at hcur
    refine Attempt.inv (hA.quiet hstate (Or.inl hstate') ?_ ?_ ?_) h.maxTries hwaiting
      (by simpa using hnot)
    · rw [hsame, hu]
      exact hretries
    · rw [hsame]
      exact hpos
    · rw [hu, hl, if_pos hstate']
      omega
  | updated dhcp' hstate hunanswered hlost =>
    rw [if_neg hunanswered] at hu
    rw [if_neg hlost] at hl
    exact hA.updated h.maxTries hstate handlers dhcp' hu hl

/-- **What holds of `wait_dhcp`** after any polls. -/
theorem waitRun_counters {tries : Nat} (h : 0 < tries) (polls : List Poll) :
    CounterInv tries polls (handlersRun tries polls) (waitRun tries polls) := by
  induction polls using List.reverseRecOn with
  | nil => exact CounterInv.init h
  | append_singleton polls p ih =>
    have hrun : waitRun tries (polls ++ [p]) = ((waitRun tries polls).poll p).1 ∧
        handlersRun tries (polls ++ [p])
          = handlersRun tries polls ++ ((waitRun tries polls).poll p).2 := by
      unfold waitRun handlersRun
      rw [Lib.run_snoc]
      exact ⟨rfl, rfl⟩
    rw [hrun.1, hrun.2]
    unfold Wait.poll
    by_cases hwaiting : (waitRun tries polls).params.state = .waiting
    · rw [if_pos hwaiting]
      exact ih.pass hwaiting (fnetDhcpStateMachine_pass (ih.waiting hwaiting).trying p)
    · rw [if_neg hwaiting, List.append_nil]
      exact ih.ended hwaiting p

/-! ## Giving up -/

/-- `wait_dhcp` is defined, and if it returns then `handler_updated` has run, and no
`handler_discover` has stopped it before. -/
def GivesAddress (tries : Int32) (polls : List Poll) : Prop :=
  ∃ w, waitDhcp tries = some w ∧
    ((Lib.run Wait.poll w polls).1.params.state ≠ .waiting →
      .updated ∈ (Lib.run Wait.poll w polls).2 ∧
        (Lib.run Wait.poll w polls).1.params.state ≠ .timeout)

theorem waitDhcp_eq_some_iff {tries : Int32} {w : Wait} :
    waitDhcp tries = some w ↔ tries.toInt < 2147483647 ∧ w = waitInit tries.toInt.toNat := by
  have hone : (1 : Int32).toInt = 1 := by decide
  have hbounds := Lib.int32_bounds tries
  unfold waitDhcp
  rw [Option.map_eq_some_iff]
  constructor
  · rintro ⟨maxTries, hmax, rfl⟩
    rw [Lib.checkedAdd_eq_some_iff, hone] at hmax
    have hmaxBounds := Lib.int32_bounds maxTries
    exact ⟨by omega, rfl⟩
  · rintro ⟨hlt, rfl⟩
    obtain ⟨maxTries, hmax⟩ := Lib.exists_int32 (v := tries.toInt + 1) (by omega) (by omega)
    exact ⟨maxTries, Lib.checkedAdd_eq_some_iff.mpr (by rw [hmax, hone]), rfl⟩

/-- **When `wait_dhcp` has an address to return with**: `tries + 1` is an `int`, and before
every poll of the run no request has been lost, or the lost requests and the unanswered
discovers are together fewer than `tries`. -/
theorem wait_dhcp_address_iff {tries : Int32} (h : 1 ≤ tries.toInt) (polls : List Poll) :
    GivesAddress tries polls ↔
      tries.toInt < 2147483647 ∧ AttemptsLast tries.toInt.toNat polls := by
  have hpos : 0 < tries.toInt.toNat := by omega
  have hinv := waitRun_counters hpos polls
  constructor
  · rintro ⟨w, hw, hreturns⟩
    obtain ⟨hlt, rfl⟩ := waitDhcp_eq_some_iff.mp hw
    refine ⟨hlt, ?_⟩
    cases hstate : (waitRun tries.toInt.toNat polls).params.state with
    | waiting => exact (hinv.waiting hstate).last
    | success => exact (hinv.success hstate).1
    | timeout =>
      have hreturned : (waitRun tries.toInt.toNat polls).params.state ≠ .waiting := by
        rw [hstate]
        decide
      exact absurd hstate (hreturns hreturned).2
  · rintro ⟨hlt, hlast⟩
    refine ⟨_, waitDhcp_eq_some_iff.mpr ⟨hlt, rfl⟩, fun hreturned => ?_⟩
    have hnot : (waitRun tries.toInt.toNat polls).params.state ≠ .timeout :=
      fun htimeout => hinv.timeout htimeout hlast
    refine ⟨hinv.updated.mpr ?_, hnot⟩
    cases hstate : (waitRun tries.toInt.toNat polls).params.state with
    | waiting => exact absurd hstate hreturned
    | success => rfl
    | timeout => exact absurd hstate hnot

/-- Two discovers that nobody answers. -/
def silentPolls : List Poll := [⟨0, .nothing⟩, ⟨40, .nothing⟩, ⟨41, .nothing⟩, ⟨81, .nothing⟩]

/-- With two tries the link-local address comes first. -/
theorem wait_dhcp_address_silent :
    GivesAddress 2 silentPolls ↔
      (2 : Int32).toInt < 2147483647 ∧ AttemptsLast (2 : Int32).toInt.toNat silentPolls :=
  wait_dhcp_address_iff (by decide) silentPolls

example : (waitRun 2 silentPolls).params.state = .success := by decide +kernel

/-- A message of this type. -/
def dhcpMessage (type : UInt8) : DhcpRecv :=
  .message { messageType := type, ipAddress := 1, dhcpServer := 1
             lease := { leaseTime := 180, t1 := 0, t2 := 0 } }

/-- An offer whose request is refused, nine discovers that nobody answers, and one more. -/
def refusedPolls : List Poll :=
  [⟨0, .nothing⟩, ⟨1, dhcpMessage fnetDhcpOptionTypeOffer⟩, ⟨2, dhcpMessage fnetDhcpOptionTypeNak⟩]
    ++ (List.range 9).flatMap (fun k =>
      [⟨50 * UInt32.ofNat k + 3, .nothing⟩, ⟨50 * UInt32.ofNat k + 43, .nothing⟩])
    ++ [⟨500, .nothing⟩]

/-- With the ten tries of `main`, one refused request is enough to give up without an
address. -/
theorem not_givesAddress_refused :
    ¬ ∀ (tries : Int32) (polls : List Poll), 1 ≤ tries.toInt → GivesAddress tries polls := by
  intro hall
  obtain ⟨w, hw, hreturns⟩ := hall 10 refusedPolls (by decide)
  obtain ⟨-, rfl⟩ := waitDhcp_eq_some_iff.mp hw
  have htimeout :
      (Lib.run Wait.poll (waitInit (10 : Int32).toInt.toNat) refusedPolls).1.params.state
      = .timeout := by decide +kernel
  have hreturned := hreturns (by rw [htimeout]; decide)
  exact hreturned.2 htimeout

end Datalogger
