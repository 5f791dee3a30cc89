import Datalogger.Net.TcpStream

/-!
# A TCP socket gives up a silent peer

While data is in flight the retransmission timer runs. When it runs out the segments are
sent again and the abort timer starts, which only a segment of the other side stops; the
keepalive timer may start it too, and a keepalive probe never gives more time than is left.
So a socket that hears nothing is closed after a number of slow ticks that is known in
advance, whatever the application does in the meantime (`tcp_gives_up`).
-/

namespace Datalogger

open Lib

/-- What is left of a socket's time if it hears nothing: the abort timer runs for at most `n`
ticks, or it starts within the ticks of the retransmission timer. `limit` is the time that the
keepalive probes get. -/
structure TcpSocket.GivesUp (limit n m : Int) (sk : TcpSocket) : Prop where
  probes : (sk.options.keepCnt * sk.options.keepIntvl).toInt = limit
  abort : sk.timers.abort ≠ fnetTcpTimerOff → 1 ≤ sk.timers.abort ∧ sk.timers.abort ≤ n
  retransmission : sk.timers.abort = fnetTcpTimerOff →
    1 ≤ sk.timers.retransmission ∧ sk.timers.retransmission + max 48 limit ≤ m

variable {limit n m : Int} {sk sk' : TcpSocket}

/-! ## The retransmission timer of a socket that sends -/

/-- A data segment leaves the retransmission timer to `dataSent`. -/
theorem fnetTcpSenddataseg_retransmission (sk : TcpSocket) (datasize : UInt32) :
    (fnetTcpSenddataseg sk datasize).timers.retransmission = sk.timers.retransmission := by
  have h := congrArg TcpTimers.retransmission (fnetTcpSenddataseg_timers sk datasize)
  exact h

theorem fnetTcpSendack_retransmission (sk : TcpSocket) :
    (fnetTcpSendack sk).timers.retransmission = sk.timers.retransmission := by
  have h := congrArg TcpTimers.retransmission (fnetTcpSendack_timers sk)
  exact h

/-- Waiting for a larger window needs the persist timer only. -/
theorem TcpSocket.avoidSilly_retransmission (sk : TcpSocket) :
    sk.avoidSilly.timers.retransmission = sk.timers.retransmission := by
  unfold TcpSocket.avoidSilly
  extract_lets sk₁
  split
  next => rfl
  next => rfl

/-- So the loop leaves the retransmission timer alone. -/
theorem fnetTcpSendloop_retransmission (datasize : UInt32) (oneexec : Bool) (fuel : Nat) :
    ∀ (sk : TcpSocket) (sndwnd : Int) (sntdata : UInt32),
      (fnetTcpSendloop datasize oneexec fuel sk sndwnd sntdata).1.timers.retransmission
        = sk.timers.retransmission := by
  induction fuel with
  | zero => exact fun _ _ _ => rfl
  | succ fuel ih =>
    intro sk sndwnd sntdata
    unfold fnetTcpSendloop
    split
    next => rfl
    next =>
    split
    next =>
      dsimp only
      split
      next => exact fnetTcpSenddataseg_retransmission _ _
      next => exact (ih _ _ _).trans (fnetTcpSenddataseg_retransmission _ _)
    next =>
    dsimp only
    split
    next => exact fnetTcpSenddataseg_retransmission _ _
    next =>
    split
    next =>
      split
      next => exact fnetTcpSenddataseg_retransmission _ _
      next => exact sk.avoidSilly_retransmission
    next => rfl

/-- A timer that runs is not started again. -/
theorem TcpSocket.startRetransmission_running (h : 1 ≤ sk.timers.retransmission) :
    sk.startRetransmission.timers.retransmission = sk.timers.retransmission := by
  have hon : sk.timers.retransmission ≠ fnetTcpTimerOff := by
    intro hoff
    rw [hoff] at h
    exact absurd h (by decide)
  exact if_neg hon

theorem TcpSocket.dataSent_running (h : 1 ≤ sk.timers.retransmission) :
    sk.dataSent.timers.retransmission = sk.timers.retransmission := by
  have hround : sk.startRoundTrip.timers.retransmission = sk.timers.retransmission := by
    unfold TcpSocket.startRoundTrip
    split
    next => rfl
    next => rfl
  have hrunning : 1 ≤ sk.startRoundTrip.timers.retransmission := hround.symm ▸ h
  exact (TcpSocket.startRetransmission_running hrunning).trans hround

/-- Sending data does not put off a retransmission that is due. -/
theorem fnetTcpSendwindow_running (h : 1 ≤ sk.timers.retransmission) (oneexec : Bool)
    (sntdata wnd : UInt32) :
    (fnetTcpSendwindow sk oneexec sntdata wnd).2.timers.retransmission
      = sk.timers.retransmission := by
  unfold fnetTcpSendwindow
  extract_lets datasize mss cwnd sndwnd₁ sndwnd r
  split
  next =>
    split
    next => exact TcpSocket.startRetransmission_running h
    next => rfl
  next =>
    have hloop : r.1.timers.retransmission = sk.timers.retransmission :=
      fnetTcpSendloop_retransmission _ _ _ _ _ _
    have hrunning : 1 ≤ r.1.timers.retransmission := hloop.symm ▸ h
    clear_value r
    split
    next => exact (TcpSocket.dataSent_running hrunning).trans hloop
    next => exact hloop

theorem fnetTcpSendanydata_running (h : 1 ≤ sk.timers.retransmission) (oneexec : Bool) :
    (fnetTcpSendanydata sk oneexec).2.timers.retransmission = sk.timers.retransmission := by
  unfold fnetTcpSendanydata
  extract_lets sk₁ sntdata wnd
  split
  next =>
    have hshrunk : 1 ≤ (sk₁.shrinkWindow wnd).timers.retransmission := h
    exact fnetTcpSendwindow_running hshrunk _ _ _
  next =>
    have hreset : 1 ≤ sk₁.timers.retransmission := h
    exact fnetTcpSendwindow_running hreset _ _ _

namespace TcpSocket.GivesUp

/-- What leaves the two timers alone leaves the time alone. -/
theorem congr (h : sk.GivesUp limit n m) (habort : sk'.timers.abort = sk.timers.abort)
    (hretr : 1 ≤ sk.timers.retransmission →
      sk'.timers.retransmission = sk.timers.retransmission)
    (hcnt : sk'.options.keepCnt = sk.options.keepCnt)
    (hintvl : sk'.options.keepIntvl = sk.options.keepIntvl) : sk'.GivesUp limit n m where
  probes := by rw [hcnt, hintvl, h.probes]
  abort hon := by
    rw [habort] at hon ⊢
    exact h.abort hon
  retransmission hoff := by
    rw [habort] at hoff
    have hold := h.retransmission hoff
    rw [hretr hold.1]
    exact hold

/-- What sends, and lets the retransmission timer run on, gives the socket no more time. -/
theorem sends (h : sk.GivesUp limit n m) (hsends : sk.Sends sk')
    (hretr : 1 ≤ sk.timers.retransmission →
      sk'.timers.retransmission = sk.timers.retransmission) : sk'.GivesUp limit n m :=
  h.congr (hsends.keeps (·.timers.abort) fun _ => rfl) hretr
    (hsends.keeps (·.options.keepCnt) fun _ => rfl)
    (hsends.keeps (·.options.keepIntvl) fun _ => rfl)

theorem sendanydata (h : sk.GivesUp limit n m) (oneexec : Bool) :
    (fnetTcpSendanydata sk oneexec).2.GivesUp limit n m :=
  h.sends ((Sends.refl sk).sendanydata oneexec) fun hrunning =>
    fnetTcpSendanydata_running hrunning oneexec

theorem sendack (h : sk.GivesUp limit n m) : (fnetTcpSendack sk).GivesUp limit n m :=
  h.sends (Sends.refl sk).sendack fun _ => fnetTcpSendack_retransmission sk

theorem forceSend (h : sk.GivesUp limit n m) : sk.forceSend.GivesUp limit n m := by
  have h₁ : TcpSocket.GivesUp limit n m { sk with flags.forceSend := true } :=
    h.congr rfl (fun _ => rfl) rfl rfl
  have h₂ := h₁.sendanydata false
  unfold TcpSocket.forceSend
  generalize fnetTcpSendanydata { sk with flags.forceSend := true } false = sent at h₂
  exact h₂.congr rfl (fun _ => rfl) rfl rfl

/-- With the abort timer on, the retransmission timer is no matter. -/
theorem of_abort (hlimit : (sk.options.keepCnt * sk.options.keepIntvl).toInt = limit)
    (hpos : 1 ≤ sk.timers.abort) (hle : sk.timers.abort ≤ n) : sk.GivesUp limit n m where
  probes := hlimit
  abort _ := ⟨hpos, hle⟩
  retransmission hoff := by
    rw [hoff] at hpos
    exact absurd hpos (by decide)

/-! ## Timers -/

/-- The abort timer is started with no more than what is left. -/
theorem startAbort (h : sk.GivesUp limit n n) : sk.startAbort.GivesUp limit n m := by
  by_cases hoff : sk.timers.abort = fnetTcpTimerOff
  · have hretr := h.retransmission hoff
    have hstart : sk.startAbort.timers.abort = 48 := if_pos hoff
    -- the 48 ticks were reckoned behind the retransmission timer
    exact of_abort h.probes (by omega) (by omega)
  · have habort := h.abort hoff
    have hsame : sk.startAbort.timers.abort = sk.timers.abort := if_neg hoff
    exact of_abort h.probes (by omega) (by omega)

/-- With a keepalive probe the abort timer runs for the time that the probes get, or less. -/
theorem ktimeo (h : sk.GivesUp limit n n) (hlimit : 1 ≤ limit) :
    (fnetTcpKtimeo sk).GivesUp limit n n := by
  unfold fnetTcpKtimeo
  split
  next =>
    extract_lets sk₁ rcvwnd sk₂ lim
    have hlim : lim = limit := h.probes
    -- the time of the probes was reckoned behind the retransmission timer
    have hbound : sk.timers.abort = fnetTcpTimerOff → limit ≤ n := fun hoff => by
      have := h.retransmission hoff
      omega
    by_cases hcase : sk.timers.abort = fnetTcpTimerOff ∨ limit < sk.timers.abort
    · have hle : limit ≤ n := by
        by_cases hoff : sk.timers.abort = fnetTcpTimerOff
        · exact hbound hoff
        · have := h.abort hoff
          omega
      refine of_abort h.probes ?_ ?_
      · show 1 ≤ if sk.timers.abort = fnetTcpTimerOff ∨ lim < sk.timers.abort then lim else _
        rw [hlim, if_pos hcase]
        exact hlimit
      · show (if sk.timers.abort = fnetTcpTimerOff ∨ lim < sk.timers.abort then lim else _) ≤ n
        rw [hlim, if_pos hcase]
        exact hle
    · refine h.congr ?_ (fun _ => rfl) rfl rfl
      show (if sk.timers.abort = fnetTcpTimerOff ∨ lim < sk.timers.abort then lim else _) = _
      rw [hlim, if_neg hcase]
      rfl
  next => exact h.congr rfl (fun _ => rfl) rfl rfl

theorem keepaliveTick (h : sk.GivesUp limit n n) (hlimit : 1 ≤ limit) :
    sk.keepaliveTick.GivesUp limit n n := by
  unfold TcpSocket.keepaliveTick
  split
  next => exact h
  next =>
  split
  next => exact ktimeo (h.congr rfl (fun _ => rfl) rfl rfl) hlimit
  next => exact h.congr rfl (fun _ => rfl) rfl rfl

/-- A window probe starts the abort timer, unless it runs. -/
theorem ptimeo (h : sk.GivesUp limit n n) : (fnetTcpPtimeo sk).GivesUp limit n n := by
  unfold fnetTcpPtimeo
  split
  next =>
    have h₁ : (fnetTcpSenddataseg sk 1).GivesUp limit n n :=
      h.sends ((Sends.refl sk).senddataseg 1) fun _ => fnetTcpSenddataseg_retransmission sk 1
    generalize fnetTcpSenddataseg sk 1 = sk₁ at h₁
    have h₂ : sk₁.startAbort.GivesUp limit n n := h₁.startAbort
    exact h₂.congr rfl (fun _ => rfl) rfl rfl
  next => exact h.forceSend

theorem persistTick (h : sk.GivesUp limit n n) : sk.persistTick.GivesUp limit n n := by
  unfold TcpSocket.persistTick
  split
  next => exact h
  next =>
  split
  next => exact ptimeo (h.congr rfl (fun _ => rfl) rfl rfl)
  next => exact h.congr rfl (fun _ => rfl) rfl rfl

/-- The round trip is only counted. -/
theorem roundTripTick (h : sk.GivesUp limit n m) : sk.roundTripTick.GivesUp limit n m := by
  unfold TcpSocket.roundTripTick
  split
  next => exact h
  next => exact h.congr rfl (fun _ => rfl) rfl rfl

/-- A forced segment leaves the abort timer alone. -/
theorem forceSend_abort (sk : TcpSocket) : sk.forceSend.timers.abort = sk.timers.abort :=
  ((Sends.refl { sk with flags.forceSend := true }).sendanydata false).keeps (·.timers.abort)
    fun _ => rfl

/-- A retransmission starts the abort timer, unless it runs. -/
theorem rtimeo (hlimit : (sk.options.keepCnt * sk.options.keepIntvl).toInt = limit)
    (hpos : 1 ≤ sk.startAbort.timers.abort) (hle : sk.startAbort.timers.abort ≤ n) :
    (fnetTcpRtimeo sk).GivesUp limit n m := by
  have h₁ : sk.startAbort.startAgain.GivesUp limit n m := of_abort hlimit hpos hle
  have h₂ := h₁.forceSend
  have habort : sk.startAbort.startAgain.forceSend.timers.abort = sk.startAbort.timers.abort :=
    forceSend_abort sk.startAbort.startAgain
  rw [← habort] at hpos hle
  unfold fnetTcpRtimeo
  generalize sk.startAbort.startAgain.forceSend = sk₂ at h₂ hpos hle
  exact of_abort h₂.probes hpos hle

/-- When the retransmission timer runs out, the abort timer starts. -/
theorem retransmissionTick (h : sk.GivesUp limit n (n + 1)) :
    sk.retransmissionTick.GivesUp limit n n := by
  have habort (hoff : ¬ sk.timers.abort = fnetTcpTimerOff) : sk.GivesUp limit n n :=
    of_abort h.probes (h.abort hoff).1 (h.abort hoff).2
  unfold TcpSocket.retransmissionTick
  split
  next hnone =>
    -- with both timers off the socket would wait forever
    refine habort fun hoff => ?_
    have hretr := (h.retransmission hoff).1
    rw [hnone] at hretr
    exact absurd hretr (by decide)
  next =>
  split
  next hlast =>
    -- it runs out: the abort timer starts, if it was off
    by_cases hoff : sk.timers.abort = fnetTcpTimerOff
    · have hretr := h.retransmission hoff
      have hstart : ({ sk with timers.retransmission := fnetTcpTimerOff } :
          TcpSocket).startAbort.timers.abort = 48 := if_pos hoff
      exact rtimeo h.probes (by omega) (by omega)
    · have hon := h.abort hoff
      have hsame : ({ sk with timers.retransmission := fnetTcpTimerOff } :
          TcpSocket).startAbort.timers.abort = sk.timers.abort := if_neg hoff
      exact rtimeo h.probes (by omega) (by omega)
  next hmore =>
    -- it runs on: of the time behind it nothing is gone
    by_cases hoff : sk.timers.abort = fnetTcpTimerOff
    · have hretr := h.retransmission hoff
      have hleft : 1 ≤ sk.timers.retransmission - 1
          ∧ sk.timers.retransmission - 1 + max 48 limit ≤ n := by omega
      exact ⟨h.probes, fun hon => absurd hoff hon, fun _ => hleft⟩
    · exact of_abort h.probes (h.abort hoff).1 (h.abort hoff).2

/-- The abort timer of a socket that stays open has lost a tick. -/
theorem abortTick (h : sk.GivesUp limit n n) (hopen : sk.abortTick.2 = false) :
    sk.abortTick.1.GivesUp limit (n - 1) n := by
  unfold TcpSocket.abortTick at hopen ⊢
  split
  next hoff => exact ⟨h.probes, fun hon => absurd hoff hon, h.retransmission⟩
  next hon =>
    rw [if_neg hon] at hopen
    split
    next hlast =>
      rw [if_pos hlast] at hopen
      exact absurd hopen.symm Bool.false_ne_true
    next hmore =>
      have hold := h.abort hon
      have hleft : 1 ≤ sk.timers.abort - 1 ∧ sk.timers.abort - 1 ≤ n - 1 := by omega
      exact of_abort h.probes hleft.1 hleft.2

/-- The timer of the connection is not one of them. -/
theorem connectionTick (h : sk.GivesUp limit n m) (hopen : sk.connectionTick.2 = false) :
    sk.connectionTick.1.GivesUp limit n m := by
  unfold TcpSocket.connectionTick at hopen ⊢
  split
  next => exact h
  next hon =>
    rw [if_neg hon] at hopen
    split
    next hlast =>
      rw [if_pos hlast] at hopen
      dsimp only at hopen
      split at hopen
      next => exact absurd hopen.symm Bool.false_ne_true
      next => exact absurd hopen.symm Bool.false_ne_true
    next => exact h.congr rfl (fun _ => rfl) rfl rfl

end TcpSocket.GivesUp

theorem fnetTcpClosesk_state (sk : TcpSocket) : (fnetTcpClosesk sk).state ≠ .connected := by
  unfold fnetTcpClosesk
  split
  next => exact TcpSocketState.noConfusion
  next => exact TcpSocketState.noConfusion

/-- The abort timer closes the socket. -/
theorem TcpSocket.abortTick_closed (h : sk.abortTick.2 = true) :
    sk.abortTick.1.state ≠ .connected := by
  unfold TcpSocket.abortTick at h ⊢
  split
  next hoff =>
    rw [if_pos hoff] at h
    exact absurd h Bool.false_ne_true
  next hon =>
    rw [if_neg hon] at h
    split
    next => exact fnetTcpClosesk_state _
    next hmore =>
      rw [if_neg hmore] at h
      exact absurd h Bool.false_ne_true

/-- The timer of the connection closes the socket. -/
theorem TcpSocket.connectionTick_closed (h : sk.connectionTick.2 = true) :
    sk.connectionTick.1.state ≠ .connected := by
  unfold TcpSocket.connectionTick at h ⊢
  split
  next hoff =>
    rw [if_pos hoff] at h
    exact absurd h Bool.false_ne_true
  next hon =>
    rw [if_neg hon] at h
    split
    next =>
      dsimp only
      split
      next =>
        split
        next => exact fnetTcpClosesk_state _
        next => exact fnetTcpClosesk_state _
      next => exact fnetTcpClosesk_state _
    next hmore =>
      rw [if_neg hmore] at h
      exact absurd h Bool.false_ne_true

namespace TcpSocket.GivesUp

/-- A slow tick takes one from what is left. -/
theorem slowtimosk (hlimit : 1 ≤ limit) (h : sk.state = .connected → sk.GivesUp limit n n)
    (hc : (fnetTcpSlowtimosk sk).state = .connected) :
    (fnetTcpSlowtimosk sk).GivesUp limit (n - 1) (n - 1) := by
  by_cases hconnected : sk.state = .connected
  · rcases fnetTcpSlowtimosk_cases hconnected with
      ⟨hclosed, heq⟩ | ⟨-, hclosed, heq⟩ | ⟨habort, hconnection, heq⟩
    · rw [heq] at hc
      exact absurd hc (TcpSocket.abortTick_closed hclosed)
    · rw [heq] at hc
      exact absurd hc (TcpSocket.connectionTick_closed hclosed)
    · rw [heq]
      -- a tick is gone of the one timer, and then of the other
      have hticks := ((h hconnected).abortTick habort).connectionTick hconnection
      rw [← Int.sub_add_cancel n 1, Int.add_sub_cancel] at hticks
      exact ((hticks.retransmissionTick.keepaliveTick hlimit).persistTick).roundTripTick
  · unfold fnetTcpSlowtimosk at hc
    rw [if_neg hconnected] at hc
    exact absurd hc hconnected

/-! ## Calls -/

theorem trysend (fuel : Nat) : ∀ {sk : TcpSocket}, sk.GivesUp limit n m →
    (fnetTcpTrysend fuel sk).GivesUp limit n m := by
  induction fuel with
  | zero => exact fun h => h.congr rfl (fun _ => rfl) rfl rfl
  | succ fuel ih =>
    intro sk h
    have h₁ := h.sendanydata true
    unfold fnetTcpTrysend
    dsimp only
    split
    next => exact ih h₁
    next =>
      generalize fnetTcpSendanydata sk true = sent at h₁
      exact h₁.congr rfl (fun _ => rfl) rfl rfl

/-- `send` gives no more time. -/
theorem send (h : sk.GivesUp limit n m) (buf : List UInt8) (mallocMax : UInt32) :
    (fnetTcpSnd sk buf mallocMax).2.GivesUp limit n m := by
  have hstart : sk.startSnd.GivesUp limit n m := h.congr rfl (fun _ => rfl) rfl rfl
  unfold fnetTcpSnd
  extract_lets freespace currentlen
  split
  next => exact h
  next =>
  split
  next => exact h
  next =>
  split
  next => exact h
  next =>
  split
  next =>
    split
    next => exact hstart
    next =>
      have h₁ : (sk.startSnd.addOutput (buf.take currentlen)).GivesUp limit n m :=
        hstart.congr rfl (fun _ => rfl) rfl rfl
      unfold TcpSocket.sendAdded
      dsimp only
      split
      next =>
        split
        next => exact h₁.congr rfl (fun _ => rfl) rfl rfl
        next => exact h₁
      next => exact h₁.trysend _
  next => exact hstart

/-- `recv` gives no more time; it may tell the other side of its window. -/
theorem recv (h : sk.GivesUp limit n m) (len : Nat) (remove : Bool) :
    (fnetTcpRcv sk len remove).2.GivesUp limit n m := by
  unfold fnetTcpRcv
  extract_lets len buf sk₁
  have h₁ : sk₁.GivesUp limit n m := by
    show (if remove then (sk.removeInput len).tellOpened else sk).GivesUp limit n m
    have hremoved : (sk.removeInput len).GivesUp limit n m := h.congr rfl (fun _ => rfl) rfl rfl
    unfold TcpSocket.tellOpened
    split
    next =>
      split
      next => exact hremoved.sendack
      next => exact hremoved
    next => exact h
  split
  next => exact h₁
  next =>
    split
    next => exact h₁
    next => exact h₁

theorem shutdownWrite (h : sk.GivesUp limit n m) : sk.shutdownWrite.GivesUp limit n m := by
  unfold TcpSocket.shutdownWrite
  split
  next => exact h
  next =>
    have h₁ : TcpSocket.GivesUp limit n m { sk with sendBuffer.isShutdown := true } :=
      h.congr rfl (fun _ => rfl) rfl rfl
    exact h₁.sendanydata true

/-- `close`, where the socket stays connected to send what is left. -/
theorem close (h : sk.state = .connected → sk.GivesUp limit n m)
    (hc : (fnetTcpClose sk).state = .connected) : (fnetTcpClose sk).GivesUp limit n m := by
  unfold fnetTcpClose at hc ⊢
  split
  next hclosed =>
    rw [if_pos hclosed] at hc
    exact absurd hc (fnetTcpClosesk_state _)
  next hstate =>
  rw [if_neg hstate] at hc
  split
  next hlinger =>
    rw [if_pos hlinger] at hc
    exact absurd hc (fnetTcpClosesk_state _)
  next =>
    have h₁ := (h (not_not.1 hstate)).shutdownWrite
    dsimp only
    split
    next => exact h₁.congr rfl (fun _ => rfl) rfl rfl
    next => exact h₁.congr rfl (fun _ => rfl) rfl rfl

end TcpSocket.GivesUp

/-- Reading does not change the state. -/
theorem fnetTcpRcv_state (sk : TcpSocket) (len : Nat) (remove : Bool) :
    (fnetTcpRcv sk len remove).2.state = sk.state := by
  unfold fnetTcpRcv
  extract_lets len buf sk₁
  have h₁ : sk₁.state = sk.state := by
    show (if remove then (sk.removeInput len).tellOpened else sk).state = sk.state
    unfold TcpSocket.tellOpened
    split
    next =>
      split
      next =>
        exact ((TcpSocket.Sends.refl (sk.removeInput len)).sendack).keeps (·.state) fun _ => rfl
      next => rfl
    next => rfl
  split
  next => exact h₁
  next =>
    split
    next => exact h₁
    next => exact h₁

/-! ## Runs -/

/-- Nothing comes in from the other side. -/
def TcpEvent.Silent : TcpEvent → Prop
  | .input _ _ => False
  | _ => True

/-- Besides the slow ticks, nothing but a segment gives a socket more time. -/
theorem TcpSocket.GivesUp.step {p : TcpParty}
    (h : p.sk.state = .connected → p.sk.GivesUp limit n n) {event : TcpEvent}
    (hsilent : event.Silent) (hslow : event ≠ .slowtimo)
    (hc : (p.step event).sk.state = .connected) : (p.step event).sk.GivesUp limit n n := by
  unfold TcpParty.step at hc ⊢
  cases event with
  | input segment headerRead => exact hsilent.elim
  | slowtimo => exact absurd rfl hslow
  | ctrlinput command =>
    dsimp only at hc ⊢
    unfold fnetTcpCtrlinput at hc ⊢
    split
    next hconnected =>
      rw [if_pos hconnected] at hc
      have h₁ := h hconnected
      cases command with
      | quench => exact h₁.congr rfl (fun _ => rfl) rfl rfl
      | msgsize => exact h₁.congr rfl (fun _ => rfl) rfl rfl
      | unreach => exact h₁.congr rfl (fun _ => rfl) rfl rfl
      | paramprob => exact h₁.congr rfl (fun _ => rfl) rfl rfl
      | unreachPort => exact absurd hc (fnetTcpClosesk_state _)
    next hclosed =>
      rw [if_neg hclosed] at hc
      exact absurd hc hclosed
  | fasttimo =>
    dsimp only at hc ⊢
    unfold fnetTcpFasttimosk at hc ⊢
    split
    next hconnected =>
      have h₁ := h hconnected
      split
      next => exact h₁
      next =>
      split
      next => exact sendack (h₁.congr rfl (fun _ => rfl) rfl rfl)
      next => exact h₁.congr rfl (fun _ => rfl) rfl rfl
    next hclosed =>
      rw [if_neg hclosed] at hc
      exact absurd hc hclosed
  | accept =>
    dsimp only at hc ⊢
    split
    next hconnected => exact (h hconnected).congr rfl (fun _ => rfl) rfl rfl
    next hclosed =>
      rw [if_neg hclosed] at hc
      exact absurd hc hclosed
  | send buf mallocMax =>
    dsimp only at hc ⊢
    by_cases hconnected : p.sk.state = .connected
    · split
      next => exact h hconnected
      next => exact (h hconnected).send buf mallocMax
    · -- a closed socket refuses, and stays closed
      have hrefused : fnetTcpSnd p.sk buf mallocMax = (none, p.sk) := by
        unfold fnetTcpSnd
        exact if_pos (.inr hconnected)
      rw [hrefused] at hc
      split at hc
      next => exact absurd hc hconnected
      next => exact absurd hc hconnected
  | recv len remove =>
    dsimp only at hc ⊢
    split
    next hrefused =>
      rw [if_pos hrefused] at hc
      exact h hc
    next hopen =>
      rw [if_neg hopen] at hc
      exact (h ((fnetTcpRcv_state _ _ _).symm.trans hc)).recv len remove
  | shutdown read write =>
    dsimp only at hc ⊢
    split
    next hrefused =>
      rw [if_pos hrefused] at hc
      exact h hc
    next hopen =>
      rw [if_neg hopen] at hc
      dsimp only at hc ⊢
      unfold fnetTcpShutdown at hc ⊢
      split
      next hconnected =>
        have h₁ := h hconnected
        extract_lets sk₁
        have h₂ : sk₁.GivesUp limit n n := by
          show (if write then p.sk.shutdownWrite else p.sk).GivesUp limit n n
          split
          next => exact h₁.shutdownWrite
          next => exact h₁
        split
        next => exact h₂.congr rfl (fun _ => rfl) rfl rfl
        next => exact h₂
      next hclosed =>
        rw [if_neg hclosed] at hc
        exact absurd hc hclosed
  | close =>
    dsimp only at hc ⊢
    split
    next hrefused =>
      rw [if_pos hrefused] at hc
      exact h hc
    next hopen =>
      rw [if_neg hopen] at hc
      exact close h hc

/-- Over a run every slow tick takes one from the time that is left. -/
theorem TcpSocket.GivesUp.run (hlimit : 1 ≤ limit) (events : List TcpEvent) :
    ∀ {p : TcpParty} {n : Int}, (p.sk.state = .connected → p.sk.GivesUp limit n n) →
      (∀ event ∈ events, event.Silent) → (p.run events).sk.state = .connected →
      (p.run events).sk.GivesUp limit (n - events.count .slowtimo)
      (n - events.count .slowtimo) := by
  induction events with
  | nil =>
    intro p n h _ hc
    rw [List.count_nil, Int.natCast_zero, Int.sub_zero]
    exact h hc
  | cons event events ih =>
    intro p n h hsilent hc
    have hrest : ∀ event' ∈ events, event'.Silent := fun event' hm =>
      hsilent event' (List.mem_cons_of_mem _ hm)
    by_cases hslow : event = .slowtimo
    · subst hslow
      -- one tick less, to be left with after the others
      have hleft := ih (slowtimosk hlimit h) hrest hc
      rw [List.count_cons_self, Int.natCast_succ, Int.add_comm, ← Int.sub_sub]
      exact hleft
    · have hleft := ih (TcpSocket.GivesUp.step h (hsilent event List.mem_cons_self) hslow) hrest hc
      rw [List.count_cons_of_ne hslow]
      exact hleft

/-- The time of the keepalive probes, if it is a positive `int`. -/
theorem toInt_probes {cnt intvl : Int32} (hpos : 1 ≤ cnt.toInt * intvl.toInt)
    (hfits : cnt.toInt * intvl.toInt < 2147483648) :
    (cnt * intvl).toInt = cnt.toInt * intvl.toInt := by
  rw [Int32.toInt_mul]
  exact Int.bmod_eq_of_le (by omega) (by omega)

/-- A socket with data in flight gives up a silent peer: when nothing comes in from the other
side, it is closed by the time the retransmission timer has run out and after it the abort
timer, or the longer one of the keepalive probes. What the application calls in the meantime
makes no difference. The time of the probes is the product of two options, of which `setsockopt`
refuses only zero; it must be a positive `int`. -/
theorem tcp_gives_up (p : TcpParty)
    (hprobes : 1 ≤ p.sk.options.keepCnt.toInt * p.sk.options.keepIntvl.toInt)
    (hfits : p.sk.options.keepCnt.toInt * p.sk.options.keepIntvl.toInt < 2147483648)
    (habort : p.sk.timers.abort = fnetTcpTimerOff) (hflight : 1 ≤ p.sk.timers.retransmission)
    (events : List TcpEvent) (hsilent : ∀ event ∈ events, event.Silent)
    (hticks : p.sk.timers.retransmission
      + max fnetTcpAbortInterval (p.sk.options.keepCnt.toInt * p.sk.options.keepIntvl.toInt)
        ≤ events.count .slowtimo) :
    (p.run events).sk.state ≠ .connected := by
  intro hc
  have hstart : p.sk.GivesUp (p.sk.options.keepCnt.toInt * p.sk.options.keepIntvl.toInt)
      (events.count .slowtimo) (events.count .slowtimo) :=
    ⟨toInt_probes hprobes hfits, fun hon => absurd habort hon, fun _ => ⟨hflight, hticks⟩⟩
  -- no tick is left, but a timer that runs has one
  have hleft := TcpSocket.GivesUp.run hprobes events (fun _ => hstart) hsilent hc
  rw [Int.sub_self] at hleft
  by_cases hoff : (p.run events).sk.timers.abort = fnetTcpTimerOff
  · have := hleft.retransmission hoff
    omega
  · have := hleft.abort hoff
    omega

/-- A byte is sent and nothing is heard of it for ten minutes. -/
theorem tcp_gives_up_ten_minutes :
    (((TcpParty.opened 7 90).step (.send [1] 5000)).run (List.replicate 1212 .slowtimo)).sk.state
      ≠ .connected := by
  refine tcp_gives_up _ (by decide +kernel) (by decide +kernel) (by decide +kernel)
    (by decide +kernel) _ (fun event hm => ?_) ?_
  · rw [(List.mem_replicate.1 hm).2]
    trivial
  · rw [List.count_replicate_self]
    decide +kernel

end Datalogger
