import NanoPowServer.Library.DeadlineTimer
import NanoPowServer.Library.Execution

/-! The keep-alive of a WebSocket session. A peer that has been silent for fifteen
seconds is pinged, and one that stays silent for another fifteen is dropped. The
handlers run on the strand, one after the other; times are readings of the steady
clock, in nanoseconds. -/
namespace NanoPowServer.WebServer

open DeadlineTimer Execution

def seconds (count : Nat) : Nat := count * 1000000000

/-- What `ws_.is_open ()` depends on. -/
inductive StreamStatus where
  | handshake
  | opened
  | ended
  deriving DecidableEq

/-- What the handler of an operation on the stream is called with. -/
inductive StreamResult where
  | success
  | operationAborted
  | closed
  | other
  deriving DecidableEq

/-- The outgoing messages are modelled apart. `accepting`, `reading` and `pings` tell
which operations have handlers to come, `failures` what `fail` has reported. `clock` is the
latest reading of the clock and `heard` the times of `do_accept` and of the calls to
`activity`; `shutDown` is set where `on_timer` closes the socket. -/
structure WebsocketSession where
  timer : Timer := {}
  pingState : Nat := 0
  status : StreamStatus := .handshake
  accepting : Bool := false
  reading : Bool := false
  pings : Nat := 0
  shutDown : Bool := false
  failures : List String := []
  clock : Nat := 0
  heard : List Nat := []
  deriving DecidableEq

namespace WebsocketSession

def fail (s : WebsocketSession) (what : String) : WebsocketSession :=
  { s with failures := s.failures ++ [what] }

def isOpen (s : WebsocketSession) : Bool := s.status = .opened

/-- The clock is read when the expiry is tested, and again when the timer is set. A
wait that has expired passes no error. -/
def onTimer (s : WebsocketSession) (ec : Completion) (now later : Nat) : WebsocketSession :=
  if ec = .failed then s.fail "timer"
  else if s.timer.reached now then
    if s.isOpen ∧ s.pingState = 0 then
      { s with
        pingState := 1
        timer := (s.timer.expiresAt (later + seconds 15)).asyncWait
        pings := s.pings + 1 }
    -- The return stands before the next wait.
    else { s with shutDown := true }
  else { s with timer := s.timer.asyncWait }

/-- The timer is made without a deadline, so the call of `on_timer` only starts a
wait, which is aborted as soon as the deadline is set. -/
def doAccept (s : WebsocketSession) (now later : Nat) : WebsocketSession :=
  let waiting := s.onTimer .expired now now
  { waiting with
    timer := waiting.timer.expiresAt (later + seconds 15)
    accepting := true
    clock := later
    heard := waiting.heard ++ [later] }

def activity (s : WebsocketSession) (now : Nat) : WebsocketSession :=
  { s with
    pingState := 0
    timer := s.timer.expiresAt (now + seconds 15)
    heard := s.heard ++ [now] }

def read (s : WebsocketSession) : WebsocketSession := { s with reading := true }

def onAccept (s : WebsocketSession) (ec : StreamResult) : WebsocketSession :=
  if ec ≠ .operationAborted then
    if ec = .success then s.read else s.fail "accept"
  else s

def onPing (s : WebsocketSession) (ec : StreamResult) : WebsocketSession :=
  if ec ≠ .operationAborted then
    if ec ≠ .success then s.fail "ping"
    else if s.pingState = 1 then { s with pingState := 2 }
    else s
  else s

/-- Between the two, the endpoint handles the message. -/
def onRead (s : WebsocketSession) (ec : StreamResult) (now : Nat) : WebsocketSession :=
  if ec ≠ .operationAborted ∧ ec ≠ .closed then
    if ec = .success then (s.activity now).read else s.fail "read"
  else s

/-- The timer, the handlers on the strand, and the peer: it completes the handshake,
sends control frames, closes the stream or is lost. -/
inductive Action where
  | expire (now : Nat)
  | breakDown
  | onTimer (index now later : Nat)
  | handshake
  | onAccept (ec : StreamResult)
  | onPing (ec : StreamResult)
  | controlFrame (now : Nat)
  | onRead (ec : StreamResult) (now : Nat)
  | endStream
  deriving DecidableEq

/-- No action reads an earlier time than those before it. -/
def step (s : WebsocketSession) : Action → Option WebsocketSession
  | .expire now =>
      if s.clock ≤ now then
        (s.timer.expire now).map fun timer => { s with timer := timer, clock := now }
      else none
  | .breakDown => s.timer.breakDown.map fun timer => { s with timer := timer }
  | .onTimer index now later =>
      if s.clock ≤ now ∧ now ≤ later then
        (s.timer.deliver index).map fun (ec, timer) =>
          { s with timer := timer, clock := later }.onTimer ec now later
      else none
  | .handshake =>
      if s.accepting ∧ s.status = .handshake then some { s with status := .opened } else none
  | .onAccept ec =>
      if s.accepting ∧ (ec = .success → s.status ≠ .handshake) then
        some ({ s with accepting := false }.onAccept ec)
      else none
  | .onPing ec => if 0 < s.pings then some ({ s with pings := s.pings - 1 }.onPing ec) else none
  | .controlFrame now =>
      if s.clock ≤ now ∧ s.reading then some ({ s with clock := now }.activity now) else none
  | .onRead ec now =>
      if s.clock ≤ now ∧ s.reading then
        some ({ s with clock := now, reading := false }.onRead ec now)
      else none
  | .endStream => if s.status = .opened then some { s with status := .ended } else none

/-- The session that `do_accept` has been called on. -/
def accepted (now later : Nat) : WebsocketSession := doAccept {} now later

/-- One step of the strand, the timer or the peer. -/
inductive Step (s : WebsocketSession) : Action → WebsocketSession → Prop where
  | expire {now : Nat} {timer : Timer} (clock : s.clock ≤ now)
      (expired : s.timer.expire now = some timer) :
      Step s (.expire now) { s with timer := timer, clock := now }
  | breakDown {timer : Timer} (broken : s.timer.breakDown = some timer) :
      Step s .breakDown { s with timer := timer }
  | onTimer {index now later : Nat} {ec : Completion} {timer : Timer} (clock : s.clock ≤ now)
      (later_le : now ≤ later) (delivered : s.timer.deliver index = some (ec, timer)) :
      Step s (.onTimer index now later)
        ({ s with timer := timer, clock := later }.onTimer ec now later)
  | handshake : Step s .handshake { s with status := .opened }
  | onAccept {ec : StreamResult} : Step s (.onAccept ec) ({ s with accepting := false }.onAccept ec)
  | onPing {ec : StreamResult} : Step s (.onPing ec) ({ s with pings := s.pings - 1 }.onPing ec)
  | controlFrame {now : Nat} (clock : s.clock ≤ now) :
      Step s (.controlFrame now) ({ s with clock := now }.activity now)
  | onRead {ec : StreamResult} {now : Nat} (clock : s.clock ≤ now) :
      Step s (.onRead ec now) ({ s with clock := now, reading := false }.onRead ec now)
  | endStream : Step s .endStream { s with status := .ended }

theorem step_cases {s next : WebsocketSession} {action : Action} (h : s.step action = some next) :
    Step s action next := by
  cases action with
  | expire now =>
      simp only [step, Option.ite_none_right_eq_some, Option.map_eq_some_iff] at h
      obtain ⟨hClock, timer, hExpired, rfl⟩ := h
      exact .expire hClock hExpired
  | breakDown =>
      obtain ⟨timer, hBroken, rfl⟩ := Option.map_eq_some_iff.mp h
      exact .breakDown hBroken
  | onTimer index now later =>
      simp only [step, Option.ite_none_right_eq_some, Option.map_eq_some_iff] at h
      obtain ⟨⟨hClock, hLater⟩, ⟨ec, timer⟩, hDelivered, rfl⟩ := h
      exact .onTimer hClock hLater hDelivered
  | handshake =>
      simp only [step, Option.ite_none_right_eq_some, Option.some.injEq] at h
      obtain ⟨-, rfl⟩ := h
      exact .handshake
  | onAccept ec =>
      simp only [step, Option.ite_none_right_eq_some, Option.some.injEq] at h
      obtain ⟨-, rfl⟩ := h
      exact .onAccept
  | onPing ec =>
      simp only [step, Option.ite_none_right_eq_some, Option.some.injEq] at h
      obtain ⟨-, rfl⟩ := h
      exact .onPing
  | controlFrame now =>
      simp only [step, Option.ite_none_right_eq_some, Option.some.injEq] at h
      obtain ⟨⟨hClock, -⟩, rfl⟩ := h
      exact .controlFrame hClock
  | onRead ec now =>
      simp only [step, Option.ite_none_right_eq_some, Option.some.injEq] at h
      obtain ⟨⟨hClock, -⟩, rfl⟩ := h
      exact .onRead hClock
  | endStream =>
      simp only [step, Option.ite_none_right_eq_some, Option.some.injEq] at h
      obtain ⟨-, rfl⟩ := h
      exact .endStream

/-- How long the peer has been silent, at least, when the timer expires. -/
def patience (s : WebsocketSession) : Nat := if s.pingState = 0 then seconds 15 else seconds 30

/-- The timer expires only after a silence, and until the session has been shut down or
the timer has failed there is one wait or handler of it. -/
structure Watched (s : WebsocketSession) : Prop where
  past : ∀ time ∈ s.heard, time ≤ s.clock
  silence : ∃ deadline, s.timer.deadline = some deadline ∧
    ∀ time ∈ s.heard, time + s.patience ≤ deadline
  pending : s.timer.pending = if s.shutDown = true ∨ "timer" ∈ s.failures then 0 else 1

theorem seconds_add (first second : Nat) :
    seconds (first + second) = seconds first + seconds second := Nat.add_mul first second _

/-- The silence is the same or shorter, so the deadline is late enough. -/
theorem Watched.of_same {s next : WebsocketSession} (h : s.Watched) (hClock : s.clock ≤ next.clock)
    (hHeard : next.heard = s.heard) (hDeadline : next.timer.deadline = s.timer.deadline)
    (hPatience : next.patience ≤ s.patience)
    (hPending : next.timer.pending =
      if next.shutDown = true ∨ "timer" ∈ next.failures then 0 else 1) : next.Watched := by
  obtain ⟨deadline, hSame, hSilence⟩ := h.silence
  refine ⟨fun time hTime => ?_, ⟨deadline, hDeadline.trans hSame, fun time hTime => ?_⟩, hPending⟩
  · rw [hHeard] at hTime
    exact Nat.le_trans (h.past time hTime) hClock
  · rw [hHeard] at hTime
    have := hSilence time hTime
    omega

theorem Watched.fail {s : WebsocketSession} (h : s.Watched) {what : String}
    (hWhat : what ≠ "timer") : (s.fail what).Watched :=
  h.of_same (Nat.le_refl _) rfl rfl (Nat.le_refl _)
    (by simpa [WebsocketSession.fail, hWhat.symm] using h.pending)

theorem Watched.clock {s : WebsocketSession} (h : s.Watched) {now : Nat} (hClock : s.clock ≤ now) :
    Watched { s with clock := now } :=
  h.of_same hClock rfl rfl (Nat.le_refl _) h.pending

theorem Watched.activity {s : WebsocketSession} (h : s.Watched) {now : Nat} (hNow : s.clock = now) :
    (s.activity now).Watched := by
  have hPast : ∀ time ∈ s.heard ++ [now], time ≤ now := by
    intro time hTime
    rcases List.mem_append.mp hTime with hBefore | hLast
    · exact hNow ▸ h.past time hBefore
    · exact Nat.le_of_eq (List.mem_singleton.mp hLast)
  have hPatience : (s.activity now).patience = seconds 15 := if_pos rfl
  refine ⟨fun time hTime => ?_, ⟨now + seconds 15, Timer.deadline_expiresAt _ _, ?_⟩, ?_⟩
  · exact hNow ▸ hPast time hTime
  · intro time hTime
    have hTime : time ≤ now := hPast time hTime
    omega
  · exact (Timer.pending_expiresAt _ _).trans h.pending

/-- A handler is called: the session has been running, and no other wait or handler of
its timer is there. -/
theorem Watched.running {s : WebsocketSession} (h : s.Watched) {index : Nat} {ec : Completion}
    {timer : Timer} (hDelivered : s.timer.deliver index = some (ec, timer)) :
    (s.shutDown = false ∧ "timer" ∉ s.failures) ∧ timer.pending = 0 := by
  have hPending := h.pending
  obtain ⟨-, hOne⟩ := Timer.deliver_eq_some hDelivered
  split at hPending
  · omega
  · next hRunning =>
      rw [not_or, Bool.not_eq_true] at hRunning
      exact ⟨hRunning, by omega⟩

/-- The deadline has moved on by fifteen seconds from a time at which the peer had
been silent for fifteen already. -/
theorem Watched.ping {s : WebsocketSession} (h : s.Watched) {now later : Nat} (hLater : now ≤ later)
    (hReached : s.timer.reached now = true) (hState : s.pingState = 0) :
    ∀ time ∈ s.heard, time + seconds 30 ≤ later + seconds 15 := by
  obtain ⟨deadline, hDeadline, hSilence⟩ := h.silence
  obtain ⟨reached, hSame, hNow⟩ := Timer.reached_iff.mp hReached
  obtain rfl : deadline = reached := Option.some.inj (hDeadline.symm.trans hSame)
  intro time hTime
  have hQuiet := hSilence time hTime
  rw [patience, if_pos hState] at hQuiet
  rw [show seconds 30 = seconds 15 + seconds 15 from seconds_add 15 15]
  omega

theorem Watched.onTimer {s : WebsocketSession} (h : s.Watched) {index now later : Nat}
    {ec : Completion} {timer : Timer} (hClock : s.clock ≤ now) (hLater : now ≤ later)
    (hDelivered : s.timer.deliver index = some (ec, timer)) :
    ({ s with timer := timer, clock := later }.onTimer ec now later).Watched := by
  obtain ⟨hDeadline, -⟩ := Timer.deliver_eq_some hDelivered
  obtain ⟨⟨hOpen, hTimer⟩, hPending⟩ := h.running hDelivered
  have hNext : s.clock ≤ later := Nat.le_trans hClock hLater
  unfold WebsocketSession.onTimer
  dsimp only
  split_ifs with hFailed hReached hPing
  · exact h.of_same hNext rfl hDeadline (Nat.le_refl _)
      (by simpa [WebsocketSession.fail] using hPending)
  · have hSame : s.timer.reached now = true := by
      rwa [Timer.reached, hDeadline] at hReached
    have hSilence := h.ping hLater hSame hPing.2
    have hMoved : (timer.expiresAt (later + seconds 15)).asyncWait.deadline =
        some (later + seconds 15) := by
      simp only [Timer.deadline_asyncWait, Timer.deadline_expiresAt]
    refine ⟨fun time hTime => Nat.le_trans (h.past time hTime) hNext, ⟨_, hMoved, ?_⟩, ?_⟩
    · simpa [patience] using hSilence
    · simp [hOpen, hTimer, hPending]
  · exact h.of_same hNext rfl hDeadline (Nat.le_refl _) (by simpa using hPending)
  · exact h.of_same hNext rfl (by simpa using hDeadline) (Nat.le_refl _)
      (by simp [hOpen, hTimer, hPending])

theorem watched_accepted (now later : Nat) : (accepted now later).Watched where
  past := by simp [accepted, doAccept, WebsocketSession.onTimer, Timer.reached]
  silence := by
    refine ⟨later + seconds 15, rfl, ?_⟩
    simp [accepted, doAccept, WebsocketSession.onTimer, Timer.reached, patience]
  pending := by
    simp [accepted, doAccept, WebsocketSession.onTimer, Timer.reached, Timer.pending,
      Timer.asyncWait, Timer.expiresAt]

theorem Watched.step {s next : WebsocketSession} {action : Action} (h : s.Watched)
    (hStep : Step s action next) : next.Watched := by
  cases hStep with
  | expire hClock hExpired =>
      obtain ⟨hDeadline, hPending⟩ := Timer.expire_eq_some hExpired
      exact h.of_same hClock rfl hDeadline (Nat.le_refl _) (hPending.trans h.pending)
  | breakDown hBroken =>
      obtain ⟨hDeadline, hPending⟩ := Timer.breakDown_eq_some hBroken
      exact h.of_same (Nat.le_refl _) rfl hDeadline (Nat.le_refl _) (hPending.trans h.pending)
  | onTimer hClock hLater hDelivered => exact h.onTimer hClock hLater hDelivered
  | handshake => exact h.of_same (Nat.le_refl _) rfl rfl (Nat.le_refl _) h.pending
  | onAccept =>
      have hSame : Watched { s with accepting := false } :=
        h.of_same (Nat.le_refl _) rfl rfl (Nat.le_refl _) h.pending
      unfold WebsocketSession.onAccept
      split_ifs
      · exact hSame.of_same (Nat.le_refl _) rfl rfl (Nat.le_refl _) hSame.pending
      · exact hSame.fail (by decide)
      · exact hSame
  | onPing =>
      have hSame : Watched { s with pings := s.pings - 1 } :=
        h.of_same (Nat.le_refl _) rfl rfl (Nat.le_refl _) h.pending
      unfold WebsocketSession.onPing
      split_ifs with hAborted hFailed hState
      · exact hSame.fail (by decide)
      · -- A ping that has been sent leaves the deadline where it was.
        have hPatience : patience { s with pings := s.pings - 1, pingState := 2 } ≤ s.patience := by
          simp [patience, show s.pingState = 1 from hState]
        exact h.of_same (Nat.le_refl _) rfl rfl hPatience h.pending
      · exact hSame
      · exact hSame
  | controlFrame hClock => exact (h.clock hClock).activity rfl
  | @onRead ec now hClock =>
      have hSame : Watched { s with clock := now, reading := false } :=
        h.of_same hClock rfl rfl (Nat.le_refl _) h.pending
      unfold WebsocketSession.onRead
      split_ifs
      · have hActive := hSame.activity rfl
        exact hActive.of_same (Nat.le_refl _) rfl rfl (Nat.le_refl _) hActive.pending
      · exact hSame.fail (by decide)
      · exact hSame
  | endStream => exact h.of_same (Nat.le_refl _) rfl rfl (Nat.le_refl _) h.pending

theorem Watched.of_reaches {now later : Nat} {s : WebsocketSession}
    (run : Reaches WebsocketSession.step anyAction (accepted now later) s) : s.Watched :=
  run.invariant Watched (watched_accepted now later)
    fun _ _ _ _ h _ hStep => h.step (step_cases hStep)

/-- Only `on_timer` shuts a session down; if the stream is open it has sent a ping
before, and the deadline it set then has passed. -/
theorem Watched.shuts_down {s next : WebsocketSession} {action : Action} (h : s.Watched)
    (hStep : Step s action next) (hOpen : s.status = .opened) (hBefore : s.shutDown = false)
    (hAfter : next.shutDown = true) :
    ∃ index now later, action = .onTimer index now later ∧
      ∀ time ∈ s.heard, time + seconds 30 ≤ now := by
  cases hStep with
  | @onTimer index now later ec timer hClock hLater hDelivered =>
      obtain ⟨deadline, hDeadline, hSilence⟩ := h.silence
      have hSame : timer.deadline = some deadline :=
        (Timer.deliver_eq_some hDelivered).1.trans hDeadline
      unfold WebsocketSession.onTimer at hAfter
      dsimp only at hAfter
      split_ifs at hAfter with hFailed hReached hPing
      · simp [WebsocketSession.fail, hBefore] at hAfter
      · simp [hBefore] at hAfter
      · obtain ⟨reached, hReached, hNow⟩ := Timer.reached_iff.mp hReached
        obtain rfl : deadline = reached := Option.some.inj (hSame.symm.trans hReached)
        have hState : s.pingState ≠ 0 := fun hZero => hPing ⟨by simp [isOpen, hOpen], hZero⟩
        refine ⟨index, now, later, rfl, fun time hTime => Nat.le_trans ?_ hNow⟩
        simpa [patience, hState] using hSilence time hTime
      · simp [hBefore] at hAfter
  | onAccept =>
      unfold WebsocketSession.onAccept at hAfter
      split_ifs at hAfter <;> simp [read, WebsocketSession.fail, hBefore] at hAfter
  | onPing =>
      unfold WebsocketSession.onPing at hAfter
      split_ifs at hAfter <;> simp [WebsocketSession.fail, hBefore] at hAfter
  | onRead =>
      unfold WebsocketSession.onRead at hAfter
      split_ifs at hAfter <;>
        simp [read, WebsocketSession.activity, WebsocketSession.fail, hBefore] at hAfter
  | _ => simp [WebsocketSession.activity, hBefore] at hAfter

/-- The socket of an open session is shut down only if the peer has been silent for
thirty seconds, and the timer of a session that goes on is neither lost nor doubled. -/
theorem keeps_alive {now later : Nat} {s : WebsocketSession}
    (run : Reaches step anyAction (accepted now later) s) :
    (∀ action next, s.step action = some next → s.status = .opened → s.shutDown = false →
      next.shutDown = true → ∃ index reading after, action = .onTimer index reading after ∧
        ∀ time ∈ s.heard, time + seconds 30 ≤ reading) ∧
      (s.shutDown = false → "timer" ∉ s.failures → s.timer.pending = 1) := by
  have hWatched : s.Watched := .of_reaches run
  refine ⟨fun action next hStep => hWatched.shuts_down (step_cases hStep), fun hOpen hTimer => ?_⟩
  simpa [hOpen, hTimer] using hWatched.pending

/-- The peer answers one ping, and is silent from then on. -/
def silentRun : List Action :=
  [.handshake, .onTimer 0 1 1, .onAccept .success, .expire (seconds 15),
    .onTimer 0 (seconds 15) (seconds 15), .onPing .success, .controlFrame (seconds 20),
    .onTimer 0 (seconds 20) (seconds 20), .expire (seconds 35),
    .onTimer 0 (seconds 35) (seconds 35), .onPing .success, .expire (seconds 50)]

/-- The step that shuts the socket down comes thirty seconds after what was last heard. -/
theorem keeps_alive_silent :
    ∃ s next : WebsocketSession, runActions step (accepted 0 0) silentRun = some s ∧
      s.heard = [0, seconds 20] ∧ s.timer.pending = 1 ∧
      s.step (.onTimer 0 (seconds 50) (seconds 50)) = some next ∧ next.shutDown = true ∧
      ∃ index reading after, Action.onTimer 0 (seconds 50) (seconds 50) =
          .onTimer index reading after ∧
        ∀ time ∈ s.heard, time + seconds 30 ≤ reading := by
  have hRun : ∃ s next : WebsocketSession, runActions step (accepted 0 0) silentRun = some s ∧
      s.heard = [0, seconds 20] ∧ s.status = .opened ∧ s.shutDown = false ∧
      "timer" ∉ s.failures ∧ s.step (.onTimer 0 (seconds 50) (seconds 50)) = some next ∧
      next.shutDown = true :=
    ⟨_, _, rfl, by decide, by decide, by decide, by decide, rfl, by decide⟩
  obtain ⟨s, next, hRun, hHeard, hStatus, hOpen, hTimer, hStep, hAfter⟩ := hRun
  obtain ⟨hShuts, hPending⟩ :=
    keeps_alive (reaches_of_runActions _ hRun (allAllowed_anyAction _ _))
  exact ⟨s, next, hRun, hHeard, hPending hOpen hTimer, hStep, hAfter,
    hShuts _ next hStep hStatus hOpen hAfter⟩

end WebsocketSession

end NanoPowServer.WebServer
