import NanoPowServer.WebServer.Delivery
import NanoPowServer.WebServer.KeepAlive

/-! The deadline of an HTTP session. Each read moves it one hour ahead, and the socket is
closed when it is reached, so that a connection on which nothing is read for an hour does
not stay. The handlers run on the strand; times are readings of the steady clock. -/
namespace NanoPowServer.WebServer

open DeadlineTimer Execution

def hours (count : Nat) : Nat := count * seconds 3600

/-- A session with its timer. `timerFailed` is set where `fail` reports the timer, `clock`
is the latest reading of the clock, and `started` lists the times at which a read was. -/
structure TimedSession where
  session : HttpSession := .initial
  timer : Timer := {}
  timerFailed : Bool := false
  clock : Nat := 0
  started : List Nat := []

/-- The call of `on_timer`, which is an action of the timer here. -/
def Action.isTimer : Action → Bool
  | .onTimer => true
  | _ => false

namespace TimedSession

/-- The session has made this step. If the handler has started a read, it has set the timer
before, allowing for very long running requests. -/
def advance (s : TimedSession) (session : HttpSession) (now : Nat) : TimedSession :=
  if s.session.reads < session.reads then
    { s with
      session
      timer := s.timer.expiresAt (now + hours 1)
      clock := now
      started := s.started ++ [now] }
  else { s with session, clock := now }

/-- Verify that the timer really expired since the deadline may have moved. After the
socket is closed there is no further wait. -/
def onTimer (s : TimedSession) (ec : Completion) (now : Nat) : TimedSession :=
  if ec = .failed then { s with timerFailed := true }
  else if s.timer.reached now then
    { s with session := { s.session with shutdown := true, closed := true } }
  else { s with timer := s.timer.asyncWait }

/-- The session that `run` starts: the timer has no deadline yet when it is first waited
for, and the wait is aborted by the first read. -/
def run (now : Nat) : TimedSession :=
  let waiting := onTimer {} .expired now
  { waiting with
    timer := waiting.timer.expiresAt (now + hours 1)
    clock := now
    started := [now] }

/-- The timer, its handler, and the other steps of the session. -/
inductive TimedAction where
  | expire (now : Nat)
  | breakDown
  | onTimer (index now : Nat)
  | session (action : Action) (now : Nat)

/-- No action reads an earlier time than those before it. -/
def step (handlers : List Pattern) (s : TimedSession) : TimedAction → Option TimedSession
  | .expire now =>
      if s.clock ≤ now then
        (s.timer.expire now).map fun timer => { s with timer, clock := now }
      else none
  | .breakDown => s.timer.breakDown.map fun timer => { s with timer }
  | .onTimer index now =>
      if s.clock ≤ now ∧ s.session.handling = false then
        (s.timer.deliver index).map fun (ec, timer) =>
          { s with timer, clock := now }.onTimer ec now
      else none
  | .session action now =>
      if s.clock ≤ now ∧ action.isTimer = false then
        (s.session.step handlers action).map fun session => s.advance session now
      else none

variable {handlers : List Pattern}

inductive Step (handlers : List Pattern) (s : TimedSession) : TimedAction → TimedSession → Prop where
  | expire {now : Nat} {timer : Timer} (clock : s.clock ≤ now)
      (expired : s.timer.expire now = some timer) :
      Step handlers s (.expire now) { s with timer, clock := now }
  | breakDown {timer : Timer} (broken : s.timer.breakDown = some timer) :
      Step handlers s .breakDown { s with timer }
  | onTimer {index now : Nat} {ec : Completion} {timer : Timer} (clock : s.clock ≤ now)
      (strand : s.session.handling = false) (delivered : s.timer.deliver index = some (ec, timer)) :
      Step handlers s (.onTimer index now) ({ s with timer, clock := now }.onTimer ec now)
  | session {action : Action} {now : Nat} {session : HttpSession} (clock : s.clock ≤ now)
      (other : action.isTimer = false) (made : s.session.step handlers action = some session) :
      Step handlers s (.session action now) (s.advance session now)

theorem step_cases {s next : TimedSession} {action : TimedAction}
    (h : s.step handlers action = some next) : Step handlers s action next := by
  cases action with
  | expire now =>
      simp only [step, Option.ite_none_right_eq_some, Option.map_eq_some_iff] at h
      obtain ⟨hClock, timer, hExpired, rfl⟩ := h
      exact .expire hClock hExpired
  | breakDown =>
      obtain ⟨timer, hBroken, rfl⟩ := Option.map_eq_some_iff.mp h
      exact .breakDown hBroken
  | onTimer index now =>
      simp only [step, Option.ite_none_right_eq_some, Option.map_eq_some_iff] at h
      obtain ⟨⟨hClock, hStrand⟩, ⟨ec, timer⟩, hDelivered, rfl⟩ := h
      exact .onTimer hClock hStrand hDelivered
  | session action now =>
      simp only [step, Option.ite_none_right_eq_some, Option.map_eq_some_iff] at h
      obtain ⟨⟨hClock, hOther⟩, session, hMade, rfl⟩ := h
      exact .session hClock hOther hMade

@[simp] theorem advance_session (s : TimedSession) (session : HttpSession) (now : Nat) :
    (s.advance session now).session = session := by
  unfold advance
  split <;> rfl

@[simp] theorem advance_timerFailed (s : TimedSession) (session : HttpSession) (now : Nat) :
    (s.advance session now).timerFailed = s.timerFailed := by
  unfold advance
  split <;> rfl

@[simp] theorem advance_clock (s : TimedSession) (session : HttpSession) (now : Nat) :
    (s.advance session now).clock = now := by
  unfold advance
  split <;> rfl

theorem pending_advance (s : TimedSession) (session : HttpSession) (now : Nat) :
    (s.advance session now).timer.pending = s.timer.pending := by
  unfold advance
  split
  · exact Timer.pending_expiresAt _ _
  · rfl

/-- Only the timer closes the socket. -/
theorem closed_of_other {session next : HttpSession} {action : Action}
    (other : action.isTimer = false) (h : session.step handlers action = some next) :
    next.closed = session.closed := by
  cases WebServer.step_cases h with
  | close => cases other
  | _ => rfl

/-- The deadline is an hour or more after each read was started, and until the socket has
been closed or the timer has failed there is one wait or handler of the timer. -/
structure Guarded (s : TimedSession) : Prop where
  deadline : ∃ deadline, s.timer.deadline = some deadline ∧
    ∀ time ∈ s.started, time ≤ s.clock ∧ time + hours 1 ≤ deadline
  pending : s.timer.pending = if s.session.closed = true ∨ s.timerFailed = true then 0 else 1

theorem Guarded.of_same {s next : TimedSession} (h : s.Guarded) (hClock : s.clock ≤ next.clock)
    (hStarted : next.started = s.started) (hDeadline : next.timer.deadline = s.timer.deadline)
    (hPending : next.timer.pending =
      if next.session.closed = true ∨ next.timerFailed = true then 0 else 1) : next.Guarded := by
  obtain ⟨deadline, hSame, hReads⟩ := h.deadline
  refine ⟨⟨deadline, hDeadline.trans hSame, ?_⟩, hPending⟩
  intro time hTime
  rw [hStarted] at hTime
  exact ⟨Nat.le_trans (hReads time hTime).1 hClock, (hReads time hTime).2⟩

theorem guarded_run (now : Nat) : (run now).Guarded where
  deadline := by
    refine ⟨now + hours 1, rfl, ?_⟩
    simp [run]
  pending := by
    simp [run, onTimer, Timer.reached, Timer.pending, Timer.asyncWait, Timer.expiresAt,
      HttpSession.initial]

/-- A handler is called, so the session goes on until then and nothing else of the timer
is pending. -/
theorem Guarded.running {s : TimedSession} (h : s.Guarded) {index : Nat} {ec : Completion}
    {timer : Timer} (hDelivered : s.timer.deliver index = some (ec, timer)) :
    (s.session.closed = false ∧ s.timerFailed = false) ∧ timer.pending = 0 := by
  have hPending := h.pending
  obtain ⟨-, hOne⟩ := Timer.deliver_eq_some hDelivered
  split at hPending
  · omega
  · next hRunning =>
      rw [not_or, Bool.not_eq_true, Bool.not_eq_true] at hRunning
      exact ⟨hRunning, by omega⟩

theorem Guarded.onTimer {s : TimedSession} (h : s.Guarded) {index now : Nat} {ec : Completion}
    {timer : Timer} (hClock : s.clock ≤ now)
    (hDelivered : s.timer.deliver index = some (ec, timer)) :
    ({ s with timer, clock := now }.onTimer ec now).Guarded := by
  obtain ⟨hDeadline, -⟩ := Timer.deliver_eq_some hDelivered
  obtain ⟨⟨hOpen, hTimer⟩, hPending⟩ := h.running hDelivered
  unfold TimedSession.onTimer
  dsimp only
  split_ifs with hFailed hReached
  · exact h.of_same hClock rfl hDeadline (by simpa using hPending)
  · exact h.of_same hClock rfl hDeadline (by simpa using hPending)
  · exact h.of_same hClock rfl hDeadline (by simp [hOpen, hTimer, hPending])

theorem Guarded.advance {s : TimedSession} (h : s.Guarded) {session : HttpSession} {now : Nat}
    (hClock : s.clock ≤ now) (hClosed : session.closed = s.session.closed) :
    (s.advance session now).Guarded := by
  have hPending : (s.advance session now).timer.pending =
      if (s.advance session now).session.closed = true ∨ (s.advance session now).timerFailed = true
        then 0 else 1 := by
    rw [pending_advance, advance_session, advance_timerFailed, hClosed]
    exact h.pending
  by_cases hRead : s.session.reads < session.reads
  · refine ⟨⟨now + hours 1, ?_, ?_⟩, hPending⟩
    · simp [TimedSession.advance, hRead]
    · obtain ⟨_, _, hReads⟩ := h.deadline
      intro time hTime
      simp only [TimedSession.advance, hRead, if_true, List.mem_append, List.mem_singleton] at hTime ⊢
      rcases hTime with hBefore | rfl
      · have := (hReads time hBefore).1
        omega
      · omega
  · apply h.of_same (by simpa using hClock) _ _ hPending
    · simp [TimedSession.advance, hRead]
    · simp [TimedSession.advance, hRead]

theorem Guarded.step {s next : TimedSession} {action : TimedAction} (h : s.Guarded)
    (hStep : Step handlers s action next) : next.Guarded := by
  cases hStep with
  | expire hClock hExpired =>
      obtain ⟨hDeadline, hPending⟩ := Timer.expire_eq_some hExpired
      exact h.of_same hClock rfl hDeadline (hPending.trans h.pending)
  | breakDown hBroken =>
      obtain ⟨hDeadline, hPending⟩ := Timer.breakDown_eq_some hBroken
      exact h.of_same (Nat.le_refl _) rfl hDeadline (hPending.trans h.pending)
  | onTimer hClock _ hDelivered => exact h.onTimer hClock hDelivered
  | session hClock hOther hMade => exact h.advance hClock (closed_of_other hOther hMade)

theorem Guarded.of_reaches {guard : TimedSession → TimedAction → Prop} {start : Nat}
    {s : TimedSession} (run : Reaches (TimedSession.step handlers) guard (run start) s) :
    s.Guarded :=
  run.invariant Guarded (guarded_run start) fun _ _ _ _ h _ hStep => h.step (step_cases hStep)

/-- A step with the timer is a step of the session, or leaves it as it is. -/
theorem session_of_step {s next : TimedSession} {action : TimedAction}
    (hStep : Step handlers s action next) :
    next.session = s.session ∨
      ∃ other, s.session.step handlers other = some next.session := by
  cases hStep with
  | expire | breakDown => exact .inl rfl
  | session _ _ hMade => exact .inr ⟨_, by rw [advance_session]; exact hMade⟩
  | onTimer _ hStrand _ =>
      unfold TimedSession.onTimer
      dsimp only
      split_ifs
      · exact .inl rfl
      · exact .inr ⟨.onTimer, if_pos hStrand⟩
      · exact .inl rfl

theorem reaches_session_of_timed {guard : TimedSession → TimedAction → Prop} {start : Nat}
    {s : TimedSession} (run : Reaches (TimedSession.step handlers) guard (run start) s) :
    Reaches (HttpSession.step handlers) anyAction HttpSession.initial s.session := by
  apply run.invariant fun s =>
    Reaches (HttpSession.step handlers) anyAction HttpSession.initial s.session
  · exact .refl
  · intro s action next _ h _ hStep
    rcases session_of_step (step_cases hStep) with hSame | ⟨other, hOther⟩
    · rw [hSame]
      exact h
    · exact h.tail trivial hOther

/-- A socket that is closed has not been read from for an hour. -/
theorem Guarded.closes {s next : TimedSession} {action : TimedAction} (h : s.Guarded)
    (hStep : Step handlers s action next) (hOpen : s.session.closed = false)
    (hClosed : next.session.closed = true) :
    ∃ index now, action = .onTimer index now ∧ ∀ time ∈ s.started, time + hours 1 ≤ now := by
  cases hStep with
  | expire | breakDown => simp [hOpen] at hClosed
  | session _ hOther hMade =>
      rw [advance_session, closed_of_other hOther hMade, hOpen] at hClosed
      cases hClosed
  | @onTimer index now ec timer hClock hStrand hDelivered =>
      obtain ⟨deadline, hDeadline, hReads⟩ := h.deadline
      have hSame : timer.deadline = some deadline :=
        (Timer.deliver_eq_some hDelivered).1.trans hDeadline
      unfold TimedSession.onTimer at hClosed
      dsimp only at hClosed
      split_ifs at hClosed with hFailed hReached
      · simp [hOpen] at hClosed
      · obtain ⟨reached, hReached, hNow⟩ := Timer.reached_iff.mp hReached
        obtain rfl : deadline = reached := Option.some.inj (hSame.symm.trans hReached)
        refine ⟨index, now, rfl, ?_⟩
        intro time hTime
        exact Nat.le_trans (hReads time hTime).2 hNow
      · simp [hOpen] at hClosed

/-- The actions of the timer and of its handler. -/
def byTimer (_ : TimedSession) : TimedAction → Prop
  | .expire _ | .onTimer _ _ => True
  | _ => False

/-- The handler that finds the deadline reached closes the socket. -/
theorem closes_of_deliver {s : TimedSession} {ec : Completion} {timer : Timer} {deadline now : Nat}
    (hStrand : s.session.handling = false) (hClock : s.clock ≤ now)
    (hDelivered : s.timer.deliver 0 = some (ec, timer)) (hOk : ec ≠ .failed)
    (hDeadline : s.timer.deadline = some deadline) (hNow : deadline ≤ now) :
    ∃ next, s.step handlers (.onTimer 0 now) = some next ∧
      next.session = { s.session with shutdown := true, closed := true } := by
  refine ⟨{ s with timer, clock := now }.onTimer ec now, ?_, ?_⟩
  · simp [TimedSession.step, hClock, hStrand, hDelivered]
  · have hReached : timer.reached now = true :=
      Timer.reached_iff.mpr ⟨deadline, (Timer.deliver_eq_some hDelivered).1.trans hDeadline, hNow⟩
    simp [TimedSession.onTimer, hOk, hReached]

/-- The timer alone closes a session on which nothing happens any more. -/
theorem Guarded.expires {s : TimedSession} (h : s.Guarded) (hStrand : s.session.handling = false)
    (hOpen : s.session.closed = false) (hTimer : s.timerFailed = false)
    (hOk : .failed ∉ s.timer.completions) :
    ∃ later, Reaches (TimedSession.step handlers) byTimer s later ∧
      later.session = { s.session with shutdown := true, closed := true } := by
  obtain ⟨deadline, hDeadline, -⟩ := h.deadline
  have hPending := h.pending
  rw [hOpen, hTimer] at hPending
  obtain ⟨now, hClock, hNow⟩ : ∃ now, s.clock ≤ now ∧ deadline ≤ now :=
    ⟨max s.clock deadline, Nat.le_max_left _ _, Nat.le_max_right _ _⟩
  cases hCompletions : s.timer.completions with
  | cons ec rest =>
      have hDelivered : s.timer.deliver 0 = some (ec, { s.timer with completions := rest }) := by
        simp [Timer.deliver, hCompletions]
      have hExpired : ec ≠ .failed := by
        rintro rfl
        exact hOk (hCompletions ▸ List.mem_cons_self)
      obtain ⟨next, hStep, hSession⟩ := @closes_of_deliver handlers s ec _ deadline now hStrand
        hClock hDelivered hExpired hDeadline hNow
      exact ⟨next, Reaches.refl.tail (by trivial) hStep, hSession⟩
  | nil =>
      -- The wait is still to end, so the deadline is waited for first.
      have hWaits : s.timer.waits = 1 := by
        simpa [Timer.pending, hCompletions] using hPending
      have hReached : s.timer.reached now = true := Timer.reached_iff.mpr ⟨deadline, hDeadline, hNow⟩
      let expired : TimedSession :=
        { s with timer := { s.timer with waits := 0, completions := [.expired] }, clock := now }
      have hExpire : s.step handlers (.expire now) = some expired := by
        simp [TimedSession.step, Timer.expire, hClock, hReached, hWaits, hCompletions, expired]
      obtain ⟨next, hStep, hSession⟩ := @closes_of_deliver handlers expired .expired
        { s.timer with waits := 0, completions := [] } deadline now hStrand (Nat.le_refl now) rfl
        (by decide) hDeadline hNow
      exact ⟨next, (Reaches.refl.tail (by trivial) hExpire).tail (by trivial) hStep, hSession⟩

/-- With its timer the session runs as it does without, where the timer may close the socket
at any moment. It does so only when no read has been started for an hour. Until then, or
until the timer fails, there is one wait or handler of it, which closes the socket of a
session on which nothing happens any more. -/
theorem idle_timeout {start : Nat} {s : TimedSession}
    (run : Reaches (TimedSession.step handlers) anyAction (run start) s) :
    Reaches (HttpSession.step handlers) anyAction HttpSession.initial s.session ∧
    (∀ action next, s.step handlers action = some next → s.session.closed = false →
      next.session.closed = true →
        ∃ index now, action = .onTimer index now ∧ ∀ time ∈ s.started, time + hours 1 ≤ now) ∧
    (s.timer.pending = if s.session.closed = true ∨ s.timerFailed = true then 0 else 1) ∧
    (s.session.handling = false → s.session.closed = false → s.timerFailed = false →
      .failed ∉ s.timer.completions →
        ∃ later, Reaches (TimedSession.step handlers) byTimer s later ∧
          later.session = { s.session with shutdown := true, closed := true }) := by
  have hGuarded : s.Guarded := .of_reaches run
  refine ⟨reaches_session_of_timed run, ?_, hGuarded.pending, hGuarded.expires⟩
  intro action next hStep
  exact hGuarded.closes (step_cases hStep)

/-- One request is read after half an hour and answered, and nothing else comes. -/
def idleRun : List TimedAction :=
  [.onTimer 0 0, .session (.onRead pingRequest (.respond "")) (seconds 1800),
    .session .pipeline (seconds 1800), .session .onWrite (seconds 1800),
    .onTimer 0 (seconds 1800)]

theorem idle_timeout_ping :
    ∃ s expired next, runActions (TimedSession.step websocketHandlers) (run 0) idleRun = some s ∧
      s.started = [0, seconds 1800] ∧ s.timer.pending = 1 ∧
      (∃ later, Reaches (TimedSession.step websocketHandlers) byTimer s later ∧
        later.session = { s.session with shutdown := true, closed := true }) ∧
      s.step websocketHandlers (.expire (seconds 5400)) = some expired ∧
      expired.step websocketHandlers (.onTimer 0 (seconds 5400)) = some next ∧
      next.session.closed = true ∧ ∀ time ∈ expired.started, time + hours 1 ≤ seconds 5400 := by
  have hIdle : ∃ s expired next,
      runActions (TimedSession.step websocketHandlers) (run 0) idleRun = some s ∧
      s.step websocketHandlers (.expire (seconds 5400)) = some expired ∧
      expired.step websocketHandlers (.onTimer 0 (seconds 5400)) = some next ∧
      s.started = [0, seconds 1800] ∧ s.session.handling = false ∧ s.session.closed = false ∧
      s.timerFailed = false ∧ s.timer.completions = [] ∧ expired.session.closed = false ∧
      next.session.closed = true :=
    ⟨_, _, _, rfl, rfl, rfl, rfl, rfl, rfl, rfl, rfl, rfl, rfl⟩
  obtain ⟨s, expired, next, hSome, hExpire, hFires, hStarted, hStrand, hOpen, hWorks, hNone,
    hStill, hClosed⟩ := hIdle
  have hRun := reaches_of_runActions idleRun hSome (allAllowed_anyAction _ _)
  obtain ⟨-, -, hPending, hCloses⟩ := idle_timeout hRun
  obtain ⟨-, hDeadline, -⟩ := idle_timeout (hRun.tail trivial hExpire)
  obtain ⟨index, now, hAction, hTimes⟩ := hDeadline _ _ hFires hStill hClosed
  cases hAction
  rw [hOpen, hWorks] at hPending
  exact ⟨s, expired, next, hSome, hStarted, hPending, hCloses hStrand hOpen hWorks (by simp [hNone]),
    hExpire, hFires, hClosed, hTimes⟩

end TimedSession

end NanoPowServer.WebServer
