import NanoPowServer.Entry.Answers
import NanoPowServer.WebServer.Listener

/-! The server from its start: the process behind its listener, which is all that makes
connections. -/
namespace NanoPowServer.Entry

open WebServer
open WorkHandler (System)
open Execution PriorityQueue

variable {Queue : Type}

structure Server (Queue : Type) where
  listener : Listener
  process : Process Queue

/-- An accept has completed, or the process goes on by itself. -/
inductive ServerAction where
  | onAccept (result : AcceptResult)
  | inside (action : Action)

/-- The action makes a connection. -/
def Action.isAccept : Action → Bool
  | .accept _ => true
  | _ => false

namespace Server

variable [PriorityQueue Queue Job Job.comparator]

/-- What a completed accept means for the process. The exception of a peer that is gone
ends it, whichever thread runs the handler. -/
def connect (setup : Setup) (p : Process Queue) : AcceptResult → Option (Process Queue)
  | .failed => some p
  | .connected isLoopback => p.step setup (.accept isLoopback)
  | .peerGone => some { p with terminated := true }

/-- Only an acceptor that listens accepts without an error. -/
def step (setup : Setup) (s : Server Queue) : ServerAction → Option (Server Queue)
  | .onAccept result =>
      if s.process.terminated = false ∧ 0 < s.listener.accepting ∧
          (result ≠ .failed → s.listener.acceptor = .listening) then
        (connect setup s.process result).map fun process =>
          { listener :=
              { s.listener with accepting := s.listener.accepting - 1 }.onAccept result
            process }
      else none
  | .inside action =>
      if action.isAccept then none
      else (s.process.step setup action).map fun process => { s with process }

/-- The call of `start`. An exception of the constructor goes up to `main`, which
returns. -/
def start (setup : Setup) (calls : AcceptorCalls) : Option (Server Queue) :=
  (Listener.construct calls).map fun listener =>
    { listener := listener.run, process := Process.initial setup }

inductive Step (setup : Setup) (s : Server Queue) : ServerAction → Server Queue → Prop where
  | failed (accepting : 0 < s.listener.accepting) :
      Step setup s (.onAccept .failed)
        { s with listener :=
          { s.listener with accepting := s.listener.accepting - 1 }.onAccept .failed }
  | connected {isLoopback : Bool} {process : Process Queue} (accepting : 0 < s.listener.accepting)
      (listening : s.listener.acceptor = .listening)
      (made : s.process.step setup (.accept isLoopback) = some process) :
      Step setup s (.onAccept (.connected isLoopback))
        { listener := { s.listener with
            accepting := s.listener.accepting - 1 }.onAccept (.connected isLoopback)
          process }
  | peerGone (accepting : 0 < s.listener.accepting) (listening : s.listener.acceptor = .listening) :
      Step setup s (.onAccept .peerGone)
        { listener := { s.listener with
            accepting := s.listener.accepting - 1 }.onAccept .peerGone
          process := { s.process with terminated := true } }
  | inside {action : Action} {process : Process Queue} (other : action.isAccept = false)
      (made : s.process.step setup action = some process) :
      Step setup s (.inside action) { s with process }

variable {setup : Setup} {calls : AcceptorCalls} {s next : Server Queue}

theorem step_cases {action : ServerAction} (h : s.step setup action = some next) :
    s.process.terminated = false ∧ Step setup s action next := by
  cases action with
  | onAccept result =>
      simp only [step, Option.ite_none_right_eq_some, Option.map_eq_some_iff] at h
      obtain ⟨⟨hRunning, hAccepting, hListening⟩, process, hMade, rfl⟩ := h
      refine ⟨hRunning, ?_⟩
      cases result with
      | failed =>
          obtain rfl : s.process = process := Option.some.inj hMade
          exact .failed hAccepting
      | connected isLoopback => exact .connected hAccepting (hListening (by simp)) hMade
      | peerGone =>
          obtain rfl := Option.some.inj hMade
          exact .peerGone hAccepting (hListening (by decide))
  | inside action =>
      simp only [step, Option.ite_none_left_eq_some, Option.map_eq_some_iff] at h
      obtain ⟨hOther, process, hMade, rfl⟩ := h
      refine ⟨?_, .inside (by simpa using hOther) hMade⟩
      cases hTerminated : s.process.terminated with
      | false => rfl
      | true => simp [Process.step, hTerminated] at hMade

/-- The guard lets the process do what it does. -/
def within (guard : Process Queue → Action → Prop) (s : Server Queue) : ServerAction → Prop
  | .onAccept (.connected isLoopback) => guard s.process (.accept isLoopback)
  | .onAccept _ => True
  | .inside action => guard s.process action

/-- The process runs as it does on its own, until it ends; it may end in one way more. -/
def Embeds (setup : Setup) (guard : Process Queue → Action → Prop) (s : Server Queue) : Prop :=
  ∃ p, Reaches (Process.step setup) guard (Process.initial setup) p ∧
    (s.process = p ∨ s.process = { p with terminated := true })

theorem embeds_of_step {guard : Process Queue → Action → Prop} {action : ServerAction}
    (h : Embeds setup guard s) (allowed : within guard s action) (running : s.process.terminated = false)
    (hStep : Step setup s action next) : Embeds setup guard next := by
  obtain ⟨p, run, hSame | hEnded⟩ := h
  · cases hStep with
    | failed _ => exact ⟨p, run, .inl hSame⟩
    | connected _ _ made =>
        rw [hSame] at made
        refine ⟨_, run.tail ?_ made, .inl rfl⟩
        rw [← hSame]
        exact allowed
    | peerGone _ _ => exact ⟨p, run, .inr (by rw [hSame])⟩
    | inside _ made =>
        rw [hSame] at made
        refine ⟨_, run.tail ?_ made, .inl rfl⟩
        rw [← hSame]
        exact allowed
  · rw [hEnded] at running
    cases running

/-- The acceptor stays what the constructor has made of it, one accept is outstanding if
it is open, and without listening nothing has happened yet. -/
structure Accepting (setup : Setup) (calls : AcceptorCalls) (s : Server Queue) : Prop where
  listening : s.listener.acceptor = .listening ↔
    calls.opens = true ∧ calls.binds = true ∧ calls.listens = true
  outstanding : s.process.terminated = false → s.listener.accepting = calls.opens.toNat
  unused : s.listener.acceptor ≠ .listening → s.process = Process.initial setup

theorem accepting_start {start : Server Queue} (started : Server.start setup calls = some start) :
    Accepting setup calls start := by
  obtain ⟨listener, hConstructed, rfl⟩ := Option.map_eq_some_iff.mp started
  obtain ⟨hListening, hClosed, hNone⟩ := Listener.construct_eq_some hConstructed
  have hAcceptor : listener.run.acceptor = listener.acceptor := by
    unfold Listener.run
    split <;> rfl
  refine ⟨by rw [hAcceptor]; exact hListening, ?_, fun _ => rfl⟩
  intro _
  unfold Listener.run
  split
  · next hIsClosed => simp [hNone, hClosed.mp hIsClosed]
  · next hIsOpen =>
      have hOpens : calls.opens = true := by
        rw [hClosed] at hIsOpen
        simpa using hIsOpen
      simp [Listener.doAccept, hNone, hOpens]

/-- A process that has done nothing yet has no session that could. -/
theorem step_initial {action : Action} (other : action.isAccept = false) :
    (Process.initial setup : Process Queue).step setup action = none := by
  cases action with
  | accept isLoopback => cases other
  | read | receive | http | websocket | outgoing | proceed | raise =>
      simp [Process.step, Process.initial, Process.read, Process.receive, Process.handle]

theorem Accepting.step {action : ServerAction} (h : Accepting setup calls s)
    (running : s.process.terminated = false) (hStep : Step setup s action next) :
    Accepting setup calls next := by
  have hOne := h.outstanding running
  cases hStep with
  | failed accepting =>
      refine ⟨h.listening, ?_, h.unused⟩
      intro _
      simp only [Listener.onAccept, Listener.fail, Listener.doAccept]
      omega
  | connected accepting listening made =>
      refine ⟨h.listening, ?_, fun hNot => absurd listening hNot⟩
      intro _
      simp only [Listener.onAccept, Listener.doAccept]
      omega
  | peerGone accepting listening =>
      exact ⟨h.listening, fun hRunning => (by cases hRunning), fun hNot => absurd listening hNot⟩
  | inside other made =>
      refine ⟨h.listening, fun _ => hOne, ?_⟩
      intro hNot
      rw [h.unused hNot, step_initial other] at made
      cases made

/-- The process behind the listener runs as it does on its own. As long as it runs, there
is one outstanding accept, even if the acceptor could not be bound: then no client is ever
served, and nothing ends the process either. A client that is gone before its accept is
handled ends it. -/
theorem starts_up {start : Server Queue} {guard : Process Queue → Action → Prop}
    (started : Server.start setup calls = some start)
    (run : Reaches (Server.step setup) (within guard) start s) :
    Embeds setup guard s ∧
    (s.process.terminated = false → s.listener.accepting = calls.opens.toNat) ∧
    (¬ (calls.opens = true ∧ calls.binds = true ∧ calls.listens = true) →
      s.process = Process.initial setup ∧ ∀ next action, s.step setup action = some next →
        action = .onAccept .failed ∧ next.process = s.process) ∧
    (calls.opens = true ∧ calls.binds = true ∧ calls.listens = true →
      s.process.terminated = false → ∃ next,
        s.step setup (.onAccept .peerGone) = some next ∧ next.process.terminated = true) := by
  have hBoth : Embeds setup guard s ∧ Accepting setup calls s := by
    apply run.invariant fun s => Embeds setup guard s ∧ Accepting setup calls s
    · refine ⟨⟨Process.initial setup, .refl, .inl ?_⟩, accepting_start started⟩
      obtain ⟨listener, -, rfl⟩ := Option.map_eq_some_iff.mp started
      rfl
    · rintro s action next _ ⟨hEmbeds, hAccepting⟩ allowed hStep
      obtain ⟨hRunning, hCases⟩ := step_cases hStep
      exact ⟨embeds_of_step hEmbeds allowed hRunning hCases, hAccepting.step hRunning hCases⟩
  obtain ⟨hEmbeds, hAccepting⟩ := hBoth
  refine ⟨hEmbeds, hAccepting.outstanding, ?_, ?_⟩
  · intro hFailed
    have hNot : s.listener.acceptor ≠ .listening := by
      rw [Ne, hAccepting.listening]
      exact hFailed
    refine ⟨hAccepting.unused hNot, ?_⟩
    intro next action hStep
    obtain ⟨-, hCases⟩ := step_cases hStep
    cases hCases with
    | failed _ => exact ⟨rfl, rfl⟩
    | connected _ listening _ => exact absurd listening hNot
    | peerGone _ listening => exact absurd listening hNot
    | inside other made =>
        rw [hAccepting.unused hNot, step_initial other] at made
        cases made
  · intro hAll hRunning
    have hListening := hAccepting.listening.mpr hAll
    have hOne : s.listener.accepting = 1 := by
      rw [hAccepting.outstanding hRunning, hAll.1]
      rfl
    let listener := { s.listener with accepting := s.listener.accepting - 1 }
    refine ⟨⟨listener.onAccept .peerGone, { s.process with terminated := true }⟩, ?_, rfl⟩
    simp [step, connect, hRunning, hListening, hOne, listener]

/-- A client is accepted after an error, and one accept is outstanding. -/
theorem starts_up_connected :
    ∃ start s : Server WorkHandler.JobQueue, Server.start sampleSetup {} = some start ∧
      runActions (Server.step sampleSetup) start
        [.onAccept .failed, .onAccept (.connected true)] = some s ∧
      s.process.connections.length = 1 ∧ s.listener.failures = ["accept"] ∧
      s.listener.accepting = 1 ∧
      ∃ next, s.step sampleSetup (.onAccept .peerGone) = some next ∧
        next.process.terminated = true := by
  have hRun : ∃ start s : Server WorkHandler.JobQueue, Server.start sampleSetup {} = some start ∧
      runActions (Server.step sampleSetup) start
        [.onAccept .failed, .onAccept (.connected true)] = some s ∧
      s.process.connections.length = 1 ∧ s.listener.failures = ["accept"] ∧
      s.process.terminated = false :=
    ⟨_, _, rfl, rfl, rfl, rfl, rfl⟩
  obtain ⟨start, s, hStarted, hSteps, hOne, hFailures, hRunning⟩ := hRun
  have run : Reaches (Server.step sampleSetup) (within anyAction) start s :=
    reaches_of_runActions _ hSteps (by simp [AllAllowed, within, anyAction])
  have hServes := starts_up hStarted run
  exact ⟨start, s, hStarted, hSteps, hOne, hFailures, hServes.2.1 hRunning,
    hServes.2.2.2 (by decide) hRunning⟩

end Server

end NanoPowServer.Entry
