import Mathlib.Data.List.Basic

/-! The listener of the web server: how it opens its acceptor, and the handler that
accepts one connection after the other. -/
namespace NanoPowServer.WebServer

inductive AcceptorState where
  | closed
  | opened
  | bound
  | listening
  deriving DecidableEq

/-- Which of the calls that the constructor makes succeed. -/
structure AcceptorCalls where
  opens : Bool := true
  setsOption : Bool := true
  binds : Bool := true
  listens : Bool := true

/-- What an accept completes with. The peer of an accepted connection may be gone before
its handler asks for the remote endpoint. -/
inductive AcceptResult where
  | failed
  | connected (isLoopback : Bool)
  | peerGone
  deriving DecidableEq

/-- `accepting` counts the outstanding accepts, `failures` is what `fail` has reported. -/
structure Listener where
  acceptor : AcceptorState
  accepting : Nat := 0
  failures : List String := []

namespace Listener

/-- The option is set by the overload that throws, so that the exception leaves the
constructor; the test that follows it only sees the result of `open`. -/
def construct (calls : AcceptorCalls) : Option Listener :=
  if !calls.opens then some { acceptor := .closed, failures := ["open"] }
  else if !calls.setsOption then none
  else if !calls.binds then some { acceptor := .opened, failures := ["bind"] }
  else if !calls.listens then some { acceptor := .bound, failures := ["listen"] }
  else some { acceptor := .listening }

def fail (listener : Listener) (what : String) : Listener :=
  { listener with failures := listener.failures ++ [what] }

def doAccept (listener : Listener) : Listener :=
  { listener with accepting := listener.accepting + 1 }

/-- Start accepting incoming connections. An acceptor that could not be bound is open. -/
def run (listener : Listener) : Listener :=
  if listener.acceptor = .closed then listener else listener.doAccept

/-- Accept another connection, whether there was an error or a session was made. An
exception leaves the handler before it comes to that. -/
def onAccept (listener : Listener) : AcceptResult → Listener
  | .failed => (listener.fail "accept").doAccept
  | .connected _ => listener.doAccept
  | .peerGone => listener

@[simp] theorem onAccept_acceptor (listener : Listener) (result : AcceptResult) :
    (listener.onAccept result).acceptor = listener.acceptor := by
  cases result <;> rfl

/-- The acceptor listens exactly if all calls succeed, and is open exactly if the first
one does. -/
theorem construct_eq_some {calls : AcceptorCalls} {listener : Listener}
    (h : construct calls = some listener) :
    (listener.acceptor = .listening ↔
      calls.opens = true ∧ calls.binds = true ∧ calls.listens = true) ∧
    (listener.acceptor = .closed ↔ calls.opens = false) ∧ listener.accepting = 0 := by
  unfold construct at h
  split_ifs at h <;> (obtain rfl := Option.some.inj h) <;> simp_all

end Listener

end NanoPowServer.WebServer
