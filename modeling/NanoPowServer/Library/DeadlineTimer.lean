import Mathlib.Data.List.Basic

/-! A timer with one deadline that asynchronous waits share. Each wait completes
once: when the deadline is reached, when the deadline is set anew, or with an error.
The handlers of completed waits are called later, in any order, and the deadline may
have moved in between. -/
namespace DeadlineTimer

/-- How a wait has ended. -/
inductive Completion where
  | expired
  | aborted
  | failed
  deriving DecidableEq

/-- No deadline stands for one that the clock never reaches. `completions` are those
of the waits that have ended and whose handlers have not been called. -/
structure Timer where
  deadline : Option Nat := none
  waits : Nat := 0
  completions : List Completion := []
  deriving DecidableEq

namespace Timer

/-- The waits and the handlers to come. -/
def pending (timer : Timer) : Nat := timer.waits + timer.completions.length

/-- The deadline is not after `now`. -/
def reached (timer : Timer) (now : Nat) : Bool := timer.deadline.any (· ≤ now)

def asyncWait (timer : Timer) : Timer := { timer with waits := timer.waits + 1 }

/-- Set the deadline. Waits that have not ended are aborted, handlers that are to be
called already keep what they will be told. -/
def expiresAt (timer : Timer) (deadline : Nat) : Timer where
  deadline := some deadline
  waits := 0
  completions := timer.completions ++ List.replicate timer.waits .aborted

/-- The deadline is reached while the timer is waited for. -/
def expire (timer : Timer) (now : Nat) : Option Timer :=
  if timer.reached now ∧ 0 < timer.waits then
    some { timer with
      waits := 0, completions := timer.completions ++ List.replicate timer.waits .expired }
  else none

/-- A wait ends with an error. -/
def breakDown (timer : Timer) : Option Timer :=
  if 0 < timer.waits then
    some { timer with waits := timer.waits - 1, completions := timer.completions ++ [.failed] }
  else none

/-- The handler of a completed wait is called. -/
def deliver (timer : Timer) (index : Nat) : Option (Completion × Timer) :=
  timer.completions[index]?.map fun completion =>
    (completion, { timer with completions := timer.completions.eraseIdx index })

variable {timer next : Timer}

theorem reached_iff {now : Nat} :
    timer.reached now = true ↔ ∃ deadline, timer.deadline = some deadline ∧ deadline ≤ now := by
  simp [reached, Option.any_eq_true]

@[simp] theorem deadline_asyncWait (timer : Timer) : timer.asyncWait.deadline = timer.deadline :=
  rfl

@[simp] theorem pending_asyncWait (timer : Timer) :
    timer.asyncWait.pending = timer.pending + 1 := by
  simp only [asyncWait, pending]
  omega

@[simp] theorem deadline_expiresAt (timer : Timer) (deadline : Nat) :
    (timer.expiresAt deadline).deadline = some deadline := rfl

/-- A wait whose deadline moves is not lost: its handler is still to come. -/
@[simp] theorem pending_expiresAt (timer : Timer) (deadline : Nat) :
    (timer.expiresAt deadline).pending = timer.pending := by
  simp only [expiresAt, pending, List.length_append, List.length_replicate]
  omega

theorem expire_eq_some {now : Nat} (h : timer.expire now = some next) :
    next.deadline = timer.deadline ∧ next.pending = timer.pending := by
  simp only [expire, Option.ite_none_right_eq_some, Option.some.injEq] at h
  obtain ⟨-, rfl⟩ := h
  refine ⟨rfl, ?_⟩
  simp only [pending, List.length_append, List.length_replicate]
  omega

theorem breakDown_eq_some (h : timer.breakDown = some next) :
    next.deadline = timer.deadline ∧ next.pending = timer.pending := by
  simp only [breakDown, Option.ite_none_right_eq_some, Option.some.injEq] at h
  obtain ⟨hWaits, rfl⟩ := h
  refine ⟨rfl, ?_⟩
  simp only [pending, List.length_append, List.length_singleton]
  omega

theorem deliver_eq_some {index : Nat} {completion : Completion}
    (h : timer.deliver index = some (completion, next)) :
    next.deadline = timer.deadline ∧ next.pending + 1 = timer.pending := by
  obtain ⟨found, hFound, hPair⟩ := Option.map_eq_some_iff.mp h
  obtain ⟨-, rfl⟩ := Prod.mk.inj hPair
  refine ⟨rfl, ?_⟩
  have hIndex : index < timer.completions.length := (List.getElem?_eq_some_iff.mp hFound).1
  simp only [pending, List.length_eraseIdx_of_lt hIndex]
  omega

end Timer

end DeadlineTimer
