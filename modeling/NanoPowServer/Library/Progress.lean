import Mathlib.Algebra.GroupWithZero.Nat
import NanoPowServer.Library.Execution

/-! Machines that come to rest. A measure pays for the steps of one kind, and what
the other steps put into it bounds how many of them a run can take; where some step
of the kind is always enabled short of rest, a run can be continued to a state at rest. -/
namespace Execution

universe u v

variable {State : Type u} {Action : Type v} {step : State → Action → Option State}
  {guard : State → Action → Prop}

/-- Each step that counts takes one from the measure, and no step adds more to it
than it costs. -/
theorem countP_add_le_of_measure (measure : State → Nat) (counts : Action → Bool)
    (cost : Action → Nat) (Inv : State → Prop)
    (preserved : ∀ state action next, Inv state → step state action = some next → Inv next)
    (pays : ∀ state action next, Inv state → step state action = some next →
      measure next + (counts action).toNat ≤ measure state + cost action)
    {actions : List Action} {start finish : State} (initial : Inv start)
    (hRun : runActions step start actions = some finish) :
    measure finish + actions.countP counts ≤ measure start + (actions.map cost).sum := by
  induction actions generalizing start with
  | nil =>
      cases hRun
      simp
  | cons action rest ih =>
      obtain ⟨next, hStep, hRest⟩ := Option.bind_eq_some_iff.mp hRun
      have hLater := ih (preserved _ _ _ initial hStep) hRest
      have hFirst := pays _ _ _ initial hStep
      have hCount : (action :: rest).countP counts = rest.countP counts + (counts action).toNat := by
        cases hCounts : counts action <;> simp [hCounts]
      rw [hCount, List.map_cons, List.sum_cons]
      omega

/-- A machine that can take a step until it is at rest, and loses measure with each of
these steps, can be brought to rest. -/
theorem exists_reaches_rest (measure : State → Nat) (Inv Rest : State → Prop)
    (preserved : ∀ state action next, Inv state → guard state action →
      step state action = some next → Inv next)
    (decreases : ∀ state action next, Inv state → guard state action →
      step state action = some next → measure next < measure state)
    (progress : ∀ state, Inv state → ¬ Rest state →
      ∃ action next, guard state action ∧ step state action = some next)
    {start : State} (initial : Inv start) :
    ∃ finish, Reaches step guard start finish ∧ Rest finish := by
  by_cases hRest : Rest start
  · exact ⟨start, .refl, hRest⟩
  · obtain ⟨action, next, allowed, hStep⟩ := progress start initial hRest
    have hLess := decreases _ _ _ initial allowed hStep
    obtain ⟨finish, hReaches, hFinish⟩ := exists_reaches_rest measure Inv Rest preserved decreases
      progress (preserved _ _ _ initial allowed hStep)
    exact ⟨finish, Reaches.trans (.tail .refl allowed hStep) hReaches, hFinish⟩
termination_by measure start

end Execution
