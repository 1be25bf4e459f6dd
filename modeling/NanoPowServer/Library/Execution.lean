import Mathlib.Data.List.Basic

/-! Executions of a machine given by a partial step function. An action names
the party that moves and carries every nondeterministic choice of its step, so
that a run is a list of actions and can be evaluated. Guards restrict which
actions a run may take from which states. -/
namespace Execution

universe u v

variable {State : Type u} {Action : Type v}

/-- `finish` is reached from `start` by steps that all meet the guard in the
state they are taken from. -/
inductive Reaches (step : State → Action → Option State) (guard : State → Action → Prop)
    (start : State) : State → Prop where
  | refl : Reaches step guard start start
  | tail {middle finish : State} {action : Action}
      (prior : Reaches step guard start middle) (allowed : guard middle action)
      (last : step middle action = some finish) : Reaches step guard start finish

/-- The guard that every action meets. -/
def anyAction : State → Action → Prop := fun _ _ => True

variable {step : State → Action → Option State} {guard : State → Action → Prop}

/-- Concatenate two runs of one machine under one guard. -/
theorem Reaches.trans {start middle finish : State} (first : Reaches step guard start middle)
    (second : Reaches step guard middle finish) : Reaches step guard start finish := by
  induction second with
  | refl => exact first
  | tail _ allowed last ih => exact ih.tail allowed last

/-- A run under a guard is a run under every weaker guard. -/
theorem Reaches.mono {weaker : State → Action → Prop} {start finish : State}
    (run : Reaches step guard start finish)
    (hWeaker : ∀ state action, guard state action → weaker state action) :
    Reaches step weaker start finish := by
  induction run with
  | refl => exact .refl
  | tail _ allowed last ih => exact ih.tail (hWeaker _ _ allowed) last

/-- The induction rule of invariants. The step case may use that the state it
starts from is itself reached, so invariants already proved can be cited. -/
theorem Reaches.invariant {start finish : State} (run : Reaches step guard start finish)
    (Inv : State → Prop) (initial : Inv start)
    (preserved : ∀ state action next, Reaches step guard start state → Inv state →
      guard state action → step state action = some next → Inv next) :
    Inv finish := by
  induction run with
  | refl => exact initial
  | tail prior allowed last ih => exact preserved _ _ _ prior ih allowed last

/-- Take the listed actions one after the other, or stop where one of them is
not enabled. -/
def runActions (step : State → Action → Option State) : State → List Action → Option State
  | state, [] => some state
  | state, action :: rest => (step state action).bind fun next => runActions step next rest

/-- Every listed action meets the guard in the state it is taken from. -/
def AllAllowed (step : State → Action → Option State) (guard : State → Action → Prop) :
    State → List Action → Prop
  | _, [] => True
  | state, action :: rest =>
      guard state action ∧ ∀ next, step state action = some next → AllAllowed step guard next rest

/-- An evaluated list of actions is a run. -/
theorem reaches_of_runActions (actions : List Action) {start finish : State}
    (hRun : runActions step start actions = some finish)
    (hAllowed : AllAllowed step guard start actions) : Reaches step guard start finish := by
  induction actions generalizing start with
  | nil =>
      cases hRun
      exact .refl
  | cons action rest ih =>
      obtain ⟨next, hStep, hRest⟩ := Option.bind_eq_some_iff.mp hRun
      have hFirst : Reaches step guard start next := .tail .refl hAllowed.1 hStep
      exact hFirst.trans (ih hRest (hAllowed.2 next hStep))

/-- Evaluate a listed run together with its guards. -/
instance decidableAllAllowed [∀ state action, Decidable (guard state action)] :
    ∀ (start : State) (actions : List Action), Decidable (AllAllowed step guard start actions)
  | _, [] => isTrue trivial
  | start, action :: rest =>
      match hStep : step start action with
      | none => decidable_of_iff (guard start action) (by simp [AllAllowed, hStep])
      | some next =>
          have := decidableAllAllowed next rest
          decidable_of_iff (guard start action ∧ AllAllowed step guard next rest)
            (by simp [AllAllowed, hStep])

theorem allAllowed_anyAction (actions : List Action) (start : State) :
    AllAllowed step anyAction start actions := by
  induction actions generalizing start with
  | nil => trivial
  | cons action rest ih => exact ⟨trivial, fun next _ => ih next⟩

/-- The state in which a listed run ends, if all its actions are enabled. -/
theorem reaches_get {actions : List Action} {start : State}
    (hEnabled : (runActions step start actions).isSome = true)
    (hAllowed : AllAllowed step guard start actions) :
    Reaches step guard start ((runActions step start actions).get hEnabled) :=
  reaches_of_runActions actions (Option.some_get hEnabled).symm hAllowed

/-- Actions that meet the guard in any state are allowed. -/
theorem AllAllowed.of_forall {actions : List Action} {start : State}
    (h : ∀ action ∈ actions, ∀ state, guard state action) :
    AllAllowed step guard start actions := by
  induction actions generalizing start with
  | nil => trivial
  | cons action rest ih =>
      refine ⟨h action List.mem_cons_self start, fun next _ => ih fun other hOther => ?_⟩
      exact h other (List.mem_cons_of_mem action hOther)

/-- A run that two guards allow. -/
theorem AllAllowed.and {other : State → Action → Prop} {actions : List Action} {start : State}
    (h : AllAllowed step guard start actions) (hOther : AllAllowed step other start actions) :
    AllAllowed step (fun state action => guard state action ∧ other state action) start actions := by
  induction actions generalizing start with
  | nil => trivial
  | cons action rest ih =>
      refine ⟨⟨h.1, hOther.1⟩, fun next hStep => ?_⟩
      exact ih (h.2 next hStep) (hOther.2 next hStep)

/-- A run that was allowed was allowed up to any point. -/
theorem AllAllowed.of_append {front back : List Action} {start : State}
    (h : AllAllowed step guard start (front ++ back)) : AllAllowed step guard start front := by
  induction front generalizing start with
  | nil => trivial
  | cons action rest ih => exact ⟨h.1, fun next hStep => ih (h.2 next hStep)⟩

theorem AllAllowed.guard_of_append {front back : List Action} {action : Action}
    {start middle : State} (h : AllAllowed step guard start (front ++ action :: back))
    (hFront : runActions step start front = some middle) : guard middle action := by
  induction front generalizing start with
  | nil =>
      cases hFront
      exact h.1
  | cons first rest ih =>
      obtain ⟨next, hStep, hRest⟩ := Option.bind_eq_some_iff.mp hFront
      exact ih (h.2 next hStep) hRest

/-- Where something has become true in the course of a run, some step of the run
has made it true. -/
theorem exists_step_of_run (P : State → Prop) {actions : List Action} {start finish : State}
    (hRun : runActions step start actions = some finish) (hStart : ¬ P start) (hFinish : P finish) :
    ∃ front action back before after, actions = front ++ action :: back ∧
      runActions step start front = some before ∧ step before action = some after ∧
      ¬ P before ∧ P after := by
  induction actions generalizing start with
  | nil =>
      cases hRun
      exact absurd hFinish hStart
  | cons action rest ih =>
      obtain ⟨next, hStep, hRest⟩ := Option.bind_eq_some_iff.mp hRun
      by_cases hNext : P next
      · exact ⟨[], action, rest, start, next, rfl, rfl, hStep, hStart, hNext⟩
      · obtain ⟨front, last, back, before, after, rfl, hFront, hLast, hBefore, hAfter⟩ :=
          ih hRest hNext
        refine ⟨action :: front, last, back, before, after, rfl, ?_, hLast, hBefore, hAfter⟩
        exact Option.bind_eq_some_iff.mpr ⟨next, hStep, hFront⟩

end Execution
