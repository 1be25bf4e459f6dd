import Mathlib.Logic.Function.Basic
import Mathlib.Order.WellFounded
import Mathlib.Data.Set.Basic
import NanoPowServer.Library.Execution

/-! Threads that take mutexes with scoped locks. A thread runs a program of lock,
unlock and other instructions, one instruction a step, and an exception thrown by
one of the others releases whatever the thread holds. Programs that request mutexes
in increasing order and leave none held cannot deadlock, in whatever way the threads
interleave. -/
namespace Locking

open Execution

/-- An instruction of a thread. The effects are what the program does besides
taking and releasing mutexes. -/
inductive Instr (Mutex Effect : Type) where
  | lock (mutex : Mutex)
  | unlock (mutex : Mutex)
  | act (effect : Effect)

variable {Key Mutex Effect Shared Start : Type}

/-- A thread with an empty program is not executing an operation. -/
structure State (Key Mutex Effect Shared : Type) where
  shared : Shared
  owner : Mutex → Option Key
  threads : Key → List (Instr Mutex Effect)

/-- What an operation runs when a thread starts it, what an effect does to the
shared data, and what is done instead if the effect throws an exception. -/
structure Operations (Key Mutex Effect Shared Start : Type) where
  program : State Key Mutex Effect Shared → Key → Start → Option (List (Instr Mutex Effect))
  perform : Key → Effect → Shared → Option Shared
  catches : Key → Effect → Effect → Shared → Option Shared

inductive Action (Key Effect Start : Type) where
  | start (thread : Key) (operation : Start)
  | run (thread : Key)
  | throw (thread : Key) (caught : Effect)

namespace State

def initial (shared : Shared) : State Key Mutex Effect Shared :=
  ⟨shared, fun _ => none, fun _ => []⟩

variable [DecidableEq Key]

/-- Continue with another program. -/
def goto (s : State Key Mutex Effect Shared) (k : Key) (rest : List (Instr Mutex Effect)) :
    State Key Mutex Effect Shared :=
  { s with threads := Function.update s.threads k rest }

/-- Unwind the stack of a thread: its locks are released. -/
def unwind (s : State Key Mutex Effect Shared) (k : Key) : State Key Mutex Effect Shared :=
  { s with
    owner := fun mutex => if s.owner mutex = some k then none else s.owner mutex
    threads := Function.update s.threads k [] }

@[simp] theorem goto_self (s : State Key Mutex Effect Shared) (k : Key)
    (rest : List (Instr Mutex Effect)) : (s.goto k rest).threads k = rest :=
  Function.update_self _ _ _

theorem goto_of_ne (s : State Key Mutex Effect Shared) {k other : Key} (hne : other ≠ k)
    (rest : List (Instr Mutex Effect)) : (s.goto k rest).threads other = s.threads other :=
  Function.update_of_ne hne _ _

@[simp] theorem unwind_self (s : State Key Mutex Effect Shared) (k : Key) :
    (s.unwind k).threads k = [] :=
  Function.update_self _ _ _

theorem unwind_of_ne (s : State Key Mutex Effect Shared) {k other : Key} (hne : other ≠ k) :
    (s.unwind k).threads other = s.threads other :=
  Function.update_of_ne hne _ _

variable [DecidableEq Mutex]

def step (operations : Operations Key Mutex Effect Shared Start)
    (s : State Key Mutex Effect Shared) :
    Action Key Effect Start → Option (State Key Mutex Effect Shared)
  | .start k operation =>
      match s.threads k with
      | [] => (operations.program s k operation).map (s.goto k)
      | _ :: _ => none
  | .run k =>
      match s.threads k with
      | [] => none
      | .lock mutex :: rest =>
          if s.owner mutex = none then
            some ({ s with owner := Function.update s.owner mutex (some k) }.goto k rest)
          else none
      | .unlock mutex :: rest =>
          if s.owner mutex = some k then
            some ({ s with owner := Function.update s.owner mutex none }.goto k rest)
          else none
      | .act effect :: rest =>
          (operations.perform k effect s.shared).map fun shared =>
            { s with shared }.goto k rest
  | .throw k caught =>
      match s.threads k with
      | .act effect :: _ =>
          (operations.catches k effect caught s.shared).map fun shared =>
            { s with shared }.unwind k
      | _ => none

/-- One step, with one constructor for each kind of instruction. -/
inductive Step (operations : Operations Key Mutex Effect Shared Start)
    (s : State Key Mutex Effect Shared) :
    Action Key Effect Start → State Key Mutex Effect Shared → Prop where
  | start {k : Key} {operation : Start} {program : List (Instr Mutex Effect)}
      (idle : s.threads k = []) (begins : operations.program s k operation = some program) :
      Step operations s (.start k operation) (s.goto k program)
  | lock {k : Key} {mutex : Mutex} {rest : List (Instr Mutex Effect)}
      (next : s.threads k = .lock mutex :: rest) (free : s.owner mutex = none) :
      Step operations s (.run k)
        ({ s with owner := Function.update s.owner mutex (some k) }.goto k rest)
  | unlock {k : Key} {mutex : Mutex} {rest : List (Instr Mutex Effect)}
      (next : s.threads k = .unlock mutex :: rest) (held : s.owner mutex = some k) :
      Step operations s (.run k)
        ({ s with owner := Function.update s.owner mutex none }.goto k rest)
  | act {k : Key} {effect : Effect} {rest : List (Instr Mutex Effect)} {shared : Shared}
      (next : s.threads k = .act effect :: rest)
      (performs : operations.perform k effect s.shared = some shared) :
      Step operations s (.run k) ({ s with shared }.goto k rest)
  | throw {k : Key} {effect caught : Effect} {rest : List (Instr Mutex Effect)}
      {shared : Shared} (next : s.threads k = .act effect :: rest)
      (catches : operations.catches k effect caught s.shared = some shared) :
      Step operations s (.throw k caught) ({ s with shared }.unwind k)

theorem step_cases {operations : Operations Key Mutex Effect Shared Start}
    {s next : State Key Mutex Effect Shared} {action : Action Key Effect Start}
    (h : s.step operations action = some next) : Step operations s action next := by
  cases action with
  | start k operation =>
      cases hThread : s.threads k with
      | nil =>
          simp only [step, hThread] at h
          obtain ⟨program, begins, rfl⟩ := Option.map_eq_some_iff.mp h
          exact .start hThread begins
      | cons instr rest => simp [step, hThread] at h
  | run k =>
      cases hThread : s.threads k with
      | nil => simp [step, hThread] at h
      | cons instr rest =>
          cases instr with
          | lock mutex =>
              simp only [step, hThread, Option.ite_none_right_eq_some, Option.some.injEq] at h
              obtain ⟨free, rfl⟩ := h
              exact .lock hThread free
          | unlock mutex =>
              simp only [step, hThread, Option.ite_none_right_eq_some, Option.some.injEq] at h
              obtain ⟨held, rfl⟩ := h
              exact .unlock hThread held
          | act effect =>
              simp only [step, hThread] at h
              obtain ⟨shared, performs, rfl⟩ := Option.map_eq_some_iff.mp h
              exact .act hThread performs
  | throw k caught =>
      cases hThread : s.threads k with
      | nil => simp [step, hThread] at h
      | cons instr rest =>
          cases instr with
          | lock mutex => simp [step, hThread] at h
          | unlock mutex => simp [step, hThread] at h
          | act effect =>
              simp only [step, hThread] at h
              obtain ⟨shared, catches, rfl⟩ := Option.map_eq_some_iff.mp h
              exact .throw hThread catches

/-- What a thread has still to do is the rest of a program that it has started. -/
theorem suffix_of_reaches {operations : Operations Key Mutex Effect Shared Start}
    {guard : State Key Mutex Effect Shared → Action Key Effect Start → Prop} {shared : Shared}
    {s : State Key Mutex Effect Shared}
    (run : Reaches (State.step operations) guard (State.initial shared) s) (k : Key) :
    s.threads k = [] ∨ ∃ before operation program, guard before (.start k operation) ∧
      operations.program before k operation = some program ∧ s.threads k <:+ program := by
  refine run.invariant (fun s => s.threads k = [] ∨ ∃ before operation program,
    guard before (.start k operation) ∧ operations.program before k operation = some program ∧
      s.threads k <:+ program) (.inl rfl) ?_
  intro s action next _ ih allowed hStep
  -- The program of this thread loses its first instruction, and the others keep theirs.
  have hRest : ∀ {j : Key} {instr : Instr Mutex Effect} {rest : List (Instr Mutex Effect)},
      s.threads j = instr :: rest → Function.update s.threads j rest k = [] ∨
        ∃ before operation program, guard before (.start k operation) ∧
          operations.program before k operation = some program ∧
          Function.update s.threads j rest k <:+ program := by
    intro j instr rest hNext
    by_cases hSame : k = j
    · subst hSame
      rw [Function.update_self]
      rw [hNext] at ih
      rcases ih with hNil | ⟨before, operation, program, hGuard, hProgram, hSuffix⟩
      · cases hNil
      · exact .inr ⟨before, operation, program, hGuard, hProgram,
          (List.suffix_cons instr rest).trans hSuffix⟩
    · rw [Function.update_of_ne hSame]
      exact ih
  cases State.step_cases hStep with
  | @start j operation program idle begins =>
      by_cases hSame : k = j
      · subst hSame
        refine .inr ⟨s, operation, program, allowed, begins, ?_⟩
        simp [State.goto]
      · simpa [State.goto, hSame] using ih
  | lock hNext _ => exact hRest hNext
  | unlock hNext _ => exact hRest hNext
  | act hNext _ => exact hRest hNext
  | @throw j effect caught rest shared hNext _ =>
      by_cases hSame : k = j
      · exact .inl (by simp [State.unwind, hSame])
      · simpa [State.unwind, hSame] using ih

/-- No thread executes an operation, and every mutex is free. -/
structure Idle (s : State Key Mutex Effect Shared) : Prop where
  threads : ∀ k, s.threads k = []
  owner : ∀ mutex, s.owner mutex = none

/-- A thread has taken these mutexes and goes on with a program. -/
def holding (s : State Key Mutex Effect Shared) (k : Key) (mutexes : List Mutex)
    (rest : List (Instr Mutex Effect)) : State Key Mutex Effect Shared :=
  { s with
    owner := fun mutex => if mutex ∈ mutexes then some k else s.owner mutex
    threads := Function.update s.threads k rest }

section Uninterrupted

variable {operations : Operations Key Mutex Effect Shared Start}
  {guard : State Key Mutex Effect Shared → Action Key Effect Start → Prop}
  {s : State Key Mutex Effect Shared} {k : Key}

theorem Idle.holding_nil (idle : s.Idle) (k : Key) : s.holding k [] [] = s := by
  have hThreads : Function.update s.threads k [] = s.threads :=
    Function.update_eq_self_iff.mpr (idle.threads k).symm
  simp [holding, hThreads]

/-- It takes them one after the other. -/
theorem reaches_holding (goesOn : ∀ s, guard s (.run k)) (idle : s.Idle) {held mutexes : List Mutex}
    (nodup : (held ++ mutexes).Nodup) (rest : List (Instr Mutex Effect)) :
    Reaches (step operations) guard (s.holding k held (mutexes.map .lock ++ rest))
      (s.holding k (held ++ mutexes) rest) := by
  induction mutexes generalizing held with
  | nil =>
      rw [List.append_nil]
      exact .refl
  | cons mutex later ih =>
      have hNew : mutex ∉ held := by
        have hDisjoint := (List.nodup_append.mp nodup).2.2
        exact fun hMem => hDisjoint mutex hMem mutex List.mem_cons_self rfl
      have hTakes : (s.holding k held ((mutex :: later).map .lock ++ rest)).step operations
          (.run k) = some (s.holding k (held ++ [mutex]) (later.map .lock ++ rest)) := by
        simp only [step, holding, List.map_cons, List.cons_append, Function.update_self, hNew,
          if_false, idle.owner, if_true, goto, Function.update_idem, Option.some.injEq]
        congr 1
        funext other
        by_cases hSame : other = mutex <;> simp [hSame]
      have hLater := @ih (held ++ [mutex]) (by simpa using nodup)
      rw [List.append_assoc, List.singleton_append] at hLater
      exact (Reaches.tail .refl (goesOn _) hTakes).trans hLater

/-- It gives them back. -/
theorem reaches_released (goesOn : ∀ s, guard s (.run k)) (idle : s.Idle) {mutexes : List Mutex}
    (nodup : mutexes.Nodup) :
    Reaches (step operations) guard (s.holding k mutexes (mutexes.map .unlock)) s := by
  induction mutexes with
  | nil =>
      rw [List.map_nil, idle.holding_nil]
      exact .refl
  | cons mutex later ih =>
      obtain ⟨hNew, hNodup⟩ := List.nodup_cons.mp nodup
      have hGives : (s.holding k (mutex :: later) ((mutex :: later).map .unlock)).step operations
          (.run k) = some (s.holding k later (later.map .unlock)) := by
        simp only [step, holding, List.map_cons, Function.update_self, List.mem_cons_self, if_true,
          goto, Function.update_idem, Option.some.injEq]
        congr 1
        funext other
        by_cases hSame : other = mutex
        · simp [hSame, hNew, idle.owner]
        · simp [hSame]
      exact (Reaches.tail .refl (goesOn _) hGives).trans (ih hNodup)

/-- It takes the mutexes of an effect. -/
theorem reaches_effect (goesOn : ∀ s, guard s (.run k)) (idle : s.Idle) {mutexes : List Mutex}
    (nodup : mutexes.Nodup) {operation : Start} (starts : guard s (.start k operation))
    {rest : List (Instr Mutex Effect)}
    (program : operations.program s k operation = some (mutexes.map .lock ++ rest)) :
    Reaches (step operations) guard s (s.holding k mutexes rest) := by
  have hStart : s.step operations (.start k operation) =
      some (s.holding k [] (mutexes.map .lock ++ rest)) := by
    simp [step, idle.threads, program, holding, goto]
  have hNodup : ([] ++ mutexes).Nodup := nodup
  exact (Reaches.tail .refl starts hStart).trans (reaches_holding goesOn idle hNodup rest)

/-- An effect in the scope of locks, as one step. -/
theorem reaches_performed (goesOn : ∀ s, guard s (.run k)) (idle : s.Idle) {mutexes : List Mutex}
    (nodup : mutexes.Nodup) {operation : Start} (starts : guard s (.start k operation))
    {effect : Effect} (program : operations.program s k operation =
      some (mutexes.map .lock ++ .act effect :: mutexes.reverse.map .unlock))
    {shared : Shared} (performs : operations.perform k effect s.shared = some shared) :
    Reaches (step operations) guard s { s with shared } := by
  have hIdle : ({ s with shared } : State Key Mutex Effect Shared).Idle := ⟨idle.threads, idle.owner⟩
  have hActs : (s.holding k mutexes (.act effect :: mutexes.reverse.map .unlock)).step operations
      (.run k) = some (({ s with shared } : State Key Mutex Effect Shared).holding k mutexes.reverse
        (mutexes.reverse.map .unlock)) := by
    simp [step, holding, goto, performs]
  exact ((reaches_effect goesOn idle nodup starts program).tail (goesOn _) hActs).trans
    (reaches_released goesOn hIdle (mutexes.reverse_perm.nodup_iff.mpr nodup))

/-- An effect in the scope of locks that throws, with what the catch block does. -/
theorem reaches_caught (goesOn : ∀ s, guard s (.run k)) (idle : s.Idle) {mutexes : List Mutex}
    (nodup : mutexes.Nodup) {operation : Start} (starts : guard s (.start k operation))
    {effect caught : Effect} (throws : ∀ s, guard s (.throw k caught))
    {rest : List (Instr Mutex Effect)} (program : operations.program s k operation =
      some (mutexes.map .lock ++ .act effect :: rest))
    {shared : Shared} (catches : operations.catches k effect caught s.shared = some shared) :
    Reaches (step operations) guard s { s with shared } := by
  have hThrows : (s.holding k mutexes (.act effect :: rest)).step operations (.throw k caught) =
      some { s with shared } := by
    simp only [step, holding, Function.update_self, catches, Option.map_some, unwind,
      Function.update_idem, Option.some.injEq]
    congr 1
    · funext mutex
      by_cases hMem : mutex ∈ mutexes <;> simp [hMem, idle.owner]
    · exact Function.update_eq_self_iff.mpr (idle.threads k).symm
  exact (reaches_effect goesOn idle nodup starts program).tail (throws _) hThrows

end Uninterrupted

end State

/-- The program requests mutexes in increasing order, holds the ones that guard an
effect while it performs it, and ends with none. -/
def Disciplined [LT Mutex] [DecidableEq Mutex] (guards : Effect → List Mutex) :
    List Mutex → List (Instr Mutex Effect) → Prop
  | held, [] => held = []
  | held, .lock mutex :: rest =>
      (∀ other ∈ held, other < mutex) ∧ Disciplined guards (mutex :: held) rest
  | held, .unlock mutex :: rest => mutex ∈ held ∧ Disciplined guards (held.erase mutex) rest
  | held, .act effect :: rest =>
      (∀ mutex ∈ guards effect, mutex ∈ held) ∧ Disciplined guards held rest

variable [DecidableEq Mutex] [Preorder Mutex]

/-- What a program gives back and does not take is held. -/
theorem Disciplined.mem_of_unlock {guards : Effect → List Mutex} {mutex : Mutex} {held : List Mutex}
    {program : List (Instr Mutex Effect)} (h : Disciplined guards held program)
    (unlocks : .unlock mutex ∈ program) (takes : .lock mutex ∉ program) : mutex ∈ held := by
  induction program generalizing held with
  | nil => cases unlocks
  | cons instr rest ih =>
      have hTakes : .lock mutex ∉ rest := fun hMem => takes (List.mem_cons_of_mem instr hMem)
      cases instr with
      | lock other =>
          have hRest : .unlock mutex ∈ rest := by simpa using unlocks
          rcases List.mem_cons.mp (ih h.2 hRest hTakes) with rfl | hHeld
          · exact absurd List.mem_cons_self takes
          · exact hHeld
      | unlock other =>
          rcases List.mem_cons.mp unlocks with hSame | hRest
          · cases hSame
            exact h.1
          · exact List.mem_of_mem_erase (ih h.2 hRest hTakes)
      | act effect =>
          have hRest : .unlock mutex ∈ rest := by simpa using unlocks
          exact ih h.2 hRest hTakes

/-- A thread holds these mutexes, each once, and goes on as it should. -/
structure Follows (guards : Effect → List Mutex) (s : State Key Mutex Effect Shared) (k : Key)
    (held : List Mutex) : Prop where
  nodup : held.Nodup
  owner_iff : ∀ mutex, s.owner mutex = some k ↔ mutex ∈ held
  disciplined : Disciplined guards held (s.threads k)

/-- Every thread goes on as it should. -/
def Ordered (guards : Effect → List Mutex) (s : State Key Mutex Effect Shared) : Prop :=
  ∀ k, ∃ held, Follows guards s k held

variable {guards : Effect → List Mutex} {s : State Key Mutex Effect Shared}

theorem ordered_initial (shared : Shared) :
    Ordered guards (State.initial shared : State Key Mutex Effect Shared) :=
  fun _ => ⟨[], List.nodup_nil, by simp [State.initial], rfl⟩

/-- A step of one thread leaves the others as they were if it changes the owner of
no mutex but those it takes or gives back. -/
theorem Ordered.of_thread {next : State Key Mutex Effect Shared} (h : Ordered guards s) {k : Key}
    {held : List Mutex} (follows : Follows guards next k held)
    (threads : ∀ other, other ≠ k → next.threads other = s.threads other)
    (owner : ∀ other, other ≠ k → ∀ mutex,
      next.owner mutex = some other ↔ s.owner mutex = some other) : Ordered guards next := by
  intro other
  by_cases hSame : other = k
  · exact ⟨held, hSame ▸ follows⟩
  · obtain ⟨mine, hMine⟩ := h other
    refine ⟨mine, hMine.nodup, ?_, ?_⟩
    · intro mutex
      rw [owner other hSame, hMine.owner_iff]
    · rw [threads other hSame]
      exact hMine.disciplined

section Run

variable [DecidableEq Key]

/-- A thread goes on with another program. -/
theorem Ordered.goto (h : Ordered guards s) {k : Key} {held : List Mutex} {shared : Shared}
    {rest : List (Instr Mutex Effect)} (nodup : held.Nodup)
    (owner_iff : ∀ mutex, s.owner mutex = some k ↔ mutex ∈ held)
    (disciplined : Disciplined guards held rest) :
    Ordered guards ({ s with shared }.goto k rest) := by
  refine h.of_thread ⟨nodup, owner_iff, ?_⟩ ?_ fun _ _ _ => Iff.rfl
  · rwa [State.goto_self]
  · intro other hOther
    rw [State.goto_of_ne _ hOther]

theorem Ordered.lock (h : Ordered guards s) {k : Key} {mutex : Mutex}
    {rest : List (Instr Mutex Effect)} (next : s.threads k = .lock mutex :: rest)
    (free : s.owner mutex = none) :
    Ordered guards ({ s with owner := Function.update s.owner mutex (some k) }.goto k rest) := by
  obtain ⟨held, hHeld⟩ := h k
  have hNext := hHeld.disciplined
  rw [next] at hNext
  obtain ⟨hAbove, hRest⟩ := hNext
  have hNew : mutex ∉ held := fun hMem => lt_irrefl mutex (hAbove mutex hMem)
  have hFollows : Follows guards
      ({ s with owner := Function.update s.owner mutex (some k) }.goto k rest) k
      (mutex :: held) := by
    refine ⟨List.nodup_cons.mpr ⟨hNew, hHeld.nodup⟩, ?_, by simpa [State.goto] using hRest⟩
    intro other
    by_cases hSame : other = mutex
    · simp [State.goto, hSame]
    · simp [State.goto, hSame, hHeld.owner_iff]
  refine h.of_thread hFollows ?_ ?_
  · intro other hOther
    rw [State.goto_of_ne _ hOther]
  · intro other hOther taken
    by_cases hSame : taken = mutex
    · simp [State.goto, hSame, free, hOther.symm]
    · simp [State.goto, hSame]

theorem Ordered.unlock (h : Ordered guards s) {k : Key} {mutex : Mutex}
    {rest : List (Instr Mutex Effect)} (next : s.threads k = .unlock mutex :: rest)
    (holds : s.owner mutex = some k) :
    Ordered guards ({ s with owner := Function.update s.owner mutex none }.goto k rest) := by
  obtain ⟨held, hHeld⟩ := h k
  have hNext := hHeld.disciplined
  rw [next] at hNext
  obtain ⟨-, hRest⟩ := hNext
  have hFollows : Follows guards
      ({ s with owner := Function.update s.owner mutex none }.goto k rest) k
      (held.erase mutex) := by
    refine ⟨hHeld.nodup.erase mutex, ?_, by simpa [State.goto] using hRest⟩
    intro other
    by_cases hSame : other = mutex
    · simp [State.goto, hSame, hHeld.nodup.not_mem_erase]
    · simp [State.goto, hSame, hHeld.owner_iff, List.mem_erase_of_ne hSame]
  refine h.of_thread hFollows ?_ ?_
  · intro other hOther
    rw [State.goto_of_ne _ hOther]
  · intro other hOther given
    by_cases hSame : given = mutex
    · simp [State.goto, hSame, holds, hOther.symm]
    · simp [State.goto, hSame]

/-- Unwinding gives back whatever the thread holds. -/
theorem Ordered.unwind (h : Ordered guards s) (k : Key) (shared : Shared) :
    Ordered guards ({ s with shared }.unwind k) := by
  have hFollows : Follows guards ({ s with shared }.unwind k) k [] := by
    refine ⟨List.nodup_nil, ?_, ?_⟩
    · intro mutex
      simp [State.unwind]
    · simp [State.unwind, Disciplined]
  refine h.of_thread hFollows ?_ ?_
  · intro other hOther
    rw [State.unwind_of_ne _ hOther]
  · intro other hOther mutex
    simp only [State.unwind]
    split
    · next hMine => simp [hMine, hOther.symm]
    · rfl

theorem Ordered.step {operations : Operations Key Mutex Effect Shared Start}
    (disciplined : ∀ s k operation program,
      operations.program s k operation = some program → Disciplined guards [] program)
    {next : State Key Mutex Effect Shared} {action : Action Key Effect Start}
    (h : Ordered guards s) (hStep : State.Step operations s action next) :
    Ordered guards next := by
  cases hStep with
  | @start k operation program idle begins =>
      obtain ⟨held, hHeld⟩ := h k
      have hDone := hHeld.disciplined
      rw [idle] at hDone
      obtain rfl : held = [] := hDone
      exact h.goto List.nodup_nil hHeld.owner_iff (disciplined s k operation program begins)
  | lock next free => exact h.lock next free
  | unlock next holds => exact h.unlock next holds
  | @act k effect rest shared instr performs =>
      obtain ⟨held, hHeld⟩ := h k
      have hNext := hHeld.disciplined
      rw [instr] at hNext
      exact h.goto hHeld.nodup hHeld.owner_iff hNext.2
  | throw next catches => exact h.unwind _ _

theorem Ordered.of_reaches {operations : Operations Key Mutex Effect Shared Start}
    {guard : State Key Mutex Effect Shared → Action Key Effect Start → Prop} {shared : Shared}
    (disciplined : ∀ s k operation program,
      operations.program s k operation = some program → Disciplined guards [] program)
    (run : Reaches (State.step operations) guard (State.initial shared) s) : Ordered guards s := by
  apply run.invariant (Ordered guards)
  · exact ordered_initial shared
  · intro s action next _ h _ hStep
    exact h.step disciplined (State.step_cases hStep)

end Run

/-- A thread that performs an effect holds the mutexes that guard it. -/
theorem Ordered.owner_of_act (h : Ordered guards s) {k : Key} {effect : Effect}
    {rest : List (Instr Mutex Effect)} (next : s.threads k = .act effect :: rest) {mutex : Mutex}
    (guarded : mutex ∈ guards effect) : s.owner mutex = some k := by
  obtain ⟨held, hHeld⟩ := h k
  have hNext := hHeld.disciplined
  rw [next] at hNext
  exact (hHeld.owner_iff mutex).mpr (hNext.1 mutex guarded)

/-- A thread that is going to give a mutex back, without taking it before, holds it. -/
theorem Ordered.owner_of_unlock (h : Ordered guards s) {k : Key} {mutex : Mutex}
    (unlocks : .unlock mutex ∈ s.threads k) (takes : .lock mutex ∉ s.threads k) :
    s.owner mutex = some k := by
  obtain ⟨held, hHeld⟩ := h k
  exact (hHeld.owner_iff mutex).mpr (hHeld.disciplined.mem_of_unlock unlocks takes)

/-- A thread that is not executing an operation holds nothing. -/
theorem Ordered.owner_of_idle (h : Ordered guards s) {k : Key} (idle : s.threads k = [])
    (mutex : Mutex) : s.owner mutex ≠ some k := by
  obtain ⟨held, hHeld⟩ := h k
  have hDone := hHeld.disciplined
  rw [idle] at hDone
  obtain rfl : held = [] := hDone
  simp [hHeld.owner_iff]

/-- The thread is about to take this mutex. -/
def Requests (s : State Key Mutex Effect Shared) (k : Key) (mutex : Mutex) : Prop :=
  ∃ rest, s.threads k = .lock mutex :: rest

/-- Whatever a thread holds comes before what it requests. -/
theorem Ordered.lt_of_requests (h : Ordered guards s) {k : Key} {mutex held : Mutex}
    (requests : Requests s k mutex) (holds : s.owner held = some k) : held < mutex := by
  obtain ⟨rest, next⟩ := requests
  obtain ⟨mine, hMine⟩ := h k
  have hNext := hMine.disciplined
  rw [next] at hNext
  exact hNext.1 held ((hMine.owner_iff held).mp holds)

/-- No thread requests a mutex that it already holds. -/
theorem Ordered.not_held_of_requests (h : Ordered guards s) {k : Key} {mutex : Mutex}
    (requests : Requests s k mutex) : s.owner mutex ≠ some k :=
  fun holds => lt_irrefl mutex (h.lt_of_requests requests holds)

/-- A set of threads each of which waits for a mutex that one of them holds. -/
def Deadlocked (s : State Key Mutex Effect Shared) (waiting : Set Key) : Prop :=
  waiting.Nonempty ∧
    ∀ k ∈ waiting, ∃ mutex, Requests s k mutex ∧ ∃ other ∈ waiting, s.owner mutex = some other

/-- Along a chain of waiting threads the requested mutexes increase, so it ends. -/
theorem Ordered.not_deadlocked [WellFoundedGT Mutex] (h : Ordered guards s) (waiting : Set Key) :
    ¬ Deadlocked s waiting := by
  rintro ⟨⟨first, hFirst⟩, hWaits⟩
  have hNone : ∀ mutex, ∀ k ∈ waiting, ¬ Requests s k mutex := by
    intro mutex
    induction mutex using WellFoundedGT.induction with
    | ind mutex ih =>
        rintro k hk ⟨rest, next⟩
        obtain ⟨requested, ⟨_, hNext⟩, holder, hHolder, hOwner⟩ := hWaits k hk
        obtain rfl : mutex = requested := by
          rw [next] at hNext
          injection hNext with hInstr
          injection hInstr
        obtain ⟨later, hLater, -⟩ := hWaits holder hHolder
        exact ih later (h.lt_of_requests hLater hOwner) holder hHolder hLater
  obtain ⟨mutex, hRequests, -⟩ := hWaits first hFirst
  exact hNone mutex first hFirst hRequests

end Locking
