import Mathlib.Algebra.Group.Nat.Defs
import Mathlib.Data.List.Basic

/-! The threads that run the I/O context. The constructor reserves their vector, and
`start` takes the number of threads to spawn from its capacity, both in unsigned
arithmetic. -/
namespace NanoPowServer.WebServer

/-- A `std::vector` with the capacity of its storage. -/
structure StdVector (α : Type) where
  items : List α := []
  capacity : UInt64 := 0

namespace StdVector

variable {α : Type}

def reserve (vector : StdVector α) (count : UInt64) : StdVector α :=
  if vector.capacity < count then { vector with capacity := count } else vector

@[simp] theorem items_reserve (vector : StdVector α) (count : UInt64) :
    (vector.reserve count).items = vector.items := by
  unfold reserve
  split <;> rfl

theorem capacity_reserve_empty (count : UInt64) :
    (reserve ({} : StdVector α) count).capacity = count := by
  unfold reserve
  split
  · rfl
  · next hZero =>
      apply UInt64.toNat_inj.mp
      rw [UInt64.lt_iff_toNat_lt] at hZero
      exact (Nat.eq_zero_of_not_pos hZero).symm

/-- Where the capacity is used up, the storage grows by a rule that the standard
leaves open. -/
def emplaceBack (grow : UInt64 → UInt64) (vector : StdVector α) (item : α) : StdVector α :=
  { items := vector.items ++ [item]
    capacity :=
      if vector.items.length < vector.capacity.toNat then vector.capacity
      else grow vector.capacity }

end StdVector

/-- The threads are numbered in the order in which they are spawned; each of them
executes `ioc.run ()`. `wrapped` records whether a subtraction has wrapped around. -/
structure Webserver where
  threads : StdVector Nat
  wrapped : Bool

namespace Webserver

/-- The constructor. -/
def construct (threadCount : UInt32) : Webserver where
  threads := StdVector.reserve {} (threadCount - 1).toUInt64
  wrapped := threadCount < 1

/-- The loop of `start`, with as many iterations as its counter says: the counter
is only decremented while it is positive. -/
def spawnLoop (grow : UInt64 → UInt64) : Nat → StdVector Nat → StdVector Nat
  | 0, threads => threads
  | i + 1, threads => spawnLoop grow i (threads.emplaceBack grow threads.items.length)

def start (grow : UInt64 → UInt64) (ws : Webserver) : Webserver where
  threads := spawnLoop grow (ws.threads.capacity - 1).toNat ws.threads
  wrapped := ws.wrapped || ws.threads.capacity < 1

/-- The spawned threads and the one that has called `start`. -/
def runners (ws : Webserver) : Nat := ws.threads.items.length + 1

/-- The I/O context is run by exactly this many threads. -/
def RunsOn (ws : Webserver) (threadCount : UInt32) : Prop :=
  ws.threads.items.length = threadCount.toNat - 1 ∧ ws.runners = threadCount.toNat ∧
    ws.wrapped = false

variable (grow : UInt64 → UInt64)

theorem length_spawnLoop (i : Nat) (threads : StdVector Nat) :
    (spawnLoop grow i threads).items.length = threads.items.length + i := by
  induction i generalizing threads with
  | zero => rfl
  | succ i ih =>
      rw [spawnLoop, ih, StdVector.emplaceBack, List.length_append, List.length_singleton]
      omega

theorem capacity_construct {threadCount : UInt32} (h : 1 ≤ threadCount) :
    (construct threadCount).threads.capacity.toNat = threadCount.toNat - 1 := by
  rw [construct, StdVector.capacity_reserve_empty, UInt32.toNat_toUInt64,
    UInt32.toNat_sub_of_le _ _ h]
  rfl

/-- The capacity counts the calling thread out, and the loop counts it out once
more: there is one thread less than asked for. A server with one thread takes its
loop bound from zero, wraps around and would spawn threads almost without end. -/
theorem spawned_start {threadCount : UInt32} (h : 1 ≤ threadCount) :
    ((construct threadCount).start grow).threads.items.length =
        (if threadCount = 1 then 2 ^ 64 - 1 else threadCount.toNat - 2) ∧
      (((construct threadCount).start grow).wrapped = true ↔ threadCount = 1) := by
  have hCapacity := capacity_construct h
  have hLength : ((construct threadCount).start grow).threads.items.length =
      ((construct threadCount).threads.capacity - 1).toNat := by
    simp [start, length_spawnLoop, construct]
  have hCount : 1 ≤ threadCount.toNat := UInt32.le_iff_toNat_le.mp h
  rw [hLength]
  by_cases hOne : threadCount = 1
  · subst hOne
    have hZero : (construct 1).threads.capacity = 0 := UInt64.toNat_inj.mp hCapacity
    rw [hZero]
    exact ⟨rfl, by simp [start, hZero]⟩
  · have hMore : 2 ≤ threadCount.toNat := by
      have hne : threadCount.toNat ≠ 1 := fun hSame => hOne (UInt32.toNat_inj.mp hSame)
      omega
    have hSome : (1 : UInt64) ≤ (construct threadCount).threads.capacity := by
      rw [UInt64.le_iff_toNat_le, hCapacity]
      exact Nat.le_sub_one_of_lt hMore
    rw [if_neg hOne, UInt64.toNat_sub_of_le _ _ hSome, hCapacity]
    refine ⟨rfl, ?_⟩
    have hConstructed : ¬ threadCount < 1 := UInt32.not_lt.mpr h
    have hStarted : ¬ (construct threadCount).threads.capacity < 1 := UInt64.not_lt.mpr hSome
    have hQuiet : (construct threadCount).wrapped = false := decide_eq_false hConstructed
    simp [start, hQuiet, hStarted, hOne]

/-- Whatever number of threads is configured, the server does not run on it. -/
theorem not_runsOn {threadCount : UInt32} (h : 1 ≤ threadCount) :
    ¬ ((construct threadCount).start grow).RunsOn threadCount := by
  intro hRuns
  obtain ⟨hSpawned, hWrapped⟩ := spawned_start grow h
  obtain ⟨hLength, -, hQuiet⟩ := hRuns
  rw [hLength] at hSpawned
  have hCount : 1 ≤ threadCount.toNat := UInt32.le_iff_toNat_le.mp h
  by_cases hOne : threadCount = 1
  · rw [hWrapped.mpr hOne] at hQuiet
    cases hQuiet
  · rw [if_neg hOne] at hSpawned
    have hne : threadCount.toNat ≠ 1 := fun hSame => hOne (UInt32.toNat_inj.mp hSame)
    omega

theorem not_runsOn_four : ¬ ((construct 4).start (2 * ·)).RunsOn 4 :=
  not_runsOn (2 * ·) (by decide)

/-- Four threads are configured, and three run. -/
theorem runners_four :
    ¬ ∀ threadCount : UInt32, 1 ≤ threadCount →
      ((construct threadCount).start (2 * ·)).RunsOn threadCount := by
  intro hAll
  have hThree : ((construct 4).start (2 * ·)).runners = 3 := by decide
  have hFour := (hAll 4 (by decide)).2.1
  rw [hThree] at hFour
  exact absurd hFour (by decide)

end Webserver

end NanoPowServer.WebServer
