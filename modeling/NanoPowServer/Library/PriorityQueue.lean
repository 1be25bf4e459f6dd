import Mathlib.Data.List.Sort
import Mathlib.Data.Multiset.Filter
import Mathlib.Data.Multiset.MapFold

/-! Priority queues over an arbitrary ordering predicate. The class states what
the standard container promises and leaves open how it stores its elements and
which of two equivalent elements comes out first. -/

universe u v

/-- A strict weak ordering, as the standard library requires of a comparator.
`lower a b` says that `a` has lower priority than `b`. -/
class StrictWeakOrder {α : Type v} (lower : α → α → Bool) : Prop where
  asymm : ∀ a b, lower a b = true → lower b a = false
  negTrans : ∀ a b c, lower a b = false → lower b c = false → lower a c = false

/-- A container from which the element of highest priority is taken first.
`items` is the multiset of its elements. -/
class PriorityQueue (Queue : Type u) (α : outParam (Type v))
    (lower : outParam (α → α → Bool)) where
  empty : Queue
  push : Queue → α → Queue
  top : Queue → Option α
  pop : Queue → Queue
  size : Queue → Nat
  items : Queue → Multiset α
  items_empty : items empty = 0
  items_push : ∀ queue a, items (push queue a) = a ::ₘ items queue
  size_eq : ∀ queue, size queue = (items queue).card
  items_of_top_none : ∀ queue, top queue = none → items queue = 0
  cons_items_pop : ∀ queue a, top queue = some a → a ::ₘ items (pop queue) = items queue
  top_maximal : ∀ queue a, top queue = some a → ∀ b ∈ items queue, lower a b = false

namespace PriorityQueue

variable {Queue : Type u} {α : Type v} {lower : α → α → Bool} [PriorityQueue Queue α lower]

attribute [simp] items_empty items_push

theorem top_mem {queue : Queue} {a : α} (h : top queue = some a) : a ∈ items queue := by
  rw [← cons_items_pop queue a h]
  exact Multiset.mem_cons_self a _

@[simp] theorem top_eq_none_iff (queue : Queue) : top queue = none ↔ items queue = 0 := by
  constructor
  · exact items_of_top_none queue
  · intro hItems
    cases hTop : top queue with
    | none => rfl
    | some a =>
        have hMem := top_mem hTop
        simp [hItems] at hMem

theorem items_pop [DecidableEq α] {queue : Queue} {a : α} (h : top queue = some a) :
    items (pop queue) = (items queue).erase a := by
  rw [← cons_items_pop queue a h, Multiset.erase_cons_head]

theorem size_push (queue : Queue) (a : α) : size (push queue a) = size queue + 1 := by
  simp [size_eq, items_push]

theorem size_pop {queue : Queue} {a : α} (h : top queue = some a) :
    size queue = size (pop queue) + 1 := by
  rw [size_eq, size_eq, ← cons_items_pop queue a h, Multiset.card_cons]

theorem top_of_size_zero {queue : Queue} (h : size queue = 0) : top queue = none := by
  rw [size_eq, Multiset.card_eq_zero] at h
  exact (top_eq_none_iff queue).mpr h

/-- An element above every other one is the one that comes out. -/
theorem top_eq_of_highest {queue : Queue} {a : α} (hMem : a ∈ items queue)
    (hHighest : ∀ b ∈ items queue, b ≠ a → lower b a = true) : top queue = some a := by
  cases hTop : top queue with
  | none =>
      rw [items_of_top_none queue hTop] at hMem
      simp at hMem
  | some b =>
      by_cases hSame : b = a
      · rw [hSame]
      · have hAbove := hHighest b (top_mem hTop) hSame
        simp [top_maximal queue b hTop a hMem] at hAbove

/-- The elements that at most `fuel` pops return. -/
def drainWithin : Nat → Queue → List α
  | 0, _ => []
  | fuel + 1, queue =>
      match top queue with
      | none => []
      | some a => a :: drainWithin fuel (pop queue)

/-- The elements that pops return until the queue is empty. -/
def drain (queue : Queue) : List α := drainWithin (size queue) queue

theorem drain_of_top_none {queue : Queue} (h : top queue = none) : drain queue = [] := by
  unfold drain
  cases size queue with
  | zero => rfl
  | succ fuel => simp [drainWithin, h]

theorem drain_of_top {queue : Queue} {a : α} (h : top queue = some a) :
    drain queue = a :: drain (pop queue) := by
  unfold drain
  rw [size_pop h]
  simp [drainWithin, h]

/-- Induction along the pops of a queue. -/
theorem drain_induction {P : Queue → Prop} (empty : ∀ queue, top queue = none → P queue)
    (pops : ∀ queue a, top queue = some a → P (pop queue) → P queue) (queue : Queue) :
    P queue := by
  induction hSize : size queue generalizing queue with
  | zero => exact empty queue (top_of_size_zero hSize)
  | succ fuel ih =>
      cases hTop : top queue with
      | none => exact empty queue hTop
      | some a => exact pops queue a hTop (ih (pop queue) (by have := size_pop hTop; omega))

/-- Draining returns every element once. -/
theorem coe_drain (queue : Queue) : (drain queue : Multiset α) = items queue := by
  induction queue using drain_induction with
  | empty queue hTop => simp [drain_of_top_none hTop, items_of_top_none queue hTop]
  | pops queue a hTop ih =>
      rw [drain_of_top hTop, ← Multiset.cons_coe, ih, cons_items_pop queue a hTop]

@[simp] theorem mem_drain {queue : Queue} {a : α} : a ∈ drain queue ↔ a ∈ items queue := by
  rw [← coe_drain, Multiset.mem_coe]

/-- No element is returned before one of higher priority. -/
theorem drain_pairwise (queue : Queue) :
    (drain queue).Pairwise fun a b => lower a b = false := by
  induction queue using drain_induction with
  | empty queue hTop => simp [drain_of_top_none hTop]
  | pops queue a hTop ih =>
      rw [drain_of_top hTop, List.pairwise_cons]
      refine ⟨fun b hb => ?_, ih⟩
      have hMem : b ∈ items (pop queue) := mem_drain.mp hb
      apply top_maximal queue a hTop b
      rw [← cons_items_pop queue a hTop]
      exact Multiset.mem_cons_of_mem hMem

/-- Of two elements the higher one is returned first. -/
theorem pair_sublist_drain [StrictWeakOrder lower] {queue : Queue} {a b : α}
    (ha : a ∈ items queue) (hb : b ∈ items queue) (h : lower a b = true) :
    [b, a].Sublist (drain queue) := by
  obtain ⟨front, back, hDrain⟩ := List.append_of_mem (mem_drain.mpr hb)
  have hPairwise := drain_pairwise queue
  have hMem : a ∈ front ++ b :: back := hDrain ▸ mem_drain.mpr ha
  rw [hDrain] at hPairwise ⊢
  rcases List.mem_append.mp hMem with hFront | hBack
  · have hAbove := (List.pairwise_append.mp hPairwise).2.2 a hFront b List.mem_cons_self
    simp [hAbove] at h
  · rcases List.mem_cons.mp hBack with rfl | hBack
    · simp [StrictWeakOrder.asymm a a h] at h
    · have hBoth : [b, a].Sublist (b :: back) := (List.singleton_sublist.mpr hBack).cons_cons b
      exact hBoth.trans (List.sublist_append_right front _)

theorem top_ne_of_lower {queue : Queue} {a b : α} (hb : b ∈ items queue) (h : lower a b = true) :
    top queue ≠ some a := by
  intro hTop
  simp [top_maximal queue a hTop b hb] at h

theorem not_pair_sublist_drain {queue : Queue} {a b : α} (h : lower a b = true) :
    ¬ [a, b].Sublist (drain queue) := by
  intro hSublist
  have hPair := (drain_pairwise queue).sublist hSublist
  simp [h] at hPair

/-- Where no two distinct elements are equivalent, the order in which a queue
is drained is determined by its elements. -/
theorem drain_unique {queue : Queue} {order : List α} (hItems : (order : Multiset α) = items queue)
    (hOrder : order.Pairwise fun a b => lower a b = false)
    (hTotal : ∀ a ∈ order, ∀ b ∈ order, a ≠ b → lower a b = true ∨ lower b a = true) :
    drain queue = order := by
  have hPerm : List.Perm (drain queue) order := by
    rw [← Multiset.coe_eq_coe, coe_drain, hItems]
  refine hPerm.eq_of_pairwise ?_ (drain_pairwise queue) hOrder
  intro a b ha hb hab hba
  by_contra hne
  rcases hTotal a (hPerm.mem_iff.mp ha) b hb hne with h | h
  · simp [hab] at h
  · simp [hba] at h

/-- A queue that keeps some of the elements of another one is drained in the same
order. -/
theorem drain_filter {queue rest : Queue} {p : α → Prop} [DecidablePred p]
    (hItems : items rest = (items queue).filter p)
    (hTotal : ∀ a ∈ items queue, ∀ b ∈ items queue, a ≠ b →
      lower a b = true ∨ lower b a = true) :
    drain rest = (drain queue).filter p := by
  apply drain_unique
  · rw [← Multiset.filter_coe, coe_drain, hItems]
  · exact (drain_pairwise queue).filter _
  · intro a ha b hb
    exact hTotal a (mem_drain.mp (List.mem_of_mem_filter ha)) b
      (mem_drain.mp (List.mem_of_mem_filter hb))

end PriorityQueue

/-- A priority queue kept as a list in the order in which it is drained. -/
structure SortedQueue {α : Type v} (lower : α → α → Bool) where
  toList : List α
  sorted : toList.Pairwise fun a b => lower a b = false

namespace SortedQueue

variable {α : Type v} {lower : α → α → Bool}

/-- `a` may be drained before `b`. -/
private def precedes (lower : α → α → Bool) (a b : α) : Prop := lower a b = false

private instance (a b : α) : Decidable (precedes lower a b) :=
  inferInstanceAs (Decidable (lower a b = false))

section

variable [StrictWeakOrder lower]

private instance precedes_total : Std.Total (precedes lower) where
  total a b := by
    cases h : lower a b with
    | false => exact .inl h
    | true => exact .inr (StrictWeakOrder.asymm a b h)

private instance precedes_trans : IsTrans α (precedes lower) where
  trans := StrictWeakOrder.negTrans

/-- Put an element in front of the first one that it may precede. -/
def insert (queue : SortedQueue lower) (a : α) : SortedQueue lower where
  toList := queue.toList.orderedInsert (precedes lower) a
  sorted := by
    have hSorted : queue.toList.Pairwise (precedes lower) := queue.sorted
    exact hSorted.orderedInsert a

instance : PriorityQueue (SortedQueue lower) α lower where
  empty := ⟨[], .nil⟩
  push := insert
  top queue := queue.toList.head?
  pop queue := ⟨queue.toList.tail, queue.sorted.tail⟩
  size queue := queue.toList.length
  items queue := queue.toList
  items_empty := rfl
  items_push queue a := by
    rw [Multiset.cons_coe, Multiset.coe_eq_coe]
    exact List.perm_orderedInsert _ a queue.toList
  size_eq _ := rfl
  items_of_top_none queue h := by simpa using h
  cons_items_pop queue a h := by
    obtain ⟨rest, hList⟩ := List.head?_eq_some_iff.mp h
    simp [hList]
  top_maximal queue a h b hb := by
    obtain ⟨rest, hList⟩ := List.head?_eq_some_iff.mp h
    have hSorted := queue.sorted
    rw [hList, List.pairwise_cons] at hSorted
    rw [Multiset.mem_coe, hList, List.mem_cons] at hb
    rcases hb with rfl | hRest
    · cases hSelf : lower b b with
      | false => rfl
      | true => simpa [hSelf] using StrictWeakOrder.asymm b b hSelf
    · exact hSorted.1 b hRest

end

end SortedQueue
