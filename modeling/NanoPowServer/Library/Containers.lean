import Mathlib.Algebra.GroupWithZero.Nat
import Mathlib.Algebra.BigOperators.Group.List.Basic
import Mathlib.Data.List.DropRight
import Mathlib.Data.List.Perm.Subperm

/-! Standard containers as lists: a set ordered and searched by a comparator,
and a buffer of fixed capacity that drops its oldest element when full. -/

universe u v

namespace OrderedSet

variable {α : Type u} (before : α → α → Bool)

/-- Insert at the element's place in the order. Two elements neither of which
comes before the other have the same key, and then the set is left as it is. -/
def insert (a : α) : List α → List α
  | [] => [a]
  | b :: rest =>
      if before a b then a :: b :: rest
      else if before b a then b :: insert a rest
      else b :: rest

/-- Erase the element that has the key of `a`. -/
def erase (a : α) : List α → List α
  | [] => []
  | b :: rest => if before a b || before b a then b :: erase a rest else rest

variable {before}

/-- An element whose key is new is added. -/
theorem insert_perm {a : α} {set : List α}
    (hNew : ∀ b ∈ set, before a b = true ∨ before b a = true) :
    (insert before a set).Perm (a :: set) := by
  induction set with
  | nil => exact List.Perm.refl _
  | cons b rest ih =>
      by_cases hFirst : before a b = true
      · simp [insert, hFirst]
      · have hSecond : before b a = true := (hNew b List.mem_cons_self).resolve_left hFirst
        simp only [insert, hFirst, hSecond, if_true]
        have hRest := ih fun c hc => hNew c (List.mem_cons_of_mem b hc)
        exact (hRest.cons b).trans (List.Perm.swap a b rest)

/-- Where the keys are distinct, erasing by key takes out the element itself. -/
theorem erase_perm {a : α} {set : List α} (hMem : a ∈ set) (hSelf : before a a = false)
    (hDistinct : ∀ b ∈ set, b ≠ a → before a b = true ∨ before b a = true) :
    set.Perm (a :: erase before a set) := by
  induction set with
  | nil => simp at hMem
  | cons b rest ih =>
      by_cases hSame : b = a
      · subst hSame
        simp [erase, hSelf]
      · have hApart : (before a b || before b a) = true := by
          simpa using hDistinct b List.mem_cons_self hSame
        have hRest : a ∈ rest := by
          rcases List.mem_cons.mp hMem with h | h
          · exact absurd h.symm hSame
          · exact h
        simp only [erase, hApart, if_true]
        have hPerm := ih hRest fun c hc => hDistinct c (List.mem_cons_of_mem b hc)
        exact (hPerm.cons b).trans (List.Perm.swap a b _)

theorem mem_of_mem_insert {a b : α} {set : List α} (h : b ∈ insert before a set) :
    b = a ∨ b ∈ set := by
  induction set with
  | nil => exact .inl (List.mem_singleton.mp h)
  | cons c rest ih =>
      unfold insert at h
      split at h
      · exact List.mem_cons.mp h
      · split at h
        · rcases List.mem_cons.mp h with rfl | hRest
          · exact .inr List.mem_cons_self
          · exact (ih hRest).imp_right (List.mem_cons_of_mem c)
        · exact .inr h

theorem erase_sublist (a : α) (set : List α) : (erase before a set).Sublist set := by
  induction set with
  | nil => exact List.Sublist.refl _
  | cons b rest ih =>
      unfold erase
      split
      · exact ih.cons_cons b
      · exact List.sublist_cons_self b rest

theorem mem_of_mem_erase {a b : α} {set : List α} (h : b ∈ erase before a set) : b ∈ set :=
  (erase_sublist a set).subset h

/-- An element is inserted where it belongs. -/
theorem pairwise_insert {a : α} {set : List α}
    (hTrans : ∀ b c, before a b = true → before b c = true → before a c = true)
    (hSorted : set.Pairwise fun b c => before b c = true) :
    (insert before a set).Pairwise fun b c => before b c = true := by
  induction set with
  | nil => exact List.pairwise_singleton _ _
  | cons b rest ih =>
      obtain ⟨hFirst, hRest⟩ := List.pairwise_cons.mp hSorted
      unfold insert
      split
      · next hBefore =>
          refine List.pairwise_cons.mpr ⟨?_, hSorted⟩
          intro c hc
          rcases List.mem_cons.mp hc with rfl | hc
          · exact hBefore
          · exact hTrans b c hBefore (hFirst c hc)
      · split
        · next hAfter =>
            refine List.pairwise_cons.mpr ⟨?_, ih hRest⟩
            intro c hc
            rcases mem_of_mem_insert hc with rfl | hc
            · exact hAfter
            · exact hFirst c hc
        · exact hSorted

/-- What was erased from a sorted set is not in it any more. -/
theorem not_mem_erase {a : α} {set : List α} (hSelf : before a a = false)
    (hSorted : set.Pairwise fun b c => before b c = true) : a ∉ erase before a set := by
  induction set with
  | nil => exact List.not_mem_nil
  | cons b rest ih =>
      obtain ⟨hFirst, hRest⟩ := List.pairwise_cons.mp hSorted
      unfold erase
      split
      · next hApart =>
          intro hMem
          rcases List.mem_cons.mp hMem with rfl | hMem
          · simp [hSelf] at hApart
          · exact ih hRest hMem
      · next hSame =>
          intro hMem
          simp [hFirst a hMem] at hSame

end OrderedSet

namespace CircularBuffer

variable {α : Type u}

/-- Append an element, dropping the oldest ones beyond the capacity. -/
def pushBack (capacity : Nat) (buffer : List α) (a : α) : List α :=
  (buffer ++ [a]).rtake capacity

/-- A buffer that holds the newest elements of a history still does after a
push. -/
theorem pushBack_rtake (capacity : Nat) (history : List α) (a : α) :
    pushBack capacity (history.rtake capacity) a = (history ++ [a]).rtake capacity := by
  cases capacity with
  | zero => simp [pushBack]
  | succ capacity =>
      simp only [pushBack, List.rtake_concat_succ]
      congr 1
      simp only [List.rtake_eq_reverse_take_reverse, List.reverse_reverse, List.take_take]
      congr 2
      omega

end CircularBuffer

/-- Two disjoint ways of meeting a predicate are met by no more elements than
the predicate itself. -/
theorem List.countP_add_countP_le {α : Type u} {p q r : α → Bool} (list : List α)
    (hp : ∀ a ∈ list, p a = true → r a = true) (hq : ∀ a ∈ list, q a = true → r a = true)
    (hDisjoint : ∀ a ∈ list, p a = true → q a = false) :
    list.countP p + list.countP q ≤ list.countP r := by
  induction list with
  | nil => simp
  | cons a rest ih =>
      have hRest := ih (fun b hb => hp b (mem_cons_of_mem a hb))
        (fun b hb => hq b (mem_cons_of_mem a hb))
        (fun b hb => hDisjoint b (mem_cons_of_mem a hb))
      have hpa := hp a mem_cons_self
      have hqa := hq a mem_cons_self
      have hda := hDisjoint a mem_cons_self
      simp only [countP_cons]
      cases hP : p a <;> cases hQ : q a <;> simp_all <;> omega

/-- What replacing an element changes of a count. -/
theorem List.countP_set_add {α : Type u} (p : α → Bool) {list : List α} {i : Nat} {old : α}
    (found : list[i]? = some old) (a : α) :
    (list.set i a).countP p + (p old).toNat = list.countP p + (p a).toNat := by
  obtain ⟨hBound, hOld⟩ := getElem?_eq_some_iff.mp found
  rw [countP_set hBound, hOld]
  have hPos : p old = true → 0 < list.countP p := fun h =>
    countP_pos_iff.mpr ⟨old, mem_of_getElem? found, h⟩
  cases hp : p old <;> cases hq : p a <;> simp_all

/-- What replacing an element changes of a sum. -/
theorem List.sum_map_set_add {α : Type u} {list : List α} {i : Nat} {old : α}
    (found : list[i]? = some old) (a : α) (f : α → Nat) :
    ((list.set i a).map f).sum + f old = (list.map f).sum + f a := by
  induction list generalizing i with
  | nil => simp at found
  | cons b rest ih =>
      cases i with
      | zero =>
          obtain rfl : b = old := by simpa using found
          simp only [set_cons_zero, map_cons, sum_cons]
          omega
      | succ i =>
          have hRest := @ih i (by simpa using found)
          simp only [set_cons_succ, map_cons, sum_cons]
          omega

theorem List.filterMap_set_of_eq {α : Type u} {β : Type v} {f : α → Option β} {list : List α}
    {i : Nat} {old a : α} (found : list[i]? = some old) (hSame : f a = f old) :
    (list.set i a).filterMap f = list.filterMap f := by
  induction list generalizing i with
  | nil => simp at found
  | cons b rest ih =>
      cases i with
      | zero =>
          obtain rfl : b = old := by simpa using found
          simp [filterMap_cons, hSame]
      | succ i =>
          have hRest := @ih i (by simpa using found)
          simp [filterMap_cons, hRest]

/-- An element that is replaced by one of no value is erased from a selection. -/
theorem List.filterMap_set_of_none {α : Type u} {β : Type v} [DecidableEq β] {f : α → Option β}
    {list : List α} {i : Nat} {old a : α} {b : β} (found : list[i]? = some old)
    (hOld : f old = some b) (hNew : f a = none) (hNodup : (list.filterMap f).Nodup) :
    (list.set i a).filterMap f = (list.filterMap f).erase b := by
  induction list generalizing i with
  | nil => simp at found
  | cons c rest ih =>
      cases i with
      | zero =>
          obtain rfl : c = old := by simpa using found
          simp [hOld, hNew]
      | succ i =>
          have hFound : rest[i]? = some old := by simpa using found
          cases hHead : f c with
          | none =>
              rw [filterMap_cons_none hHead] at hNodup ⊢
              rw [set_cons_succ, filterMap_cons_none hHead, ih hFound hNodup]
          | some d =>
              rw [filterMap_cons_some hHead] at hNodup ⊢
              obtain ⟨hFresh, hRest⟩ := nodup_cons.mp hNodup
              have hMem : b ∈ rest.filterMap f :=
                mem_filterMap.mpr ⟨old, mem_of_getElem? hFound, hOld⟩
              have hApart : d ≠ b := by
                rintro rfl
                exact hFresh hMem
              rw [set_cons_succ, filterMap_cons_some hHead, ih hFound hRest,
                erase_cons_tail (by simpa using hApart)]

/-- Replacing an element on one side of a pairing. -/
theorem List.zip_set_right {α : Type u} {β : Type v} {left : List α} {right : List β} {i : Nat}
    {a : α} (found : left[i]? = some a) (b : β) :
    left.zip (right.set i b) = (left.zip right).set i (a, b) := by
  induction left generalizing right i with
  | nil => simp at found
  | cons c rest ih =>
      cases right with
      | nil => simp
      | cons d others =>
          cases i with
          | zero =>
              obtain rfl : c = a := by simpa using found
              rfl
          | succ i => simpa using @ih others i (by simpa using found)

/-- An element of a list that has grown by one. -/
theorem List.getElem?_append_singleton_eq_some {α : Type u} {list : List α} {a b : α} {i : Nat}
    (h : (list ++ [a])[i]? = some b) : list[i]? = some b ∨ i = list.length ∧ a = b := by
  rcases Nat.lt_trichotomy i list.length with hLess | rfl | hMore
  · exact .inl (by rwa [getElem?_append_left hLess] at h)
  · exact .inr ⟨rfl, by simpa using h⟩
  · obtain ⟨hBound, -⟩ := getElem?_eq_some_iff.mp h
    rw [length_append, length_singleton] at hBound
    omega

/-- An element of a list of which one element was modified. -/
theorem List.getElem?_modify_eq_some {α : Type u} {list : List α} {f : α → α} {i j : Nat} {b : α}
    (h : (list.modify i f)[j]? = some b) :
    ∃ a, list[j]? = some a ∧ b = if i = j then f a else a := by
  rw [getElem?_modify] at h
  obtain ⟨a, hFound, rfl⟩ := Option.map_eq_some_iff.mp h
  exact ⟨a, hFound, by split <;> rfl⟩

/-- A predicate that splits in two is counted by its parts. -/
theorem List.countP_add_countP {α : Type u} {p q r : α → Bool} (list : List α)
    (hSplit : ∀ a ∈ list, (p a).toNat + (q a).toNat = (r a).toNat) :
    list.countP p + list.countP q = list.countP r := by
  induction list with
  | nil => rfl
  | cons a rest ih =>
      have hRest := ih fun b hb => hSplit b (mem_cons_of_mem a hb)
      have hHead := hSplit a mem_cons_self
      simp only [countP_cons]
      cases hP : p a <;> cases hQ : q a <;> cases hR : r a <;> simp_all <;> omega

/-- A predicate met at most once is met at one place only. -/
theorem List.index_unique_of_countP_le_one {α : Type u} {p : α → Bool} {list : List α}
    (hCount : list.countP p ≤ 1) {i j : Nat} {a b : α} (hi : list[i]? = some a)
    (hj : list[j]? = some b) (ha : p a = true) (hb : p b = true) : i = j := by
  induction list generalizing i j with
  | nil => simp at hi
  | cons head rest ih =>
      have hNone : ∀ {k : Nat} {c : α}, rest[k]? = some c → p c = true → 0 < rest.countP p :=
        fun hk hc => countP_pos_iff.mpr ⟨_, mem_of_getElem? hk, hc⟩
      rw [countP_cons] at hCount
      cases i with
      | zero =>
          cases j with
          | zero => rfl
          | succ j =>
              obtain rfl : head = a := by simpa using hi
              have := hNone (by simpa using hj) hb
              simp only [ha, if_true] at hCount
              omega
      | succ i =>
          cases j with
          | zero =>
              obtain rfl : head = b := by simpa using hj
              have := hNone (by simpa using hi) ha
              simp only [hb, if_true] at hCount
              omega
          | succ j =>
              have hRest : rest.countP p ≤ 1 := by omega
              exact congrArg (· + 1) (ih hRest (by simpa using hi) (by simpa using hj))

/-- Counting over the positions of a list counts over its elements. -/
theorem List.countP_range_getElem? {α : Type u} (p : α → Bool) (list : List α) :
    ((List.range list.length).countP fun i => (list[i]?).any p) = list.countP p := by
  induction list using List.reverseRecOn with
  | nil => rfl
  | append_singleton list a ih =>
      have hPrefix : ((List.range list.length).countP fun i => ((list ++ [a])[i]?).any p) =
          (List.range list.length).countP fun i => (list[i]?).any p := by
        apply List.countP_congr
        intro i hi
        rw [List.getElem?_append_left (List.mem_range.mp hi)]
      rw [length_append, length_singleton, range_succ, countP_append, countP_append, hPrefix, ih]
      congr 1
      cases hp : p a <;> simp [hp]

/-- Different positions at which a predicate is met are no more than the
elements that meet it. -/
theorem List.length_le_countP {α : Type u} {p : α → Bool} {list : List α} {positions : List Nat}
    (hNodup : positions.Nodup) (hMeets : ∀ i ∈ positions, ∃ a, list[i]? = some a ∧ p a = true) :
    positions.length ≤ list.countP p := by
  rw [← countP_range_getElem?, countP_eq_length_filter]
  apply Subperm.length_le
  apply subperm_of_subset hNodup
  intro i hi
  obtain ⟨a, ha, hp⟩ := hMeets i hi
  obtain ⟨hBound, -⟩ := getElem?_eq_some_iff.mp ha
  simp only [mem_filter, mem_range]
  exact ⟨hBound, by simp [ha, hp]⟩

/-- A loop that acts on the first element with a property and ends there. -/
theorem List.forIn_find? {m : Type v → Type v} [Monad m] [LawfulMonad m] {α : Type u} {β : Type v}
    {p : α → Bool} {act : α → m β} {initial : β} {body : α → β → m (ForInStep β)} (list : List α)
    (hBody : ∀ a, body a initial =
      if p a = true then (do return .done (← act a)) else pure (.yield initial)) :
    forIn list initial body =
      match list.find? p with
      | some a => act a
      | none => pure initial := by
  induction list with
  | nil => rfl
  | cons a rest ih =>
      rw [List.forIn_cons, hBody, List.find?_cons]
      cases hFound : p a with
      | true => simp
      | false => simpa using ih

/-- The position of the first element is found together with the element. -/
theorem List.find?_zipIdx_eq_some {α : Type u} (p : α → Bool) {list : List α} {a : α} {i : Nat}
    (h : list.zipIdx.find? (fun entry => p entry.1) = some (a, i)) :
    list.findIdx? p = some i ∧ list[i]? = some a := by
  constructor
  · rw [findIdx?_eq_fst_find?_zipIdx, h]
    rfl
  · exact mk_mem_zipIdx_iff_getElem?.mp (mem_of_find?_eq_some h)

theorem List.find?_zipIdx_eq_none {α : Type u} (p : α → Bool) {list : List α} :
    list.zipIdx.find? (fun entry => p entry.1) = none ↔ list.findIdx? p = none := by
  rw [findIdx?_eq_fst_find?_zipIdx, Option.map_eq_none_iff]

/-- Two predicates are first met at the same position exactly if the first element that
meets one of them meets both. -/
theorem List.findIdx?_eq_findIdx?_iff {α : Type u} {p q : α → Bool} {list : List α} :
    list.findIdx? p = list.findIdx? q ↔
      ∀ a, list.find? (fun a => p a || q a) = some a → p a = true ∧ q a = true := by
  induction list with
  | nil => simp
  | cons a rest ih =>
      rw [findIdx?_cons, findIdx?_cons, find?_cons]
      have hSucc : Function.Injective (Option.map fun i : Nat => i + 1) :=
        Option.map_injective (add_left_injective 1)
      cases hp : p a <;> cases hq : q a
      · simpa [hSucc.eq_iff] using ih
      · cases rest.findIdx? p <;> simp [hp]
      · cases rest.findIdx? q <;> simp [hq]
      · simp [hp, hq]

/-- Two lists whose entries correspond are searched alike. -/
theorem List.findIdx?_of_forall₂ {α : Type u} {β : Type v} {R : α → β → Prop} {p : α → Bool}
    {q : β → Bool} {xs : List α} {ys : List β} (h : List.Forall₂ R xs ys)
    (hSame : ∀ x ∈ xs, ∀ y, R x y → p x = q y) : xs.findIdx? p = ys.findIdx? q := by
  induction h with
  | nil => rfl
  | cons hFirst hRest ih =>
      obtain ⟨hHead, hTail⟩ := List.forall_mem_cons.mp hSame
      rw [findIdx?_cons, findIdx?_cons, hHead _ hFirst, ih hTail]
