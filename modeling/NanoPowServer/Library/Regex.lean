import Mathlib.Data.List.Basic
import Mathlib.Logic.Function.Basic

/-! Regular expressions with captures, as the ECMAScript standard defines them: a
matcher tries its alternatives in order and backtracks. `run` lists the states that it
can succeed in, the preferred one first. Greedy matchers only. -/

universe u

/-- A regular expression over characters of any type. The groups are numbered, and a
backreference names a group. `repeated` is the quantifier with its bounds. -/
inductive Regex (α : Type u) where
  | empty
  | set (p : α → Bool)
  | concat (first second : Regex α)
  | either (left right : Regex α)
  | group (index : Nat) (body : Regex α)
  | repeated (least : Nat) (most : Option Nat) (body : Regex α)
  | start
  | finish
  | boundary (word : α → Bool) (inside : Bool)
  | backreference (index : Nat)

namespace Regex

variable {α : Type u}

/-- Where a matcher stands in the text, and what the groups have captured. The part of
the text that is behind is kept in reverse. -/
structure State (α : Type u) where
  before : List α
  rest : List α
  captures : Nat → Option (List α)

namespace State

def initial (text : List α) : State α := ⟨[], text, fun _ => none⟩

def advance (x : State α) (count : Nat) : State α :=
  { x with before := (x.rest.take count).reverse ++ x.before, rest := x.rest.drop count }

/-- Forget what these groups have captured. -/
def clear (x : State α) (indices : List Nat) : State α :=
  { x with captures := fun i => if i ∈ indices then none else x.captures i }

/-- The group has captured what lies between two states. -/
def capture (x y : State α) (index : Nat) : State α :=
  { y with
    captures := Function.update y.captures index
      (some (x.rest.take (x.rest.length - y.rest.length))) }

/-- The character at this position is a word character, or else there is none. -/
def atWord (word : α → Bool) (side : List α) : Bool := side.head?.any word

theorem advance_zero (x : State α) : x.advance 0 = x := rfl

theorem advance_advance (x : State α) (m n : Nat) :
    (x.advance m).advance n = x.advance (m + n) := by
  simp [advance, List.take_add]

theorem clear_nil (x : State α) : x.clear [] = x := by
  simp [clear]

section

variable (f : α → α) (x y : State α)

def map : State α where
  before := x.before.map f
  rest := x.rest.map f
  captures i := (x.captures i).map (List.map f)

@[simp] theorem map_rest : (x.map f).rest = x.rest.map f := rfl

@[simp] theorem map_before : (x.map f).before = x.before.map f := rfl

theorem map_advance (count : Nat) : (x.advance count).map f = (x.map f).advance count := by
  simp [map, advance, List.map_take, List.map_drop]

theorem map_clear (indices : List Nat) : (x.clear indices).map f = (x.map f).clear indices := by
  simp only [map, clear]
  congr 1
  funext i
  split <;> rfl

theorem map_capture (index : Nat) :
    (x.capture y index).map f = (x.map f).capture (y.map f) index := by
  simp only [map, capture, State.mk.injEq, true_and]
  funext i
  by_cases hSame : i = index
  · subst hSame
    simp [List.map_take]
  · simp [hSame]

theorem atWord_map {f : α → α} {word : α → Bool} (h : ∀ a, word (f a) = word a) (side : List α) :
    atWord word (side.map f) = atWord word side := by
  cases side <;> simp [atWord, h]

end

end State

/-- Further iterations of a quantifier whose lower bound is met. One that matches the
empty text is not taken, so there are no more of them than characters. -/
def optional (body : State α → List (State α)) : Nat → Option Nat → State α → List (State α)
  | 0, _, x => [x]
  | fuel + 1, most, x =>
      if most = some 0 then [x]
      else
        ((body x).filter fun y => y.rest.length < x.rest.length).flatMap
          (optional body fuel (most.map (· - 1))) ++ [x]

/-- The iterations that the lower bound asks for, then the optional ones. -/
def required (body : State α → List (State α)) : Nat → Option Nat → State α → List (State α)
  | 0, most, x => optional body x.rest.length most x
  | least + 1, most, x =>
      if most = some 0 then [x]
      else (body x).flatMap (required body least (most.map (· - 1)))

/-- The groups inside an expression. -/
def groups : Regex α → List Nat
  | .concat first second | .either first second => groups first ++ groups second
  | .group index body => index :: groups body
  | .repeated _ _ body => groups body
  | _ => []

variable [DecidableEq α]

def run : Regex α → State α → List (State α)
  | .empty, x => [x]
  | .set p, x =>
      match x.rest with
      | [] => []
      | a :: _ => if p a then [x.advance 1] else []
  | .concat first second, x => (run first x).flatMap (run second)
  | .either left right, x => run left x ++ run right x
  | .group index body, x => (run body x).map fun y => x.capture y index
  | .repeated least most body, x => required (fun y => run body (y.clear body.groups)) least most x
  | .start, x => if x.before = [] then [x] else []
  | .finish, x => if x.rest = [] then [x] else []
  | .boundary word inside, x =>
      if (State.atWord word x.before != State.atWord word x.rest) = !inside then [x] else []
  | .backreference index, x =>
      match x.captures index with
      | none => [x]
      | some text => if text <+: x.rest then [x.advance text.length] else []

/-- The expression matches the whole text. -/
def fullMatch (regex : Regex α) (text : List α) : Bool :=
  (run regex (.initial text)).any fun y => y.rest.isEmpty

/-- The first match at the first position where there is one. -/
def searchFrom (regex : Regex α) (before : List α) : List α → Option (State α)
  | [] => (run regex ⟨before, [], fun _ => none⟩).head?
  | a :: rest =>
      (run regex ⟨before, a :: rest, fun _ => none⟩).head?.or (searchFrom regex (a :: before) rest)

def search (regex : Regex α) (text : List α) : Option (State α) := searchFrom regex [] text

theorem search_eq_head {regex : Regex α} {text : List α} {y : State α} {others : List (State α)}
    (h : run regex (.initial text) = y :: others) : search regex text = some y := by
  unfold search
  cases text with
  | nil =>
      change (run regex (.initial [])).head? = some y
      rw [h, List.head?_cons]
  | cons a rest =>
      change (run regex (.initial (a :: rest))).head?.or _ = some y
      rw [h, List.head?_cons, Option.some_or]

/-- Match one expression after the other. -/
def concatAll : List (Regex α) → Regex α
  | [] => .empty
  | first :: rest => .concat first (concatAll rest)

theorem mem_run_concat {first second : Regex α} {x z : State α} :
    z ∈ run (.concat first second) x ↔ ∃ y ∈ run first x, z ∈ run second y := by
  rw [run, List.mem_flatMap]

theorem mem_run_group {index : Nat} {body : Regex α} {x z : State α} :
    z ∈ run (.group index body) x ↔ ∃ y ∈ run body x, z = x.capture y index := by
  simp [run, eq_comm]

theorem mem_run_set {p : α → Bool} {x y : State α} :
    y ∈ run (.set p) x ↔ ∃ a rest, x.rest = a :: rest ∧ p a = true ∧ y = x.advance 1 := by
  unfold run
  cases hRest : x.rest with
  | nil => simp
  | cons a rest => cases hSet : p a <;> simp [hSet]

/-- The next `count` characters of the text are there and are in the set. -/
def AllNext (p : α → Bool) (x : State α) (count : Nat) : Prop :=
  count ≤ x.rest.length ∧ ∀ a ∈ x.rest.take count, p a = true

omit [DecidableEq α] in
theorem allNext_succ_iff {p : α → Bool} {x : State α} {count : Nat} :
    AllNext p x (count + 1) ↔
      (∃ a rest, x.rest = a :: rest ∧ p a = true) ∧ AllNext p (x.advance 1) count := by
  cases hRest : x.rest with
  | nil => simp [AllNext, hRest]
  | cons a rest => simp [AllNext, State.advance, hRest, and_left_comm]

theorem mem_optional_set {p : α → Bool} {fuel : Nat} {x y : State α} :
    y ∈ optional (run (.set p)) fuel none x ↔
      ∃ count ≤ fuel, AllNext p x count ∧ y = x.advance count := by
  induction fuel generalizing x with
  | zero => simp [optional, AllNext, State.advance_zero]
  | succ fuel ih =>
      have hStep : y ∈ optional (run (.set p)) (fuel + 1) none x ↔
          (∃ z ∈ run (.set p) x, z.rest.length < x.rest.length ∧
            y ∈ optional (run (.set p)) fuel none z) ∨ y = x := by
        simp [optional, and_assoc]
      rw [hStep]
      constructor
      · rintro (⟨z, hSet, -, hRest⟩ | rfl)
        · obtain ⟨a, rest, hNext, hIn, rfl⟩ := mem_run_set.mp hSet
          obtain ⟨count, hCount, hAll, rfl⟩ := ih.mp hRest
          refine ⟨count + 1, by omega, allNext_succ_iff.mpr ⟨⟨a, rest, hNext, hIn⟩, hAll⟩, ?_⟩
          rw [State.advance_advance, Nat.add_comm]
        · exact ⟨0, by omega, ⟨by omega, by simp⟩, rfl⟩
      · rintro ⟨count, hCount, hAll, rfl⟩
        cases count with
        | zero => exact .inr rfl
        | succ count =>
            obtain ⟨⟨a, rest, hNext, hIn⟩, hAll⟩ := allNext_succ_iff.mp hAll
            refine .inl ⟨x.advance 1, mem_run_set.mpr ⟨a, rest, hNext, hIn, rfl⟩, ?_, ?_⟩
            · simp [State.advance, hNext]
            · refine ih.mpr ⟨count, by omega, hAll, ?_⟩
              rw [State.advance_advance, Nat.add_comm]

theorem mem_required_set {p : α → Bool} {least : Nat} {x y : State α} :
    y ∈ required (run (.set p)) least none x ↔
      ∃ count, least ≤ count ∧ AllNext p x count ∧ y = x.advance count := by
  induction least generalizing x with
  | zero =>
      rw [required, mem_optional_set]
      refine exists_congr fun count => ?_
      constructor
      · exact fun ⟨_, hAll, hAt⟩ => ⟨Nat.zero_le _, hAll, hAt⟩
      · exact fun ⟨_, hAll, hAt⟩ => ⟨hAll.1, hAll, hAt⟩
  | succ least ih =>
      have hStep : y ∈ required (run (.set p)) (least + 1) none x ↔
          ∃ z ∈ run (.set p) x, y ∈ required (run (.set p)) least none z := by
        simp [required]
      rw [hStep]
      constructor
      · rintro ⟨z, hSet, hRest⟩
        obtain ⟨a, rest, hNext, hIn, rfl⟩ := mem_run_set.mp hSet
        obtain ⟨count, hCount, hAll, rfl⟩ := ih.mp hRest
        refine ⟨count + 1, by omega, allNext_succ_iff.mpr ⟨⟨a, rest, hNext, hIn⟩, hAll⟩, ?_⟩
        rw [State.advance_advance, Nat.add_comm]
      · rintro ⟨count, hCount, hAll, rfl⟩
        obtain ⟨more, rfl⟩ : ∃ more, count = more + 1 := ⟨count - 1, by omega⟩
        obtain ⟨⟨a, rest, hNext, hIn⟩, hAll⟩ := allNext_succ_iff.mp hAll
        refine ⟨x.advance 1, mem_run_set.mpr ⟨a, rest, hNext, hIn, rfl⟩, ?_⟩
        refine ih.mpr ⟨more, by omega, hAll, ?_⟩
        rw [State.advance_advance, Nat.add_comm]

/-- A set with a lower bound matches any number of its characters from there on. -/
theorem mem_run_repeated_set {p : α → Bool} {least : Nat} {x y : State α} :
    y ∈ run (.repeated least none (.set p)) x ↔
      ∃ count, least ≤ count ∧ AllNext p x count ∧ y = x.advance count := by
  have hBody : (fun y : State α => run (.set p) (y.clear (Regex.set p).groups)) =
      run (.set p) := by
    funext y
    exact congrArg (run (.set p)) y.clear_nil
  rw [run, hBody, mem_required_set]

/-- Where a character is matched its image is matched as well. -/
def Blind (f : α → α) : Regex α → Prop
  | .set p => ∀ a, p a = true → p (f a) = true
  | .concat first second | .either first second => Blind f first ∧ Blind f second
  | .group _ body | .repeated _ _ body => Blind f body
  | .boundary word _ => ∀ a, word (f a) = word a
  | .empty | .start | .finish | .backreference _ => True

/-- A matcher that succeeds on a text succeeds on its image. -/
def Maps (f : α → α) (body : State α → List (State α)) : Prop :=
  ∀ x, ∀ y ∈ body x, y.map f ∈ body (x.map f)

omit [DecidableEq α] in
theorem Maps.optional {f : α → α} {body : State α → List (State α)} (h : Maps f body)
    (fuel : Nat) (most : Option Nat) : Maps f (optional body fuel most) := by
  induction fuel generalizing most with
  | zero =>
      intro x y hy
      rw [Regex.optional, List.mem_singleton] at hy ⊢
      rw [hy]
  | succ fuel ih =>
      intro x y hy
      unfold Regex.optional at hy ⊢
      split at hy
      · next hNone =>
          rw [if_pos hNone, List.mem_singleton]
          rw [List.mem_singleton.mp hy]
      · next hSome =>
          rw [if_neg hSome]
          simp only [List.mem_append, List.mem_flatMap, List.mem_filter, List.mem_singleton] at hy ⊢
          rcases hy with ⟨z, ⟨hz, hShorter⟩, hRest⟩ | rfl
          · exact .inl ⟨z.map f, ⟨h x z hz, by simpa using hShorter⟩, ih _ z y hRest⟩
          · exact .inr rfl

omit [DecidableEq α] in
theorem Maps.required {f : α → α} {body : State α → List (State α)} (h : Maps f body)
    (least : Nat) (most : Option Nat) : Maps f (required body least most) := by
  induction least generalizing most with
  | zero =>
      intro x y hy
      rw [Regex.required] at hy ⊢
      simpa using h.optional _ most x y hy
  | succ least ih =>
      intro x y hy
      unfold Regex.required at hy ⊢
      split at hy
      · next hNone =>
          rw [if_pos hNone, List.mem_singleton]
          rw [List.mem_singleton.mp hy]
      · next hSome =>
          obtain ⟨z, hz, hRest⟩ := List.mem_flatMap.mp hy
          rw [if_neg hSome]
          exact List.mem_flatMap.mpr ⟨z.map f, h x z hz, ih _ z y hRest⟩

theorem maps_run {f : α → α} {regex : Regex α} (h : Blind f regex) : Maps f (run regex) := by
  induction regex with
  | empty =>
      intro x y hy
      rw [run, List.mem_singleton] at hy ⊢
      rw [hy]
  | set p =>
      intro x y hy
      obtain ⟨a, rest, hRest, hIn, rfl⟩ := mem_run_set.mp hy
      exact mem_run_set.mpr ⟨f a, rest.map f, by simp [hRest], h a hIn, State.map_advance f x 1⟩
  | concat first second ihFirst ihSecond =>
      intro x z hz
      obtain ⟨y, hy, hRest⟩ := mem_run_concat.mp hz
      exact mem_run_concat.mpr ⟨y.map f, ihFirst h.1 x y hy, ihSecond h.2 y z hRest⟩
  | either left right ihLeft ihRight =>
      intro x y hy
      rw [run, List.mem_append] at hy ⊢
      exact hy.imp (ihLeft h.1 x y) (ihRight h.2 x y)
  | group index body ih =>
      intro x z hz
      obtain ⟨y, hy, rfl⟩ := mem_run_group.mp hz
      exact mem_run_group.mpr ⟨y.map f, ih h x y hy, State.map_capture f x y index⟩
  | repeated least most body ih =>
      have hBody : Maps f fun y => run body (y.clear body.groups) := by
        intro x y hy
        dsimp only
        rw [← State.map_clear]
        exact ih h _ y hy
      intro x y hy
      rw [run] at hy ⊢
      exact hBody.required least most x y hy
  | start =>
      intro x y hy
      simp only [run, State.map_before, List.map_eq_nil_iff, List.mem_ite_nil_right,
        List.mem_singleton] at hy ⊢
      exact ⟨hy.1, by rw [hy.2]⟩
  | finish =>
      intro x y hy
      simp only [run, State.map_rest, List.map_eq_nil_iff, List.mem_ite_nil_right,
        List.mem_singleton] at hy ⊢
      exact ⟨hy.1, by rw [hy.2]⟩
  | boundary word inside =>
      intro x y hy
      simp only [run, State.map_rest, State.map_before, State.atWord_map h,
        List.mem_ite_nil_right, List.mem_singleton] at hy ⊢
      exact ⟨hy.1, by rw [hy.2]⟩
  | backreference index =>
      intro x y hy
      simp only [run, State.map] at hy ⊢
      cases hCaptured : x.captures index with
      | none =>
          simp only [hCaptured, Option.map_none, List.mem_singleton] at hy ⊢
          rw [hy]
      | some text =>
          simp only [hCaptured, Option.map_some, List.length_map] at hy ⊢
          split at hy
          · next hPrefix =>
              obtain rfl := List.mem_singleton.mp hy
              rw [if_pos (hPrefix.map f)]
              exact List.mem_singleton.mpr (State.map_advance f x text.length)
          · simp at hy

theorem fullMatch_map {f : α → α} {regex : Regex α} (h : Blind f regex) {text : List α}
    (hMatch : fullMatch regex text = true) : fullMatch regex (text.map f) = true := by
  rw [fullMatch, List.any_eq_true] at hMatch ⊢
  obtain ⟨y, hy, hRest⟩ := hMatch
  refine ⟨y.map f, maps_run h _ y hy, ?_⟩
  rw [State.map_rest, List.isEmpty_iff, List.map_eq_nil_iff]
  exact List.isEmpty_iff.mp hRest

end Regex
