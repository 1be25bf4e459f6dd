import NanoPowServer.Library.RegexSyntax
import NanoPowServer.WebServer.StaticFiles

/-! The registration of endpoints. A path pattern with question marks as placeholders is
turned into a regular expression by text substitution, and everything else in it is
pasted into the expression as it stands. -/
namespace NanoPowServer.WebServer

open Regex RegexSyntax

/-- The text that a placeholder is replaced by. -/
def placeholder : String := "([^\\?]+)"

/-- Replace every question mark. -/
def regexReplace (path : String) : String :=
  String.ofList (path.toList.flatMap fun c => if c = '?' then placeholder.toList else [c])

/-- The expression that is compiled for a path. A question mark in it always follows a
backslash. -/
def regexFinal (path : String) : String := "^" ++ regexReplace path ++ "$"

/-- The parameters of a target: what the groups capture, an unmatched one nothing. -/
def params (compiled : Compiled) (target : String) : List String :=
  match search compiled.regex target.toList with
  | none => []
  | some y =>
      (List.range compiled.markCount).map fun i => String.ofList ((y.captures (i + 1)).getD [])

def compilePath (path : String) : Option Compiled := compile (regexFinal path)

/-- Register a REST endpoint, unless the expression is malformed. -/
def addEndpoint (handlers : List RestEndpoint) (verb : Verb) (path : String)
    (handler : String → List String → Handling) : Option (List RestEndpoint) :=
  (compilePath path).map fun compiled =>
    handlers ++ [{
      verb, handler
      path := fun target => fullMatch compiled.regex target.toList
      captures := params compiled }]

def addGetEndpoint (handlers : List RestEndpoint) (path : String)
    (handler : String → List String → Handling) : Option (List RestEndpoint) :=
  addEndpoint handlers .get path handler

def addPostEndpoint (handlers : List RestEndpoint) (path : String)
    (handler : String → List String → Handling) : Option (List RestEndpoint) :=
  addEndpoint handlers .post path handler

def addDeleteEndpoint (handlers : List RestEndpoint) (path : String)
    (handler : String → List String → Handling) : Option (List RestEndpoint) :=
  addEndpoint handlers .delete path handler

/-- Register a WebSocket endpoint. -/
def addWebsocketEndpoint (handlers : List Pattern) (path : String) : Option (List Pattern) :=
  (compilePath path).map fun compiled =>
    handlers ++ [fun target => fullMatch compiled.regex target.toList]

/-- The text is the path with each question mark replaced by a parameter that is not
empty and has no question mark in it. -/
inductive Instance : List Char → List String → List Char → Prop where
  | nil : Instance [] [] []
  | literal {c : Char} {path text : List Char} {params : List String} (plain : c ≠ '?')
      (rest : Instance path params text) : Instance (c :: path) params (c :: text)
  | placeholder {param : List Char} {path text : List Char} {params : List String}
      (nonempty : param ≠ []) (plain : '?' ∉ param) (rest : Instance path params text) :
      Instance ('?' :: path) (String.ofList param :: params) (param ++ text)

/-- The endpoint matches the texts without question marks that the path says. -/
def Means (path : String) (pattern : Pattern) : Prop :=
  ∀ text : String, '?' ∉ text.toList →
    (pattern text = true ↔ ∃ params, Instance path.toList params text.toList)

/-- The parameters that are passed with such a text are the ones in it. -/
def Captures (path : String) (endpoint : RestEndpoint) : Prop :=
  ∀ text : String, '?' ∉ text.toList → endpoint.path text = true →
    Instance path.toList (endpoint.captures text) text.toList

/-- Nothing in the path but its placeholders is syntax of regular expressions. -/
def IsPlain (path : String) : Prop := ∀ c ∈ path.toList, c = '?' ∨ isSyntax c = false

instance (path : String) : Decidable (IsPlain path) := List.decidableBAll _ _

/-- The path has no character that makes syntax stand for itself. -/
def IsUnquoted (path : String) : Prop := '[' ∉ path.toList ∧ '\x5c' ∉ path.toList

/-- The class of a placeholder. -/
def notQuestion (c : Char) : Bool := !([(ClassAtom.single 63).contains].any fun p => p c)

theorem notQuestion_iff (c : Char) : notQuestion c = true ↔ c ≠ '?' := by
  have hCode : c.toNat = 63 ↔ c = '?' := by
    rw [← Char.toNat_inj]
    rfl
  simp [notQuestion, ClassAtom.contains, hCode]

/-- What the expression consists of for each character of the path, when the groups
before it are so many. -/
def items : Nat → List Char → List (Regex Char)
  | _, [] => []
  | count, c :: rest =>
      if c = '?' then
        .group (count + 1) (.concat (.repeated 1 none (.set notQuestion)) .empty) ::
          items (count + 1) rest
      else .set (fun a => a == c) :: items count rest

def pathTokens (path : List Char) : List Token :=
  path.flatMap fun c =>
    if c = '?' then [.opening, .atom (.set notQuestion), .quantifier 1 none, .closing]
    else [.atom (.set fun a => a == c)]

theorem toList_regexFinal (path : String) :
    (regexFinal path).toList = '^' ::
      ((path.toList.flatMap fun c => if c = '?' then placeholder.toList else [c]) ++ ['$']) := by
  simp [regexFinal, regexReplace, String.toList_append]

/-- A placeholder is four tokens. -/
theorem tokens_placeholder (fuel : Nat) (rest : List Char) :
    tokens (fuel + 4) (placeholder.toList ++ rest) =
      (tokens fuel rest).map
        ([.opening, .atom (.set notQuestion), .quantifier 1 none, .closing] ++ ·) := by
  have hText : placeholder.toList ++ rest =
      '(' :: '[' :: '^' :: '\x5c' :: '?' :: ']' :: '+' :: ')' :: rest := rfl
  rw [hText, tokens_cons rfl, tokens_cons rfl, tokens_cons rfl, tokens_cons rfl]
  simp only [Option.map_map]
  rfl

theorem tokens_path {path : List Char} (hPlain : ∀ c ∈ path, c = '?' ∨ isSyntax c = false)
    {fuel : Nat}
    (hFuel : (path.flatMap fun c => if c = '?' then placeholder.toList else [c]).length ≤ fuel) :
    tokens (fuel + 1)
        ((path.flatMap fun c => if c = '?' then placeholder.toList else [c]) ++ ['$']) =
      some (pathTokens path ++ [.assertion .finish]) := by
  induction path generalizing fuel with
  | nil => simp [tokens, token, pathTokens]
  | cons c path ih =>
      have hParts := List.forall_mem_cons.mp hPlain
      rw [List.flatMap_cons, List.length_append] at hFuel
      rw [List.flatMap_cons, List.append_assoc, pathTokens, List.flatMap_cons, List.append_assoc]
      split_ifs at hFuel ⊢ with hQuestion
      · have hLength : placeholder.toList.length = 8 := rfl
        obtain ⟨more, rfl⟩ : ∃ more, fuel = more + 4 := ⟨fuel - 4, by omega⟩
        rw [Nat.add_right_comm, tokens_placeholder, ih hParts.2 (by omega)]
        rfl
      · rw [List.length_singleton] at hFuel
        obtain ⟨more, rfl⟩ : ∃ more, fuel = more + 1 := ⟨fuel - 1, by omega⟩
        have hSelf := token_of_not_isSyntax (hParts.1.resolve_left hQuestion)
        rw [List.singleton_append, tokens_cons (hSelf _), ih hParts.2 (by omega)]
        rfl

/-- The groups of a path. -/
def marks (path : List Char) : Nat := path.count '?'

/-- The parser adds the items of the path to the terms of its frame. -/
theorem foldlM_pathTokens (path : List Char) (frame : Frame) (outer : List Frame) (count : Nat) :
    ∃ quantifiable, (pathTokens path).foldlM Parser.step ⟨frame, outer, count⟩ =
      some ⟨{ frame with terms := (items count path).reverse ++ frame.terms, quantifiable },
        outer, count + marks path⟩ := by
  induction path generalizing frame count with
  | nil => exact ⟨frame.quantifiable, rfl⟩
  | cons c path ih =>
      by_cases hQuestion : c = '?'
      · let added : Regex Char :=
          .group (count + 1) (.concat (.repeated 1 none (.set notQuestion)) .empty)
        obtain ⟨quantifiable, hRest⟩ := ih (frame.add added true) (count + 1)
        refine ⟨quantifiable, ?_⟩
        have hMarks : count + marks (c :: path) = count + 1 + marks path := by
          simp [marks, hQuestion]
          omega
        rw [pathTokens, List.flatMap_cons, if_pos hQuestion, List.foldlM_append, items,
          if_pos hQuestion, List.reverse_cons, List.append_assoc, hMarks]
        exact hRest
      · obtain ⟨quantifiable, hRest⟩ := ih (frame.add (.set fun a => a == c) true) count
        refine ⟨quantifiable, ?_⟩
        have hMarks : count + marks (c :: path) = count + marks path := by
          simp [marks, hQuestion]
        rw [pathTokens, List.flatMap_cons, if_neg hQuestion, List.foldlM_append, items,
          if_neg hQuestion, List.reverse_cons, List.append_assoc, hMarks]
        exact hRest

/-- The expression that is compiled for a plain path. -/
def pathRegex (path : List Char) : Regex Char :=
  concatAll (.start :: items 0 path ++ [.finish])

theorem refersWithin_pathTokens (path : List Char) (count : Nat) :
    (pathTokens path).all (Token.refersWithin count) = true := by
  rw [List.all_eq_true]
  intro t hToken
  obtain ⟨c, -, hToken⟩ := List.mem_flatMap.mp hToken
  split at hToken
  · simp only [List.mem_cons, List.not_mem_nil, or_false] at hToken
    rcases hToken with rfl | rfl | rfl | rfl <;> rfl
  · obtain rfl := List.mem_singleton.mp hToken
    rfl

theorem compilePath_of_isPlain {path : String} (hPlain : IsPlain path) :
    compilePath path = some ⟨pathRegex path.toList, marks path.toList⟩ := by
  have hTokens : tokens (regexFinal path).length (regexFinal path).toList =
      some (.assertion .start :: (pathTokens path.toList ++ [.assertion .finish])) := by
    rw [← String.length_toList, toList_regexFinal, List.length_cons, List.length_append,
      List.length_singleton, tokens_cons rfl, tokens_path hPlain (Nat.le_refl _)]
    rfl
  obtain ⟨quantifiable, hParser⟩ :=
    foldlM_pathTokens path.toList ((Frame.initial 0).add .start false) [] 0
  have hRun : (.assertion .start :: (pathTokens path.toList ++ [.assertion .finish])).foldlM
      Parser.step Parser.initial = some ⟨⟨0, none, .finish ::
        ((items 0 path.toList).reverse ++ [.start]), false⟩, [], 0 + marks path.toList⟩ := by
    rw [List.foldlM_cons]
    change (pathTokens path.toList ++ [Token.assertion .finish]).foldlM Parser.step
      ⟨(Frame.initial 0).add .start false, [], 0⟩ = _
    rw [List.foldlM_append, hParser]
    rfl
  have hRefers : (Token.assertion .start :: (pathTokens path.toList ++
      [.assertion .finish])).all (Token.refersWithin (0 + marks path.toList)) = true := by
    simp [Token.refersWithin, refersWithin_pathTokens]
  rw [compilePath, compile, hTokens, Option.bind_some, hRun, Option.bind_some]
  dsimp only
  rw [hRefers, List.isEmpty_nil, Bool.and_self, if_pos rfl, Nat.zero_add]
  simp [Frame.regex, pathRegex]

/-- The captures once the groups after the first `count` have captured these. -/
def withParams (captures : Nat → Option (List Char)) : Nat → List String → Nat → Option (List Char)
  | _, [] => captures
  | count, param :: params =>
      withParams (Function.update captures (count + 1) (some param.toList)) (count + 1) params

theorem withParams_of_le {captures : Nat → Option (List Char)} {count i : Nat}
    {params : List String} (h : i ≤ count) : withParams captures count params i = captures i := by
  induction params generalizing captures count with
  | nil => rfl
  | cons param params ih =>
      rw [withParams, ih (by omega), Function.update_of_ne (by omega)]

theorem withParams_eq (captures : Nat → Option (List Char)) (count : Nat) (params : List String) :
    (List.range params.length).map
      (fun i => String.ofList ((withParams captures count params (count + i + 1)).getD [])) =
      params := by
  induction params generalizing captures count with
  | nil => rfl
  | cons param params ih =>
      have hRest := ih (Function.update captures (count + 1) (some param.toList)) (count + 1)
      rw [List.length_cons, List.range_succ_eq_map, List.map_cons, List.map_map]
      refine List.cons_eq_cons.mpr ⟨?_, (List.map_congr_left fun i _ => ?_).trans hRest⟩
      · rw [withParams, Nat.add_zero, withParams_of_le (Nat.le_refl _), Function.update_self]
        exact String.ofList_toList
      · have hIndex : count + (i + 1) + 1 = count + 1 + i + 1 := by omega
        simp only [Function.comp_apply, withParams, Nat.succ_eq_add_one, hIndex]

theorem allNext_iff {x : State Char} {count : Nat} :
    AllNext notQuestion x count ↔ count ≤ x.rest.length ∧ '?' ∉ x.rest.take count := by
  refine and_congr_right fun _ => ?_
  simp only [notQuestion_iff]
  constructor
  · intro hAll hMem
    exact hAll _ hMem rfl
  · rintro hNone a ha rfl
    exact hNone ha

/-- A placeholder takes at least one character, and no question marks. -/
theorem mem_run_placeholder {index : Nat} {x z : State Char} :
    z ∈ run (.group index (.concat (.repeated 1 none (.set notQuestion)) .empty)) x ↔
      ∃ param rest, param ≠ [] ∧ '?' ∉ param ∧ x.rest = param ++ rest ∧
        z = { x.advance param.length with
          captures := Function.update x.captures index (some param) } := by
  have hBody : ∀ y, y ∈ run (.concat (.repeated 1 none (.set notQuestion)) .empty) x ↔
      y ∈ run (.repeated 1 none (.set notQuestion)) x := by
    intro y
    simp [run]
  simp only [mem_run_group, hBody, mem_run_repeated_set, allNext_iff]
  constructor
  · rintro ⟨y, ⟨count, hCount, ⟨hLength, hPlain⟩, rfl⟩, rfl⟩
    have hTaken : (x.rest.take count).length = count := by
      rw [List.length_take]
      omega
    refine ⟨x.rest.take count, x.rest.drop count, ?_, hPlain,
      (List.take_append_drop count x.rest).symm, ?_⟩
    · rw [← List.length_pos_iff, hTaken]
      exact hCount
    · have hBetween : x.rest.length - (x.advance count).rest.length = count := by
        simp only [State.advance, List.length_drop]
        omega
      rw [State.capture, hBetween, hTaken]
      rfl
  · rintro ⟨param, rest, hParam, hPlain, hRest, rfl⟩
    have hTaken : x.rest.take param.length = param := by
      rw [hRest, List.take_left]
    have hPos := List.length_pos_iff.mpr hParam
    refine ⟨x.advance param.length, ⟨param.length, hPos, ⟨?_, ?_⟩, rfl⟩, ?_⟩
    · rw [hRest, List.length_append]
      omega
    · rwa [hTaken]
    · have hBetween : x.rest.length - (x.advance param.length).rest.length = param.length := by
        simp only [State.advance, List.length_drop, hRest, List.length_append]
        omega
      rw [State.capture, hBetween, hTaken]
      rfl

theorem Instance.literal_inv {c : Char} {path text : List Char} {params : List String}
    (hPlain : c ≠ '?') (h : Instance (c :: path) params text) :
    ∃ rest, text = c :: rest ∧ Instance path params rest := by
  cases h with
  | literal _ rest => exact ⟨_, rfl, rest⟩
  | placeholder => exact absurd rfl hPlain

theorem Instance.placeholder_inv {path text : List Char} {params : List String}
    (h : Instance ('?' :: path) params text) :
    ∃ param others rest, param ≠ [] ∧ '?' ∉ param ∧ params = String.ofList param :: others ∧
      text = param ++ rest ∧ Instance path others rest := by
  cases h with
  | literal hPlain => exact absurd rfl hPlain
  | placeholder nonempty plain rest => exact ⟨_, _, _, nonempty, plain, rfl, rfl, rest⟩

/-- Two advances up to the end of the text are one. -/
theorem advance_end {x : State Char} {front rest : List Char} (h : x.rest = front ++ rest) :
    (x.advance front.length).advance rest.length = x.advance x.rest.length := by
  rw [State.advance_advance, h, List.length_append]

theorem rest_advance {x : State Char} {front rest : List Char} (h : x.rest = front ++ rest) :
    (x.advance front.length).rest = rest := by
  simp [State.advance, h]

/-- The items of a path match its instances up to the end of the text. -/
theorem mem_run_items {path : List Char} {count : Nat} {x z : State Char} :
    z ∈ run (concatAll (items count path ++ [.finish])) x ↔
      ∃ params, Instance path params x.rest ∧
        z = { x.advance x.rest.length with captures := withParams x.captures count params } := by
  induction path generalizing count x with
  | nil =>
      have hRun : z ∈ run (concatAll (items count [] ++ [.finish])) x ↔ x.rest = [] ∧ z = x := by
        simp [items, concatAll, run, List.mem_ite_nil_right]
      rw [hRun]
      constructor
      · rintro ⟨hRest, rfl⟩
        exact ⟨[], hRest ▸ .nil, by rw [hRest]; rfl⟩
      · rintro ⟨params, hInstance, rfl⟩
        obtain ⟨hEmpty, rfl⟩ : x.rest = [] ∧ params = [] := by
          generalize x.rest = text at hInstance
          cases hInstance
          exact ⟨rfl, rfl⟩
        exact ⟨hEmpty, by rw [hEmpty]; rfl⟩
  | cons c path ih =>
      by_cases hQuestion : c = '?'
      · subst hQuestion
        rw [items, if_pos rfl, List.cons_append, concatAll, mem_run_concat]
        simp only [mem_run_placeholder, ih]
        constructor
        · rintro ⟨y, ⟨param, rest, hParam, hPlain, hRest, rfl⟩, params, hInstance, rfl⟩
          rw [rest_advance hRest] at hInstance
          refine ⟨String.ofList param :: params, hRest ▸ .placeholder hParam hPlain hInstance, ?_⟩
          rw [withParams, String.toList_ofList, ← advance_end hRest, ← rest_advance hRest]
          rfl
        · rintro ⟨params, hInstance, rfl⟩
          obtain ⟨param, others, rest, hParam, hPlain, rfl, hRest, hOthers⟩ :=
            hInstance.placeholder_inv
          refine ⟨_, ⟨param, rest, hParam, hPlain, hRest, rfl⟩, others, ?_, ?_⟩
          · rwa [rest_advance hRest]
          · rw [withParams, String.toList_ofList, ← advance_end hRest, ← rest_advance hRest]
            rfl
      · rw [items, if_neg hQuestion, List.cons_append, concatAll, mem_run_concat]
        simp only [mem_run_set, ih]
        constructor
        · rintro ⟨y, ⟨a, rest, hRest, hSame, rfl⟩, params, hInstance, rfl⟩
          obtain rfl : a = c := by simpa using hSame
          have hFront : x.rest = [a] ++ rest := hRest
          have hAfter : (x.advance 1).rest = rest := rest_advance hFront
          rw [hAfter] at hInstance ⊢
          refine ⟨params, hRest ▸ .literal hQuestion hInstance, ?_⟩
          rw [← advance_end hFront]
          rfl
        · rintro ⟨params, hInstance, rfl⟩
          obtain ⟨rest, hRest, hOthers⟩ := hInstance.literal_inv hQuestion
          have hFront : x.rest = [c] ++ rest := hRest
          have hAfter : (x.advance 1).rest = rest := rest_advance hFront
          refine ⟨_, ⟨c, rest, hRest, by simp, rfl⟩, params, ?_, ?_⟩
          · rwa [hAfter]
          · rw [hAfter, ← advance_end hFront]
            rfl

theorem mem_run_pathRegex {path text : List Char} {z : State Char} :
    z ∈ run (pathRegex path) (.initial text) ↔ ∃ params, Instance path params text ∧
      z = { (State.initial text).advance text.length with
        captures := withParams (fun _ => none) 0 params } := by
  have hStart : ∀ y : State Char, y ∈ run .start (.initial text) ↔ y = .initial text := by
    intro y
    simp [run, State.initial]
  rw [pathRegex, List.cons_append, concatAll, mem_run_concat]
  simp only [hStart, exists_eq_left, mem_run_items]
  rfl

theorem fullMatch_pathRegex (path text : List Char) :
    fullMatch (pathRegex path) text = true ↔ ∃ params, Instance path params text := by
  rw [fullMatch, List.any_eq_true]
  constructor
  · rintro ⟨z, hRun, -⟩
    obtain ⟨params, hInstance, -⟩ := mem_run_pathRegex.mp hRun
    exact ⟨params, hInstance⟩
  · rintro ⟨params, hInstance⟩
    refine ⟨_, mem_run_pathRegex.mpr ⟨params, hInstance, rfl⟩, ?_⟩
    simp [State.advance, State.initial]

theorem Instance.length_eq {path text : List Char} {params : List String}
    (h : Instance path params text) : params.length = marks path := by
  induction h with
  | nil => rfl
  | literal plain rest ih => simp [marks, plain, ih]
  | placeholder nonempty plain rest ih => simp [marks, ih]

/-- The first match of a search is a match of the whole text. -/
theorem params_pathRegex {path : List Char} {target : String}
    (h : fullMatch (pathRegex path) target.toList = true) :
    Instance path (params ⟨pathRegex path, marks path⟩ target) target.toList := by
  obtain ⟨found, hFound⟩ := (fullMatch_pathRegex path target.toList).mp h
  cases hRun : run (pathRegex path) (.initial target.toList) with
  | nil =>
      have hSome := mem_run_pathRegex.mpr ⟨found, hFound, rfl⟩
      simp [hRun] at hSome
  | cons y others =>
      obtain ⟨captured, hInstance, hState⟩ :=
        mem_run_pathRegex.mp (hRun ▸ List.mem_cons_self : y ∈ run (pathRegex path) _)
      have hParams : params ⟨pathRegex path, marks path⟩ target = captured := by
        rw [params, search_eq_head hRun, hState, ← hInstance.length_eq]
        simpa using withParams_eq (fun _ => none) 0 captured
      rwa [hParams]

/-- The text has brackets and backslashes only in the classes of placeholders. -/
inductive Unquoting : List Char → Prop where
  | nil : Unquoting []
  | char {c : Char} {rest : List Char} (bracket : c ≠ '[') (backslash : c ≠ '\x5c')
      (more : Unquoting rest) : Unquoting (c :: rest)
  | placeholder {rest : List Char} (more : Unquoting rest) :
      Unquoting ('[' :: '^' :: '\x5c' :: '?' :: ']' :: rest)

theorem Unquoting.dropWhile_isDigit {text : List Char} (h : Unquoting text) :
    Unquoting (text.dropWhile Char.isDigit) := by
  induction h with
  | nil => exact .nil
  | char bracket backslash more ih =>
      rw [List.dropWhile_cons]
      split
      · exact ih
      · exact .char bracket backslash more
  | placeholder more => exact .placeholder more

theorem Unquoting.tail {c : Char} {rest : List Char} (h : Unquoting (c :: rest))
    (hPlain : c ≠ '[') : Unquoting rest := by
  cases h with
  | char _ _ more => exact more
  | placeholder => exact absurd rfl hPlain

theorem unquoting_regexFinal {path : String} (h : IsUnquoted path) :
    Unquoting (regexFinal path).toList := by
  rw [toList_regexFinal]
  refine .char (by decide) (by decide) ?_
  obtain ⟨hBracket, hBackslash⟩ := h
  generalize path.toList = text at hBracket hBackslash
  induction text with
  | nil => exact .char (by decide) (by decide) .nil
  | cons c rest ih =>
      simp only [List.mem_cons, not_or] at hBracket hBackslash
      have hRest := ih hBracket.2 hBackslash.2
      rw [List.flatMap_cons, List.append_assoc]
      split
      · exact .char (by decide) (by decide) (.placeholder (.char (by decide) (by decide)
          (.char (by decide) (by decide) hRest)))
      · exact .char (Ne.symm hBracket.1) (Ne.symm hBackslash.1) hRest

/-- Replace one character by a slash. -/
def erase (c a : Char) : Char := if a = c then '/' else a

theorem blind_of_slash {c : Char} {p : Char → Bool} (h : p c = true → p '/' = true) :
    (Regex.set p).Blind (erase c) := by
  intro a hIn
  unfold erase
  split
  · next hSame => exact h (hSame ▸ hIn)
  · exact hIn

theorem bounds_unquoting {f : Char → Char} {rest more : List Char} {first : Token}
    (h : Unquoting rest) (hBounds : bounds rest = some (first, more)) :
    first.Blind f ∧ Unquoting more := by
  have hAfter := h.dropWhile_isDigit
  dsimp only [bounds] at hBounds
  rw [Option.ite_none_left_eq_some] at hBounds
  obtain ⟨-, hBounds⟩ := hBounds
  split at hBounds
  · next hClosing =>
      obtain ⟨rfl, rfl⟩ := Prod.mk.inj (Option.some.inj hBounds)
      rw [hClosing] at hAfter
      exact ⟨trivial, hAfter.tail (by decide)⟩
  · next hComma =>
      rw [hComma] at hAfter
      have hHigh := (hAfter.tail (by decide)).dropWhile_isDigit
      split at hBounds
      · next hClosing =>
          rw [hClosing] at hHigh
          split_ifs at hBounds
          all_goals
            obtain ⟨rfl, rfl⟩ := Prod.mk.inj (Option.some.inj hBounds)
            exact ⟨trivial, hHigh.tail (by decide)⟩
      · simp at hBounds
  · simp at hBounds

/-- Outside of brackets and escapes nothing tells a syntax character from a slash. -/
theorem token_blind {c : Char} (hSyntax : isSyntax c = true) {a : Char} {rest more : List Char}
    {first : Token} (h : Unquoting (a :: rest)) (hToken : token a rest = some (first, more)) :
    first.Blind (erase c) ∧ Unquoting more := by
  unfold token at hToken
  split at hToken
  case h_3 =>
    -- A period, which matches the slash.
    obtain ⟨rfl, rfl⟩ := Prod.mk.inj (Option.some.inj hToken)
    exact ⟨blind_of_slash fun _ => rfl, h.tail (by decide)⟩
  case h_9 =>
    -- A bracket, which opens the class of a placeholder.
    cases h with
    | char bracket => exact absurd rfl bracket
    | placeholder rest =>
        obtain ⟨rfl, rfl⟩ := Prod.mk.inj (Option.some.inj hToken)
        exact ⟨blind_of_slash fun _ => rfl, rest⟩
  case h_10 => exact bounds_unquoting (h.tail (by decide)) hToken
  case h_11 =>
    cases h with
    | char _ backslash => exact absurd rfl backslash
  case h_12 | h_13 | h_14 => simp at hToken
  case h_15 =>
    obtain ⟨rfl, rfl⟩ := Prod.mk.inj (Option.some.inj hToken)
    refine ⟨blind_of_slash fun hSame => ?_, h.tail ‹_›⟩
    obtain rfl : c = a := by simpa using hSame
    simp_all [isSyntax]
  all_goals
    obtain ⟨rfl, rfl⟩ := Prod.mk.inj (Option.some.inj hToken)
    exact ⟨trivial, h.tail (by decide)⟩

theorem erase_ne {c : Char} (hSlash : c ≠ '/') (a : Char) : erase c a ≠ c := by
  unfold erase
  split
  · exact Ne.symm hSlash
  · assumption

/-- The path with a letter for each placeholder. -/
def filled (path : List Char) : List Char := path.map fun c => if c = '?' then 'x' else c

theorem instance_filled (path : List Char) : ∃ params, Instance path params (filled path) := by
  induction path with
  | nil => exact ⟨[], .nil⟩
  | cons c path ih =>
      obtain ⟨params, hRest⟩ := ih
      rw [filled, List.map_cons]
      split
      · next hQuestion =>
          subst hQuestion
          exact ⟨_, .placeholder (List.cons_ne_nil 'x' []) (by decide) hRest⟩
      · next hQuestion => exact ⟨params, .literal hQuestion hRest⟩

theorem not_mem_filled (path : List Char) : '?' ∉ filled path := by
  intro hMem
  obtain ⟨c, -, hSame⟩ := List.mem_map.mp hMem
  split at hSame
  · cases hSame
  · contradiction

/-- What is literal in a path is in each of its instances. -/
theorem Instance.mem {path text : List Char} {params : List String} (h : Instance path params text)
    {c : Char} (hMem : c ∈ path) (hLiteral : c ≠ '?') : c ∈ text := by
  induction h with
  | nil => exact hMem
  | literal plain rest ih =>
      rcases List.mem_cons.mp hMem with rfl | hRest
      · exact List.mem_cons_self
      · exact List.mem_cons_of_mem _ (ih hRest)
  | placeholder nonempty plain rest ih =>
      rcases List.mem_cons.mp hMem with rfl | hRest
      · exact absurd rfl hLiteral
      · exact List.mem_append_right _ (ih hRest)

/-- The expression of an unquoted path matches its own filled form without one of the
syntax characters as well, if at all. -/
theorem isPlain_of_means {path : String} {compiled : Compiled} (hUnquoted : IsUnquoted path)
    (hCompiled : compilePath path = some compiled)
    (hMeans : Means path fun target => fullMatch compiled.regex target.toList) : IsPlain path := by
  intro c hMem
  by_contra hOther
  obtain ⟨hLiteral, hSyntax⟩ : c ≠ '?' ∧ isSyntax c = true := by
    simpa [not_or] using hOther
  have hSlash : c ≠ '/' := by
    rintro rfl
    cases hSyntax
  have hBlind : compiled.regex.Blind (erase c) :=
    blind_of_compile (fun _ _ _ _ => token_blind hSyntax) (unquoting_regexFinal hUnquoted) hCompiled
  have hFilled : fullMatch compiled.regex (filled path.toList) = true := by
    have hIff := hMeans (String.ofList (filled path.toList))
    simp only [String.toList_ofList] at hIff
    exact (hIff (not_mem_filled _)).mpr (instance_filled path.toList)
  have hErased := fullMatch_map hBlind hFilled
  have hNone : '?' ∉ (filled path.toList).map (erase c) := by
    intro hQuestion
    obtain ⟨a, ha, hSame⟩ := List.mem_map.mp hQuestion
    unfold erase at hSame
    split at hSame
    · cases hSame
    · exact not_mem_filled _ (hSame ▸ ha)
  have hIff := hMeans (String.ofList ((filled path.toList).map (erase c)))
  simp only [String.toList_ofList] at hIff
  obtain ⟨params, hInstance⟩ := (hIff hNone).mp hErased
  obtain ⟨a, -, hSame⟩ := List.mem_map.mp (hInstance.mem hMem hLiteral)
  exact erase_ne hSlash a hSame

section Registered

variable {path : String}

theorem addEndpoint_eq {compiled : Compiled} (h : compilePath path = some compiled)
    (handlers : List RestEndpoint) (verb : Verb) (handler : String → List String → Handling) :
    addEndpoint handlers verb path handler = some (handlers ++ [{
      verb, handler
      path := fun target => fullMatch compiled.regex target.toList
      captures := params compiled }]) := by
  rw [addEndpoint, h, Option.map_some]

theorem addWebsocketEndpoint_eq {compiled : Compiled} (h : compilePath path = some compiled)
    (handlers : List Pattern) :
    addWebsocketEndpoint handlers path =
      some (handlers ++ [fun target => fullMatch compiled.regex target.toList]) := by
  rw [addWebsocketEndpoint, h, Option.map_some]

theorem compiled_of_addEndpoint {handlers : List RestEndpoint} {verb : Verb}
    {handler : String → List String → Handling} {endpoint : RestEndpoint}
    (h : addEndpoint handlers verb path handler = some (handlers ++ [endpoint])) :
    ∃ compiled, compilePath path = some compiled ∧
      endpoint.path = (fun target => fullMatch compiled.regex target.toList) ∧
      endpoint.captures = params compiled := by
  obtain ⟨compiled, hCompiled, hEndpoint⟩ := Option.map_eq_some_iff.mp h
  obtain rfl := List.singleton_inj.mp (List.append_cancel_left hEndpoint)
  exact ⟨compiled, hCompiled, rfl, rfl⟩

theorem compiled_of_addWebsocketEndpoint {handlers : List Pattern} {endpoint : Pattern}
    (h : addWebsocketEndpoint handlers path = some (handlers ++ [endpoint])) :
    ∃ compiled, compilePath path = some compiled ∧
      endpoint = fun target => fullMatch compiled.regex target.toList := by
  obtain ⟨compiled, hCompiled, hEndpoint⟩ := Option.map_eq_some_iff.mp h
  obtain rfl := List.singleton_inj.mp (List.append_cancel_left hEndpoint)
  exact ⟨compiled, hCompiled, rfl⟩

theorem means_of_isPlain {compiled : Compiled} (hPlain : IsPlain path)
    (h : compilePath path = some compiled) (text : String) :
    (fullMatch compiled.regex text.toList = true ↔
      ∃ params, Instance path.toList params text.toList) ∧
      (fullMatch compiled.regex text.toList = true →
        Instance path.toList (params compiled text) text.toList) := by
  rw [compilePath_of_isPlain hPlain, Option.some.injEq] at h
  subst h
  exact ⟨fullMatch_pathRegex path.toList text.toList, params_pathRegex⟩

end Registered

/-- A path in which nothing but the placeholders is syntax of regular expressions is
accepted, and its endpoints match and capture what it says. A path with other syntax,
as far as nothing is quoted in it, is rejected or does not mean what it says. -/
theorem patterns_mean (path : String) :
    (IsPlain path →
      (∀ handlers verb handler, ∃ endpoint,
        addEndpoint handlers verb path handler = some (handlers ++ [endpoint]) ∧
          Means path endpoint.path ∧ Captures path endpoint) ∧
      ∀ handlers, ∃ endpoint,
        addWebsocketEndpoint handlers path = some (handlers ++ [endpoint]) ∧
          Means path endpoint) ∧
    (IsUnquoted path →
      (∀ handlers verb handler endpoint,
        addEndpoint handlers verb path handler = some (handlers ++ [endpoint]) →
          (Means path endpoint.path ∧ Captures path endpoint ↔ IsPlain path)) ∧
      ∀ handlers endpoint,
        addWebsocketEndpoint handlers path = some (handlers ++ [endpoint]) →
          (Means path endpoint ↔ IsPlain path)) := by
  refine ⟨fun hPlain => ?_, fun hUnquoted => ⟨?_, ?_⟩⟩
  · have hCompiled := compilePath_of_isPlain hPlain
    have hMeans := means_of_isPlain hPlain hCompiled
    refine ⟨fun handlers verb handler => ?_, fun handlers => ?_⟩
    · exact ⟨_, addEndpoint_eq hCompiled handlers verb handler, fun text _ => (hMeans text).1,
        fun text _ => (hMeans text).2⟩
    · exact ⟨_, addWebsocketEndpoint_eq hCompiled handlers, fun text _ => (hMeans text).1⟩
  · intro handlers verb handler endpoint hAdded
    obtain ⟨compiled, hCompiled, hPath, hCaptures⟩ := compiled_of_addEndpoint hAdded
    constructor
    · rintro ⟨hMeans, -⟩
      rw [hPath] at hMeans
      exact isPlain_of_means hUnquoted hCompiled hMeans
    · intro hPlain
      have hMeans := means_of_isPlain hPlain hCompiled
      rw [Captures, hPath, hCaptures]
      exact ⟨fun text _ => (hMeans text).1, fun text _ => (hMeans text).2⟩
  · intro handlers endpoint hAdded
    obtain ⟨compiled, hCompiled, rfl⟩ := compiled_of_addWebsocketEndpoint hAdded
    constructor
    · exact isPlain_of_means hUnquoted hCompiled
    · exact fun hPlain text _ => (means_of_isPlain hPlain hCompiled text).1

/-- A path with a placeholder. -/
theorem patterns_mean_job :
    ∃ endpoint, addWebsocketEndpoint [] "/job/?" = some [endpoint] ∧ Means "/job/?" endpoint :=
  ((patterns_mean "/job/?").1 (by decide)).2 []

/-- A period matches any character. -/
theorem not_patterns_mean :
    ¬ ∀ (path : String) (handlers : List Pattern) (endpoint : Pattern),
      addWebsocketEndpoint handlers path = some (handlers ++ [endpoint]) → Means path endpoint := by
  intro hAll
  have hMatches : (compilePath "/a.b").map
      (fun compiled => fullMatch compiled.regex "/axb".toList) = some true := by decide
  obtain ⟨compiled, hCompiled, hMatch⟩ := Option.map_eq_some_iff.mp hMatches
  have hMeans := hAll "/a.b" [] _ (addWebsocketEndpoint_eq hCompiled [])
  obtain ⟨params, hInstance⟩ := (hMeans "/axb" (by decide)).mp hMatch
  have hPeriod : '.' ∈ "/axb".toList := hInstance.mem (by decide) (by decide)
  revert hPeriod
  decide

end NanoPowServer.WebServer
