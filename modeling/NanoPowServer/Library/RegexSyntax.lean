import NanoPowServer.Library.Regex

/-! The syntax of regular expressions, in the ECMAScript grammar as the C++ standard
library adopts it. A text is cut into tokens, and the tokens are put together with one
frame for each group that is open. The question mark as a quantifier and all that
starts with one are left out, and so are the named classes in brackets. -/
namespace RegexSyntax

inductive Token where
  | atom (regex : Regex Char)
  | assertion (regex : Regex Char)
  | quantifier (least : Nat) (most : Option Nat)
  | opening
  | closing
  | bar

def isDigit (c : Char) : Bool := c.isDigit

def isWord (c : Char) : Bool := c.isAlphanum || c = '_'

def isSpace (c : Char) : Bool := c = ' ' || (9 ≤ c.toNat && c.toNat ≤ 13)

def isLineTerminator (c : Char) : Bool := c = '\n' || c = '\r'

def hexValue (c : Char) : Option Nat :=
  if c.isDigit then some (c.toNat - '0'.toNat)
  else if 'a' ≤ c ∧ c ≤ 'f' then some (c.toNat - 'a'.toNat + 10)
  else if 'A' ≤ c ∧ c ≤ 'F' then some (c.toNat - 'A'.toNat + 10)
  else none

/-- The code that exactly so many hexadecimal digits give. -/
def hexCode : Nat → Nat → List Char → Option (Nat × List Char)
  | 0, code, text => some (code, text)
  | count + 1, code, c :: rest =>
      (hexValue c).bind fun digit => hexCode count (code * 16 + digit) rest
  | _ + 1, _, [] => none

/-- The sets that `\d` and the like stand for. -/
def classEscape? : Char → Option (Char → Bool)
  | 'd' => some isDigit
  | 'D' => some fun c => !isDigit c
  | 's' => some isSpace
  | 'S' => some fun c => !isSpace c
  | 'w' => some isWord
  | 'W' => some fun c => !isWord c
  | _ => none

/-- The code of an escaped character, after the backslash. -/
def characterEscape : List Char → Option (Nat × List Char)
  | 'f' :: rest => some (12, rest)
  | 'n' :: rest => some (10, rest)
  | 'r' :: rest => some (13, rest)
  | 't' :: rest => some (9, rest)
  | 'v' :: rest => some (11, rest)
  | 'c' :: letter :: rest => if letter.isAlpha then some (letter.toNat % 32, rest) else none
  | ['c'] => none
  | 'x' :: rest => hexCode 2 0 rest
  | 'u' :: rest => hexCode 4 0 rest
  | '0' :: rest => if rest.head?.any Char.isDigit then none else some (0, rest)
  | c :: rest => if c.isDigit then none else some (c.toNat, rest)
  | [] => none

/-- What a class is made of: a character, which may begin or end a range, or a set. -/
inductive ClassAtom where
  | single (code : Nat)
  | many (p : Char → Bool)

def ClassAtom.contains : ClassAtom → Char → Bool
  | .single code, c => c.toNat == code
  | .many p, c => p c

def classAtom : List Char → Option (ClassAtom × List Char)
  | '\x5c' :: 'b' :: rest => some (.single 8, rest)
  | '\x5c' :: c :: rest =>
      match classEscape? c with
      | some p => some (.many p, rest)
      | none => (characterEscape (c :: rest)).map fun (code, rest) => (.single code, rest)
  | ['\x5c'] => none
  | c :: rest => some (.single c.toNat, rest)
  | [] => none

/-- The range between two characters. -/
def range : ClassAtom → ClassAtom → Option (Char → Bool)
  | .single low, .single high =>
      if low ≤ high then some fun c => low ≤ c.toNat && c.toNat ≤ high else none
  | _, _ => none

/-- The sets up to the closing bracket. A dash that is first or last is a character. -/
def classRanges : Nat → List Char → Option (List (Char → Bool) × List Char)
  | 0, _ => none
  | _ + 1, ']' :: rest => some ([], rest)
  | fuel + 1, text =>
      (classAtom text).bind fun (low, rest) =>
        match rest with
        | '-' :: c :: more =>
            if c = ']' then
              (classRanges fuel rest).map fun (sets, rest) => (low.contains :: sets, rest)
            else
              (classAtom (c :: more)).bind fun (high, rest) =>
                (range low high).bind fun p =>
                  (classRanges fuel rest).map fun (sets, rest) => (p :: sets, rest)
        | _ => (classRanges fuel rest).map fun (sets, rest) => (low.contains :: sets, rest)

/-- A class, after the opening bracket. -/
def characterClass : List Char → Option ((Char → Bool) × List Char)
  | '^' :: text =>
      (classRanges (text.length + 1) text).map fun (sets, rest) =>
        (fun c => !sets.any fun p => p c, rest)
  | text =>
      (classRanges (text.length + 1) text).map fun (sets, rest) =>
        (fun c => sets.any fun p => p c, rest)

def decimal (digits : List Char) : Nat := Nat.ofDigitChars 10 digits 0

/-- The bounds of a quantifier, after the opening brace. -/
def bounds (text : List Char) : Option (Token × List Char) :=
  let low := text.takeWhile Char.isDigit
  if low = [] then none
  else
    match text.dropWhile Char.isDigit with
    | '\x7d' :: rest => some (.quantifier (decimal low) (some (decimal low)), rest)
    | ',' :: rest =>
        let high := rest.takeWhile Char.isDigit
        match rest.dropWhile Char.isDigit with
        | '\x7d' :: rest =>
            if high = [] then some (.quantifier (decimal low) none, rest)
            else if decimal low ≤ decimal high then
              some (.quantifier (decimal low) (some (decimal high)), rest)
            else none
        | _ => none
    | _ => none

/-- An escape outside of a class, after the backslash. -/
def escape : List Char → Option (Token × List Char)
  | 'b' :: rest => some (.assertion (.boundary isWord false), rest)
  | 'B' :: rest => some (.assertion (.boundary isWord true), rest)
  | c :: rest =>
      match classEscape? c with
      | some p => some (.atom (.set p), rest)
      | none =>
          if c.isDigit && c ≠ '0' then
            some (.atom (.backreference (decimal ((c :: rest).takeWhile Char.isDigit))),
              rest.dropWhile Char.isDigit)
          else
            (characterEscape (c :: rest)).map fun (code, rest) =>
              (.atom (.set fun a => a.toNat == code), rest)
  | [] => none

/-- The token that starts with this character. A closing bracket or brace stands for
nothing by itself: this is the ECMAScript grammar as it is written, while an
implementation may take either of them as a literal character. -/
def token (c : Char) (rest : List Char) : Option (Token × List Char) :=
  match c with
  | '^' => some (.assertion .start, rest)
  | '$' => some (.assertion .finish, rest)
  | '.' => some (.atom (.set fun a => !isLineTerminator a), rest)
  | '*' => some (.quantifier 0 none, rest)
  | '+' => some (.quantifier 1 none, rest)
  | '(' => some (.opening, rest)
  | ')' => some (.closing, rest)
  | '|' => some (.bar, rest)
  | '[' => (characterClass rest).map fun (p, rest) => (.atom (.set p), rest)
  | '\x7b' => bounds rest
  | '\x5c' => escape rest
  | '?' | ']' | '\x7d' => none
  | c => some (.atom (.set fun a => a == c), rest)

/-- Every token takes at least one character. -/
def tokens : Nat → List Char → Option (List Token)
  | _, [] => some []
  | 0, _ :: _ => none
  | fuel + 1, c :: rest =>
      (token c rest).bind fun (first, rest) => (tokens fuel rest).map (first :: ·)

/-- A group that is open: its number, the alternatives to the left of the last bar, the
terms since then with the newest first, and whether the newest one may be quantified. -/
structure Frame where
  index : Nat
  left : Option (Regex Char)
  terms : List (Regex Char)
  quantifiable : Bool

structure Parser where
  frame : Frame
  outer : List Frame
  count : Nat

def Frame.initial (index : Nat) : Frame := ⟨index, none, [], false⟩

def Parser.initial : Parser := ⟨.initial 0, [], 0⟩

def Frame.add (frame : Frame) (regex : Regex Char) (quantifiable : Bool) : Frame :=
  { frame with terms := regex :: frame.terms, quantifiable }

/-- The expression that the frame has read. -/
def Frame.regex (frame : Frame) : Regex Char :=
  let right := Regex.concatAll frame.terms.reverse
  match frame.left with
  | none => right
  | some left => .either left right

def Parser.step (parser : Parser) : Token → Option Parser
  | .atom regex => some { parser with frame := parser.frame.add regex true }
  | .assertion regex => some { parser with frame := parser.frame.add regex false }
  | .quantifier least most =>
      match parser.frame.terms, parser.frame.quantifiable with
      | last :: terms, true =>
          some { parser with
            frame :=
              { parser.frame with
                terms := .repeated least most last :: terms, quantifiable := false } }
      | _, _ => none
  | .opening =>
      some ⟨.initial (parser.count + 1), parser.frame :: parser.outer, parser.count + 1⟩
  | .closing =>
      match parser.outer with
      | enclosing :: outer =>
          some { parser with
            frame := enclosing.add (.group parser.frame.index parser.frame.regex) true, outer }
      | [] => none
  | .bar =>
      some { parser with
        frame := { parser.frame with
          left := some parser.frame.regex, terms := [], quantifiable := false } }

/-- The group that a backreference names exists. -/
def Token.refersWithin (count : Nat) : Token → Bool
  | .atom (.backreference index) => index ≤ count
  | _ => true

/-- A compiled expression with the number of its groups. -/
structure Compiled where
  regex : Regex Char
  markCount : Nat

/-- Compile a text, or fail as the constructor of `std::regex` does. -/
def compile (text : String) : Option Compiled :=
  (tokens text.length text.toList).bind fun list =>
    (list.foldlM Parser.step Parser.initial).bind fun parser =>
      if parser.outer.isEmpty && list.all (Token.refersWithin parser.count) then
        some ⟨parser.frame.regex, parser.count⟩
      else none

/-- The characters that do not stand for themselves. -/
def isSyntax (c : Char) : Bool := "^$\\.*+?()[]\x7b\x7d|".toList.contains c

theorem token_of_not_isSyntax {c : Char} (h : isSyntax c = false) (rest : List Char) :
    token c rest = some (.atom (.set fun a => a == c), rest) := by
  unfold token
  split <;> first
  | rfl
  | exact absurd h (by decide)

theorem tokens_cons {fuel : Nat} {c : Char} {rest more : List Char} {first : Token}
    (h : token c rest = some (first, more)) :
    tokens (fuel + 1) (c :: rest) = (tokens fuel more).map (first :: ·) := by
  rw [tokens, h, Option.bind_some]

/-- A property that the rest of the text keeps gives each token another one. -/
theorem forall_tokens {Q : List Char → Prop} {P : Token → Prop}
    (hToken : ∀ c rest first more, Q (c :: rest) → token c rest = some (first, more) →
      P first ∧ Q more)
    {fuel : Nat} {text : List Char} {list : List Token} (hText : Q text)
    (h : tokens fuel text = some list) : ∀ t ∈ list, P t := by
  induction fuel generalizing text list with
  | zero =>
      cases text with
      | nil =>
          obtain rfl : [] = list := by simpa [tokens] using h
          simp
      | cons c rest => simp [tokens] at h
  | succ fuel ih =>
      cases text with
      | nil =>
          obtain rfl : [] = list := by simpa [tokens] using h
          simp
      | cons c rest =>
          obtain ⟨⟨first, more⟩, hFirst, hRest⟩ := Option.bind_eq_some_iff.mp h
          obtain ⟨others, hOthers, rfl⟩ := Option.map_eq_some_iff.mp hRest
          obtain ⟨hHead, hMore⟩ := hToken c rest first more hText hFirst
          exact List.forall_mem_cons.mpr ⟨hHead, ih hMore hOthers⟩

open Regex

/-- The expression that a token stands for cannot tell a character from its image. -/
def Token.Blind (f : Char → Char) : Token → Prop
  | .atom regex | .assertion regex => regex.Blind f
  | _ => True

structure Frame.Blind (f : Char → Char) (frame : Frame) : Prop where
  left : ∀ left, frame.left = some left → left.Blind f
  terms : ∀ term ∈ frame.terms, term.Blind f

structure Parser.Blind (f : Char → Char) (parser : Parser) : Prop where
  frame : parser.frame.Blind f
  outer : ∀ frame ∈ parser.outer, frame.Blind f

section Blind

variable {f : Char → Char} {frame : Frame} {parser next : Parser}

theorem blind_concatAll {list : List (Regex Char)} (h : ∀ regex ∈ list, regex.Blind f) :
    (concatAll list).Blind f := by
  induction list with
  | nil => trivial
  | cons first rest ih =>
      have hParts := List.forall_mem_cons.mp h
      exact ⟨hParts.1, ih hParts.2⟩

theorem Frame.Blind.regex (h : frame.Blind f) : frame.regex.Blind f := by
  have hRight : (concatAll frame.terms.reverse).Blind f :=
    blind_concatAll fun term hTerm => h.terms term (List.mem_reverse.mp hTerm)
  unfold Frame.regex
  cases hLeft : frame.left with
  | none => exact hRight
  | some left => exact ⟨h.left left hLeft, hRight⟩

theorem Frame.Blind.add (h : frame.Blind f) {regex : Regex Char} (hRegex : regex.Blind f)
    (quantifiable : Bool) : (frame.add regex quantifiable).Blind f :=
  ⟨h.left, List.forall_mem_cons.mpr ⟨hRegex, h.terms⟩⟩

theorem Parser.Blind.step (h : parser.Blind f) {t : Token} (hToken : t.Blind f)
    (hStep : parser.step t = some next) : next.Blind f := by
  cases t with
  | atom regex | assertion regex =>
      obtain rfl := Option.some.inj hStep
      exact ⟨h.frame.add hToken _, h.outer⟩
  | quantifier least most =>
      simp only [Parser.step] at hStep
      split at hStep
      · next last terms hTerms _ =>
          obtain rfl := Option.some.inj hStep
          have hParts := List.forall_mem_cons.mp (hTerms ▸ h.frame.terms)
          exact ⟨⟨h.frame.left, List.forall_mem_cons.mpr hParts⟩, h.outer⟩
      · simp at hStep
  | opening =>
      obtain rfl := Option.some.inj hStep
      refine ⟨⟨?_, ?_⟩, List.forall_mem_cons.mpr ⟨h.frame, h.outer⟩⟩
      · simp [Frame.initial]
      · simp [Frame.initial]
  | closing =>
      simp only [Parser.step] at hStep
      split at hStep
      · next enclosing outer hOuter =>
          obtain rfl := Option.some.inj hStep
          have hParts := List.forall_mem_cons.mp (hOuter ▸ h.outer)
          have hGroup : (group parser.frame.index parser.frame.regex).Blind f := h.frame.regex
          exact ⟨hParts.1.add hGroup _, hParts.2⟩
      · simp at hStep
  | bar =>
      obtain rfl := Option.some.inj hStep
      refine ⟨⟨?_, ?_⟩, h.outer⟩
      · rintro left hLeft
        obtain rfl := Option.some.inj hLeft
        exact h.frame.regex
      · simp

theorem Parser.Blind.foldlM (h : parser.Blind f) {list : List Token} (hList : ∀ t ∈ list, t.Blind f)
    (hRun : list.foldlM Parser.step parser = some next) : next.Blind f := by
  induction list generalizing parser with
  | nil =>
      obtain rfl := Option.some.inj hRun
      exact h
  | cons first rest ih =>
      have hParts := List.forall_mem_cons.mp hList
      obtain ⟨middle, hFirst, hRest⟩ := Option.bind_eq_some_iff.mp hRun
      exact ih (h.step hParts.1 hFirst) hParts.2 hRest

/-- What is compiled from blind tokens is blind. -/
theorem blind_of_compile {Q : List Char → Prop} {text : String} {compiled : Compiled}
    (hToken : ∀ c rest first more, Q (c :: rest) → token c rest = some (first, more) →
      first.Blind f ∧ Q more)
    (hText : Q text.toList) (h : compile text = some compiled) : compiled.regex.Blind f := by
  obtain ⟨list, hTokens, hRest⟩ := Option.bind_eq_some_iff.mp h
  obtain ⟨parser, hParser, hResult⟩ := Option.bind_eq_some_iff.mp hRest
  have hInitial : Parser.initial.Blind f := by
    refine ⟨⟨?_, ?_⟩, ?_⟩ <;> simp [Parser.initial, Frame.initial]
  have hBlind := hInitial.foldlM (forall_tokens hToken hText hTokens) hParser
  split at hResult
  · obtain rfl := Option.some.inj hResult
    exact hBlind.frame.regex
  · simp at hResult

end Blind

end RegexSyntax
