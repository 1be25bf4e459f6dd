import Mathlib.Algebra.Group.Int.Defs
import Mathlib.Algebra.Group.Nat.Defs
import Mathlib.Data.List.Basic

/-! Configuration texts of one key or one table header a line: what they say, and what
becomes of it when they are edited. Texts are lists of characters. -/
namespace Toml

/-- The scalars that are told apart, and everything else. -/
inductive Value where
  | string (text : String)
  | integer (value : Int)
  | boolean (value : Bool)
  | other (text : String)
  deriving DecidableEq

/-- Keys are looked up, their order says nothing. -/
abbrev Table : Type := String → Option Value

inductive Item where
  | value (value : Value)
  | table (table : Table)
  | tableArray (tables : List Table)

abbrev Document : Type := String → Option Item

inductive Line where
  | blank
  | header (name : String)
  | comment (text : String)
  | item (key : String) (value : Value)
  deriving DecidableEq

def headers (lines : List Line) : List String :=
  lines.filterMap fun
    | .header name => some name
    | _ => none

/-- The items with the table that they stand in, if any. -/
def entries : Option String → List Line → List ((Option String × String) × Value)
  | _, [] => []
  | _, .header name :: rest => entries (some name) rest
  | table, .item key value :: rest => ((table, key), value) :: entries table rest
  | table, _ :: rest => entries table rest

/-- A header without items is an empty table. -/
def document (lines : List Line) : Document := fun name =>
  if name ∈ headers lines then
    some (.table fun key => (entries none lines).lookup (some name, key))
  else none

def isBareChar (c : Char) : Bool := c.isAlphanum || c = '_' || c = '-'

/-- A name that needs no quotation marks. -/
def IsBare (name : String) : Prop := name ≠ "" ∧ ∀ c ∈ name.toList, isBareChar c = true

-- The search for an instance may decide the second part over all characters.
instance (name : String) : Decidable (IsBare name) :=
  @instDecidableAnd _ _ inferInstance (List.decidableBAll _ _)

/-- Integers are limited to 64 bits. -/
def Value.IsScalar : Value → Prop
  | .integer value => -2 ^ 63 ≤ value ∧ value < 2 ^ 63
  | .other _ => False
  | _ => True

def Line.Valid : Line → Prop
  | .blank => True
  | .header name => IsBare name
  | .comment text => '\n' ∉ text.toList
  | .item key value => IsBare key ∧ value.IsScalar

/-- Each table and each of its keys is there once, and no item stands before the first
header. -/
structure WellFormed (lines : List Line) : Prop where
  valid : ∀ line ∈ lines, line.Valid
  headers_nodup : (headers lines).Nodup
  keys_nodup : ((entries none lines).map Prod.fst).Nodup
  sectioned : ∀ entry ∈ entries none lines, entry.1.1 ≠ none

/-- An item becomes a comment. -/
def Line.commentItem (render : String → Value → List Char) : Line → Line
  | .item key value => .comment (String.ofList (render key value))
  | line => line

def commentItems (render : String → Value → List Char) (lines : List Line) : List Line :=
  lines.map (Line.commentItem render)

/-- Give a key of a table another value. -/
def replaceValue (name key : String) (value : Value) : Option String → List Line → List Line
  | _, [] => []
  | _, .header other :: rest => .header other :: replaceValue name key value (some other) rest
  | table, .item other old :: rest =>
      .item other (if table = some name ∧ other = key then value else old) ::
        replaceValue name key value table rest
  | table, line :: rest => line :: replaceValue name key value table rest

namespace Document

def clear (document : Document) : Document := fun name =>
  (document name).map fun
    | .table _ => .table fun _ => none
    | item => item

def replaceValue (document : Document) (name key : String) (value : Value) : Document :=
  fun other => (document other).map fun
    | .table table => .table fun key' => (table key').map fun old =>
        if other = name ∧ key' = key then value else old
    | item => item

end Document

section Editing

variable {render : String → Value → List Char} {lines : List Line}

theorem headers_commentItems (render : String → Value → List Char) (lines : List Line) :
    headers (commentItems render lines) = headers lines := by
  induction lines with
  | nil => rfl
  | cons line rest ih => cases line <;> simp_all [headers, commentItems, Line.commentItem]

theorem entries_commentItems (render : String → Value → List Char) (table : Option String)
    (lines : List Line) : entries table (commentItems render lines) = [] := by
  induction lines generalizing table with
  | nil => rfl
  | cons line rest ih => cases line <;> exact ih _

/-- Where all items are comments, the tables are empty. -/
theorem document_commentItems (render : String → Value → List Char) (lines : List Line) :
    document (commentItems render lines) = (document lines).clear := by
  funext name
  simp only [document, headers_commentItems, entries_commentItems, Document.clear]
  split <;> rfl

theorem WellFormed.commentItems (h : WellFormed lines)
    (hRender : ∀ key value, .item key value ∈ lines → '\n' ∉ render key value) :
    WellFormed (commentItems render lines) where
  valid := by
    intro line hMem
    obtain ⟨old, hOld, rfl⟩ := List.mem_map.mp hMem
    cases old with
    | item key value => simpa [Line.Valid, Line.commentItem] using hRender key value hOld
    | blank | header | comment => exact h.valid _ hOld
  headers_nodup := by
    rw [headers_commentItems]
    exact h.headers_nodup
  keys_nodup := by simp [entries_commentItems]
  sectioned := by simp [entries_commentItems]

variable {name key : String} {value : Value}

theorem headers_replaceValue (name key : String) (value : Value) (table : Option String)
    (lines : List Line) : headers (replaceValue name key value table lines) = headers lines := by
  induction lines generalizing table with
  | nil => rfl
  | cons line rest ih =>
      cases line with
      | header other => exact congrArg (other :: ·) (ih _)
      | blank | comment | item => exact ih _

theorem entries_replaceValue (name key : String) (value : Value) (table : Option String)
    (lines : List Line) :
    entries table (replaceValue name key value table lines) =
      (entries table lines).map fun entry =>
        (entry.1, if entry.1 = (some name, key) then value else entry.2) := by
  induction lines generalizing table with
  | nil => rfl
  | cons line rest ih =>
      cases line with
      | item other old => simp [replaceValue, entries, ih]
      | blank | comment | header => exact ih _

theorem lookup_cons_eq_ite {α β : Type} [BEq α] [LawfulBEq α] [DecidableEq α] (entry : α × β)
    (rest : List (α × β)) (key : α) :
    (entry :: rest).lookup key = if key = entry.1 then some entry.2 else rest.lookup key := by
  rw [List.lookup_cons]
  by_cases hKey : key = entry.1
  · simp [hKey]
  · rw [beq_eq_false_iff_ne.mpr hKey, if_neg hKey]

theorem lookup_map_snd {α β γ : Type} [BEq α] [LawfulBEq α] [DecidableEq α] (f : α → β → γ)
    (list : List (α × β)) (key : α) :
    (list.map fun entry => (entry.1, f entry.1 entry.2)).lookup key =
      (list.lookup key).map (f key) := by
  induction list with
  | nil => rfl
  | cons entry rest ih =>
      rw [List.map_cons, lookup_cons_eq_ite, lookup_cons_eq_ite, ih]
      by_cases hFirst : key = entry.1
      · rw [if_pos hFirst, if_pos hFirst, hFirst]
        rfl
      · rw [if_neg hFirst, if_neg hFirst]

theorem lookup_map_replace {α β : Type} [BEq α] [LawfulBEq α] [DecidableEq α] (list : List (α × β))
    (key key' : α) (value : β) :
    (list.map fun entry => (entry.1, if entry.1 = key then value else entry.2)).lookup key' =
      (list.lookup key').map fun old => if key' = key then value else old :=
  lookup_map_snd (fun first old => if first = key then value else old) list key'

/-- Only the key that is replaced has another value. -/
theorem document_replaceValue (name key : String) (value : Value) (lines : List Line) :
    document (replaceValue name key value none lines) =
      (document lines).replaceValue name key value := by
  funext other
  simp only [document, headers_replaceValue, entries_replaceValue, lookup_map_replace,
    Document.replaceValue, Prod.mk.injEq, Option.some.injEq]
  split <;> rfl

theorem valid_replaceValue (hValue : value.IsScalar) (table : Option String)
    (h : ∀ line ∈ lines, line.Valid) :
    ∀ line ∈ replaceValue name key value table lines, line.Valid := by
  induction lines generalizing table with
  | nil => simp [replaceValue]
  | cons line rest ih =>
      obtain ⟨hLine, hRest⟩ := List.forall_mem_cons.mp h
      cases line with
      | item other old =>
          refine List.forall_mem_cons.mpr ⟨⟨hLine.1, ?_⟩, ih table hRest⟩
          split
          · exact hValue
          · exact hLine.2
      | blank | comment | header => exact List.forall_mem_cons.mpr ⟨hLine, ih _ hRest⟩

theorem WellFormed.replaceValue (h : WellFormed lines) (hValue : value.IsScalar) :
    WellFormed (replaceValue name key value none lines) where
  valid := valid_replaceValue hValue none h.valid
  headers_nodup := by
    rw [headers_replaceValue]
    exact h.headers_nodup
  keys_nodup := by
    rw [entries_replaceValue, List.map_map]
    exact h.keys_nodup
  sectioned := by
    rw [entries_replaceValue]
    intro entry hMem
    obtain ⟨old, hOld, rfl⟩ := List.mem_map.mp hMem
    exact h.sectioned old hOld

end Editing

/-- Each line ends in a line feed. -/
def unlines (lines : List (List Char)) : List Char := lines.flatMap (· ++ ['\n'])

/-- Read line by line; the last line feed may be missing. -/
def getlines : List Char → List (List Char)
  | [] => []
  | c :: rest =>
      if c = '\n' then [] :: getlines rest
      else
        match getlines rest with
        | [] => [[c]]
        | line :: lines => (c :: line) :: lines

theorem getlines_append_newline {line : List Char} (h : '\n' ∉ line) (rest : List Char) :
    getlines (line ++ '\n' :: rest) = line :: getlines rest := by
  induction line with
  | nil => simp [getlines]
  | cons c line ih =>
      obtain ⟨hFirst, hLine⟩ := not_or.mp (List.mem_cons.not.mp h)
      rw [List.cons_append, getlines, if_neg (Ne.symm hFirst), ih hLine]

theorem getlines_unlines {lines : List (List Char)} (h : ∀ line ∈ lines, '\n' ∉ line) :
    getlines (unlines lines) = lines := by
  induction lines with
  | nil => rfl
  | cons line rest ih =>
      obtain ⟨hLine, hRest⟩ := List.forall_mem_cons.mp h
      rw [unlines, List.flatMap_cons, List.append_assoc, List.singleton_append,
        getlines_append_newline hLine, ← unlines, ih hRest]

/-- A line of text, given how items are written. -/
def Line.render (render : String → Value → List Char) : Line → List Char
  | .blank => []
  | .header name => '[' :: (name.toList ++ [']'])
  | .comment text => '#' :: text.toList
  | .item key value => render key value

def text (render : String → Value → List Char) (lines : List Line) : List Char :=
  unlines (lines.map (Line.render render))

theorem newline_notMem_of_bare {name : String} (h : IsBare name) : '\n' ∉ name.toList :=
  fun hMem => absurd (h.2 '\n' hMem) (by decide)

/-- Valid lines are lines of the text if items are. -/
theorem newline_notMem_render {render : String → Value → List Char}
    (hItem : ∀ key value, IsBare key → value.IsScalar → '\n' ∉ render key value) {line : Line}
    (h : line.Valid) : '\n' ∉ line.render render := by
  cases line with
  | blank => exact List.not_mem_nil
  | header name => simp [Line.render, newline_notMem_of_bare h]
  | comment text => simpa [Line.render, Line.Valid] using h
  | item key value => exact hItem key value h.1 h.2

theorem getlines_text {render : String → Value → List Char}
    (hItem : ∀ key value, IsBare key → value.IsScalar → '\n' ∉ render key value)
    {lines : List Line} (h : ∀ line ∈ lines, line.Valid) :
    getlines (text render lines) = lines.map (Line.render render) := by
  refine getlines_unlines fun line hMem => ?_
  obtain ⟨source, hSource, rfl⟩ := List.mem_map.mp hMem
  exact newline_notMem_render hItem (h source hSource)

structure Entry where
  key : String
  value : Value
  comment : String

abbrev Tables : Type := List (String × List Entry)

namespace Tables

def document (tables : Tables) : Document := fun name =>
  (tables.lookup name).map fun rows =>
    .table fun key => (rows.map fun row => (row.key, row.value)).lookup key

/-- Tables and the keys of each table have distinct bare names, and scalar values. -/
structure WellFormed (tables : Tables) : Prop where
  names_nodup : (tables.map Prod.fst).Nodup
  names_bare : ∀ table ∈ tables, IsBare table.1
  keys_nodup : ∀ table ∈ tables, (table.2.map Entry.key).Nodup
  rows_valid : ∀ table ∈ tables, ∀ row ∈ table.2, IsBare row.key ∧ row.value.IsScalar

def replaceValue (tables : Tables) (name key : String) (value : Value) : Tables :=
  tables.map fun table => (table.1,
    table.2.map fun row =>
      if table.1 = name ∧ row.key = key then { row with value := value } else row)

theorem document_replaceValue (tables : Tables) (name key : String) (value : Value) :
    (tables.replaceValue name key value).document =
      tables.document.replaceValue name key value := by
  funext other
  have hLookup := lookup_map_snd (fun first rows => rows.map fun row : Entry =>
    if first = name ∧ row.key = key then { row with value := value } else row) tables other
  rw [document, replaceValue, hLookup, Document.replaceValue, document]
  cases tables.lookup other with
  | none => rfl
  | some rows =>
      have hRows : (rows.map fun row : Entry =>
          if other = name ∧ row.key = key then { row with value := value } else row).map
            (fun row => (row.key, row.value)) =
          (rows.map fun row => (row.key, row.value)).map fun row =>
            (row.1, if other = name ∧ row.1 = key then value else row.2) := by
        simp only [List.map_map, Function.comp_def, apply_ite Entry.key, apply_ite Entry.value,
          ite_self]
      have hKeys := lookup_map_snd
        (fun first old => if other = name ∧ first = key then value else old)
        (rows.map fun row => (row.key, row.value))
      simp only [Option.map_some, hRows, hKeys]

end Tables

end Toml
