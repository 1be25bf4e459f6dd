import Mathlib.Data.List.Nodup
import Mathlib.Data.List.TakeWhile
import NanoPowServer.Library.Toml

/-! A writer and a reader of configuration texts, and that what is written is read
back. -/
namespace Toml

/-- Quotation marks and backslashes are escaped, and so are line feeds. -/
def escape (c : Char) : List Char :=
  if c = '\n' then ['\x5c', 'n']
  else if c = '\x22' ∨ c = '\x5c' then ['\x5c', c]
  else [c]

def renderInteger (value : Int) : List Char :=
  if value < 0 then '-' :: Nat.toDigits 10 value.natAbs else Nat.toDigits 10 value.natAbs

def renderValue : Value → List Char
  | .string text => '\x22' :: (text.toList.flatMap escape ++ ['\x22'])
  | .integer value => renderInteger value
  | .boolean true => ['t', 'r', 'u', 'e']
  | .boolean false => ['f', 'a', 'l', 's', 'e']
  | .other text => text.toList

def renderItem (key : String) (value : Value) : List Char :=
  key.toList ++ ' ' :: '=' :: ' ' :: renderValue value

/-- The characters up to the closing quotation mark, which ends the text. -/
def unescape : List Char → Option (List Char)
  | [] => none
  | [c] => if c = '\x22' then some [] else none
  | c :: d :: rest =>
      if c = '\x5c' then (unescape rest).map ((if d = 'n' then '\n' else d) :: ·)
      else if c = '\x22' then none
      else (unescape (d :: rest)).map (c :: ·)

def readDigits (digits : List Char) : Option Nat :=
  if digits ≠ [] ∧ digits.all Char.isDigit = true then some (Nat.ofDigitChars 10 digits 0) else none

def readInteger : List Char → Option Int
  | '-' :: digits => (readDigits digits).map fun value : Nat => -(value : Int)
  | digits => (readDigits digits).map Int.ofNat

def readValue : List Char → Option Value
  | ['t', 'r', 'u', 'e'] => some (.boolean true)
  | ['f', 'a', 'l', 's', 'e'] => some (.boolean false)
  | '\x22' :: rest => (unescape rest).map fun chars => .string (String.ofList chars)
  | digits => (readInteger digits).map .integer

def readItem (line : List Char) : Option Line :=
  let key := String.ofList (line.takeWhile isBareChar)
  match line.dropWhile isBareChar with
  | ' ' :: '=' :: ' ' :: value => if key = "" then none else (readValue value).map (.item key)
  | _ => none

def readHeader (rest : List Char) : Option Line :=
  let name := String.ofList (rest.takeWhile isBareChar)
  if rest.dropWhile isBareChar = [']'] ∧ name ≠ "" then some (.header name) else none

def readLine : List Char → Option Line
  | [] => some .blank
  | '#' :: rest => some (.comment (String.ofList rest))
  | '[' :: rest => readHeader rest
  | line => readItem line

def readLines (text : List Char) : Option (List Line) := (getlines text).mapM readLine

theorem unescape_cons {c : Char} (hQuote : c ≠ '\x22') (hBackslash : c ≠ '\x5c') {rest : List Char}
    (hRest : rest ≠ []) : unescape (c :: rest) = (unescape rest).map (c :: ·) := by
  cases rest with
  | nil => exact absurd rfl hRest
  | cons d rest => rw [unescape, if_neg hBackslash, if_neg hQuote]

theorem unescape_escape (chars : List Char) :
    unescape (chars.flatMap escape ++ ['\x22']) = some chars := by
  induction chars with
  | nil => rfl
  | cons c rest ih =>
      rw [List.flatMap_cons, List.append_assoc]
      by_cases hNewline : c = '\n'
      · have hEscape : escape c = ['\x5c', 'n'] := if_pos hNewline
        rw [hEscape, hNewline]
        simp [unescape, ih]
      by_cases hEscaped : c = '\x22' ∨ c = '\x5c'
      · have hEscape : escape c = ['\x5c', c] := by rw [escape, if_neg hNewline, if_pos hEscaped]
        have hLetter : c ≠ 'n' := by rcases hEscaped with rfl | rfl <;> decide
        simp [hEscape, unescape, hLetter, ih]
      · have hEscape : escape c = [c] := by rw [escape, if_neg hNewline, if_neg hEscaped]
        obtain ⟨hQuote, hBackslash⟩ := not_or.mp hEscaped
        rw [hEscape, List.singleton_append, unescape_cons hQuote hBackslash (by simp), ih]
        rfl

theorem readDigits_toDigits (value : Nat) : readDigits (Nat.toDigits 10 value) = some value := by
  have hAll : ∀ c ∈ Nat.toDigits 10 value, c.isDigit = true :=
    fun c hMem => Nat.isDigit_of_mem_toDigits (by decide) (by decide) hMem
  have hNonempty : Nat.toDigits 10 value ≠ [] := Nat.toDigits_ne_nil
  rw [readDigits, if_pos ⟨hNonempty, List.all_eq_true.mpr hAll⟩, Nat.ofDigitChars_ten_toDigits]

/-- Decimal digits do not start with a sign. -/
theorem readInteger_of_digits {digits : List Char} (h : ∀ c ∈ digits, c.isDigit = true) :
    readInteger digits = (readDigits digits).map Int.ofNat := by
  unfold readInteger
  split
  · exact absurd (h '-' List.mem_cons_self) (by decide)
  · rfl

theorem readInteger_renderInteger (value : Int) :
    readInteger (renderInteger value) = some value := by
  have hAll : ∀ c ∈ Nat.toDigits 10 value.natAbs, c.isDigit = true :=
    fun c hMem => Nat.isDigit_of_mem_toDigits (by decide) (by decide) hMem
  unfold renderInteger
  split_ifs with hNegative
  · rw [readInteger, readDigits_toDigits, Option.map_some]
    congr 1
    omega
  · rw [readInteger_of_digits hAll, readDigits_toDigits, Option.map_some]
    congr 1
    change (value.natAbs : Int) = value
    omega

/-- What stands first in an integer, a string or a boolean. -/
theorem renderInteger_head (value : Int) :
    ∃ c rest, renderInteger value = c :: rest ∧ (c = '-' ∨ c.isDigit = true) := by
  unfold renderInteger
  split_ifs with hNegative
  · exact ⟨'-', _, rfl, .inl rfl⟩
  · cases hDigits : Nat.toDigits 10 value.natAbs with
    | nil => exact absurd hDigits Nat.toDigits_ne_nil
    | cons c rest =>
        refine ⟨c, rest, rfl, .inr ?_⟩
        exact Nat.isDigit_of_mem_toDigits (by decide) (by decide) (hDigits ▸ List.mem_cons_self)

theorem readValue_renderValue {value : Value} (h : value.IsScalar) :
    readValue (renderValue value) = some value := by
  cases value with
  | string text =>
      rw [renderValue, readValue, unescape_escape, Option.map_some, String.ofList_toList]
  | integer value =>
      obtain ⟨c, rest, hText, hHead⟩ := renderInteger_head value
      have hRead : readValue (renderInteger value) =
          (readInteger (renderInteger value)).map .integer := by
        unfold readValue
        rw [hText]
        split
        · next hSame =>
            obtain rfl := (List.cons.inj hSame).1
            exact absurd hHead (by decide)
        · next hSame =>
            obtain rfl := (List.cons.inj hSame).1
            exact absurd hHead (by decide)
        · next hSame =>
            obtain rfl := (List.cons.inj hSame).1
            exact absurd hHead (by decide)
        · rfl
      rw [renderValue, hRead, readInteger_renderInteger, Option.map_some]
  | boolean value => cases value <;> rfl
  | other text => exact absurd h id

theorem takeWhile_bare_append {name : String} (h : IsBare name) {c : Char}
    (hStop : isBareChar c = false) (rest : List Char) :
    (name.toList ++ c :: rest).takeWhile isBareChar = name.toList ∧
      (name.toList ++ c :: rest).dropWhile isBareChar = c :: rest := by
  rw [List.takeWhile_append_of_pos h.2, List.dropWhile_append_of_pos h.2,
    List.takeWhile_cons_of_neg (by simp [hStop]), List.dropWhile_cons_of_neg (by simp [hStop]),
    List.append_nil]
  exact ⟨rfl, rfl⟩

/-- A bare name starts with a character of its own. -/
theorem IsBare.exists_head {name : String} (h : IsBare name) :
    ∃ c rest, name.toList = c :: rest ∧ isBareChar c = true := by
  cases hName : name.toList with
  | nil => exact absurd (String.toList_inj.mp hName) h.1
  | cons c rest => exact ⟨c, rest, rfl, h.2 c (hName ▸ List.mem_cons_self)⟩

theorem readItem_renderItem {key : String} {value : Value} (hKey : IsBare key)
    (hValue : value.IsScalar) : readItem (renderItem key value) = some (.item key value) := by
  have hStop : isBareChar ' ' = false := by decide
  obtain ⟨hTake, hDrop⟩ := takeWhile_bare_append hKey hStop ('=' :: ' ' :: renderValue value)
  unfold readItem renderItem
  rw [hTake, hDrop, String.ofList_toList]
  simp [hKey.1, readValue_renderValue hValue]

theorem readHeader_render {name : String} (h : IsBare name) :
    readHeader (name.toList ++ [']']) = some (.header name) := by
  have hStop : isBareChar ']' = false := by decide
  obtain ⟨hTake, hDrop⟩ := takeWhile_bare_append h hStop []
  unfold readHeader
  rw [hTake, hDrop, String.ofList_toList]
  simp [h.1]

theorem readLine_render {line : Line} (h : line.Valid) :
    readLine (line.render renderItem) = some line := by
  cases line with
  | blank => rfl
  | header name => exact readHeader_render h
  | comment text => exact congrArg (some ∘ Line.comment) String.ofList_toList
  | item key value =>
      obtain ⟨c, rest, hName, hBare⟩ := h.1.exists_head
      have hRead := readItem_renderItem h.1 h.2
      have hText : renderItem key value =
          c :: (rest ++ ' ' :: '=' :: ' ' :: renderValue value) := by
        rw [renderItem, hName, List.cons_append]
      rw [Line.render, ← hRead, hText]
      unfold readLine
      split
      · next hSame => cases hSame
      · next hSame =>
          obtain rfl := (List.cons.inj hSame).1
          exact absurd hBare (by decide)
      · next hSame =>
          obtain rfl := (List.cons.inj hSame).1
          exact absurd hBare (by decide)
      · rfl

theorem newline_notMem_toDigits (value : Nat) : '\n' ∉ Nat.toDigits 10 value := fun hMem =>
  absurd (Nat.isDigit_of_mem_toDigits (by decide) (by decide) hMem) (by decide)

theorem newline_notMem_escape (c : Char) : '\n' ∉ escape c := by
  unfold escape
  split_ifs with hNewline hEscaped
  · decide
  · simpa using Ne.symm hNewline
  · simpa using Ne.symm hNewline

/-- One item is one line. -/
theorem newline_notMem_renderItem {key : String} {value : Value} (hKey : IsBare key)
    (hValue : value.IsScalar) : '\n' ∉ renderItem key value := by
  have hText : '\n' ∉ renderValue value := by
    cases value with
    | string text =>
        have hEscape := newline_notMem_escape
        simp [renderValue, List.mem_flatMap, hEscape]
    | integer value =>
        have hDigits := newline_notMem_toDigits value.natAbs
        change '\n' ∉ renderInteger value
        unfold renderInteger
        split
        · exact List.mem_cons.not.mpr (not_or.mpr ⟨by decide, hDigits⟩)
        · exact hDigits
    | boolean value => cases value <;> decide
    | other text => exact absurd hValue id
  simp [renderItem, newline_notMem_of_bare hKey, hText]

/-- Valid lines are read back from their text. -/
theorem readLines_text {lines : List Line} (h : ∀ line ∈ lines, line.Valid) :
    readLines (text renderItem lines) = some lines := by
  rw [readLines, getlines_text (fun _ _ => newline_notMem_renderItem) h]
  induction lines with
  | nil => rfl
  | cons line rest ih =>
      obtain ⟨hLine, hRest⟩ := List.forall_mem_cons.mp h
      rw [List.map_cons, List.mapM_cons, readLine_render hLine, ih hRest]
      rfl

/-- The comment stands above its item. -/
def writeEntry (row : Entry) : List Line :=
  (getlines row.comment.toList).map (fun line => .comment (String.ofList (' ' :: line))) ++
    [.item row.key row.value]

def writeTable (table : String × List Entry) : List Line :=
  .header table.1 :: (table.2.flatMap writeEntry ++ [.blank])

def writeLines (tables : Tables) : List Line := tables.flatMap writeTable

theorem newline_notMem_getlines (text : List Char) : ∀ line ∈ getlines text, '\n' ∉ line := by
  induction text with
  | nil => simp [getlines]
  | cons c rest ih =>
      unfold getlines
      split_ifs with hNewline
      · exact List.forall_mem_cons.mpr ⟨List.not_mem_nil, ih⟩
      · cases hRest : getlines rest with
        | nil => simpa using Ne.symm hNewline
        | cons line lines =>
            rw [hRest] at ih
            obtain ⟨hLine, hLines⟩ := List.forall_mem_cons.mp ih
            refine List.forall_mem_cons.mpr ⟨?_, hLines⟩
            simpa [hLine] using Ne.symm hNewline

theorem headers_append (front back : List Line) :
    headers (front ++ back) = headers front ++ headers back := List.filterMap_append

theorem headers_writeEntry (row : Entry) : headers (writeEntry row) = [] := by
  simp [headers, writeEntry, List.filterMap_append, List.filterMap_map]

theorem headers_writeRows (rows : List Entry) : headers (rows.flatMap writeEntry) = [] := by
  induction rows with
  | nil => rfl
  | cons row rest ih =>
      rw [List.flatMap_cons, headers_append, headers_writeEntry, ih, List.nil_append]

theorem headers_writeTable (table : String × List Entry) :
    headers (writeTable table) = [table.1] := by
  rw [writeTable, headers, List.filterMap_cons, ← headers, headers_append, headers_writeRows]
  rfl

theorem headers_writeLines (tables : Tables) :
    headers (writeLines tables) = tables.map Prod.fst := by
  induction tables with
  | nil => rfl
  | cons table rest ih =>
      rw [writeLines, List.flatMap_cons, headers_append, headers_writeTable, ← writeLines, ih]
      rfl

theorem entries_comments (table : Option String) (comments : List (List Char)) (rest : List Line) :
    entries table (comments.map (fun line => .comment (String.ofList (' ' :: line))) ++ rest) =
      entries table rest := by
  induction comments with
  | nil => rfl
  | cons line comments ih => exact ih

theorem entries_writeRows (table : Option String) (rows : List Entry) (rest : List Line) :
    entries table (rows.flatMap writeEntry ++ rest) =
      rows.map (fun row => ((table, row.key), row.value)) ++ entries table rest := by
  induction rows with
  | nil => rfl
  | cons row rows ih =>
      rw [List.flatMap_cons, writeEntry, List.append_assoc, List.append_assoc, entries_comments,
        List.singleton_append, entries, ih]
      rfl

theorem entries_blank (table : Option String) (rest : List Line) :
    entries table (.blank :: rest) = entries table rest := rfl

/-- The items of each table, under its name. -/
theorem entries_writeLines (table : Option String) (tables : Tables) :
    entries table (writeLines tables) =
      tables.flatMap fun table => table.2.map fun row => ((some table.1, row.key), row.value) := by
  induction tables generalizing table with
  | nil => rfl
  | cons first rest ih =>
      rw [writeLines, List.flatMap_cons, ← writeLines, writeTable, List.cons_append, entries,
        List.append_assoc, entries_writeRows, List.singleton_append, entries_blank, ih,
        List.flatMap_cons]

theorem lookup_rows (name key table : String) (rows : List Entry) :
    (rows.map fun row => ((some table, row.key), row.value)).lookup (some name, key) =
      if name = table then (rows.map fun row => (row.key, row.value)).lookup key else none := by
  induction rows with
  | nil => simp
  | cons row rest ih =>
      rw [List.map_cons, List.map_cons, lookup_cons_eq_ite, lookup_cons_eq_ite, ih]
      by_cases hName : name = table <;> simp [hName]

theorem lookup_tables {tables : Tables} (h : (tables.map Prod.fst).Nodup) (name key : String) :
    (tables.flatMap fun table =>
        table.2.map fun row => ((some table.1, row.key), row.value)).lookup (some name, key) =
      (tables.lookup name).bind fun rows =>
        (rows.map fun row => (row.key, row.value)).lookup key := by
  induction tables with
  | nil => rfl
  | cons table rest ih =>
      obtain ⟨hFirst, hRest⟩ := List.nodup_cons.mp h
      rw [List.flatMap_cons, List.lookup_append, lookup_rows, ih hRest, lookup_cons_eq_ite]
      by_cases hName : name = table.1
      · -- The name does not come again.
        have hNone : rest.lookup name = none := by
          refine List.lookup_eq_none_iff.mpr fun other hOther => ?_
          rw [bne_iff_ne, hName]
          exact fun hSame => hFirst (hSame ▸ List.mem_map_of_mem hOther)
        rw [if_pos hName, if_pos hName, hNone, Option.bind_none, Option.or_none, Option.bind_some]
      · rw [if_neg hName, if_neg hName, Option.none_or]

theorem lookup_isSome_iff_mem {α β : Type} [BEq α] [LawfulBEq α] (list : List (α × β)) (key : α) :
    (list.lookup key).isSome = true ↔ key ∈ list.map Prod.fst := by
  rw [← Option.ne_none_iff_isSome, Ne, List.lookup_eq_none_iff]
  simp

/-- The layout says what the tables say. -/
theorem document_writeLines {tables : Tables} (h : tables.WellFormed) :
    document (writeLines tables) = tables.document := by
  funext name
  simp only [document, headers_writeLines, entries_writeLines, Tables.document,
    lookup_tables h.names_nodup, ← lookup_isSome_iff_mem tables name]
  cases tables.lookup name with
  | none => rfl
  | some rows => rfl

theorem wellFormed_writeLines {tables : Tables} (h : tables.WellFormed) :
    WellFormed (writeLines tables) where
  valid := by
    intro line hMem
    obtain ⟨table, hTable, hLine⟩ := List.mem_flatMap.mp hMem
    simp only [writeTable, List.mem_cons, List.mem_append, List.mem_flatMap, writeEntry,
      List.mem_map, List.not_mem_nil, or_false] at hLine
    rcases hLine with rfl | ⟨row, hRow, ⟨comment, hComment, rfl⟩ | rfl⟩ | rfl
    · exact h.names_bare table hTable
    · simpa [Line.Valid] using newline_notMem_getlines _ comment hComment
    · exact h.rows_valid table hTable row hRow
    · trivial
  headers_nodup := by
    rw [headers_writeLines]
    exact h.names_nodup
  keys_nodup := by
    rw [entries_writeLines, List.map_flatMap, List.nodup_flatMap]
    constructor
    · intro table hTable
      have hInjective : Function.Injective fun key : String => (some table.1, key) :=
        fun _ _ hSame => (Prod.mk.inj hSame).2
      have hKeys := (h.keys_nodup table hTable).map hInjective
      rw [List.map_map]
      rwa [List.map_map] at hKeys
    · -- Items of different tables have different tables.
      refine (List.pairwise_map.mp h.names_nodup).imp fun {first second} hNames => ?_
      intro key hFirst hSecond
      simp only [List.map_map, List.mem_map, Function.comp_def] at hFirst hSecond
      obtain ⟨row, -, rfl⟩ := hFirst
      obtain ⟨other, -, hSame⟩ := hSecond
      exact hNames (Option.some.inj (Prod.mk.inj hSame).1).symm
  sectioned := by
    rw [entries_writeLines]
    intro entry hMem
    obtain ⟨table, -, hEntry⟩ := List.mem_flatMap.mp hMem
    obtain ⟨row, -, rfl⟩ := List.mem_map.mp hEntry
    simp

end Toml
