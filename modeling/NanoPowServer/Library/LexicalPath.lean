import Mathlib.Data.List.Chain
import Mathlib.Data.List.Infix

/-! File names on a POSIX system, read without looking at the files: a name is cut
at its slashes, and its parts are followed from a directory. A directory is the
list of the names that lead to it from the root. -/
namespace LexicalPath

abbrev Name := List Char

def segments (path : List Char) : List Name := path.splitOn '/'

/-- Follow one part: an empty one and `.` stay, `..` leaves the directory. -/
def follow (directory : List Name) (segment : Name) : List Name :=
  if segment = [] ∨ segment = ['.'] then directory
  else if segment = ['.', '.'] then directory.dropLast
  else directory ++ [segment]

/-- Where a name leads from a working directory. -/
def resolve (cwd : List Name) (path : List Char) : List Name :=
  (segments path).foldl follow (if path.head? = some '/' then [] else cwd)

theorem segments_append (front back : List Char) :
    segments (front ++ '/' :: back) = segments front ++ segments back :=
  List.splitOn_append_cons_self front back

/-- A name that is appended after a slash is followed from where the first one
leads. -/
theorem resolve_append (cwd : List Name) {front : List Char} (hFront : front ≠ [])
    (back : List Char) :
    resolve cwd (front ++ '/' :: back) = (segments back).foldl follow (resolve cwd front) := by
  unfold resolve
  rw [segments_append, List.foldl_append, List.head?_append_of_ne_nil _ hFront]

/-- A slash at the end changes nothing. -/
theorem resolve_slash (cwd : List Name) {path : List Char} (hPath : path ≠ []) :
    resolve cwd (path ++ ['/']) = resolve cwd path := by
  rw [resolve_append cwd hPath]
  rfl

/-- Parts none of which is `..` stay below the directory they are followed from. -/
theorem foldl_follow_initial {parts : List Name} (h : ∀ part ∈ parts, part ≠ ['.', '.'])
    (directory : List Name) : directory <+: parts.foldl follow directory := by
  induction parts generalizing directory with
  | nil => exact List.prefix_refl directory
  | cons part rest ih =>
      have hRest := ih (fun other hMem => h other (by simp [hMem])) (follow directory part)
      refine List.IsPrefix.trans ?_ hRest
      unfold follow
      rw [if_neg (h part (by simp))]
      split
      · exact List.prefix_refl directory
      · exact List.prefix_append directory [part]

theorem infix_intercalate {parts : List Name} {part : Name} (h : part ∈ parts)
    (separator : List Char) : part <:+: separator.intercalate parts := by
  induction parts with
  | nil => simp at h
  | cons first rest ih =>
      cases hRest : rest with
      | nil =>
          obtain rfl : part = first := by simpa [hRest] using h
          rw [List.intercalate_singleton]
      | cons second later =>
          rw [List.intercalate_cons_cons, ← hRest]
          rcases List.mem_cons.mp h with rfl | hMem
          · rw [List.append_assoc]
            exact List.infix_append_left
          · exact List.infix_append_of_infix_right (ih hMem)

/-- Every part is a piece of the name. -/
theorem infix_of_mem_segments {path : List Char} {part : Name} (h : part ∈ segments path) :
    part <:+: path := by
  have hInfix := infix_intercalate h ['/']
  rwa [segments, List.intercalate_splitOn] at hInfix

/-- A name in which no two dots stand side by side has no part `..`. -/
theorem ne_parent_of_isChain {path : List Char}
    (h : path.IsChain fun c next => ¬ (c = '.' ∧ next = '.')) :
    ∀ part ∈ segments path, part ≠ ['.', '.'] := by
  rintro part hMem rfl
  have hPart := h.infix (infix_of_mem_segments hMem)
  simp at hPart

/-- The same, for a name that does not contain two dots. -/
theorem isChain_of_not_infix {path : List Char} (h : ¬ ['.', '.'] <:+: path) :
    path.IsChain fun c next => ¬ (c = '.' ∧ next = '.') := by
  rw [List.isChain_iff_forall_rel_of_append_cons_cons]
  rintro c next front back rfl ⟨rfl, rfl⟩
  exact h ⟨front, back, by simp⟩

end LexicalPath
