import NanoPowServer.Library.LexicalPath
import NanoPowServer.WebServer.HttpSession

/-! How `handle_request` finds what to respond: the checks on the target, the
endpoints, and the static files below the document root. -/
namespace NanoPowServer.WebServer

open LexicalPath

/-- Configuration options passed to sessions. -/
structure WebConfig where
  staticPagesAllowRemote : Bool := false
  staticPagesAllow : Bool := true

inductive Verb where
  | get
  | head
  | post
  | delete
  | other (name : String)
  deriving DecidableEq

/-- An HTTP REST endpoint. `captures` are the groups that `regex_search` finds in
a target, and the handler gets the body of the request and these. -/
structure RestEndpoint where
  verb : Verb
  path : Pattern
  captures : String → List String
  handler : String → List String → Handling

/-- What opening a file comes to. -/
inductive OpenResult where
  | opened (contents : String)
  | noSuchFile
  | failed (message : String)

/-- The file names that were passed to `open`, and the response. -/
structure Handled where
  opened : List String
  handling : Handling

/-- Append an HTTP rel-path to a local filesystem path. -/
def pathCat (base path : String) : String :=
  if base = "" then path
  else
    let result := base.toList
    let result := if result.getLast? = some '/' then result.dropLast else result
    String.ofList (result ++ path.toList)

/-- The part of a string that its C form shows. -/
def cStr (path : String) : String := String.ofList (path.toList.takeWhile (· ≠ '\x00'))

/-- Request path must be absolute and not contain two dots side by side. -/
def isIllegal (target : String) : Bool :=
  target = "" || target.toList.head? ≠ some '/' || decide (['.', '.'] <:+: target.toList)

/-- The response once no other file is going to be tried. -/
def respondFile (verb : Verb) (target : String) : OpenResult → Handling
  | .noSuchFile => .send ("The resource '" ++ target ++ "' was not found.")
  | .failed message => .send ("An error occurred: '" ++ message ++ "'")
  | .opened contents => .send (if verb = .head then "" else contents)

/-- The static file of a target, or `index.html` if there is no such file. -/
def handleFile (docRoot : String) (files : String → OpenResult) (verb : Verb) (target : String) :
    Handled :=
  let path := pathCat docRoot target
  let path := if target.toList.getLast? = some '/' then path ++ "index.html" else path
  match files (cStr path) with
  | .noSuchFile =>
      let index := pathCat docRoot "/index.html"
      ⟨[path, index], respondFile verb target (files (cStr index))⟩
  | result => ⟨[path], respondFile verb target result⟩

def handleRequest (conf : WebConfig) (handlers : List RestEndpoint) (docRoot : String)
    (isLoopback : Bool) (files : String → OpenResult) (verb : Verb) (target body : String) :
    Handled :=
  if isIllegal target then ⟨[], .send "Illegal request-target"⟩
  else
    match handlers.find? fun handler => handler.path target && handler.verb == verb with
    | some handler => ⟨[], handler.handler body (handler.captures target)⟩
    | none =>
        if !conf.staticPagesAllow || (!conf.staticPagesAllowRemote && !isLoopback) then
          ⟨[], .send "Access denied"⟩
        else handleFile docRoot files verb target

/-- The names that lead from the root to what a string denotes. -/
def location (cwd : List Name) (path : String) : List Name := resolve cwd (cStr path).toList

/-- Only permitted files are opened, and only below the document root. -/
def Confined (conf : WebConfig) (docRoot : String) (isLoopback : Bool) (cwd : List Name)
    (handled : Handled) : Prop :=
  ∀ path ∈ handled.opened,
    conf.staticPagesAllow = true ∧ (conf.staticPagesAllowRemote = true ∨ isLoopback = true) ∧
      location cwd docRoot <+: location cwd path

theorem cStr_toList (path : String) :
    (cStr path).toList = path.toList.takeWhile (· ≠ '\x00') := String.toList_ofList

/-- The document root, with or without a slash at its end, and what is left of it
in front of the target. -/
theorem pathCat_eq {base : String} (hBase : base ≠ "") (path : String) :
    ∃ front, (pathCat base path).toList = front ++ path.toList ∧
      (base.toList = front ∨ base.toList = front ++ ['/']) := by
  unfold pathCat
  rw [if_neg hBase]
  dsimp only
  rw [String.toList_ofList]
  split
  · next hSlash =>
      refine ⟨base.toList.dropLast, rfl, .inr ?_⟩
      exact (List.dropLast_append_getLast? _ hSlash).symm
  · exact ⟨base.toList, rfl, .inl rfl⟩

/-- Cutting at a null character either leaves the front alone or removes all that
was appended to it. -/
theorem takeWhile_cut (front : List Char) :
    (∀ tail, (front ++ tail).takeWhile (· ≠ '\x00') = front ++ tail.takeWhile (· ≠ '\x00')) ∨
      ∀ tail, (front ++ tail).takeWhile (· ≠ '\x00') = front.takeWhile (· ≠ '\x00') := by
  by_cases hWhole : (front.takeWhile (· ≠ '\x00')).length = front.length
  · refine .inl fun tail => ?_
    rw [List.takeWhile_append, if_pos hWhole]
  · refine .inr fun tail => ?_
    rw [List.takeWhile_append, if_neg hWhole]

/-- What is appended to a document root that is not empty stays below it. -/
theorem location_pathCat {base : String} (hBase : base ≠ "") {path : String}
    {back : List Char} (hPath : path.toList = '/' :: back)
    (hDots : path.toList.IsChain fun c next => ¬ (c = '.' ∧ next = '.')) (cwd : List Name) :
    location cwd base <+: location cwd (pathCat base path) := by
  obtain ⟨front, hCat, hFront⟩ := pathCat_eq hBase path
  unfold location
  rw [cStr_toList, cStr_toList, hCat, hPath]
  rcases takeWhile_cut front with hWhole | hCut
  · have hRest : (front ++ '/' :: back).takeWhile (· ≠ '\x00') =
        front ++ '/' :: back.takeWhile (· ≠ '\x00') := by
      rw [hWhole]
      simp
    have hSegments : ∀ part ∈ segments (back.takeWhile (· ≠ '\x00')), part ≠ ['.', '.'] := by
      apply ne_parent_of_isChain
      rw [hPath] at hDots
      exact hDots.tail.prefix (List.takeWhile_prefix _)
    rw [hRest]
    by_cases hEmpty : front = []
    · -- The document root is the root of the file system.
      have hBase : base.toList = ['/'] := by
        subst hEmpty
        rcases hFront with hSame | hSlash
        · exact absurd (String.toList_eq_nil_iff.mp hSame) hBase
        · exact hSlash
      rw [hBase]
      exact List.nil_prefix
    · have hRoot : resolve cwd (base.toList.takeWhile (· ≠ '\x00')) = resolve cwd front := by
        rcases hFront with hSame | hSlash
        · have hNone := hWhole []
          rw [hSame]
          simp only [List.append_nil, List.takeWhile_nil] at hNone
          rw [hNone]
        · rw [hSlash, hWhole]
          exact resolve_slash cwd hEmpty
      rw [hRoot, resolve_append cwd hEmpty]
      exact foldl_follow_initial hSegments _
  · have hRoot : base.toList.takeWhile (· ≠ '\x00') = front.takeWhile (· ≠ '\x00') := by
      rcases hFront with hSame | hSlash
      · rw [hSame]
      · rw [hSlash, hCut]
    rw [hRoot, hCut]

theorem isIllegal_eq_false {target : String} (h : isIllegal target = false) :
    ∃ back, target.toList = '/' :: back ∧
      target.toList.IsChain fun c next => ¬ (c = '.' ∧ next = '.') := by
  simp only [isIllegal, Bool.or_eq_false_iff, decide_eq_false_iff_not, ne_eq, not_not] at h
  obtain ⟨⟨-, hSlash⟩, hDots⟩ := h
  obtain ⟨back, hBack⟩ := List.head?_eq_some_iff.mp hSlash
  exact ⟨back, hBack, isChain_of_not_infix hDots⟩

theorem pathCat_append (base path rest : String) :
    pathCat base path ++ rest = pathCat base (path ++ rest) := by
  apply String.toList_inj.mp
  unfold pathCat
  split <;> simp

/-- Every file that is tried is the document root with something appended to it
that starts with a slash and does not contain two dots side by side. -/
theorem opened_handleFile (docRoot : String) (files : String → OpenResult) (verb : Verb)
    {target : String} (h : isIllegal target = false) :
    ∀ path ∈ (handleFile docRoot files verb target).opened, ∃ rest back,
      path = pathCat docRoot rest ∧ rest.toList = '/' :: back ∧
        rest.toList.IsChain fun c next => ¬ (c = '.' ∧ next = '.') := by
  obtain ⟨back, hTarget, hDots⟩ := isIllegal_eq_false h
  have hFirst : ∃ rest back, (if target.toList.getLast? = some '/' then
      pathCat docRoot target ++ "index.html" else pathCat docRoot target) = pathCat docRoot rest ∧
        rest.toList = '/' :: back ∧ rest.toList.IsChain fun c next => ¬ (c = '.' ∧ next = '.') := by
    split
    · next hSlash =>
        refine ⟨target ++ "index.html", back ++ "index.html".toList,
          pathCat_append docRoot target "index.html", ?_, ?_⟩
        · simp [hTarget]
        · rw [String.toList_append]
          refine hDots.append (by decide) ?_
          intro c hLast next _
          obtain rfl : '/' = c := by simpa [hSlash] using hLast
          simp
    · exact ⟨target, back, rfl, hTarget, hDots⟩
  have hIndex : ∃ rest back, pathCat docRoot "/index.html" = pathCat docRoot rest ∧
      rest.toList = '/' :: back ∧
        rest.toList.IsChain fun c next => ¬ (c = '.' ∧ next = '.') :=
    ⟨"/index.html", _, rfl, rfl, by decide⟩
  unfold handleFile
  dsimp only
  split
  · intro path hMem
    rcases List.mem_cons.mp hMem with rfl | hMem
    · exact hFirst
    · obtain rfl := List.mem_singleton.mp hMem
      exact hIndex
  · intro path hMem
    obtain rfl := List.mem_singleton.mp hMem
    exact hFirst

/-- Files are tried only for a legal target, and only if the configuration permits
it to this peer. -/
theorem opened_handleRequest {conf : WebConfig} {handlers : List RestEndpoint}
    {docRoot : String} {isLoopback : Bool} {files : String → OpenResult} {verb : Verb}
    {target body : String} {path : String}
    (h : path ∈ (handleRequest conf handlers docRoot isLoopback files verb target body).opened) :
    isIllegal target = false ∧ conf.staticPagesAllow = true ∧
      (conf.staticPagesAllowRemote = true ∨ isLoopback = true) ∧
      path ∈ (handleFile docRoot files verb target).opened := by
  unfold handleRequest at h
  split at h
  · simp at h
  · next hLegal =>
      split at h
      · simp at h
      · split at h
        · simp at h
        · next hAllowed =>
            simp only [Bool.or_eq_true, Bool.and_eq_true, Bool.not_eq_true', not_or,
              not_and, Bool.not_eq_false] at hAllowed
            refine ⟨by simpa using hLegal, hAllowed.1, ?_, h⟩
            cases hRemote : conf.staticPagesAllowRemote with
            | true => exact .inl rfl
            | false => exact .inr (hAllowed.2 hRemote)

/-- Static files are confined to the document root, for every request, on any
endpoints and any files, exactly if the document root is not the empty string; an
empty one is harmless only where the working directory is the root, or no static
files are served. -/
theorem confined_iff (conf : WebConfig) (docRoot : String) (cwd : List Name) :
    (∀ (handlers : List RestEndpoint) (isLoopback : Bool) (files : String → OpenResult)
        (verb : Verb) (target body : String),
      Confined conf docRoot isLoopback cwd
        (handleRequest conf handlers docRoot isLoopback files verb target body)) ↔
      docRoot ≠ "" ∨ cwd = [] ∨ conf.staticPagesAllow = false := by
  constructor
  · intro hConfined
    by_contra hExposed
    obtain ⟨hRoot, hCwd, hAllow⟩ : docRoot = "" ∧ cwd ≠ [] ∧ conf.staticPagesAllow = true := by
      simpa [not_or] using hExposed
    subst hRoot
    -- The target names the root of the file system, whatever the working directory.
    have hOpened : (handleRequest conf [] "" true (fun _ => .opened "") .get "/." "").opened =
        ["/."] := by
      have hLegal : isIllegal "/." = false := by decide
      simp only [handleRequest, hLegal, hAllow, Bool.not_true, Bool.and_false, Bool.or_self,
        List.find?_nil, Bool.false_eq_true, if_false]
      rfl
    have hInside := (hConfined [] true (fun _ => .opened "") .get "/." "" "/." (by simp [hOpened])).2.2
    exact hCwd (List.prefix_nil.mp hInside)
  · intro hCondition handlers isLoopback files verb target body path hMem
    obtain ⟨hLegal, hAllow, hPeer, hMem⟩ := opened_handleRequest hMem
    refine ⟨hAllow, hPeer, ?_⟩
    obtain ⟨rest, back, rfl, hRest, hDots⟩ := opened_handleFile docRoot files verb hLegal path hMem
    rcases hCondition with hRoot | rfl | hDenied
    · exact location_pathCat hRoot hRest hDots cwd
    · by_cases hRoot : docRoot = ""
      · subst hRoot
        exact List.nil_prefix
      · exact location_pathCat hRoot hRest hDots []
    · simp [hAllow] at hDenied

/-- With an empty document root, a server that runs in `/srv` gives out a file of
`/etc`. -/
theorem not_confined_empty :
    ¬ ∀ (conf : WebConfig) (docRoot : String) (cwd : List Name) (handlers : List RestEndpoint)
        (isLoopback : Bool) (files : String → OpenResult) (verb : Verb) (target body : String),
      Confined conf docRoot isLoopback cwd
        (handleRequest conf handlers docRoot isLoopback files verb target body) := by
  intro hAll
  have hHandled : handleRequest {} [] "" true (fun _ => .opened "root") .get "/etc/passwd" "" =
      ⟨["/etc/passwd"], .send "root"⟩ := by rfl
  have hInside := hAll {} "" ["srv".toList] [] true (fun _ => .opened "root") .get "/etc/passwd" ""
  rw [hHandled] at hInside
  have hEtc : ["srv".toList] <+: ["etc".toList, "passwd".toList] :=
    (hInside "/etc/passwd" (by simp)).2.2
  simp at hEtc

end NanoPowServer.WebServer
