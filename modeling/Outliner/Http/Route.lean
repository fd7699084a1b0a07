import Outliner.Http.Path
/-!
# Routes

Which operation a request asks for. A route is a method and a pattern of literal segments and
parameters; a parameter takes any one segment except the empty one after a trailing slash. A request
whose path is not clean is sent to its clean form (status 301).
-/

set_option autoImplicit false

namespace Outliner.Http

/-- The operations a request can ask for. -/
inductive Endpoint where
  | createDocument
  | listDocuments
  | getDocument (id : String)
  | deleteDocument (id : String)
  | renameDocument (id : String)
  | editOutline (id : String)
  | editTexts (id : String)
  | copyDocument (id : String)
  | setVisibility (id : String)
  | listCategories (id : String)
  | addCategory (id : String)
  | removeCategory (id name : String)
  | health
  | listSessions
  | revokeSession (id : String)
  deriving Repr, BEq, Inhabited

/-- A segment of a route's pattern. -/
inductive PatternSegment where
  | literal (s : String)
  | param
  deriving Repr, BEq, Inhabited

/-- A method, a pattern, and how the parameters make what the route leads to. -/
structure Route (α : Type) where
  method : String
  pattern : List PatternSegment
  endpoint : List String → α

def Route.map {α β : Type} (f : α → β) (r : Route α) : Route β := ⟨r.method, r.pattern, f ∘ r.endpoint⟩

def matchPattern : List PatternSegment → List String → Option (List String)
  | [], [] => some []
  | .literal l :: ps, s :: ss => if l = s then matchPattern ps ss else none
  | .param :: ps, s :: ss => if s.isEmpty then none else (matchPattern ps ss).map (s :: ·)
  | _, _ => none

def pattern (p : String) : List PatternSegment :=
  ((p.splitOn "/").drop 1).map fun s => if s.startsWith "\x7b" then .param else .literal s

def param (xs : List String) (i : Nat) : String := xs.getD i ""

/-- The routes of the document and category operations. -/
def documentRoutes : List (Route Endpoint) := [
  ⟨"POST", pattern "/api/documents", fun _ => .createDocument⟩,
  ⟨"GET", pattern "/api/documents", fun _ => .listDocuments⟩,
  ⟨"GET", pattern "/api/documents/\x7bid\x7d", fun xs => .getDocument (param xs 0)⟩,
  ⟨"DELETE", pattern "/api/documents/\x7bid\x7d", fun xs => .deleteDocument (param xs 0)⟩,
  ⟨"POST", pattern "/api/documents/\x7bid\x7d/rename", fun xs => .renameDocument (param xs 0)⟩,
  ⟨"POST", pattern "/api/documents/\x7bid\x7d/edit", fun xs => .editOutline (param xs 0)⟩,
  ⟨"POST", pattern "/api/documents/\x7bid\x7d/edit_text", fun xs => .editTexts (param xs 0)⟩,
  ⟨"POST", pattern "/api/documents/\x7bid\x7d/copy", fun xs => .copyDocument (param xs 0)⟩,
  ⟨"POST", pattern "/api/documents/\x7bid\x7d/public_viewability", fun xs => .setVisibility (param xs 0)⟩,
  ⟨"GET", pattern "/api/documents/\x7bid\x7d/categories", fun xs => .listCategories (param xs 0)⟩,
  ⟨"POST", pattern "/api/documents/\x7bid\x7d/categories", fun xs => .addCategory (param xs 0)⟩,
  ⟨"DELETE", pattern "/api/documents/\x7bid\x7d/categories/\x7bname\x7d",
    fun xs => .removeCategory (param xs 0) (param xs 1)⟩]

def healthRoutes : List (Route Endpoint) := [⟨"GET", pattern "/health", fun _ => .health⟩]

def sessionRoutes : List (Route Endpoint) := [
  ⟨"GET", pattern "/api/users/me/sessions", fun _ => .listSessions⟩,
  ⟨"DELETE", pattern "/api/users/me/sessions/\x7bid\x7d", fun xs => .revokeSession (param xs 0)⟩]

/-- Where routing sends a request. -/
inductive Dispatch (α : Type) where
  | found (e : α)
  | redirect (location : String)
  | methodNotAllowed
  | notFound
  deriving Repr, Inhabited

def segments (path : String) : List String :=
  ((path.splitOn "/").drop 1).map unescapeSegment

def methodServes (routeMethod requestMethod : String) : Bool :=
  routeMethod == requestMethod || (requestMethod == "HEAD" && routeMethod == "GET")

def findRoute {α : Type} (routes : List (Route α)) (method : String) (segs : List String) : Option α :=
  routes.findSome? fun r =>
    if methodServes r.method method then (matchPattern r.pattern segs).map r.endpoint else none

/-- Routes a request. -/
def dispatch {α : Type} (routes : List (Route α)) (method target : String) : Dispatch α :=
  let (path, query) := splitTarget target
  let clean := cleanPath path
  if clean != path then
    .redirect (clean ++ (if query.isEmpty then "" else "?" ++ query))
  else
    let segs := segments path
    let exact := findRoute (routes.filter (·.method == method)) method segs
    match exact.orElse fun _ => findRoute routes method segs with
    | some e => .found e
    | none =>
      if routes.any (fun r => (matchPattern r.pattern segs).isSome) then .methodNotAllowed else .notFound

end Outliner.Http
