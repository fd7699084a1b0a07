/-!
# JSON values

A JSON value as the outline service reads and writes it. A number keeps the text it was written
with, because whether `100`, `1e2` and `100.0` are accepted as an integer depends on that text.
-/

set_option autoImplicit false

namespace Outliner

/-- A JSON value; numbers are kept as their literal text. -/
inductive Json where
  | null
  | bool (b : Bool)
  | num (text : String)
  | str (s : String)
  | arr (items : List Json)
  | obj (members : List (String × Json))
  deriving Inhabited, Repr

namespace Json

def int (n : Int) : Json := .num (toString n)

def optStr : Option String → Json
  | some s => .str s
  | none => .null

def list {α : Type} (f : α → Json) (xs : List α) : Json := .arr (xs.map f)

def get? (j : Json) (k : String) : Option Json :=
  match j with
  | .obj ms => (ms.reverse.find? (fun m => m.1 == k)).map (·.2)
  | _ => none

def members : Json → List (String × Json)
  | .obj ms => ms
  | _ => []

end Json

end Outliner
