import Outliner.Style.Basic
import Outliner.Failure
import Outliner.Text.Quoted
/-!
# The style catalog

Which properties an item may carry, which kind of value each takes, which units a number may carry,
and the bounds on values.
-/

set_option autoImplicit false

namespace Outliner

/-- The kind of value a property takes. -/
inductive ValueKind where
  | text
  | number
  deriving Repr, BEq, DecidableEq, Inhabited

namespace ValueKind

def name : ValueKind → String
  | text => "string"
  | number => "number"

def ofName? : String → Option ValueKind
  | "string" => some text
  | "number" => some number
  | _ => none

end ValueKind

/-- What the catalog says of one property. -/
structure PropertySpec where
  name : String
  kind : ValueKind
  units : List String
  values : List String
  /-- The longest text in bytes; zero or less sets no bound. -/
  maxLength : Int
  min : Option Int
  max : Option Int
  deriving Repr, BEq, Inhabited

/-- The properties and units items may carry. -/
structure Catalog where
  properties : List PropertySpec
  units : List String
  deriving Repr, Inhabited

namespace PropertySpec

def toJson (p : PropertySpec) : Json :=
  .obj ([("name", .str p.name), ("kind", .str p.kind.name)] ++
    (if p.units.isEmpty then [] else [("units", .arr (p.units.map .str))]) ++
    (if p.values.isEmpty then [] else [("values", .arr (p.values.map .str))]) ++
    (if p.maxLength = 0 then [] else [("max_length", Json.int p.maxLength)]) ++
    (match p.min with | some n => [("min", Json.int n)] | none => []) ++
    (match p.max with | some n => [("max", Json.int n)] | none => []))

end PropertySpec

namespace Catalog

def standard : Catalog where
  units := ["px", "pt", "em", "rem", "percent", "vh", "vw"]
  properties := [
    ⟨"background-color", .text, [], [], 64, none, none⟩,
    ⟨"color", .text, [], [], 64, none, none⟩,
    ⟨"font-size", .number, ["px", "pt", "em", "rem", "percent"], [], 0, some 1, some 512⟩,
    ⟨"font-weight", .number, [], [], 0, some 100, some 900⟩,
    ⟨"line-height", .number, ["px", "pt", "em", "rem", "percent"], [], 0, some 0, some 1000⟩,
    ⟨"text-align", .text, [], ["left", "right", "center", "justify"], 0, none, none⟩]

def property? (c : Catalog) (name : String) : Option PropertySpec :=
  c.properties.find? (·.name == name)

def isUnit (c : Catalog) (u : String) : Bool := c.units.contains u

def sortedProperties (c : Catalog) : List PropertySpec :=
  c.properties.mergeSort (fun a b => a.name ≤ b.name)

def bracketed (xs : List String) : String := "[" ++ " ".intercalate xs ++ "]"

def checkText (p : PropertySpec) (v : String) : Except Failure Unit :=
  if p.maxLength > 0 && (v.utf8ByteSize : Int) > p.maxLength then
    .error (Failure.invalid s!"{p.name} value longer than {p.maxLength}")
  else if !p.values.isEmpty && !p.values.contains v then
    .error (Failure.invalid (p.name ++ " must be one of " ++ bracketed p.values))
  else .ok ()

def checkNumber (p : PropertySpec) (v : Int) : Except Failure Unit :=
  match p.min, p.max with
  | some lo, _ => if v < lo then .error (Failure.invalid s!"{p.name} below {lo}") else
      match p.max with
      | some hi => if v > hi then .error (Failure.invalid s!"{p.name} above {hi}") else .ok ()
      | none => .ok ()
  | none, some hi => if v > hi then .error (Failure.invalid s!"{p.name} above {hi}") else .ok ()
  | none, none => .ok ()

/-- Checks an edit against the catalog, in the order the module header gives. -/
def validate (c : Catalog) (e : StyleEdit) : Except Failure Unit :=
  match c.property? e.property with
  | none => .error (Failure.invalid ("unknown style property " ++ Text.quoted e.property))
  | some p =>
    let unitCheck : Except Failure Unit :=
      match e.unit with
      | none => .ok ()
      | some u =>
        if !c.isUnit u then .error (Failure.invalid ("unknown style unit " ++ Text.quoted u))
        else if !p.units.contains u then
          .error (Failure.invalid (p.name ++ " does not take unit " ++ Text.quoted u))
        else .ok ()
    match unitCheck with
    | .error f => .error f
    | .ok () =>
      match p.kind with
      | .text =>
        if e.valueNumber.isSome then .error (Failure.invalid s!"{p.name} takes a string value")
        else match e.valueString with
          | none => .ok ()
          | some v => checkText p v
      | .number =>
        if e.valueString.isSome then .error (Failure.invalid s!"{p.name} takes a number value")
        else match e.valueNumber with
          | none => .ok ()
          | some v => checkNumber p v

end Catalog

end Outliner
