import Outliner.Style.Catalog
import Outliner.Yaml.Value
/-!
# Catalogs written in YAML

A catalog is written as a YAML mapping with two keys: `units`, the list of units, and `properties`,
a mapping from each property's name to its definition (`kind`, `units`, `values`, `max_length`,
`min`, `max`; other keys are ignored). A text that does not decode into that shape is refused with
the decoder's message.
-/

set_option autoImplicit false

namespace Outliner

namespace Catalog

def specShape : Yaml.Shape :=
  .record "styles.PropertySpec"
    [("kind", .text "styles.ValueKind"),
     ("units", .list (.text "string")),
     ("values", .list (.text "string")),
     ("max_length", .integer "int" 64),
     ("min", .pointer (.integer "int32" 32)),
     ("max", .pointer (.integer "int32" 32))]

def fileShape : Yaml.Shape :=
  .record "styles.catalogFile"
    [("units", .list (.text "string")),
     ("properties", .dict (.pointer specShape))]

def textsOf : Yaml.Value → List String
  | .list items => items.map Yaml.Value.asText
  | _ => []

def numberOf : Yaml.Value → Option Int
  | .integer i => some i
  | _ => none

/-- A property's definition as decoded: its kind's name and the rest of the spec. -/
structure Definition where
  kindName : String
  units : List String
  values : List String
  maxLength : Int
  min : Option Int
  max : Option Int
  deriving Repr, Inhabited

def definitionOf : Yaml.Value → Option Definition
  | .nil => none
  | v =>
    let f (k : String) : Yaml.Value := (v.fields.lookup k).getD .nil
    some ⟨(f "kind").asText, textsOf (f "units"), textsOf (f "values"),
      ((numberOf (f "max_length")).getD 0), numberOf (f "min"), numberOf (f "max")⟩

def checkProperty (units : List String) (name : String) : Option Definition → Except String PropertySpec
  | none => .error ("property " ++ name ++ " has no definition")
  | some d =>
    match ValueKind.ofName? d.kindName with
    | none => .error ("property " ++ name ++ " has unknown kind " ++ Text.quoted d.kindName)
    | some kind =>
      match d.units.find? (fun u => !units.contains u) with
      | some u => .error ("property " ++ name ++ " allows undeclared unit " ++ Text.quoted u)
      | none => .ok ⟨name, kind, d.units, d.values, d.maxLength, d.min, d.max⟩

def build (units : List String) (defs : List (String × Option Definition)) : Except String Catalog := do
  let sorted := defs.mergeSort (fun a b => a.1 ≤ b.1)
  let specs ← sorted.mapM fun (name, d) => checkProperty units name d
  pure ⟨specs, units⟩

/-- Reads a catalog from YAML text; failures carry their message. -/
def parse (text : String) : Except String Catalog :=
  let unmarshal (msg : String) : String := "failed to unmarshal catalog: yaml: " ++ msg
  match Yaml.readDocument text with
  | .error p => .error (unmarshal p.message)
  | .ok none => .ok ⟨[], []⟩
  | .ok (some doc) =>
    match Yaml.decodeDocument doc fileShape with
    | .error msg => .error (unmarshal msg)
    | .ok (.error errs) => .error (unmarshal ("unmarshal errors:\n  " ++ "\n  ".intercalate errs))
    | .ok (.ok v) =>
      let f (k : String) : Yaml.Value := (v.fields.lookup k).getD .nil
      build (textsOf (f "units")) ((f "properties").entries.map fun (k, d) => (k, definitionOf d))

end Catalog

end Outliner
