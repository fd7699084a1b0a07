import Outliner.Json.Decode
/-!
# Styles

A style is the value of one display property of one item: a number with an optional unit, or a text.
An edit is a requested value for a property, not yet bound to an item.
-/

set_option autoImplicit false

namespace Outliner

/-- The value of one property of one item. -/
structure Style where
  itemId : String
  property : String
  valueNumber : Option Int
  valueString : Option String
  unit : Option String
  deriving Repr, BEq, DecidableEq, Inhabited

/-- A requested value for one property. -/
structure StyleEdit where
  property : String
  valueString : Option String
  valueNumber : Option Int
  unit : Option String
  deriving Repr, BEq, DecidableEq, Inhabited

namespace Style

def toJson (s : Style) : Json :=
  .obj [("item_id", .str s.itemId), ("property", .str s.property),
        ("value_number", match s.valueNumber with | some n => Json.int n | none => .null),
        ("value_string", Json.optStr s.valueString), ("unit", Json.optStr s.unit)]

def blank : Style := ⟨"", "", none, none, none⟩

def decoder : Decoder Style :=
  Decoder.record [
    ("item_id", fun j s => (Decoder.text j s.itemId).map fun v => { s with itemId := v }),
    ("property", fun j s => (Decoder.text j s.property).map fun v => { s with property := v }),
    ("value_number", fun j s =>
      (Decoder.optional Decoder.int32 0 j s.valueNumber).map fun v => { s with valueNumber := v }),
    ("value_string", fun j s =>
      (Decoder.optional Decoder.text "" j s.valueString).map fun v => { s with valueString := v }),
    ("unit", fun j s => (Decoder.optional Decoder.text "" j s.unit).map fun v => { s with unit := v })]

def sorted (ss : List Style) : List Style :=
  ss.mergeSort (fun a b => a.itemId < b.itemId || (a.itemId == b.itemId && a.property ≤ b.property))

end Style

namespace StyleEdit

def blank : StyleEdit := ⟨"", none, none, none⟩

def toStyle (e : StyleEdit) (itemId : String) : Style :=
  ⟨itemId, e.property, e.valueNumber, e.valueString, e.unit⟩

def toJson (e : StyleEdit) : Json :=
  .obj ([("property", .str e.property)] ++
    (match e.valueString with | some s => [("value_string", .str s)] | none => []) ++
    (match e.valueNumber with | some n => [("value_number", Json.int n)] | none => []) ++
    (match e.unit with | some u => [("unit", .str u)] | none => []))

def decoder : Decoder StyleEdit :=
  Decoder.record [
    ("property", fun j e => (Decoder.text j e.property).map fun v => { e with property := v }),
    ("value_string", fun j e =>
      (Decoder.optional Decoder.text "" j e.valueString).map fun v => { e with valueString := v }),
    ("value_number", fun j e =>
      (Decoder.optional Decoder.int32 0 j e.valueNumber).map fun v => { e with valueNumber := v }),
    ("unit", fun j e => (Decoder.optional Decoder.text "" j e.unit).map fun v => { e with unit := v })]

end StyleEdit

end Outliner
