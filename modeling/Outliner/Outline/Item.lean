import Outliner.Json.Decode
/-!
# Items

An item is one line of an outline: its text, its place under a parent (none for a document's root
item), its order among its siblings and whether it is collapsed.
-/

set_option autoImplicit false

namespace Outliner

/-- One line of an outline. -/
structure Item where
  id : String
  documentId : String
  parentId : Option String
  itemText : String
  /-- Order among the siblings, a signed 32-bit value; equal orders keep insertion order. -/
  childOrder : Int
  collapsed : Bool
  deriving Repr, BEq, DecidableEq, Inhabited

namespace Item

def blank : Item := ⟨"", "", none, "", 0, false⟩

def jsonMembers (i : Item) : List (String × Json) :=
  [("id", .str i.id), ("document_id", .str i.documentId), ("parent_id", Json.optStr i.parentId),
   ("item_text", .str i.itemText), ("child_order", Json.int i.childOrder),
   ("collapsed", .bool i.collapsed)]

def toJson (i : Item) : Json := .obj i.jsonMembers

def decoder : Decoder Item :=
  Decoder.record [
    ("id", fun j i => (Decoder.text j i.id).map fun v => { i with id := v }),
    ("document_id", fun j i => (Decoder.text j i.documentId).map fun v => { i with documentId := v }),
    ("parent_id", fun j i =>
      (Decoder.optional Decoder.text "" j i.parentId).map fun v => { i with parentId := v }),
    ("item_text", fun j i => (Decoder.text j i.itemText).map fun v => { i with itemText := v }),
    ("child_order", fun j i => (Decoder.int32 j i.childOrder).map fun v => { i with childOrder := v }),
    ("collapsed", fun j i => (Decoder.flag j i.collapsed).map fun v => { i with collapsed := v })]

def isChildOf (p : String) (i : Item) : Bool := i.parentId == some p

end Item

end Outliner
