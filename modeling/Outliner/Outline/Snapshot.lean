import Outliner.Style.Basic
/-!
# Snapshots

An editor sends its whole outline as a snapshot: the client id of the root, optionally the client id
of the table-of-contents item, and a map from client ids to nodes. A node lists the client ids of
its children in order; its own `item_id` and `parent_id` are not used.
-/

set_option autoImplicit false

namespace Outliner

/-- One node of a snapshot. -/
structure SnapshotNode where
  itemId : String
  parentId : Option String
  childOrder : Int
  children : List String
  itemText : Option String
  styles : List StyleEdit
  deriving Repr, BEq, Inhabited

/-- An editor's outline. -/
structure Snapshot where
  rootItem : String
  tocItem : Option String
  /-- Client id to node; keys are distinct. -/
  items : List (String × SnapshotNode)
  deriving Repr, BEq, Inhabited

/-- Why a client id got no item. -/
inductive Unresolved where
  /-- A child names a client id that is not in the map. -/
  | missing
  /-- The client id is not a uuid. -/
  | malformed
  /-- No chain of children leads from the root to it. -/
  | unreachable
  deriving Repr, BEq, DecidableEq, Inhabited

def Unresolved.name : Unresolved → String
  | .missing => "missing"
  | .malformed => "malformed"
  | .unreachable => "unreachable"

/-- The ids written for a snapshot: each client id with its new item id or none, and the
reasons of those with none; with how many items were removed from under the root, how many
were created, and the table-of-contents item set. -/
structure ReconcileResult where
  ids : List (String × Option String)
  reasons : List (String × Unresolved)
  removed : Nat
  created : Nat
  tocItemId : Option String
  deriving Repr, BEq, Inhabited

namespace SnapshotNode

def blank : SnapshotNode := ⟨"", none, 0, [], none, []⟩

/-- Reads a node from JSON. -/
def decoder : Decoder SnapshotNode :=
  Decoder.record [
    ("item_id", fun j n => (Decoder.text j n.itemId).map fun v => { n with itemId := v }),
    ("parent_id", fun j n =>
      (Decoder.optional Decoder.text "" j n.parentId).map fun v => { n with parentId := v }),
    ("child_order", fun j n => (Decoder.int32 j n.childOrder).map fun v => { n with childOrder := v }),
    ("children", fun j n =>
      (Decoder.list Decoder.text "" j n.children).map fun v => { n with children := v }),
    ("item_text", fun j n =>
      (Decoder.optional Decoder.text "" j n.itemText).map fun v => { n with itemText := v }),
    ("styles", fun j n =>
      (Decoder.list StyleEdit.decoder StyleEdit.blank j n.styles).map fun v => { n with styles := v })]

end SnapshotNode

namespace Snapshot

def blank : Snapshot := ⟨"", none, []⟩

def decoder : Decoder Snapshot :=
  Decoder.record [
    ("root_item", fun j s => (Decoder.text j s.rootItem).map fun v => { s with rootItem := v }),
    ("toc_item", fun j s =>
      (Decoder.optional Decoder.text "" j s.tocItem).map fun v => { s with tocItem := v }),
    ("items", fun j s =>
      (Decoder.map SnapshotNode.decoder SnapshotNode.blank j s.items).map fun v => { s with items := v })]

def node? (s : Snapshot) (c : String) : Option SnapshotNode := (s.items.find? (·.1 == c)).map (·.2)

end Snapshot

namespace ReconcileResult

def idsJson (r : ReconcileResult) : Json :=
  .obj (r.ids.map fun (c, i) => (c, Json.optStr i))

def toJson (r : ReconcileResult) : Json :=
  .obj ([("ids", r.idsJson)] ++
    (if r.reasons.isEmpty then [] else
      [("reasons", .obj (r.reasons.map fun (c, u) => (c, .str u.name)))]))

end ReconcileResult

end Outliner
