import Outliner.Outline.Snapshot
import Outliner.Outline.Document
import Outliner.Style.Catalog
import Outliner.Ident.Uuid
import Outliner.Service.FieldErrors
/-!
# Planning a reconciliation

Before anything is written, a snapshot is turned into a plan: the nodes to create, in the order they
will be created, each with the index of its parent among them (none for the root), and the client
ids that get no item with the reason.
-/

set_option autoImplicit false

namespace Outliner

/-- Limits on one reconciliation; zero or less means no limit. -/
structure Limits where
  /-- Levels below the root. -/
  maxDepth : Int
  /-- Items created. -/
  maxNodes : Int
  deriving Repr, Inhabited

def Limits.standard : Limits := ⟨256, 20000⟩

def maxItemTextLength : Nat := 10000

/-- A node to create. -/
structure PlannedNode where
  clientId : String
  /-- Index of the parent among the planned nodes; none for the root. -/
  parent : Option Nat
  order : Int
  text : String
  styles : List StyleEdit
  deriving Repr, Inhabited

/-- What a reconciliation will write. -/
structure Plan where
  rootClientId : String
  rootItemId : String
  rootText : Option String
  rootStyles : List StyleEdit
  tocClientId : Option String
  nodes : List PlannedNode
  unresolved : List (String × Unresolved)
  deriving Repr, Inhabited

/-- A place on the walk's stack. -/
structure Frame where
  clientId : String
  parent : Option Nat
  depth : Nat
  deriving Repr, Inhabited

namespace Plan

def duplicateProperty : List StyleEdit → List String → Option String
  | [], _ => none
  | e :: es, seen => if seen.contains e.property then some e.property
      else duplicateProperty es (e.property :: seen)

def nodeFaults (catalog : Catalog) (n : SnapshotNode) : List (String × FieldError) :=
  let text := match n.itemText with
    | some t => if t.length > maxItemTextLength then [("item_text", FieldError.lengthMessage 0 maxItemTextLength)] else []
    | none => []
  let styleFaults := (n.styles.zipIdx.filterMap fun (e, i) =>
    match catalog.validate e with
    | .error f => some (toString i, FieldError.message f.text)
    | .ok () => none)
  text ++ (if styleFaults.isEmpty then [] else [("styles", FieldError.ofParts styleFaults)])

def checkNode (catalog : Catalog) (clientId : String) (n : SnapshotNode) : Except Failure Unit :=
  let faults := nodeFaults catalog n
  if !faults.isEmpty then .error (Failure.invalid ("item " ++ clientId ++ ": " ++ FieldError.describe faults))
  else match duplicateProperty n.styles [] with
    | some p => .error (Failure.invalid ("item " ++ clientId ++ ": style " ++ p ++ " listed twice"))
    | none => .ok ()

def checkSnapshot (s : Snapshot) : Except Failure Unit :=
  let faults := (if s.items.isEmpty then [("items", FieldError.message "cannot be blank")] else []) ++
    (if s.rootItem.isEmpty then [("root_item", FieldError.message "cannot be blank")] else [])
  if faults.isEmpty then .ok () else .error (Failure.ofFields faults)

/-- The root's node, if the snapshot's root names the document's root item. -/
def resolveRoot (d : Document) (s : Snapshot) : Except Failure SnapshotNode :=
  let fail := fun reason => Except.error (Failure.invalidRoot d.id s.rootItem reason)
  match s.node? s.rootItem with
  | none => fail "is not in the item map"
  | some n =>
    match Uuid.parse? s.rootItem with
    | none => fail "is not a valid item id"
    | some declared =>
      match Uuid.parse? d.rootId with
      | none => fail "cannot be matched: the document has no root item"
      | some actual => if declared ≠ actual then fail "is not the document's root item" else .ok n

def framesOf (children : List String) (parent : Option Nat) (depth : Nat) : List Frame :=
  children.map fun c => ⟨c, parent, depth⟩

/-- The state of the walk: nodes planned, client ids seen, ids left out. -/
structure Walk where
  nodes : List PlannedNode
  seen : List String
  unresolved : List (String × Unresolved)
  deriving Repr, Inhabited

/-- Takes frames off the stack until it is empty. -/
def walk (catalog : Catalog) (limits : Limits) (s : Snapshot) :
    Nat → List Frame → Walk → Except Failure Walk
  | 0, _, w => .ok w
  | _, [], w => .ok w
  | fuel + 1, f :: stack, w =>
    if w.seen.contains f.clientId then walk catalog limits s fuel stack w
    else
      let w := { w with seen := f.clientId :: w.seen }
      match s.node? f.clientId with
      | none => walk catalog limits s fuel stack
          { w with unresolved := w.unresolved ++ [(f.clientId, .missing)] }
      | some n =>
        if !Uuid.isValid f.clientId then
          walk catalog limits s fuel stack { w with unresolved := w.unresolved ++ [(f.clientId, .malformed)] }
        else if limits.maxDepth > 0 && (f.depth : Int) > limits.maxDepth then
          .error ⟨.tooLarge, s!"validation failed: outline too large: nesting deeper than {limits.maxDepth} levels"⟩
        else if limits.maxNodes > 0 && (w.nodes.length : Int) ≥ limits.maxNodes then
          .error ⟨.tooLarge, s!"validation failed: outline too large: more than {limits.maxNodes} items"⟩
        else
          match checkNode catalog f.clientId n with
          | .error e => .error e
          | .ok () =>
            let p : PlannedNode := ⟨f.clientId, f.parent, n.childOrder, n.itemText.getD "", n.styles⟩
            walk catalog limits s fuel (framesOf n.children (some w.nodes.length) (f.depth + 1) ++ stack)
              { w with nodes := w.nodes ++ [p] }

def walkFuel (s : Snapshot) : Nat := s.items.foldl (fun n e => n + e.2.children.length) 0 + 1

end Plan

/-- The plan for writing a snapshot into a document, or why it cannot be written. -/
def Plan.make (catalog : Catalog) (limits : Limits) (d : Document) (s : Snapshot) :
    Except Failure Plan := do
  Plan.checkSnapshot s
  let root ← Plan.resolveRoot d s
  Plan.checkNode catalog s.rootItem root
  let w ← Plan.walk catalog limits s (Plan.walkFuel s) (Plan.framesOf root.children none 1)
    ⟨[], [s.rootItem], []⟩
  let unreachable := (s.items.filter fun e => !w.seen.contains e.1).map fun e => (e.1, Unresolved.unreachable)
  pure { rootClientId := s.rootItem, rootItemId := d.rootId, rootText := root.itemText,
         rootStyles := root.styles, tocClientId := s.tocItem, nodes := w.nodes,
         unresolved := w.unresolved ++ unreachable }

end Outliner
