import Outliner.Outline.Item
/-!
# The item tree

A flat list of items nested under one of them. The children of an item are the items that name it as
parent, in ascending child order, ties in list order.
-/

set_option autoImplicit false

namespace Outliner

/-- An item and the items nested under it. -/
inductive ItemNode where
  | mk (item : Item) (children : List ItemNode)
  deriving Repr, Inhabited

namespace ItemNode

def item : ItemNode → Item
  | mk i _ => i

def children : ItemNode → List ItemNode
  | mk _ cs => cs

def toJson : ItemNode → Json
  | mk i cs => .obj (i.jsonMembers ++ [("children", .arr (cs.map toJson))])

def childrenOf (items : List Item) (p : String) : List Item :=
  (items.filter (Item.isChildOf p)).mergeSort (fun a b => a.childOrder ≤ b.childOrder)

def lastWithId (items : List Item) (i : String) : Option Item :=
  items.reverse.find? (·.id == i)

def freshIds (placed : List String) : List String → List String × List String
  | [] => ([], placed)
  | k :: ks =>
    if placed.contains k then freshIds placed ks
    else
      let r := freshIds (k :: placed) ks
      (k :: r.1, r.2)

def walk (items : List Item) :
    Nat → List String → List String → List (String × List String) → List (String × List String)
  | 0, _, _, acc => acc
  | _, [], _, acc => acc
  | fuel + 1, i :: stack, placed, acc =>
    let r := freshIds placed ((childrenOf items i).map (·.id))
    walk items fuel (r.1.reverse ++ stack) r.2 ((i, r.1) :: acc)

def placedUnder (w : List (String × List String)) (i : String) : List String :=
  match w.find? (·.1 == i) with
  | some (_, ks) => ks
  | none => []

def assemble (items : List Item) (w : List (String × List String)) : Nat → String → ItemNode
  | 0, i => mk ((lastWithId items i).getD Item.blank) []
  | d + 1, i => mk ((lastWithId items i).getD Item.blank) ((placedUnder w i).map (assemble items w d))

def build (items : List Item) (rootId : String) : Option ItemNode :=
  if items.any (·.id == rootId) then
    let w := walk items (items.length + 1) [rootId] [rootId] []
    some (assemble items w (items.length + 1) rootId)
  else none

end ItemNode

end Outliner
