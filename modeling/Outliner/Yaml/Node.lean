import Outliner.Yaml.Event
import Outliner.Yaml.Scalar
/-!
# Composing YAML nodes

The composer reads events into a tree of nodes. Only the first document of a stream is read; an
empty stream has no document.
-/

set_option autoImplicit false

namespace Outliner.Yaml

/-- A node of a YAML document. -/
inductive Node where
  | scalar (line : Nat) (tag text : String) (style : ScalarStyle)
  | sequence (line : Nat) (tag : String) (items : List Node)
  | mapping (line : Nat) (tag : String) (pairs : List (Node × Node))
  /-- An alias: its name, the number of the anchored node it stands for, and its own number. -/
  | alias (line : Nat) (name : String) (target : Nat) (self : Nat)
  deriving Repr, Inhabited

namespace Node

def line : Node → Nat
  | .scalar l _ _ _ | .sequence l _ _ | .mapping l _ _ | .alias l _ _ _ => l

def tag : Node → String
  | .scalar _ t _ _ | .sequence _ t _ | .mapping _ t _ => t
  | .alias _ _ _ _ => ""

def text : Node → String
  | .scalar _ _ s _ => s
  | .alias _ n _ _ => n
  | _ => ""

def kindCode : Node → Nat
  | .scalar _ _ _ _ => 0
  | .sequence _ _ _ => 1
  | .mapping _ _ _ => 2
  | .alias _ _ _ _ => 3

end Node

/-- A document: its root node and the table of anchored nodes. -/
structure Document where
  root : Node
  anchored : Array Node
  deriving Repr, Inhabited

/-- The composer's state: the event reader, the event looked at and not yet taken, the
anchors by name, the anchored nodes, and how many aliases were read. -/
structure Composer where
  reader : EventReader
  peeked : Option Event
  anchors : List (String × Nat)
  anchored : Array Node
  aliases : Nat
  deriving Repr, Inhabited

/-- Composer steps, which may stop with a problem. -/
abbrev ComposeM := StateT Composer (Except Problem)

def composeError {α : Type} (text : String) : ComposeM α := throw (Problem.plain .composer text)

/-- The next event, read if needed. -/
def peekEvent : ComposeM Event := do
  let c ← get
  match c.peeked with
  | some e => pure e
  | none =>
    match nextEvent.run c.reader with
    | .error p => throw p
    | .ok (some e, r) =>
      set { c with reader := r, peeked := some e }
      pure e
    | .ok (none, r) =>
      let m := r.scanner.mark
      let e : Event := ⟨.streamEnd, m, m⟩
      set { c with reader := r, peeked := some e }
      pure e

def takeEvent : ComposeM Unit := modify fun c => { c with peeked := none }

def reserveAnchor (anchor : String) : ComposeM (Option Nat) := do
  if anchor.isEmpty then return none
  let c ← get
  let id := c.anchored.size
  set { c with anchors := (anchor, id) :: c.anchors.filter (·.1 != anchor), anchored := c.anchored.push default }
  return some id

def fillAnchor (id : Option Nat) (n : Node) : ComposeM Unit :=
  match id with
  | some i => modify fun c => { c with anchored := c.anchored.setIfInBounds i n }
  | none => pure ()

def scalarTag (tag text : String) (style : ScalarStyle) : String :=
  if tag != "" && tag != "!" then shortTag tag
  else if style != .plain then "!!str"
  else if text == "<<" then "!!merge"
  else plainTag text

def collectionTag (tag default : String) : String :=
  if tag != "" && tag != "!" then shortTag tag else default

mutual

/-- Composes the node the next events describe. -/
def composeNode : Nat → ComposeM Node
  | 0 => composeError "document nesting exceeds the input"
  | n + 1 => do
    let e ← peekEvent
    let line := e.start.line + 1
    match e.kind with
    | .scalar anchor tag text style =>
      let node := Node.scalar line (scalarTag tag text style) text style
      let id ← reserveAnchor anchor
      fillAnchor id node
      takeEvent
      pure node
    | .alias name =>
      match (← get).anchors.lookup name with
      | none => composeError ("unknown anchor '" ++ name ++ "' referenced")
      | some target =>
        let c ← get
        set { c with aliases := c.aliases + 1 }
        takeEvent
        pure (Node.alias line name target c.aliases)
    | .sequenceStart anchor tag =>
      let id ← reserveAnchor anchor
      takeEvent
      let items ← composeItems n []
      takeEvent
      let node := Node.sequence line (collectionTag tag "!!seq") items
      fillAnchor id node
      pure node
    | .mappingStart anchor tag =>
      let id ← reserveAnchor anchor
      takeEvent
      let pairs ← composePairs n []
      takeEvent
      let node := Node.mapping line (collectionTag tag "!!map") pairs
      fillAnchor id node
      pure node
    | .streamEnd => composeError "attempted to go past the end of stream; corrupted value?"
    | _ => composeError "unexpected event in a node"

def composeItems : Nat → List Node → ComposeM (List Node)
  | 0, acc => pure acc
  | n + 1, acc => do
    let e ← peekEvent
    if e.kind == .sequenceEnd then pure acc
    else
      let item ← composeNode n
      composeItems n (acc ++ [item])

def composePairs : Nat → List (Node × Node) → ComposeM (List (Node × Node))
  | 0, acc => pure acc
  | n + 1, acc => do
    let e ← peekEvent
    if e.kind == .mappingEnd then pure acc
    else
      let k ← composeNode n
      let v ← composeNode n
      composePairs n (acc ++ [(k, v)])

end

def expectEvent (kind : EventKind) (name : String) : ComposeM Unit := do
  let e ← peekEvent
  if e.kind == .streamEnd && kind != .streamEnd then
    composeError "attempted to go past the end of stream; corrupted value?"
  if e.kind != kind then composeError ("expected " ++ name ++ " event")
  takeEvent

/-- Composes the first document of a stream, if it has one. -/
def composeFirst (fuel : Nat) : ComposeM (Option Document) := do
  expectEvent .streamStart "STREAM-START"
  let e ← peekEvent
  match e.kind with
  | .streamEnd => pure none
  | .documentStart =>
    takeEvent
    let root ← composeNode fuel
    expectEvent .documentEnd "DOCUMENT-END"
    pure (some ⟨root, (← get).anchored⟩)
  | _ => composeError "unexpected event at the start of a stream"

def allowedText (s : String) : Bool := s.toList.all isAllowedChar

def readDocument (text : String) : Except Problem (Option Document) :=
  let text := if text.isEmpty then "\n" else text
  let text := if text.front.toNat == 0xFEFF then (text.drop 1).toString else text
  if !allowedText text then .error (Problem.plain .reader "control characters are not allowed")
  else
    let c : Composer := ⟨EventReader.start text, none, [], #[], 0⟩
    (composeFirst (16 * (text.length + 8))).run' c

end Outliner.Yaml
