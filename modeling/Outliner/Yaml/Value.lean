import Outliner.Yaml.Node
import Outliner.Text.Quoted
import Outliner.Text.Utf8
/-!
# Decoding nodes into typed values

A document is decoded against a shape: texts, signed integers of a width, pointers, lists, maps
keyed by text, and records with named fields. Decoding follows the node tree and the shape together:
-/

set_option autoImplicit false

namespace Outliner.Yaml

/-- The shape of a value a document decodes into. -/
inductive Shape where
  /-- A text, with its type's name. -/
  | text (name : String)
  /-- A signed integer, with its type's name and width in bits. -/
  | integer (name : String) (bits : Nat)
  | pointer (target : Shape)
  | list (item : Shape)
  /-- A map keyed by text. -/
  | dict (item : Shape)
  /-- A record, with its type's name and its fields' names and shapes. -/
  | record (name : String) (fields : List (String × Shape))
  deriving Repr, Inhabited

/-- A decoded value. A pointer that is set holds its target's value; a record holds the
fields set so far. -/
inductive Value where
  | text (s : String)
  | integer (i : Int)
  | nil
  | list (items : List Value)
  | dict (entries : List (String × Value))
  | record (fields : List (String × Value))
  deriving Repr, Inhabited

namespace Shape

def name : Shape → String
  | text n => n
  | integer n _ => n
  | pointer t => "*" ++ t.name
  | list t => "[]" ++ t.name
  | dict t => "map[string]" ++ t.name
  | record n _ => n

def zero : Shape → Value
  | text _ => .text ""
  | integer _ _ => .integer 0
  | record _ _ => .record []
  | _ => .nil

def nullable : Shape → Bool
  | pointer _ | list _ | dict _ => true
  | _ => false

end Shape

namespace Value

def asText : Value → String
  | text s => s
  | _ => ""

def entries : Value → List (String × Value)
  | dict es => es
  | _ => []

def fields : Value → List (String × Value)
  | record fs => fs
  | _ => []

end Value

def setEntry (es : List (String × Value)) (k : String) (v : Value) : List (String × Value) :=
  if es.any (·.1 == k) then es.map fun e => if e.1 == k then (k, v) else e else es ++ [(k, v)]

/-- A mapping key as merging compares keys: by type and value. -/
inductive KeyId where
  | null
  | bool (b : Bool)
  | int (i : Int)
  | uint (n : Nat)
  | float (d : Double)
  | timestamp (text : String)
  | str (s : String)
  /-- A key no other key equals. -/
  | other
  deriving Repr, BEq, Inhabited

def KeyId.within (k : KeyId) (ks : List KeyId) : Bool :=
  match k with
  | .other | .float .nan => false
  | _ => ks.contains k

/-- The decoder's state. -/
structure Decoder where
  /-- The type errors so far, in order. -/
  errors : List String
  decodes : Nat
  aliasDecodes : Nat
  aliasDepth : Nat
  /-- The aliases being decoded, by their numbers. -/
  active : List Nat
  /-- The keys of the mappings being merged into, while a merge is going on. -/
  merged : Option (List KeyId)
  deriving Repr, Inhabited

/-- Decoder steps; a problem that stops decoding carries its message. -/
abbrev DecodeM := StateT Decoder (Except String)

def addError (e : String) : DecodeM Unit := modify fun d => { d with errors := d.errors ++ [e] }

def cutBytes (s : String) (k : Nat) : String :=
  (s.toList.foldl (fun (acc : Nat × String) c =>
    let (used, out) := acc
    if used ≥ k then acc
    else if used + c.utf8Size ≤ k then (used + c.utf8Size, out.push c)
    else (k, out ++ String.ofList (List.replicate (k - used) (Char.ofNat 0xFFFD)))) (0, "")).2

def typeError (n : Node) (tag : String) (shape : Shape) : DecodeM Unit :=
  let tag := if n.tag != "" then n.tag else tag
  let value := if tag == "!!seq" || tag == "!!map" then ""
    else if n.text.utf8ByteSize > 10 then " `" ++ cutBytes n.text 7 ++ "...`"
    else " `" ++ n.text ++ "`"
  addError ("line " ++ toString n.line ++ ": cannot unmarshal " ++ shortTag tag ++ value ++ " into " ++ shape.name)

def excessiveAliasing (decodes aliased : Nat) : Bool :=
  aliased > 100 && decodes > 1000 &&
    (if decodes ≤ 400000 then 100 * aliased > 99 * decodes
     else if decodes ≥ 4000000 then 10 * aliased > decodes
     else 360000000 * aliased + 89 * decodes * decodes > 392000000 * decodes)

def countDecode : DecodeM Unit := do
  modify fun d => { d with decodes := d.decodes + 1,
                           aliasDecodes := if d.aliasDepth > 0 then d.aliasDecodes + 1 else d.aliasDecodes }
  let d ← get
  if excessiveAliasing d.decodes d.aliasDecodes then throw "document contains excessive aliasing"

def standardDigit (c : Char) : Option Nat :=
  if c ≥ 'A' && c ≤ 'Z' then some (c.toNat - 'A'.toNat)
  else if c ≥ 'a' && c ≤ 'z' then some (c.toNat - 'a'.toNat + 26)
  else if c ≥ '0' && c ≤ '9' then some (c.toNat - '0'.toNat + 52)
  else if c == '+' then some 62
  else if c == '/' then some 63
  else none

/-- Decodes padded base64, ignoring line breaks. -/
def base64Bytes (s : String) : Option (List Nat) :=
  let cs := s.toList.filter fun c => c != '\r' && c != '\n'
  let rec quads : List Char → Option (List Nat)
    | [] => some []
    | a :: b :: c :: d :: rest => do
      let va ← standardDigit a
      let vb ← standardDigit b
      if c == '=' then
        if d != '=' || !rest.isEmpty then none
        else some [(va * 4 + vb / 16) % 256]
      else
        let vc ← standardDigit c
        if d == '=' then
          if !rest.isEmpty then none
          else some [(va * 4 + vb / 16) % 256, (vb * 16 + vc / 4) % 256]
        else
          let vd ← standardDigit d
          let tail ← quads rest
          some ([(va * 4 + vb / 16) % 256, (vb * 16 + vc / 4) % 256, (vc * 64 + vd) % 256] ++ tail)
    | _ => none
  quads cs

/-- Resolves a scalar node as decoding does: a node tagged `!!str` keeps its text, `!!binary`
texts are base64-decoded, and other texts resolve under their tag. -/
def resolveNode (n : Node) : DecodeM (String × Resolved) := do
  if n.tag == "!!str" then return ("!!str", .str n.text)
  match resolve n.tag n.text with
  | .error e => throw e
  | .ok (tag, r) =>
    if tag == "!!binary" then
      match base64Bytes n.text with
      | some bs => return (tag, .str (Text.ofUtf8 (bs.map UInt8.ofNat)))
      | none => throw "!!binary value contains invalid base64 data"
    return (tag, r)

def fitsBits (bits : Nat) (v : Int) : Bool := v ≥ -Int.pow 2 (bits - 1) && v < Int.pow 2 (bits - 1)

/-- Decodes a scalar node into a shape; gives whether it decoded and the value after. -/
def decodeScalar (n : Node) (shape : Shape) (cur : Value) : DecodeM (Bool × Value) := do
  let (tag, r) ← resolveNode n
  if r == .null then
    return if shape.nullable then (true, .nil) else (false, cur)
  match shape with
  | .text _ =>
    return (true, .text (if tag == "!!binary" then (match r with | .str s => s | _ => n.text) else n.text))
  | .integer _ bits =>
    let v? : Option Int := match r with
      | .int i => some i
      | .float d => d.toInt64?
      | _ => none
    match v? with
    | some v =>
      if fitsBits bits v then return (true, .integer v)
      typeError n tag shape
      return (false, cur)
    | none =>
      typeError n tag shape
      return (false, cur)
  | _ =>
    typeError n tag shape
    return (false, cur)

def duplicateKeys (pairs : List (Node × Node)) : List String :=
  let keys := pairs.map (·.1)
  (List.range keys.length).flatMap fun i =>
    let ki := keys.getD i default
    ((keys.drop (i + 1)).filter fun kj => kj.kindCode == ki.kindCode && kj.text == ki.text).map fun kj =>
      "line " ++ toString kj.line ++ ": mapping key " ++ Text.quoted kj.text ++ " already defined at line " ++
        toString ki.line

def isMergeKey (n : Node) : Bool :=
  match n with
  | .scalar _ tag text _ => text == "<<" && (tag == "" || tag == "!" || shortTag tag == "!!merge")
  | _ => false

def wantMap : String := "map merge requires map or sequence of maps as the value"

section

variable (doc : Document)

def targetOf (target : Nat) : Node := doc.anchored.getD target default

def nodeShortTag : Node → String
  | .alias _ _ target _ =>
    match targetOf doc target with
    | .alias _ _ _ _ => ""
    | t => shortTag t.tag
  | n => shortTag n.tag

def isMappingNode : Node → Bool
  | .alias _ _ target _ =>
    match targetOf doc target with
    | .mapping _ _ _ => true
    | _ => false
  | .mapping _ _ _ => true
  | _ => false

/-- A scalar key's identity as merging compares keys. -/
def scalarKeyId (n : Node) : DecodeM KeyId := do
  countDecode
  let (_, r) ← resolveNode n
  return match r with
    | .null => .null
    | .bool b => .bool b
    | .int i => .int i
    | .uint u => .uint u
    | .float d => .float d
    | .timestamp => .timestamp n.text
    | .str s => .str s

def keyIdOf (n : Node) : DecodeM KeyId :=
  match n with
  | .alias _ _ target _ =>
    match targetOf doc target with
    | t@(.scalar _ _ _ _) => scalarKeyId t
    | _ => pure .other
  | .scalar _ _ _ _ => scalarKeyId n
  | _ => pure .other

mutual

/-- Decodes a node into a shape, with fuel for the depth of nesting; gives whether it decoded
and the value after. -/
def decodeNode : Nat → Node → Shape → Value → DecodeM (Bool × Value)
  | 0, _, _, cur => pure (false, cur)
  | fuel + 1, n, shape, cur => do
    countDecode
    match n with
    | .alias _ name target self =>
      let d ← get
      if d.active.contains self then throw ("anchor '" ++ name ++ "' value contains itself")
      set { d with active := self :: d.active, aliasDepth := d.aliasDepth + 1 }
      let r ← decodeNode fuel (targetOf doc target) shape cur
      modify fun d => { d with active := d.active.filter (· != self), aliasDepth := d.aliasDepth - 1 }
      return r
    | _ =>
      -- a pointer is set before its target decodes, unless the node is null
      let (shape, cur) := match shape with
        | .pointer t =>
          if nodeShortTag doc n != "!!null" then (t, (match cur with | .nil => t.zero | v => v))
          else (shape, cur)
        | s => (s, cur)
      match n with
      | .scalar _ _ _ _ => decodeScalar n shape cur
      | .sequence _ _ items =>
        match shape with
        | .list item =>
          let mut kept : List Value := []
          for x in items do
            let (ok, v) ← decodeNode fuel x item item.zero
            if ok then kept := kept ++ [v]
          return (true, .list kept)
        | _ =>
          typeError n "!!seq" shape
          return (false, cur)
      | .mapping _ _ pairs =>
        let dups := duplicateKeys pairs
        if !dups.isEmpty then
          for e in dups do addError e
          return (false, cur)
        match shape with
        | .dict item =>
          let saved := (← get).merged
          modify fun d => { d with merged := none }
          let isNew := match cur with | .nil => true | _ => false
          let mut es := cur.entries
          let mut seen := saved
          let mut mergeNode : Option Node := none
          for (k, v) in pairs do
            if isMergeKey k then
              mergeNode := some v
            else
              let (ok, kv) ← decodeNode fuel k (.text "string") (.text "")
              let key := kv.asText
              let skip := match seen with
                | some ks => (KeyId.str key).within ks
                | none => false
              if ok && !skip then
                seen := seen.map (· ++ [KeyId.str key])
                let (ok2, ev) ← decodeNode fuel v item item.zero
                if ok2 || (nodeShortTag doc v == "!!null" && (isNew || !es.any (·.1 == key))) then
                  es := setEntry es key ev
          modify fun d => { d with merged := seen }
          match mergeNode with
          | some m =>
            let (_, after) ← mergeInto fuel n m shape (.dict es)
            return (true, after)
          | none => return (true, .dict es)
        | .record rname fields =>
          let mut fs := cur.fields
          let mut done : List String := []
          let mut mergeNode : Option Node := none
          for (k, v) in pairs do
            if isMergeKey k then
              mergeNode := some v
            else
              let (ok, kv) ← decodeNode fuel k (.text "string") (.text "")
              if ok then
                let sname := kv.asText
                let skip ← match (← get).merged with
                  | some ks =>
                    if (KeyId.str sname).within ks then pure true
                    else
                      modify fun d => { d with merged := some (ks ++ [KeyId.str sname]) }
                      pure false
                  | none => pure false
                if !skip then
                  match fields.lookup sname with
                  | some fshape =>
                    if done.contains sname then
                      addError ("line " ++ toString k.line ++ ": field " ++ sname ++ " already set in type " ++ rname)
                    else
                      done := done ++ [sname]
                      let (_, fv) ← decodeNode fuel v fshape ((fs.lookup sname).getD fshape.zero)
                      fs := setEntry fs sname fv
                  | none => pure ()
          modify fun d => { d with merged := none }
          match mergeNode with
          | some m =>
            let (_, after) ← mergeInto fuel n m shape (.record fs)
            return (true, after)
          | none => return (true, .record fs)
        | _ =>
          typeError n "!!map" shape
          return (false, cur)
      | .alias _ _ _ _ => return (false, cur)

/-- Merges a merge key's value into a mapping's value: a mapping, or a list of mappings, each
decoded under the keys the mapping already has. -/
def mergeInto : Nat → Node → Node → Shape → Value → DecodeM (Bool × Value)
  | 0, _, _, _, cur => pure (false, cur)
  | fuel + 1, parent, m, shape, cur => do
    let saved := (← get).merged
    if saved.isNone then
      let pairs := match parent with
        | .mapping _ _ ps => ps
        | _ => []
      let mut ks : List KeyId := []
      for (k, _) in pairs do
        ks := ks ++ [← keyIdOf doc k]
      modify fun d => { d with merged := some ks }
    let result ← match m with
      | .mapping _ _ _ => decodeNode fuel m shape cur
      | .alias _ _ _ _ =>
        if !isMappingNode doc m then throw wantMap
        decodeNode fuel m shape cur
      | .sequence _ _ items => do
        let mut v := cur
        for x in items do
          if !isMappingNode doc x then throw wantMap
          let (_, after) ← decodeNode fuel x shape v
          v := after
        pure (true, v)
      | _ => throw wantMap
    modify fun d => { d with merged := saved }
    return result

end

end

def decodeDocument (doc : Document) (shape : Shape) : Except String (Except (List String) Value) :=
  let start : Decoder := ⟨[], 1, 0, 0, [], none⟩
  match (decodeNode doc (64 * (doc.anchored.size + 4)) doc.root shape shape.zero).run start with
  | .error e => .error e
  | .ok ((_, v), d) => .ok (if d.errors.isEmpty then .ok v else .error d.errors)

end Outliner.Yaml
