import Outliner.Text.Blank
/-!
# Statement text

What the database server reads off a statement's text alone. Whitespace runs count as one space and
the ends are trimmed.
-/

set_option autoImplicit false

namespace Outliner.Relational

/-- The column types the server knows. -/
inductive ColumnType where
  | uuid
  | int4
  | bool
  | timestamptz
  | text
  deriving Repr, BEq, DecidableEq, Inhabited

def words (s : String) : List String :=
  let step (acc : List (List Char) × List Char) (c : Char) : List (List Char) × List Char :=
    if Text.isBlank c then (if acc.2.isEmpty then acc else (acc.1 ++ [acc.2], [])) else (acc.1, acc.2 ++ [c])
  let (ws, last) := s.toList.foldl step ([], [])
  (if last.isEmpty then ws else ws ++ [last]).map String.ofList

def normalize (s : String) : String := " ".intercalate (words s)

def columnType (name : String) : ColumnType :=
  if ["id", "root_item_id", "toc_item_id", "document_id", "parent_id", "item_id"].contains name then .uuid
  else if ["child_order", "value_number"].contains name then .int4
  else if ["publicly_viewable", "collapsed", "exists"].contains name then .bool
  else if ["created_at", "modified_at", "applied_at"].contains name then .timestamptz
  else .text

def unqualified (name : String) : String :=
  match (name.splitOn ".").getLast? with
  | some n => n
  | none => name

def isNameChar (c : Char) : Bool := c.isAlphanum || c = '_' || c = '.'

/-- The parameters that occur in a text, with the characters before each, newest first. -/
def placeholders (cs : List Char) : List (Nat × List Char) :=
  let rec go : List Char → List Char → List (Nat × List Char) → List (Nat × List Char)
    | [], _, acc => acc
    | '$' :: rest, before, acc =>
      let ds := rest.takeWhile Char.isDigit
      if ds.isEmpty then go rest ('$' :: before) acc
      else
        let k := ds.foldl (fun n d => 10 * n + (d.toNat - 48)) 0
        go rest ('$' :: before) ((k, before) :: acc)
    | c :: rest, before, acc => go rest (c :: before) acc
  go cs [] []

def comparedColumn (before : List Char) : Option String :=
  match before.dropWhile (· = ' ') with
  | '=' :: more =>
    let name := (more.dropWhile (· = ' ')).takeWhile isNameChar
    if name.isEmpty then none else some (unqualified (String.ofList name.reverse))
  | _ => none

def parenItems (s : String) : List String :=
  match s.splitOn "(" with
  | _ :: rest =>
    let inner := ((("(".intercalate rest).splitOn ")").headD "")
    (inner.splitOn ",").map fun x => normalize x
  | [] => []

def insertColumns (sql : String) : Option (List String × List String) :=
  if sql.startsWith "INSERT INTO" then
    match sql.splitOn " VALUES " with
    | [head, vals] => some (parenItems head, parenItems vals)
    | _ => none
  else none

/-- The type of parameter `$k` of a statement. -/
def paramType (sql : String) (k : Nat) : ColumnType :=
  let byComparison := (placeholders sql.toList).findSome? fun (j, before) =>
    if j = k then comparedColumn before else none
  match byComparison with
  | some c => columnType c
  | none =>
    match insertColumns sql with
    | some (cols, vals) =>
      match (cols.zip vals).find? (fun (_, v) => v == "$" ++ toString k) with
      | some (c, _) => columnType c
      | none => .text
    | none => .text

/-- The result columns of a statement. -/
def resultColumns (sql : String) : List String :=
  let names (s : String) : List String := (s.splitOn ",").map fun x => unqualified (normalize x)
  match sql.splitOn " RETURNING " with
  | [_, cols] => names cols
  | _ =>
    if sql.startsWith "SELECT EXISTS" then ["exists"]
    else if sql.startsWith "SELECT " then
      match (sql.drop 7).toString.splitOn " FROM " with
      | cols :: _ :: _ => names cols
      | _ => []
    else []

def firstWord (sql : String) : String := ((words sql).headD "").toUpper

def defaultTag (sql : String) (rows : Nat) : String :=
  match firstWord sql with
  | "INSERT" => "INSERT 0 " ++ toString (max rows 1)
  | "UPDATE" => "UPDATE 1"
  | "DELETE" => "DELETE 1"
  | "SELECT" => "SELECT " ++ toString rows
  | w => w

def rowsAffected (tag : String) : Nat :=
  let ds := (tag.toList.reverse.takeWhile Char.isDigit).reverse
  ds.foldl (fun n d => 10 * n + (d.toNat - 48)) 0

def isHexChar (c : Char) : Bool := c.isDigit || ('a' ≤ c && c ≤ 'f') || ('A' ≤ c && c ≤ 'F')

/-- Reads sixteen pairs of hex digits, a hyphen allowed after every second pair but the
last; answers what follows. -/
def uuidBody : Nat → List Char → Option (List Char)
  | 0, cs => some cs
  | n + 1, a :: b :: rest =>
    if isHexChar a && isHexChar b then
      let i := 16 - (n + 1)
      let rest' := match rest with
        | '-' :: more => if i % 2 = 1 && i < 15 then more else rest
        | _ => rest
      uuidBody n rest'
    else none
  | _ + 1, _ => none

def uuidTextValid (s : String) : Bool :=
  match s.toList with
  | '{' :: rest =>
    match uuidBody 16 rest with
    | some ['}'] => true
    | _ => false
  | cs => uuidBody 16 cs == some []

end Outliner.Relational
