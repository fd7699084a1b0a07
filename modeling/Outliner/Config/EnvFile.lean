import Outliner.Config
/-!
# Environment files

An environment file sets variables, one statement after another: `KEY=value` or `KEY: value`,
optionally after `export `. White space and lines starting with `#` between statements are skipped;
`\r\n` counts as a line break.
-/

set_option autoImplicit false

namespace Outliner.EnvFile

def isBlank (c : Char) : Bool :=
  c == '\t' || c == '\x0b' || c == '\x0c' || c == '\r' || c == ' ' || c == '\x85' || c == '\xa0'

def isWhite (c : Char) : Bool :=
  let n := c.toNat
  (9 ≤ n && n ≤ 13) || n == 32 || n == 0x85 || n == 0xA0 || n == 0x1680 ||
    (0x2000 ≤ n && n ≤ 0x200A) || n == 0x2028 || n == 0x2029 || n == 0x202F || n == 0x205F ||
    n == 0x3000

def isWordByte (b : Nat) : Bool :=
  (48 ≤ b && b ≤ 57) || (65 ≤ b && b ≤ 90) || (97 ≤ b && b ≤ 122) || b == 0xAA || b == 0xB5 ||
    b == 0xBA || (0xC0 ≤ b && b ≤ 0xD6) || (0xD8 ≤ b && b ≤ 0xF6) || 0xF8 ≤ b || b == 0xB2 ||
    b == 0xB3 || b == 0xB9 || (0xBC ≤ b && b ≤ 0xBE)

def keyChar (c : Char) : Bool :=
  (String.utf8EncodeChar c).all fun b =>
    let n := b.toNat
    n == 9 || n == 11 || n == 12 || n == 13 || n == 32 || n == 0x85 || n == 0xA0 || n == 95 ||
      n == 46 || isWordByte n

def statementStart (inComment : Bool) : List Char → Option (List Char)
  | [] => none
  | c :: r =>
    if inComment then statementStart (c != '\n') r
    else if isWhite c then statementStart false r
    else if c == '#' then statementStart true r
    else some (c :: r)

def dropExport (s : List Char) : List Char :=
  let s := s.dropWhile isBlank
  match s with
  | 'e' :: 'x' :: 'p' :: 'o' :: 'r' :: 't' :: c :: rest =>
    if isBlank c then (c :: rest).dropWhile isBlank else s
  | _ => s

def splitKey (s : List Char) : Option (String × List Char) :=
  let s := dropExport s
  let key := s.takeWhile (fun c => c != '=' && c != ':')
  if !key.all keyChar then none
  else
    match s.drop key.length with
    | [] => some ("", s.dropWhile isBlank)
    | _ :: after => some (String.ofList (key.reverse.dropWhile isWhite).reverse, after.dropWhile isBlank)

def nameChar (c : Char) : Bool := ('A' ≤ c && c ≤ 'Z') || c.isDigit || c == '_'

/-- A reference being read after its `$`: whether a backslash came first, how far it got
(0: nothing, 1: `(`, 2: `{`, 3: a name), what it took after the `$`, and its name. -/
structure Reference where
  escaped : Bool
  stage : Nat
  taken : List Char
  name : List Char
  deriving Repr, Inhabited

def Reference.value (vars : List (String × String)) (r : Reference) : List Char :=
  if r.escaped || r.name.isEmpty then '$' :: r.taken
  else ((vars.find? (·.1 == String.ofList r.name)).map (·.2.toList)).getD []

/-- Expands the references of a text; `open` is the reference being read, if any. -/
def expandFrom (vars : List (String × String)) : Option Reference → List Char → List Char
  | none, [] => []
  | some r, [] => r.value vars
  | none, '\\' :: '$' :: rest => expandFrom vars (some ⟨true, 0, [], []⟩) rest
  | none, c :: rest =>
    if c == '$' then expandFrom vars (some ⟨false, 0, [], []⟩) rest
    else c :: expandFrom vars none rest
  | some r, c :: rest =>
    if c == '(' && r.stage == 0 then expandFrom vars (some { r with stage := 1, taken := r.taken ++ [c] }) rest
    else if c == '{' && r.stage ≤ 1 then expandFrom vars (some { r with stage := 2, taken := r.taken ++ [c] }) rest
    else if nameChar c then
      expandFrom vars (some { r with stage := 3, taken := r.taken ++ [c], name := r.name ++ [c] }) rest
    else if c == '}' then { r with taken := r.taken ++ [c] }.value vars ++ expandFrom vars none rest
    else r.value vars ++ expandFrom vars none (c :: rest)
termination_by o cs => (cs.length, if o.isSome then 1 else 0)

def expand (vars : List (String × String)) (s : List Char) : List Char := expandFrom vars none s

def lineEscapes : List Char → List Char
  | [] => []
  | '\\' :: (c :: r) =>
    if c == 'n' then '\n' :: lineEscapes r
    else if c == 'r' then '\r' :: lineEscapes r
    else if c == '\n' then '\\' :: '\n' :: lineEscapes r
    else '\\' :: c :: lineEscapes r
  | c :: r => c :: lineEscapes r

def dropBackslashes : List Char → List Char
  | [] => []
  | '\\' :: (c :: r) => if c == '$' then '\\' :: '$' :: dropBackslashes r else c :: dropBackslashes r
  | c :: r => c :: dropBackslashes r

def closing (q prev : Char) : List Char → Option Nat
  | [] => none
  | c :: r => if c == q && prev != '\\' then some 0 else (closing q c r).map (· + 1)

def commentAt (line : List Char) : Nat :=
  let marks := (line.zip (line.drop 1)).findIdx? (fun (a, b) => isBlank a && b == '#')
  match marks with
  | some i => i + 1
  | none => line.length

/-- A statement's value and what follows it; none for a quote that is never closed. -/
def valueOf (vars : List (String × String)) (s : List Char) : Option (String × List Char) :=
  match s with
  | q :: r =>
    if q == '"' || q == '\'' then
      match closing q q r with
      | none => none
      | some i =>
        let inner := ((r.take i).reverse.dropWhile (· == q)).reverse
        let v := if q == '"' then expand vars (dropBackslashes (lineEscapes inner)) else inner
        some (String.ofList v, r.drop (i + 1))
    else
      let line := s.takeWhile (fun c => c != '\n' && c != '\r')
      let body := (line.take (commentAt line)).dropWhile isBlank
      let body := (body.reverse.dropWhile isBlank).reverse
      some (String.ofList (expand vars body), s.drop line.length)
  | [] => some ("", [])

def setKey (vars : List (String × String)) (k v : String) : List (String × String) :=
  if vars.any (·.1 == k) then vars.map fun e => if e.1 == k then (k, v) else e else vars ++ [(k, v)]

/-- Reads statements one after the other; `fuel` bounds their number. -/
def statements : Nat → List (String × String) → List Char → Option (List (String × String))
  | 0, vars, _ => some vars
  | fuel + 1, vars, s =>
    match statementStart false s with
    | none => some vars
    | some st =>
      match splitKey st with
      | none => none
      | some (k, after) =>
        match valueOf vars after with
        | none => none
        | some (v, rest) => statements fuel (setKey vars k v) rest

def parse (text : String) : Option (List (String × String)) :=
  let s := ("\n".intercalate (text.splitOn "\r\n")).toList
  statements (s.length + 1) [] s

def load (env : Environment) (text : String) : Environment :=
  match parse text with
  | some vars => env.addMissing vars
  | none => env

end Outliner.EnvFile
