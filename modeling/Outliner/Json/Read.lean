import Outliner.Json.Value
/-!
# Reading JSON

The first JSON value of a text, by the grammar of RFC 8259: blanks are space, tab, line feed and
carriage return; a number is `-?(0|[1-9][0-9]*)(.[0-9]+)?([eE][+-]?[0-9]+)?`; a string holds no
control character. What follows the first value is handed back unread.
-/

set_option autoImplicit false

namespace Outliner.Json

def isWs (c : Char) : Bool := c = ' ' || c = '\t' || c = '\n' || c = '\r'

def skipWs (cs : List Char) : List Char := cs.dropWhile isWs

def hexValue (c : Char) : Option Nat :=
  if '0' ≤ c ∧ c ≤ '9' then some (c.toNat - '0'.toNat)
  else if 'a' ≤ c ∧ c ≤ 'f' then some (c.toNat - 'a'.toNat + 10)
  else if 'A' ≤ c ∧ c ≤ 'F' then some (c.toNat - 'A'.toNat + 10)
  else none

def hex4 : List Char → Option (Nat × List Char)
  | a :: b :: c :: d :: r => do
    let x ← hexValue a
    let y ← hexValue b
    let z ← hexValue c
    let w ← hexValue d
    pure (((x * 16 + y) * 16 + z) * 16 + w, r)
  | _ => none

def codeChar (n : Nat) : Char := if n.isValidChar then Char.ofNat n else '�'

theorem hex4_length {cs r : List Char} {n : Nat} (h : hex4 cs = some (n, r)) :
    r.length + 4 = cs.length := by
  unfold hex4 at h
  split at h
  · simp only [Option.bind_eq_bind, Option.bind_eq_some_iff, Option.pure_def,
      Option.some.injEq, Prod.mk.injEq] at h
    obtain ⟨_, _, _, _, _, _, _, _, _, rfl⟩ := h
    simp
  · simp at h

/-- The character of a `\u` escape whose four digits gave `n`, with the rest of the text:
a high surrogate followed by an escaped low surrogate makes one character. -/
def unicodeEscape (n : Nat) (rest : List Char) : Char × List Char :=
  if 0xD800 ≤ n ∧ n < 0xDC00 then
    match rest with
    | '\\' :: 'u' :: r =>
      match hex4 r with
      | some (m, r') =>
        if 0xDC00 ≤ m ∧ m < 0xE000 then
          (codeChar (0x10000 + (n - 0xD800) * 0x400 + (m - 0xDC00)), r')
        else ('�', rest)
      | none => ('�', rest)
    | _ => ('�', rest)
  else (codeChar n, rest)

theorem unicodeEscape_length (n : Nat) (rest : List Char) :
    (unicodeEscape n rest).2.length ≤ rest.length := by
  unfold unicodeEscape
  split
  · split
    · rename_i r
      split
      · rename_i m r' h
        have := hex4_length h
        split <;> simp <;> omega
      · simp
    · simp
  · simp

/-- The body of a string after its opening quote, up to and without the closing quote. -/
def readStringBody (acc : List Char) : List Char → Option (String × List Char)
  | [] => none
  | '"' :: r => some (String.ofList acc.reverse, r)
  | '\\' :: e :: r =>
    match e with
    | '"' => readStringBody ('"' :: acc) r
    | '\\' => readStringBody ('\\' :: acc) r
    | '/' => readStringBody ('/' :: acc) r
    | 'b' => readStringBody ('\x08' :: acc) r
    | 'f' => readStringBody ('\x0c' :: acc) r
    | 'n' => readStringBody ('\n' :: acc) r
    | 'r' => readStringBody ('\r' :: acc) r
    | 't' => readStringBody ('\t' :: acc) r
    | 'u' =>
      match h : hex4 r with
      | some (n, r') =>
        have : (unicodeEscape n r').2.length < r.length + 2 := by
          have := hex4_length h
          have := unicodeEscape_length n r'
          omega
        readStringBody ((unicodeEscape n r').1 :: acc) (unicodeEscape n r').2
      | none => none
    | _ => none
  | c :: r => if c.toNat < 32 then none else readStringBody (c :: acc) r
termination_by cs => cs.length

def digits (cs : List Char) : List Char × List Char :=
  (cs.takeWhile Char.isDigit, cs.dropWhile Char.isDigit)

def readIntPart : List Char → Option (List Char × List Char)
  | '0' :: r => some (['0'], r)
  | c :: r => if '1' ≤ c ∧ c ≤ '9' then some (c :: (digits r).1, (digits r).2) else none
  | [] => none

def readFraction : List Char → Option (List Char × List Char)
  | '.' :: r => if (digits r).1.isEmpty then none else some ('.' :: (digits r).1, (digits r).2)
  | r => some ([], r)

def readExpSign : List Char → List Char × List Char
  | '+' :: r => (['+'], r)
  | '-' :: r => (['-'], r)
  | r => ([], r)

def readExponent : List Char → Option (List Char × List Char)
  | e :: r =>
    if e = 'e' ∨ e = 'E' then
      let (sg, r1) := readExpSign r
      if (digits r1).1.isEmpty then none else some (e :: sg ++ (digits r1).1, (digits r1).2)
    else some ([], e :: r)
  | [] => some ([], [])

/-- A number literal at the start of the text. -/
def readNumber (cs : List Char) : Option (String × List Char) :=
  let (sign, r) : List Char × List Char := match cs with
    | '-' :: r => (['-'], r)
    | r => ([], r)
  match readIntPart r with
  | none => none
  | some (ip, r1) =>
    match readFraction r1 with
    | none => none
    | some (fr, r2) =>
      match readExponent r2 with
      | none => none
      | some (ex, r3) => some (String.ofList (sign ++ ip ++ fr ++ ex), r3)

def readWord (w : List Char) (cs : List Char) : Option (List Char) :=
  if w.isPrefixOf cs then some (cs.drop w.length) else none

mutual

/-- The first value of the text, after blanks, and what follows it. The fuel bounds the
depth of nesting; the text's length is always enough. -/
def readValue : Nat → List Char → Option (Json × List Char)
  | 0, _ => none
  | fuel + 1, cs =>
    match skipWs cs with
    | '{' :: r =>
      match skipWs r with
      | '}' :: r' => some (.obj [], r')
      | r' => (readMembers fuel [] r').map fun (ms, r'') => (.obj ms, r'')
    | '[' :: r =>
      match skipWs r with
      | ']' :: r' => some (.arr [], r')
      | r' => (readItems fuel [] r').map fun (xs, r'') => (.arr xs, r'')
    | '"' :: r => (readStringBody [] r).map fun (s, r') => (.str s, r')
    | 't' :: r => (readWord ['r', 'u', 'e'] r).map fun r' => (.bool true, r')
    | 'f' :: r => (readWord ['a', 'l', 's', 'e'] r).map fun r' => (.bool false, r')
    | 'n' :: r => (readWord ['u', 'l', 'l'] r).map fun r' => (.null, r')
    | r => (readNumber r).map fun (t, r') => (.num t, r')

/-- Array elements after `[`, up to and with the closing `]`. -/
def readItems : Nat → List Json → List Char → Option (List Json × List Char)
  | 0, _, _ => none
  | fuel + 1, acc, cs =>
    match readValue fuel cs with
    | none => none
    | some (v, r) =>
      match skipWs r with
      | ',' :: r' => readItems fuel (v :: acc) r'
      | ']' :: r' => some ((v :: acc).reverse, r')
      | _ => none

/-- Object members after `{`, up to and with the closing `}`. -/
def readMembers : Nat → List (String × Json) → List Char → Option (List (String × Json) × List Char)
  | 0, _, _ => none
  | fuel + 1, acc, cs =>
    match skipWs cs with
    | '"' :: r =>
      match readStringBody [] r with
      | none => none
      | some (k, r1) =>
        match skipWs r1 with
        | ':' :: r2 =>
          match readValue fuel r2 with
          | none => none
          | some (v, r3) =>
            match skipWs r3 with
            | ',' :: r4 => readMembers fuel ((k, v) :: acc) r4
            | '}' :: r4 => some (((k, v) :: acc).reverse, r4)
            | _ => none
        | _ => none
    | _ => none

end

def readPrefix (s : String) : Option (Json × List Char) :=
  readValue (2 * s.length + 2) s.toList

def read? (s : String) : Option Json :=
  match readPrefix s with
  | some (v, r) => if (skipWs r).isEmpty then some v else none
  | none => none

end Outliner.Json
