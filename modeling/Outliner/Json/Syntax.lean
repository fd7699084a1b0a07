import Outliner.Text.Quoted
/-!
# Why a text is not JSON

A byte-at-a-time recognizer of one JSON value followed by blanks. The first byte that cannot
continue the text is reported as `invalid character 'c' <where>`, where `<where>` says what was
being read; a text that stops early is `unexpected end of JSON input`.
-/

set_option autoImplicit false

namespace Outliner.Json

/-- An open container, and which part of it comes next. -/
inductive Open where
  | key
  | value
  | element
  deriving Repr, BEq, Inhabited

/-- What the recognizer expects next. -/
inductive Expect where
  | value
  | valueOrClose
  | key
  | keyOrClose
  | afterValue
  | inString
  | escape
  /-- Inside a `\u` escape with this many hex digits read. -/
  | hex (read : Nat)
  | minus
  | zero
  | digits
  | point
  | fraction
  | exponent
  | exponentSign
  | exponentDigits
  /-- Inside a literal word, with the letters still to come. -/
  | word (name : String) (rest : List Char)
  | done
  deriving Repr, BEq, Inhabited

/-- The recognizer's state: what comes next, the open containers (innermost first), and
whether a whole value has been read. -/
structure Scan where
  expect : Expect
  stack : List Open
  ended : Bool
  deriving Repr, Inhabited

def quoteByte (b : Nat) : String :=
  if b = 39 then "'\\''"
  else if b = 34 then "'\"'"
  else "'" ++ Text.quotedChar (Char.ofNat b) ++ "'"

def invalidAt (b : Nat) (what : String) : String :=
  "invalid character " ++ quoteByte b ++ " " ++ what

def isSpaceByte (b : Nat) : Bool := b = 32 || b = 9 || b = 10 || b = 13

def isDigitByte (b : Nat) : Bool := 48 ≤ b && b ≤ 57

def isHexByte (b : Nat) : Bool := isDigitByte b || (97 ≤ b && b ≤ 102) || (65 ≤ b && b ≤ 70)

def Scan.next (s : Scan) (e : Expect) : Scan := { s with expect := e }

def Scan.close (s : Scan) : Scan :=
  match s.stack with
  | [] | [_] => ⟨.done, [], true⟩
  | _ :: rest => ⟨.afterValue, rest, false⟩

/-- The byte after a complete value. -/
def Scan.endValue (s : Scan) (b : Nat) : Except String Scan :=
  match s.stack with
  | [] =>
    if isSpaceByte b then .ok ⟨.done, [], true⟩ else .error (invalidAt b "after top-level value")
  | top :: rest =>
    if isSpaceByte b then .ok (s.next .afterValue)
    else match top with
      | .key =>
        if b = 58 then .ok ⟨.value, .value :: rest, false⟩ else .error (invalidAt b "after object key")
      | .value =>
        if b = 44 then .ok ⟨.key, .key :: rest, false⟩
        else if b = 125 then .ok s.close
        else .error (invalidAt b "after object key:value pair")
      | .element =>
        if b = 44 then .ok (s.next .value)
        else if b = 93 then .ok s.close
        else .error (invalidAt b "after array element")

/-- The first byte of a value. -/
def Scan.beginValue (s : Scan) (b : Nat) : Except String Scan :=
  if isSpaceByte b then .ok (s.next .value)
  else if b = 123 then .ok ⟨.keyOrClose, .key :: s.stack, false⟩
  else if b = 91 then .ok ⟨.valueOrClose, .element :: s.stack, false⟩
  else if b = 34 then .ok (s.next .inString)
  else if b = 45 then .ok (s.next .minus)
  else if b = 48 then .ok (s.next .zero)
  else if 49 ≤ b && b ≤ 57 then .ok (s.next .digits)
  else if b = 116 then .ok (s.next (.word "true" ['r', 'u', 'e']))
  else if b = 102 then .ok (s.next (.word "false" ['a', 'l', 's', 'e']))
  else if b = 110 then .ok (s.next (.word "null" ['u', 'l', 'l']))
  else .error (invalidAt b "looking for beginning of value")

def Scan.afterInteger (s : Scan) (b : Nat) : Except String Scan :=
  if b = 46 then .ok (s.next .point)
  else if b = 101 || b = 69 then .ok (s.next .exponent)
  else s.endValue b

/-- One byte more. -/
def Scan.feed (s : Scan) (b : Nat) : Except String Scan :=
  match s.expect with
  | .done =>
    if isSpaceByte b then .ok s else .error (invalidAt b "after top-level value")
  | .value => s.beginValue b
  | .valueOrClose =>
    if isSpaceByte b then .ok s
    else if b = 93 then .ok s.close
    else s.beginValue b
  | .keyOrClose =>
    if isSpaceByte b then .ok s
    else if b = 125 then .ok s.close
    else if b = 34 then .ok (s.next .inString)
    else .error (invalidAt b "looking for beginning of object key string")
  | .key =>
    if isSpaceByte b then .ok s
    else if b = 34 then .ok (s.next .inString)
    else .error (invalidAt b "looking for beginning of object key string")
  | .afterValue => s.endValue b
  | .inString =>
    if b = 34 then .ok (s.next .afterValue)
    else if b = 92 then .ok (s.next .escape)
    else if b < 32 then .error (invalidAt b "in string literal")
    else .ok s
  | .escape =>
    if [98, 102, 110, 114, 116, 92, 47, 34].contains b then .ok (s.next .inString)
    else if b = 117 then .ok (s.next (.hex 0))
    else .error (invalidAt b "in string escape code")
  | .hex k =>
    if isHexByte b then .ok (s.next (if k = 3 then .inString else .hex (k + 1)))
    else .error (invalidAt b "in \\u hexadecimal character escape")
  | .minus =>
    if b = 48 then .ok (s.next .zero)
    else if 49 ≤ b && b ≤ 57 then .ok (s.next .digits)
    else .error (invalidAt b "in numeric literal")
  | .zero => s.afterInteger b
  | .digits => if isDigitByte b then .ok s else s.afterInteger b
  | .point =>
    if isDigitByte b then .ok (s.next .fraction)
    else .error (invalidAt b "after decimal point in numeric literal")
  | .fraction =>
    if isDigitByte b then .ok s
    else if b = 101 || b = 69 then .ok (s.next .exponent)
    else s.endValue b
  | .exponent =>
    if b = 43 || b = 45 then .ok (s.next .exponentSign)
    else if isDigitByte b then .ok (s.next .exponentDigits)
    else .error (invalidAt b "in exponent of numeric literal")
  | .exponentSign =>
    if isDigitByte b then .ok (s.next .exponentDigits)
    else .error (invalidAt b "in exponent of numeric literal")
  | .exponentDigits => if isDigitByte b then .ok s else s.endValue b
  | .word name rest =>
    match rest with
    | [] => s.endValue b
    | c :: more =>
      if b = c.toNat then .ok (s.next (if more.isEmpty then .afterValue else .word name more))
      else .error (invalidAt b ("in literal " ++ name ++ " (expecting " ++ quoteByte c.toNat ++ ")"))

def Scan.start : Scan := ⟨.value, [], false⟩

def syntaxFault? (s : String) : Option String :=
  let bytes := s.toUTF8.toList.map (·.toNat)
  match bytes.foldlM Scan.feed Scan.start with
  | .error e => some e
  | .ok st =>
    if st.ended then none
    else match st.feed 32 with
      | .error e => some e
      | .ok st' => if st'.ended then none else some "unexpected end of JSON input"

end Outliner.Json
