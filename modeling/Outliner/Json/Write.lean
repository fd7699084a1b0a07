import Outliner.Json.Value
import Outliner.Text.Quoted
/-!
# Writing JSON

Compact JSON text: no blanks, members in the order the value holds them. Strings are written safe
for embedding in HTML: besides the quote, the backslash and the controls, the characters `<`, `>`,
`&` and the two line separators U+2028 and U+2029 are written as `\u` escapes.
-/

set_option autoImplicit false

namespace Outliner.Json

open Outliner.Text

/-- How one character of a string is written. -/
def escapeChar (c : Char) : String :=
  if c = '"' then "\\\""
  else if c = '\\' then "\\\\"
  else if c = '\x08' then "\\b"
  else if c = '\x0c' then "\\f"
  else if c = '\n' then "\\n"
  else if c = '\r' then "\\r"
  else if c = '\t' then "\\t"
  else if c.toNat < 32 || c = '<' || c = '>' || c = '&' || c.toNat = 0x2028 || c.toNat = 0x2029 then
    "\\u" ++ hexPadded 4 c.toNat
  else c.toString

def writeString (s : String) : String :=
  "\"" ++ String.join (s.toList.map escapeChar) ++ "\""

mutual

def write : Json → String
  | .null => "null"
  | .bool true => "true"
  | .bool false => "false"
  | .num t => t
  | .str s => writeString s
  | .arr xs => "[" ++ writeItems xs ++ "]"
  | .obj ms => "\x7b" ++ writeMembers ms ++ "\x7d"

def writeItems : List Json → String
  | [] => ""
  | [x] => write x
  | x :: xs => write x ++ "," ++ writeItems xs

def writeMembers : List (String × Json) → String
  | [] => ""
  | [(k, v)] => writeString k ++ ":" ++ write v
  | (k, v) :: ms => writeString k ++ ":" ++ write v ++ "," ++ writeMembers ms

end

end Outliner.Json
