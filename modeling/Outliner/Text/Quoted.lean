import Outliner.Text.Graphic
/-!
# Quoted text

A text between double quotes, as error messages show names: graphic characters stand as they are,
the quote and the backslash are preceded by a backslash, the seven usual controls take their letter
escapes (`\n`, `\t`, …), other ASCII controls are written `\xHH`, and any other character that is
not graphic is written `\uHHHH`, or `\UHHHHHHHH` beyond the first plane.
-/

set_option autoImplicit false

namespace Outliner.Text

def hexPadded (width n : Nat) : String :=
  let ds := Nat.toDigits 16 n
  String.ofList (List.replicate (width - ds.length) '0' ++ ds)

/-- How one character is written inside quotes. -/
def quotedChar (c : Char) : String :=
  if c = '"' then "\\\""
  else if c = '\\' then "\\\\"
  else if isGraphic c then c.toString
  else if c = '\x07' then "\\a"
  else if c = '\x08' then "\\b"
  else if c = '\x0c' then "\\f"
  else if c = '\n' then "\\n"
  else if c = '\r' then "\\r"
  else if c = '\t' then "\\t"
  else if c = '\x0b' then "\\v"
  else if c.toNat < 32 || c.toNat = 127 then "\\x" ++ hexPadded 2 c.toNat
  else if c.toNat < 0x10000 then "\\u" ++ hexPadded 4 c.toNat
  else "\\U" ++ hexPadded 8 c.toNat

def quoted (s : String) : String :=
  "\"" ++ String.join (s.toList.map quotedChar) ++ "\""

end Outliner.Text
