/-!
# Unpadded URL-safe base64

Bytes are written six bits to a character from `A–Z a–z 0–9 - _`, three bytes to four characters,
with no `=` padding: a last group of one or two bytes takes two or three characters.
-/

set_option autoImplicit false

namespace Outliner.Text

def base64Char (n : Nat) : Char :=
  if n < 26 then Char.ofNat (65 + n)
  else if n < 52 then Char.ofNat (97 + n - 26)
  else if n < 62 then Char.ofNat (48 + n - 52)
  else if n = 62 then '-' else '_'

def base64Value (c : Char) : Option Nat :=
  if 'A' ≤ c && c ≤ 'Z' then some (c.toNat - 65)
  else if 'a' ≤ c && c ≤ 'z' then some (c.toNat - 97 + 26)
  else if '0' ≤ c && c ≤ '9' then some (c.toNat - 48 + 52)
  else if c = '-' then some 62
  else if c = '_' then some 63
  else none

/-- Bytes as unpadded URL-safe base64. -/
def base64Encode : List Nat → List Char
  | a :: b :: c :: rest =>
    let n := a * 65536 + b * 256 + c
    [base64Char (n / 262144), base64Char (n / 4096 % 64), base64Char (n / 64 % 64), base64Char (n % 64)] ++
      base64Encode rest
  | [a, b] =>
    let n := a * 65536 + b * 256
    [base64Char (n / 262144), base64Char (n / 4096 % 64), base64Char (n / 64 % 64)]
  | [a] =>
    let n := a * 65536
    [base64Char (n / 262144), base64Char (n / 4096 % 64)]
  | [] => []

/-- The bytes unpadded URL-safe base64 text stands for. -/
def base64Decode : List Char → Option (List Nat)
  | a :: b :: c :: d :: rest => do
    let n := (← base64Value a) * 262144 + (← base64Value b) * 4096 + (← base64Value c) * 64 + (← base64Value d)
    pure ([n / 65536, n / 256 % 256, n % 256] ++ (← base64Decode rest))
  | [a, b, c] => do
    let n := (← base64Value a) * 262144 + (← base64Value b) * 4096 + (← base64Value c) * 64
    pure [n / 65536, n / 256 % 256]
  | [a, b] => do
    let n := (← base64Value a) * 262144 + (← base64Value b) * 4096
    pure [n / 65536]
  | [_] => none
  | [] => some []

def base64Text (s : String) : String := String.ofList (base64Encode (s.toUTF8.toList.map (·.toNat)))

end Outliner.Text
