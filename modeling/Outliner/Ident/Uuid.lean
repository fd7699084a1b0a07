import Outliner.Text.Quoted
/-!
# Item ids

Ids are uuids. A text names a uuid when it is one of four spellings, measured in bytes:
-/

set_option autoImplicit false

namespace Outliner.Uuid

def hexByte (b : UInt8) : Option Nat :=
  let n := b.toNat
  if 48 ≤ n ∧ n ≤ 57 then some (n - 48)
  else if 97 ≤ n ∧ n ≤ 102 then some (n - 87)
  else if 65 ≤ n ∧ n ≤ 70 then some (n - 55)
  else none

def hexPairs : List UInt8 → Option (List Nat)
  | [] => some []
  | a :: b :: r => do
    let x ← hexByte a
    let y ← hexByte b
    let rest ← hexPairs r
    pure ((x * 16 + y) :: rest)
  | [_] => none

def parseDashed (bs : List UInt8) : Option (List Nat) :=
  if bs.length = 36 ∧ bs[8]? = some 45 ∧ bs[13]? = some 45 ∧ bs[18]? = some 45 ∧ bs[23]? = some 45 then
    hexPairs (bs.take 8 ++ (bs.drop 9).take 4 ++ (bs.drop 14).take 4 ++ (bs.drop 19).take 4 ++ bs.drop 24)
  else none

def lowerByte (b : UInt8) : UInt8 := if 65 ≤ b ∧ b ≤ 90 then b + 32 else b

def parse? (s : String) : Option (List Nat) :=
  let bs := s.toUTF8.toList
  match bs.length with
  | 36 => parseDashed bs
  | 45 => if (bs.take 9).map lowerByte = "urn:uuid:".toUTF8.toList then parseDashed (bs.drop 9) else none
  | 38 => parseDashed ((bs.drop 1).take 36)
  | 32 => hexPairs bs
  | _ => none

def isValid (s : String) : Bool := (parse? s).isSome

def minted (k : Nat) : String := "00000000-0000-4000-8000-" ++ Text.hexPadded 12 k

end Outliner.Uuid
