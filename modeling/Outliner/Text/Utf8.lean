/-!
# Bytes as text

Reading a byte sequence as UTF-8 text: each well-formed sequence is one character, and each byte
that does not start a well-formed sequence becomes U+FFFD on its own, so one bad byte never swallows
the good bytes after it. Well-formed means shortest form, no surrogates and nothing past U+10FFFF.
-/

set_option autoImplicit false

namespace Outliner.Text

def contIn (lo hi : UInt8) (b : UInt8) : Bool := lo ≤ b && b ≤ hi

def scalar (n : Nat) : Char := if n.isValidChar then Char.ofNat n else '�'

/-- The character that a sequence starting with byte `b` and going on with `r` begins with,
and how many bytes of `r` it takes besides `b`: none when `b` starts no well-formed
sequence, which then reads as U+FFFD. -/
def firstChar (b : UInt8) (r : List UInt8) : Char × Nat :=
  if b < 0x80 then (Char.ofNat b.toNat, 0)
  else if 0xC2 ≤ b && b ≤ 0xDF then
    match r with
    | c :: _ => if contIn 0x80 0xBF c then (scalar ((b.toNat - 0xC0) * 64 + (c.toNat - 0x80)), 1)
        else ('�', 0)
    | [] => ('�', 0)
  else if 0xE0 ≤ b && b ≤ 0xEF then
    let lo : UInt8 := if b = 0xE0 then 0xA0 else 0x80
    let hi : UInt8 := if b = 0xED then 0x9F else 0xBF
    match r with
    | c :: d :: _ => if contIn lo hi c && contIn 0x80 0xBF d then
        (scalar (((b.toNat - 0xE0) * 64 + (c.toNat - 0x80)) * 64 + (d.toNat - 0x80)), 2)
      else ('�', 0)
    | _ => ('�', 0)
  else if 0xF0 ≤ b && b ≤ 0xF4 then
    let lo : UInt8 := if b = 0xF0 then 0x90 else 0x80
    let hi : UInt8 := if b = 0xF4 then 0x8F else 0xBF
    match r with
    | c :: d :: e :: _ => if contIn lo hi c && contIn 0x80 0xBF d && contIn 0x80 0xBF e then
        (scalar ((((b.toNat - 0xF0) * 64 + (c.toNat - 0x80)) * 64 + (d.toNat - 0x80)) * 64 +
          (e.toNat - 0x80)), 3)
      else ('�', 0)
    | _ => ('�', 0)
  else ('�', 0)

def decodeUtf8 : List UInt8 → List Char
  | [] => []
  | b :: r => (firstChar b r).1 :: decodeUtf8 (r.drop (firstChar b r).2)
termination_by bs => bs.length
decreasing_by simp only [List.length_drop, List.length_cons]; omega

def ofUtf8 (bs : List UInt8) : String := String.ofList (decodeUtf8 bs)

end Outliner.Text
