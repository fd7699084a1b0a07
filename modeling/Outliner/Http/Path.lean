import Outliner.Text.Utf8
/-!
# Request paths

The path of a request as routing sees it. A path is clean when it has no empty, `.` or `..` segment
(a trailing slash is allowed); routing asks an unclean path to be requested again in its clean form.
Segments are matched after percent-decoding each one on its own, so an encoded slash `%2F` stays
inside its segment.
-/

set_option autoImplicit false

namespace Outliner.Http

def resolveSegments : List String → List String → List String
  | [], acc => acc.reverse
  | s :: rest, acc =>
    if s = "" || s = "." then resolveSegments rest acc
    else if s = ".." then resolveSegments rest acc.tail
    else resolveSegments rest (s :: acc)

def cleanRooted (p : String) : String :=
  "/" ++ "/".intercalate (resolveSegments (p.splitOn "/") [])

def cleanPath (p : String) : String :=
  if p.isEmpty then "/"
  else
    let p := if p.startsWith "/" then p else "/" ++ p
    let np := cleanRooted p
    if p.endsWith "/" && np != "/" then np ++ "/" else np

def hexDigit (c : Char) : Option Nat :=
  if '0' ≤ c ∧ c ≤ '9' then some (c.toNat - '0'.toNat)
  else if 'a' ≤ c ∧ c ≤ 'f' then some (c.toNat - 'a'.toNat + 10)
  else if 'A' ≤ c ∧ c ≤ 'F' then some (c.toNat - 'A'.toNat + 10)
  else none

def unescapeBytes : List Char → Option (List UInt8)
  | [] => some []
  | '%' :: a :: b :: r =>
    match hexDigit a, hexDigit b with
    | some x, some y => (unescapeBytes r).map ((x * 16 + y).toUInt8 :: ·)
    | _, _ => none
  | '%' :: _ => none
  | c :: r => (unescapeBytes r).map (c.toString.toUTF8.toList ++ ·)

def unescapeSegment (s : String) : String :=
  match unescapeBytes s.toList with
  | some bs => Text.ofUtf8 bs
  | none => s

def splitTarget (t : String) : String × String :=
  match t.splitOn "?" with
  | [] => ("", "")
  | p :: rest => (p, "?".intercalate rest)

end Outliner.Http
