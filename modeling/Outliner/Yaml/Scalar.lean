import Outliner.Yaml.Token
/-!
# Resolving scalars

A plain scalar without a tag takes its type from its text: `~`, `null` and the empty text are null;
`true` and `false` (also capitalised or in capitals) are booleans; numbers are integers (decimal,
`0x` hex, `0o` or leading-zero octal, `0b` binary, with `_` ignored) or floats;
-/

set_option autoImplicit false

namespace Outliner.Yaml

def longTagPrefix : String := "tag:yaml.org,2002:"

def shortTag (tag : String) : String :=
  if tag.startsWith longTagPrefix then "!!" ++ String.ofList (tag.toList.drop longTagPrefix.length) else tag

/-- A double: not a number, an infinity, or `±significand × 2^exponent`. -/
inductive Double where
  | nan
  | infinite (negative : Bool)
  | finite (negative : Bool) (significand : Nat) (exponent : Int)
  deriving Repr, BEq, Inhabited

/-- The value of a resolved scalar. -/
inductive Resolved where
  | null
  | bool (b : Bool)
  /-- An integer within the signed 64-bit range. -/
  | int (i : Int)
  /-- An integer above the signed 64-bit range and within the unsigned one. -/
  | uint (n : Nat)
  | float (d : Double)
  | timestamp
  | str (s : String)
  deriving Repr, BEq, Inhabited

/-! ## Rounding to a double -/

def ratioAtLeast (num den : Nat) (k : Int) : Bool :=
  if k ≥ 0 then num ≥ den <<< k.toNat else num <<< (-k).toNat ≥ den

/-- The nearest double to the positive ratio `num / den`, ties to even, as a significand below
`2^53` and an exponent; none when it is too large for a double. -/
def roundRatio (num den : Nat) : Option (Nat × Int) :=
  let k : Int := (num.log2 : Int) - den.log2
  let l := if ratioAtLeast num den k then k else k - 1
  let e := max (l - 52) (-1074)
  let (q, r, d) :=
    if e ≥ 0 then (num / (den <<< e.toNat), num % (den <<< e.toNat), den <<< e.toNat)
    else ((num <<< (-e).toNat) / den, (num <<< (-e).toNat) % den, den)
  let q := if 2 * r > d || (2 * r == d && q % 2 == 1) then q + 1 else q
  let (q, e) := if q == Nat.pow 2 53 then (Nat.pow 2 52, e + 1) else (q, e)
  if e > 971 then none else some (q, e)

/-- The double nearest to `±mantissa × 10^exponent`; none when it is too large. -/
def Double.ofDecimal (negative : Bool) (mantissa : Nat) (exponent : Int) : Option Double :=
  if mantissa == 0 then some (.finite negative 0 0)
  else
    let digits : Int := (toString mantissa).length
    if digits + exponent > 310 then none
    else if digits + exponent < -330 then some (.finite negative 0 0)
    else
      let (num, den) := if exponent ≥ 0 then (mantissa * Nat.pow 10 exponent.toNat, 1)
        else (mantissa, Nat.pow 10 (-exponent).toNat)
      (roundRatio num den).map fun (q, e) => .finite negative q e

def Double.ofInt (i : Int) : Double :=
  if i == 0 then .finite false 0 0
  else match roundRatio i.natAbs 1 with
    | some (q, e) => .finite (i < 0) q e
    | none => .infinite (i < 0)

def Double.truncate : Double → Int
  | .finite neg q e =>
    let n : Nat := if e ≥ 0 then q <<< e.toNat else q >>> (-e).toNat
    if neg then -(n : Int) else n
  | _ => 0

def Double.toInt64? : Double → Option Int
  | .nan => none
  | .infinite neg => if neg then some (-Int.pow 2 63) else none
  | d@(.finite _ _ _) =>
    let t := d.truncate
    if t > Int.pow 2 63 then none
    else if t ≥ -Int.pow 2 63 && t < Int.pow 2 63 then some t else some (-Int.pow 2 63)

/-! ## Numbers -/

def digitValue (c : Char) : Option Nat :=
  if c ≥ '0' && c ≤ '9' then some (c.toNat - '0'.toNat)
  else if c ≥ 'a' && c ≤ 'z' then some (c.toNat - 'a'.toNat + 10)
  else if c ≥ 'A' && c ≤ 'Z' then some (c.toNat - 'A'.toNat + 10)
  else none

def digitsIn (base : Nat) (cs : List Char) : Option Nat := do
  let v ← cs.foldlM (fun acc c => do
    let d ← digitValue c
    if d < base then some (acc * base + d) else none) 0
  if v < Nat.pow 2 64 then some v else none

def readUnsignedIn (base : Nat) (s : String) : Option Nat :=
  if s.isEmpty then none else digitsIn base s.toList

/-- An unsigned integer whose base its prefix gives: `0x`, `0o`, `0b`, a leading `0` for
octal, else decimal. -/
def readUnsigned (s : String) : Option Nat :=
  match s.toList with
  | [] => none
  | '0' :: c :: d :: rest =>
    let p := c.toLower
    if p == 'b' then digitsIn 2 (d :: rest)
    else if p == 'o' then digitsIn 8 (d :: rest)
    else if p == 'x' then digitsIn 16 (d :: rest)
    else digitsIn 8 (c :: d :: rest)
  | '0' :: rest => digitsIn 8 rest
  | cs => digitsIn 10 cs

def readSigned (unsigned : String → Option Nat) (s : String) : Option Int :=
  let (neg, body) := match s.toList with
    | '+' :: r => (false, r)
    | '-' :: r => (true, r)
    | r => (false, r)
  match unsigned (String.ofList body) with
  | none => none
  | some u => if neg then (if u ≤ Nat.pow 2 63 then some (-(u : Int)) else none)
    else if u < Nat.pow 2 63 then some u else none

/-- The parts of a decimal float text: its sign, its digits as one number, and the power of ten
to scale them by. Texts are a sign, then digits with an optional point (digits on at least one
side), then an optional exponent. -/
def decimalParts (s : String) : Option (Bool × Nat × Int) := do
  let cs := s.toList
  let (neg, cs) := match cs with
    | '-' :: r => (true, r)
    | '+' :: r => (false, r)
    | r => (false, r)
  let whole := cs.takeWhile isDigitChar
  let cs := cs.dropWhile isDigitChar
  let (frac, cs) ← match cs with
    | '.' :: r =>
      let f := r.takeWhile isDigitChar
      if whole.isEmpty && f.isEmpty then none else some (f, r.dropWhile isDigitChar)
    | r => if whole.isEmpty then none else some ([], r)
  let (e, cs) ← match cs with
    | c :: r =>
      if c == 'e' || c == 'E' then
        let (eneg, r) := match r with
          | '-' :: q => (true, q)
          | '+' :: q => (false, q)
          | q => (false, q)
        let eds := r.takeWhile isDigitChar
        if eds.isEmpty then none
        else
          let v : Int := eds.foldl (fun n c => n * 10 + (c.toNat - '0'.toNat)) 0
          some ((if eneg then -v else v), r.dropWhile isDigitChar)
      else some (0, c :: r)
    | [] => some (0, [])
  if !cs.isEmpty then none
  let m := (whole ++ frac).foldl (fun n c => n * 10 + (c.toNat - '0'.toNat)) 0
  some (neg, m, e - frac.length)

def readFloat (s : String) : Option Double := do
  let (neg, m, e) ← decimalParts s
  Double.ofDecimal neg m e

/-! ## Timestamps -/

def takeNumber : List Char → Option (Nat × List Char)
  | a :: b :: rest =>
    if !isDigitChar a then none
    else if isDigitChar b then some ((a.toNat - 48) * 10 + (b.toNat - 48), rest)
    else some (a.toNat - 48, b :: rest)
  | [a] => if isDigitChar a then some (a.toNat - 48, []) else none
  | [] => none

def daysIn (month year : Nat) : Nat :=
  if month == 2 then (if year % 4 == 0 && (year % 100 != 0 || year % 400 == 0) then 29 else 28)
  else if month == 4 || month == 6 || month == 9 || month == 11 then 30
  else 31

/-- A time of day `h:m:s` with an optional fraction after `.` or `,`; gives what follows. -/
def timeOfDay (cs : List Char) : Option (List Char) := do
  let (h, cs) ← takeNumber cs
  if h ≥ 24 then none
  let cs ← match cs with | ':' :: r => some r | _ => none
  let (m, cs) ← takeNumber cs
  if m ≥ 60 then none
  let cs ← match cs with | ':' :: r => some r | _ => none
  let (sec, cs) ← takeNumber cs
  if sec ≥ 60 then none
  match cs with
  | c :: d :: r =>
    if (c == '.' || c == ',') && isDigitChar d then some (r.dropWhile isDigitChar) else some (c :: d :: r)
  | r => some r

def zoneOffset (cs : List Char) : Option (List Char) :=
  match cs with
  | 'Z' :: r => some r
  | s :: h1 :: h2 :: ':' :: m1 :: m2 :: r =>
    if !(isDigitChar h1 && isDigitChar h2 && isDigitChar m1 && isDigitChar m2) then none
    else if (h1.toNat - 48) * 10 + (h2.toNat - 48) > 24 || (m1.toNat - 48) * 10 + (m2.toNat - 48) > 60 then none
    else if s == '+' || s == '-' then some r else none
  | _ => none

/-- Whether a text is a timestamp: a date `yyyy-m-d` (one or two digits for month and day),
alone, or followed by `T` or `t` and a time with a zone, or by spaces and a time without one. -/
def isTimestamp (s : String) : Bool :=
  let cs := s.toList
  let year := cs.take 4
  if !(year.length == 4 && year.all isDigitChar && (cs.drop 4).head? == some '-') then false
  else
    let y := year.foldl (fun n c => n * 10 + (c.toNat - 48)) 0
    let parsed : Option (Nat × Nat × List Char) := do
      let (mo, r) ← takeNumber (cs.drop 5)
      if mo == 0 || mo > 12 then none
      let r ← match r with | '-' :: q => some q | _ => none
      let (d, r) ← takeNumber r
      some (mo, d, r)
    match parsed with
    | none => false
    | some (mo, d, r) =>
      let dayOk := d ≥ 1 && d ≤ daysIn mo y
      let dated := r.isEmpty
      let zoned := match r with
        | c :: q => (c == 'T' || c == 't') &&
            (match timeOfDay q >>= zoneOffset with | some [] => true | _ => false)
        | [] => false
      let spaced := match r with
        | ' ' :: q => (match timeOfDay (q.dropWhile (· == ' ')) with | some [] => true | _ => false)
        | _ => false
      dayOk && (dated || zoned || spaced)

/-! ## Resolution -/

/-- The texts with a fixed meaning. -/
def fixedScalar (s : String) : Option (String × Resolved) :=
  match s with
  | "true" | "True" | "TRUE" => some ("!!bool", .bool true)
  | "false" | "False" | "FALSE" => some ("!!bool", .bool false)
  | "" | "~" | "null" | "Null" | "NULL" => some ("!!null", .null)
  | ".nan" | ".NaN" | ".NAN" => some ("!!float", .float .nan)
  | ".inf" | ".Inf" | ".INF" | "+.inf" | "+.Inf" | "+.INF" => some ("!!float", .float (.infinite false))
  | "-.inf" | "-.Inf" | "-.INF" => some ("!!float", .float (.infinite true))
  | "<<" => some ("!!merge", .str "<<")
  | _ => none

def hintOf (s : String) : Char :=
  match s.toList.head? with
  | none => 'N'
  | some c =>
    if c == '+' || c == '-' then 'S'
    else if isDigitChar c then 'D'
    else if "yYnNtTfFoO~".toList.contains c then 'M'
    else if c == '.' then '.'
    else '-'

def integerOf (signed : Option Int) (unsigned : Option Nat) : Option (String × Resolved) :=
  match signed, unsigned with
  | some i, _ => some ("!!int", .int i)
  | none, some u => some ("!!int", .uint u)
  | none, none => none

/-- Resolves a text toward a short tag (`""` for none) by what the text looks like. -/
def resolveByText (tag s : String) : String × Resolved :=
  let hint := hintOf s
  if hint == '-' || tag == "!!str" || tag == "!!binary" then ("!!str", .str s)
  else match fixedScalar s with
    | some r => r
    | none =>
      if hint == '.' then
        match readFloat s with
        | some d => ("!!float", .float d)
        | none => ("!!str", .str s)
      else if hint == 'D' || hint == 'S' then
        if (tag == "" || tag == "!!timestamp") && isTimestamp s then ("!!timestamp", .timestamp)
        else
          let plain := String.ofList (s.toList.filter (· != '_'))
          let binaryOrOctal : Option (String × Resolved) :=
            let binary :=
              if plain.startsWith "0b" then
                integerOf (readSigned (readUnsignedIn 2) (plain.drop 2).toString) (readUnsignedIn 2 (plain.drop 2).toString)
              else if plain.startsWith "-0b" then
                integerOf (readSigned (readUnsignedIn 2) ("-" ++ (plain.drop 3).toString)) none
              else none
            let octal :=
              if plain.startsWith "0o" then
                integerOf (readSigned (readUnsignedIn 8) (plain.drop 2).toString) (readUnsignedIn 8 (plain.drop 2).toString)
              else if plain.startsWith "-0o" then
                integerOf (readSigned (readUnsignedIn 8) ("-" ++ (plain.drop 3).toString)) none
              else none
            binary <|> octal
          match integerOf (readSigned readUnsigned plain) (readUnsigned plain) with
          | some r => r
          | none =>
            match (decimalParts plain).bind fun _ => readFloat plain with
            | some d => ("!!float", .float d)
            | none => binaryOrOctal.getD ("!!str", .str s)
      else ("!!str", .str s)

def resolvableTag (tag : String) : Bool :=
  ["", "!!str", "!!bool", "!!int", "!!float", "!!timestamp", "!!null"].contains tag

def resolve (tag s : String) : Except String (String × Resolved) :=
  let tag := shortTag tag
  if !resolvableTag tag then .ok (tag, .str s)
  else
    let (rtag, out) := resolveByText tag s
    if tag == "" || tag == rtag || tag == "!!str" then .ok (rtag, out)
    else match tag, rtag, out with
      | "!!float", "!!int", .int i => .ok ("!!float", .float (Double.ofInt i))
      | _, _, _ => .error ("cannot decode " ++ shortTag rtag ++ " `" ++ s ++ "` as a " ++ shortTag tag)

def plainTag (s : String) : String :=
  match resolve "" s with
  | .ok (t, _) => t
  | .error _ => "!!str"

end Outliner.Yaml
