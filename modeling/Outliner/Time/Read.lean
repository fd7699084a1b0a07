import Outliner.Time.Instant
import Outliner.Text.Quoted
/-!
# Reading RFC 3339 text

The layout `2006-01-02T15:04:05Z07:00` is read element by element: four year digits, two month
digits, two day digits, an hour of one or two digits, two minute and two second digits, an optional
fraction after `.` or `,`, and `Z` or `±hh:mm`.
-/

set_option autoImplicit false

namespace Outliner.Time

def layout : String := "2006-01-02T15:04:05Z07:00"

def quoteLayoutText (s : String) : String :=
  let one (c : Char) : String :=
    if c.toNat < 32 || c.toNat ≥ 128 then
      String.join ((String.singleton c).toUTF8.toList.map fun b => "\\x" ++ Text.hexPadded 2 b.toNat)
    else if c = '"' || c = '\\' then "\\" ++ String.singleton c
    else String.singleton c
  "\"" ++ String.join (s.toList.map one) ++ "\""

def cannotParse (value : String) (rest : List Char) (elem : String) : String :=
  "parsing time " ++ quoteLayoutText value ++ " as " ++ quoteLayoutText layout ++ ": cannot parse " ++
    quoteLayoutText (String.ofList rest) ++ " as " ++ quoteLayoutText elem

def outOfRange (value what : String) : String :=
  "parsing time " ++ quoteLayoutText value ++ ": " ++ what ++ " out of range"

def digitOf (c : Char) : Option Nat :=
  if c.isDigit then some (c.toNat - 48) else none

/-- A number of two digits, or of one when `fixed` is false and no second digit follows. -/
def twoDigits (fixed : Bool) : List Char → Option (Nat × List Char)
  | a :: rest =>
    match digitOf a with
    | none => none
    | some x =>
      match rest with
      | b :: more =>
        match digitOf b with
        | some y => some (10 * x + y, more)
        | none => if fixed then none else some (x, rest)
      | [] => if fixed then none else some (x, [])
  | [] => none

def allDigits (cs : List Char) : Option Nat :=
  cs.foldlM (fun n c => (digitOf c).map fun d => 10 * n + d) 0

/-- The fields read so far. -/
structure Fields where
  year : Nat
  month : Nat
  day : Nat
  hour : Nat
  minute : Nat
  second : Nat
  nanos : Nat
  /-- Seconds east of UTC; zero for `Z`. -/
  offset : Int
  deriving Repr, Inhabited

/-- A reading step: the text left and the fields, or the failure text. -/
abbrev Step := List Char → Fields → Except String (List Char × Fields)

def literal (value : String) (c : Char) : Step := fun rest f =>
  match rest with
  | d :: more => if d = c then .ok (more, f) else .error (cannotParse value rest (String.singleton c))
  | [] => .error (cannotParse value rest (String.singleton c))

def year (value : String) : Step := fun rest f =>
  let p := rest.take 4
  if p.length < 4 || !(p.head?.map Char.isDigit).getD false then .error (cannotParse value rest "2006")
  else match allDigits p with
    | some y => .ok (rest.drop 4, { f with year := y })
    | none => .error (cannotParse value rest "2006")

def ranged (value elem what : String) (fixed : Bool) (lo hi : Nat) (set : Fields → Nat → Fields) : Step :=
  fun rest f =>
    match twoDigits fixed rest with
    | none => .error (cannotParse value rest elem)
    | some (n, more) =>
      if n < lo || hi < n then .error (outOfRange value what) else .ok (more, set f n)

def fraction : List Char → List Char × Nat
  | sep :: d :: more =>
    if (sep = '.' || sep = ',') && d.isDigit then
      let ds := (d :: more).takeWhile Char.isDigit
      let kept := ds.take 9
      let n := (allDigits kept).getD 0
      (more.drop (ds.length - 1), n * Nat.pow 10 (9 - kept.length))
    else (sep :: d :: more, 0)
  | rest => (rest, 0)

def seconds (value : String) : Step := fun rest f =>
  match twoDigits true rest with
  | none => .error (cannotParse value rest "05")
  | some (n, more) =>
    if 59 < n then .error (outOfRange value "second")
    else
      let (after, nanos) := fraction more
      .ok (after, { f with second := n, nanos := nanos })

/-- The zone: `Z`, or a sign, two hour digits, a colon and two minute digits. -/
def zone (value : String) : Step := fun rest f =>
  match rest with
  | 'Z' :: more => .ok (more, { f with offset := 0 })
  | sign :: h1 :: h2 :: colon :: m1 :: m2 :: more =>
    if colon ≠ ':' then .error (cannotParse value rest "Z07:00")
    else
      let hr := twoDigits true [h1, h2]
      let mm := if hr.isSome then twoDigits true [m1, m2] else none
      let hrv := (hr.map (·.1)).getD 0
      let mmv := (mm.map (·.1)).getD 0
      if 60 < mmv then .error (outOfRange value "time zone offset minute")
      else if 24 < hrv then .error (outOfRange value "time zone offset hour")
      else if mm.isNone then .error (cannotParse value rest "Z07:00")
      else
        let off : Int := ((hrv * 60 + mmv) * 60 : Nat)
        if sign = '+' then .ok (more, { f with offset := off })
        else if sign = '-' then .ok (more, { f with offset := -off })
        else .error (cannotParse value rest "Z07:00")
  | _ => .error (cannotParse value rest "Z07:00")

def steps (value : String) : List Step :=
  [year value, literal value '-',
   ranged value "01" "month" true 1 12 (fun f n => { f with month := n }), literal value '-',
   ranged value "02" "day" true 0 99 (fun f n => { f with day := n }), literal value 'T',
   ranged value "15" "hour" false 0 23 (fun f n => { f with hour := n }), literal value ':',
   ranged value "04" "minute" true 0 59 (fun f n => { f with minute := n }), literal value ':',
   seconds value, zone value]

def Instant.read (value : String) : Except String Instant := do
  let (rest, f) ← (steps value).foldlM (fun (acc : List Char × Fields) st => st acc.1 acc.2)
    (value.toList, ⟨0, 0, 0, 0, 0, 0, 0, 0⟩)
  if !rest.isEmpty then
    throw ("parsing time " ++ quoteLayoutText value ++ ": extra text: " ++ quoteLayoutText (String.ofList rest))
  if f.day < 1 || (f.day : Int) > daysIn f.year f.month then throw (outOfRange value "day")
  let t := Instant.ofCivil f.year f.month f.day f.hour f.minute f.second
  pure ⟨t.seconds - f.offset, f.nanos, f.offset⟩

end Outliner.Time
