/-!
# Instants and their RFC 3339 text

An instant is a count of seconds since 1970-01-01T00:00:00Z, a fraction in nanoseconds, and the
offset from UTC it was written with. Its text is `YYYY-MM-DDTHH:MM:SS`, the fraction with trailing
zeros dropped (none when zero), and `Z` for a zero offset or `±HH:MM`. Days are counted on the
proleptic Gregorian calendar.
-/

set_option autoImplicit false

namespace Outliner.Time

/-- A moment in time, with the offset it is shown in. -/
structure Instant where
  /-- Seconds since 1970-01-01T00:00:00Z. -/
  seconds : Int
  nanos : Nat
  /-- Offset from UTC in seconds. -/
  offset : Int
  deriving Repr, BEq, DecidableEq, Inhabited

def daysFromCivil (y m d : Int) : Int :=
  let y := if m ≤ 2 then y - 1 else y
  let era := y / 400
  let yoe := y - era * 400
  let mp := if m > 2 then m - 3 else m + 9
  let doy := (153 * mp + 2) / 5 + d - 1
  let doe := yoe * 365 + yoe / 4 - yoe / 100 + doy
  era * 146097 + doe - 719468

/-- The date of a day counted from 1970-01-01: year, month, day. -/
def civilFromDays (z : Int) : Int × Int × Int :=
  let z := z + 719468
  let era := z / 146097
  let doe := z - era * 146097
  let yoe := (doe - doe / 1460 + doe / 36524 - doe / 146096) / 365
  let y := yoe + era * 400
  let doy := doe - (365 * yoe + yoe / 4 - yoe / 100)
  let mp := (5 * doy + 2) / 153
  let d := doy - (153 * mp + 2) / 5 + 1
  let m := if mp < 10 then mp + 3 else mp - 9
  (if m ≤ 2 then y + 1 else y, m, d)

def isLeap (y : Int) : Bool := (y % 4 = 0 && y % 100 ≠ 0) || y % 400 = 0

def daysIn (y m : Int) : Int :=
  if m = 2 then (if isLeap y then 29 else 28)
  else if m = 4 || m = 6 || m = 9 || m = 11 then 30 else 31

def padded (w : Nat) (n : Nat) : String :=
  let s := toString n
  String.ofList (List.replicate (w - s.length) '0') ++ s

def fractionText (nanos : Nat) : String :=
  if nanos = 0 then ""
  else "." ++ String.ofList ((padded 9 nanos).toList.reverse.dropWhile (· = '0')).reverse

/-- The RFC 3339 text of an instant, with the fraction shortest. -/
def Instant.text (t : Instant) : String :=
  let wall := t.seconds + t.offset
  let days := wall / 86400
  let secs := (wall % 86400).toNat
  let (y, m, d) := civilFromDays days
  let zone := if t.offset = 0 then "Z" else
    let o := t.offset.natAbs / 60
    (if t.offset < 0 then "-" else "+") ++ padded 2 (o / 60) ++ ":" ++ padded 2 (o % 60)
  padded 4 y.toNat ++ "-" ++ padded 2 m.toNat ++ "-" ++ padded 2 d.toNat ++ "T" ++
    padded 2 (secs / 3600) ++ ":" ++ padded 2 (secs % 3600 / 60) ++ ":" ++ padded 2 (secs % 60) ++
    fractionText t.nanos ++ zone

def Instant.ofCivil (y m d hh mm ss : Int) : Instant :=
  ⟨daysFromCivil y m d * 86400 + hh * 3600 + mm * 60 + ss, 0, 0⟩

def Instant.year (t : Instant) : Int := (civilFromDays ((t.seconds + t.offset) / 86400)).1

def Instant.textFault (t : Instant) : Option String :=
  if t.year < 0 ∨ 9999 < t.year then some "year outside of range [0,9999]"
  else if 86400 ≤ t.offset.natAbs then some "timezone hour outside of range [0,23]"
  else none

def Instant.before (a b : Instant) : Bool :=
  a.seconds < b.seconds || (a.seconds = b.seconds && a.nanos < b.nanos)

def insertNewer {α : Type} (stamp : α → Instant) (x : α) : List α → List α
  | [] => [x]
  | y :: ys => if (stamp y).before (stamp x) then x :: y :: ys else y :: insertNewer stamp x ys

def newestFirst {α : Type} (stamp : α → Instant) (xs : List α) : List α :=
  xs.foldl (fun acc x => insertNewer stamp x acc) []

end Outliner.Time
