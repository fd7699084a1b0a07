import Outliner.Json.Read
import Outliner.Text.Case
/-!
# Decoding JSON into records

A decoder reads a JSON value into a place that already holds a value, so that a member named twice
is read twice and the second reading wins, and `null` leaves a text, a number or a flag as it was
but empties an optional value, a list or a map.
-/

set_option autoImplicit false

namespace Outliner

/-- Reads a JSON value into a place that holds an `α`; `none` when the value does not fit. -/
abbrev Decoder (α : Type) := Json → α → Option α

namespace Decoder

def text : Decoder String
  | .null, s => some s
  | .str t, _ => some t
  | _, _ => none

def flag : Decoder Bool
  | .null, b => some b
  | .bool b, _ => some b
  | _, _ => none

def digitsValue (ds : List Char) : Nat := ds.foldl (fun n c => 10 * n + (c.toNat - '0'.toNat)) 0

def integerLiteral? (t : String) : Option Int :=
  match t.toList with
  | '-' :: ds => if !ds.isEmpty && ds.all Char.isDigit then some (-(digitsValue ds : Int)) else none
  | ds => if !ds.isEmpty && ds.all Char.isDigit then some (digitsValue ds : Int) else none

def intIn (lo hi : Int) : Decoder Int
  | .null, n => some n
  | .num t, _ =>
    match integerLiteral? t with
    | some n => if lo ≤ n ∧ n ≤ hi then some n else none
    | none => none
  | _, _ => none

def int32 : Decoder Int := intIn (-2147483648) 2147483647

def int64 : Decoder Int := intIn (-9223372036854775808) 9223372036854775807

def optional {α : Type} (d : Decoder α) (zero : α) : Decoder (Option α)
  | .null, _ => some none
  | j, some a => (d j a).map some
  | j, none => (d j zero).map some

def elements {α : Type} (d : Decoder α) (zero : α) : List Json → List α → Option (List α)
  | [], _ => some []
  | j :: js, old =>
    match d j (old.headD zero) with
    | none => none
    | some a => (elements d zero js old.tail).map (a :: ·)

def list {α : Type} (d : Decoder α) (zero : α) : Decoder (List α)
  | .null, _ => some []
  | .arr js, old => elements d zero js old
  | _, _ => none

def upsert {α : Type} (k : String) (v : α) : List (String × α) → List (String × α)
  | [] => [(k, v)]
  | (k', v') :: r => if k' = k then (k, v) :: r else (k', v') :: upsert k v r

def entries {α : Type} (d : Decoder α) (zero : α) :
    List (String × Json) → List (String × α) → Option (List (String × α))
  | [], acc => some acc
  | (k, j) :: r, acc =>
    match d j zero with
    | none => none
    | some a => entries d zero r (upsert k a acc)

def map {α : Type} (d : Decoder α) (zero : α) : Decoder (List (String × α))
  | .null, _ => some []
  | .obj ms, old => entries d zero ms old
  | _, _ => none

/-- The members of an object read one after the other into the fields they match. -/
def members {σ : Type} (fields : List (String × Decoder σ)) :
    List (String × Json) → σ → Option σ
  | [], s => some s
  | (k, j) :: r, s =>
    match fields.find? (fun f => Text.foldEq f.1 k) with
    | some f =>
      match f.2 j s with
      | some s' => members fields r s'
      | none => none
    | none => members fields r s

def record {σ : Type} (fields : List (String × Decoder σ)) : Decoder σ
  | .null, s => some s
  | .obj ms, s => members fields ms s
  | _, _ => none

def field {α : Type} (d : Decoder α) (zero : α) (name : String) (j : Json) : Option α :=
  record [(name, d)] j zero

def runPrefix {α : Type} (d : Decoder α) (zero : α) (s : String) : Option α :=
  match Json.readPrefix s with
  | some (j, _) => d j zero
  | none => none

end Decoder

end Outliner
