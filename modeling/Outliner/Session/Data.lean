import Outliner.Json.Syntax
import Outliner.Json.Read
import Outliner.Json.Write
import Outliner.Text.Case
import Outliner.Time.Read
/-!
# What is kept for a login session

A session records the address it last logged in from, its id, when it was created and last used, and
its user. It is stored as a JSON object with these five members in that order, the times in RFC 3339
text.
-/

set_option autoImplicit false

namespace Outliner.Session

open Time

/-- What is kept for one login session. -/
structure SessionData where
  ip : String
  sessionId : String
  created : Instant
  lastLogin : Instant
  userId : String
  deriving Repr, BEq, Inhabited

def zeroInstant : Instant := Instant.ofCivil 1 1 1 0 0 0

def SessionData.zero : SessionData := ⟨"", "", zeroInstant, zeroInstant, ""⟩

def SessionData.toJson (d : SessionData) : Json :=
  .obj [("ip", .str d.ip), ("session_id", .str d.sessionId), ("time_created", .str d.created.text),
        ("time_last_login", .str d.lastLogin.text), ("user_id", .str d.userId)]

def SessionData.text (d : SessionData) : String := Json.write d.toJson

def kindName : Json → String
  | .null => "null"
  | .bool _ => "bool"
  | .num _ => "number"
  | .str _ => "string"
  | .arr _ => "array"
  | .obj _ => "object"

/-- The record being read and the first type mismatch met. -/
structure Reading where
  data : SessionData
  mismatch : Option String

def readText (name : String) (set : SessionData → String → SessionData) (r : Reading) :
    Json → Reading
  | .str s => { r with data := set r.data s }
  | .null => r
  | j => { r with mismatch := r.mismatch <|> some ("json: cannot unmarshal " ++ kindName j ++
      " into Go struct field Data." ++ name ++ " of type string") }

def readTime (set : SessionData → Instant → SessionData) (r : Reading) :
    Json → Except String Reading
  | .str s => do
    let t ← Instant.read s
    pure { r with data := set r.data t }
  | .null => pure r
  | _ => throw "Time.UnmarshalJSON: input is not a JSON string"

def readMember (r : Reading) (m : String × Json) : Except String Reading :=
  let (k, v) := m
  if Text.foldEq k "ip" then pure (readText "ip" (fun d s => { d with ip := s }) r v)
  else if Text.foldEq k "session_id" then
    pure (readText "session_id" (fun d s => { d with sessionId := s }) r v)
  else if Text.foldEq k "user_id" then pure (readText "user_id" (fun d s => { d with userId := s }) r v)
  else if Text.foldEq k "time_created" then readTime (fun d t => { d with created := t }) r v
  else if Text.foldEq k "time_last_login" then readTime (fun d t => { d with lastLogin := t }) r v
  else pure r

def SessionData.ofJson : Json → Except String SessionData
  | .null => pure SessionData.zero
  | .obj ms => do
    let r ← ms.foldlM readMember ⟨SessionData.zero, none⟩
    match r.mismatch with
    | some e => throw e
    | none => pure r.data
  | j => throw ("json: cannot unmarshal " ++ kindName j ++ " into Go value of type session.Data")

def SessionData.parse (s : String) : Except String SessionData :=
  match Json.syntaxFault? s with
  | some e => throw e
  | none =>
    match Json.read? s with
    | some j => SessionData.ofJson j
    | none => throw "unexpected end of JSON input"

end Outliner.Session
