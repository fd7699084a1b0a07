import Outliner.Json.Read
import Outliner.Json.Write
import Outliner.Json.Decode
import Outliner.Text.Base64
import Outliner.Text.Utf8
import Outliner.Net.Url
import Outliner.Failure
/-!
# Bearer tokens

A bearer token is three base64 parts joined by dots: a JSON header naming the signing algorithm and,
optionally, the key (`kid`); the JSON claims; and the signature over the first two parts.
-/

set_option autoImplicit false

namespace Outliner.Auth

/-- The two kinds of verification keys. -/
inductive KeyKind where
  | rsa
  | ec
  deriving Repr, BEq, DecidableEq, Inhabited

/-- A key set: key ids with their kinds. -/
abbrev KeySet := List (String × KeyKind)

def KeySet.standard : KeySet := [("rsa-1", .rsa), ("ec-1", .ec)]

def accepted : List (String × KeyKind) := [("RS256", .rsa), ("ES256", .ec)]

def signedText (key alg input : String) : String := key ++ "/" ++ alg ++ "/" ++ input

def signature (key alg input : String) : String := Text.base64Text (signedText key alg input)

/-- The claims a token carries. Absent texts are empty and absent dates are `none`. -/
structure Claims where
  issuer : String
  subject : String
  audience : List String
  expires : Option Int
  notBefore : Option Int
  issuedAt : Option Int
  tokenId : String
  email : String
  role : String
  sessionId : String
  deriving Repr, BEq, Inhabited

def Claims.blank : Claims := ⟨"", "", [], none, none, none, "", "", "", ""⟩

def Claims.userId (c : Claims) : String := c.subject

def Claims.toJson (c : Claims) : Json :=
  let text (k v : String) : List (String × Json) := if v.isEmpty then [] else [(k, .str v)]
  let date (k : String) : Option Int → List (String × Json)
    | some d => [(k, Json.int d)]
    | none => []
  .obj (text "iss" c.issuer ++ text "sub" c.subject ++
    (if c.audience.isEmpty then [] else [("aud", .arr (c.audience.map .str))]) ++
    date "exp" c.expires ++ date "nbf" c.notBefore ++ date "iat" c.issuedAt ++ text "jti" c.tokenId ++
    [("email", .str c.email), ("role", .str c.role), ("session_id", .str c.sessionId)])

def digitsOf (cs : List Char) : Option Nat :=
  if cs.isEmpty then none
  else cs.foldlM (fun n c => if c.isDigit then some (10 * n + (c.toNat - 48)) else none) 0

def dateFloor : Int := -9223372036854775808

/-- The whole seconds (rounded down) a JSON number stands for. Numbers too large to hold as
a double are refused; those beyond the range of whole seconds go to the least one. -/
def secondsOf (text : String) : Option Int :=
  let cs := text.toList
  let (neg, cs) := match cs with
    | '-' :: r => (true, r)
    | r => (false, r)
  let intPart := cs.takeWhile Char.isDigit
  let cs := cs.drop intPart.length
  let (frac, cs) := match cs with
    | '.' :: r => (r.takeWhile Char.isDigit, r.drop (r.takeWhile Char.isDigit).length)
    | r => ([], r)
  let exp : Option Int := match cs with
    | [] => some 0
    | e :: r =>
      if e = 'e' || e = 'E' then
        match r with
        | '-' :: ds => (digitsOf ds).map fun n => -(n : Int)
        | '+' :: ds => (digitsOf ds).map fun n => (n : Int)
        | ds => (digitsOf ds).map fun n => (n : Int)
      else none
  match digitsOf intPart, exp with
  | some ip, some e =>
    let mant := (digitsOf (intPart ++ frac)).getD ip
    let scale : Int := e - frac.length
    let width : Int := (toString mant).length
    if mant = 0 then some 0
    else if width + scale > 309 then none
    else if width + scale > 19 then some dateFloor
    else if scale ≥ 0 then
      let v : Int := mant * Int.pow 10 scale.toNat
      some (if neg then -v else v)
    else if scale < -400 then some (if neg then -1 else 0)
    else
      let d := Nat.pow 10 (-scale).toNat
      let q : Int := mant / d
      some (if neg then (if mant % d = 0 then -q else -q - 1) else q)
  | _, _ => none

def dateDecoder : Decoder (Option Int)
  | .num t, _ => (secondsOf t).map some
  | .str t, _ =>
    match Json.read? t with
    | some (.num n) => if n == t then (secondsOf t).map some else none
    | _ => none
  | .null, d => some d
  | _, _ => none

def audienceDecoder : Decoder (List String)
  | .str s, _ => some [s]
  | .arr xs, _ => xs.mapM fun x => match x with
    | .str s => some s
    | _ => none
  | .null, a => some a
  | _, _ => none

/-- Claims from their JSON; a member of the wrong kind refuses the whole. -/
def Claims.decoder : Decoder Claims :=
  Decoder.record [
    ("iss", fun j c => (Decoder.text j c.issuer).map fun v => { c with issuer := v }),
    ("sub", fun j c => (Decoder.text j c.subject).map fun v => { c with subject := v }),
    ("aud", fun j c => (audienceDecoder j c.audience).map fun v => { c with audience := v }),
    ("exp", fun j c => (dateDecoder j c.expires).map fun v => { c with expires := v }),
    ("nbf", fun j c => (dateDecoder j c.notBefore).map fun v => { c with notBefore := v }),
    ("iat", fun j c => (dateDecoder j c.issuedAt).map fun v => { c with issuedAt := v }),
    ("jti", fun j c => (Decoder.text j c.tokenId).map fun v => { c with tokenId := v }),
    ("email", fun j c => (Decoder.text j c.email).map fun v => { c with email := v }),
    ("role", fun j c => (Decoder.text j c.role).map fun v => { c with role := v }),
    ("session_id", fun j c => (Decoder.text j c.sessionId).map fun v => { c with sessionId := v })]

def decodePart (p : String) : Option String :=
  (Text.base64Decode p.toList).map fun bs => Text.ofUtf8 (bs.map (·.toUInt8))

def sign (alg : String) (kid : Option String) (key : Option String) (claims : Json) : String :=
  let header : Json := .obj ([("alg", .str alg)] ++ (kid.map fun k => [("kid", .str k)]).getD [] ++
    [("typ", .str "JWT")])
  let input := Text.base64Text (Json.write header) ++ "." ++ Text.base64Text (Json.write claims)
  input ++ "." ++ (key.map fun k => signature k alg input).getD ""

/-- The claims of a token that verifies against `keys` at time `now` (seconds since 1970). -/
def verify (keys : KeySet) (now : Int) (token : String) : Option Claims := do
  let (h, p, s) ← match token.splitOn "." with
    | [h, p, s] => some (h, p, s)
    | _ => none
  let header ← decodePart h >>= Json.read?
  let members ← match header with
    | .obj ms => some ms
    | _ => none
  let payload ← decodePart p
  let claims ← Decoder.runPrefix Claims.decoder Claims.blank payload
  let alg ← match Json.get? (.obj members) "alg" with
    | some (.str a) => some a
    | _ => none
  let kind ← (accepted.find? (·.1 == alg)).map (·.2)
  let candidates ← match Json.get? (.obj members) "kid" with
    | none => some keys
    | some (.str k) => (keys.find? (·.1 == k)).map fun e => [e]
    | some _ => none
  let sig ← decodePart s
  let input := h ++ "." ++ p
  guard (candidates.any fun (k, kk) => kk == kind && sig == signedText k alg input)
  let exp ← claims.expires
  guard (now < exp)
  guard (claims.notBefore.all (· ≤ now))
  guard (!claims.subject.isEmpty && claims.role != "anon")
  pure claims

def newVerifier (url : String) : Except Failure Unit :=
  if url.isEmpty then .error (Failure.storage "JWKS URL cannot be empty")
  else match Net.Url.parseRequest url with
    | .ok _ => .ok ()
    | .error e => .error (Failure.storage ("failed to create JWKS client: failed to create HTTP client storage for " ++
        Text.quoted url ++ ": failed to parse given URL " ++ Text.quoted url ++ ": " ++ e ++
        "\nfailed to create new JWK Set client"))

end Outliner.Auth
