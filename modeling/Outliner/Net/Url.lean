import Outliner.Text.Quoted
import Outliner.Text.Utf8
/-!
# URLs

A URL text is split into scheme, authority (user information and host), path, query and fragment as
RFC 3986 describes, with these rules for what is refused:
-/

set_option autoImplicit false

namespace Outliner.Net

/-- The parts of a URL. -/
structure Url where
  scheme : String
  opaque_ : String
  user : Option (String × Option String)
  host : String
  path : String
  rawQuery : String
  fragment : String
  deriving Repr, Inhabited

/-- Where an escaped text stands, which decides what it may hold. -/
inductive Part where
  | path
  | host
  | zone
  | userPassword
  | queryComponent
  | fragment
  deriving Repr, BEq, Inhabited

def hexDigitValue (c : Char) : Option Nat :=
  if '0' ≤ c && c ≤ '9' then some (c.toNat - 48)
  else if 'a' ≤ c && c ≤ 'f' then some (c.toNat - 87)
  else if 'A' ≤ c && c ≤ 'F' then some (c.toNat - 55)
  else none

def escapedInHost (c : Char) : Bool :=
  !(c.isAlphanum || "-_.~!$&'()*+,;=:[]<>\"".toList.contains c)

def badEscape (s : List Char) : String := "invalid URL escape " ++ Text.quoted (String.ofList s)

/-- Checks the escapes of a text for its part, and answers it unescaped. -/
def unescapeIn (mode : Part) (s : List Char) : Except String String :=
  let rec go : List Char → List Nat → Except String (List Nat)
    | [], acc => .ok acc
    | '%' :: rest, acc =>
      match rest with
      | a :: b :: more =>
        match hexDigitValue a, hexDigitValue b with
        | some x, some y =>
          let v := 16 * x + y
          let esc := ['%', a, b]
          if mode == .host && x < 8 && esc != ['%', '2', '5'] then .error (badEscape esc)
          else if mode == .zone && esc != ['%', '2', '5'] && v != 32 && v < 128 &&
              escapedInHost (Char.ofNat v) then .error (badEscape esc)
          else go more (acc ++ [v])
        | _, _ => .error (badEscape ('%' :: rest.take 2))
      | _ => .error (badEscape ('%' :: rest.take 2))
    | '+' :: rest, acc => go rest (acc ++ (if mode == .queryComponent then [32] else [43]))
    | c :: rest, acc =>
      if (mode == .host || mode == .zone) && c.toNat < 128 && escapedInHost c then
        .error ("invalid character " ++ Text.quoted (String.singleton c) ++ " in host name")
      else go rest (acc ++ (String.singleton c).toUTF8.toList.map (·.toNat))
  match go s [] with
  | .ok bytes => .ok (Text.ofUtf8 (bytes.map (·.toUInt8)))
  | .error e => .error e

def validPort : List Char → Bool
  | [] => true
  | ':' :: ds => ds.all Char.isDigit
  | _ => false

def lastIndex (s : List Char) (c : Char) : Option Nat :=
  (s.zipIdx.filter (·.1 = c)).getLast?.map (·.2)

/-- The host of an authority, checked and unescaped. -/
def parseHost (host : List Char) : Except String String :=
  match host with
  | '[' :: _ =>
    match lastIndex host ']' with
    | none => .error "missing ']' in host"
    | some i =>
      let colonPort := host.drop (i + 1)
      if !validPort colonPort then .error ("invalid port " ++ Text.quoted (String.ofList colonPort) ++ " after host")
      else
        let zoneAt := ((host.take i).zipIdx.find? fun (_, k) => (host.drop k).take 3 == ['%', '2', '5']).map (·.2)
        match zoneAt with
        | some z => do
          let a ← unescapeIn .host (host.take z)
          let b ← unescapeIn .zone ((host.take i).drop z)
          let c ← unescapeIn .host (host.drop i)
          pure (a ++ b ++ c)
        | none => unescapeIn .host host
  | _ =>
    match lastIndex host ':' with
    | some i =>
      let colonPort := host.drop i
      if !validPort colonPort then .error ("invalid port " ++ Text.quoted (String.ofList colonPort) ++ " after host")
      else unescapeIn .host host
    | none => unescapeIn .host host

def validUserinfo (s : List Char) : Bool :=
  s.all fun c => c.isAlphanum || "-._:~!$&'()*+,;=%@".toList.contains c

/-- User information and host of an authority. -/
def parseAuthority (authority : List Char) :
    Except String (Option (String × Option String) × String) :=
  match lastIndex authority '@' with
  | none => do pure (none, ← parseHost authority)
  | some i => do
    let host ← parseHost (authority.drop (i + 1))
    let info := authority.take i
    if !validUserinfo info then throw "net/url: invalid userinfo"
    match info.findIdx? (· = ':') with
    | none => pure (some (← unescapeIn .userPassword info, none), host)
    | some j =>
      let name ← unescapeIn .userPassword (info.take j)
      let pass ← unescapeIn .userPassword (info.drop (j + 1))
      pure (some (name, some pass), host)

/-- The scheme of a text and what follows its colon, if it has one. -/
def splitScheme (s : List Char) : Except String (String × List Char) :=
  let rec go : List Char → List Char → Except String (String × List Char)
    | [], _ => .ok ("", s)
    | c :: rest, seen =>
      if c.isAlpha then go rest (seen ++ [c])
      else if c.isDigit || c = '+' || c = '-' || c = '.' then
        if seen.isEmpty then .ok ("", s) else go rest (seen ++ [c])
      else if c = ':' then
        if seen.isEmpty then .error "missing protocol scheme" else .ok (String.ofList seen, rest)
      else .ok ("", s)
  go s []

def cutAt (s : List Char) (c : Char) : List Char × Option (List Char) :=
  match s.findIdx? (· = c) with
  | some i => (s.take i, some (s.drop (i + 1)))
  | none => (s, none)

/-- A URL without its fragment; `request` asks for a request target. -/
def parseWithout (raw : String) (request : Bool) : Except String Url := do
  let s := raw.toList
  if s.any (fun c => c.toNat < 32 || c.toNat = 127) then throw "net/url: invalid control character in URL"
  if raw.isEmpty && request then throw "empty url"
  if raw == "*" then return { (default : Url) with path := "*" }
  let (scheme, rest) ← splitScheme s
  let scheme := scheme.toLower
  let (rest, query) :=
    if rest.getLast? == some '?' && rest.count '?' = 1 then (rest.dropLast, "")
    else match cutAt rest '?' with
      | (r, some q) => (r, String.ofList q)
      | (r, none) => (r, "")
  let base : Url := { (default : Url) with scheme := scheme, rawQuery := query }
  if rest.head? != some '/' then
    if scheme != "" then return { base with opaque_ := String.ofList rest }
    if request then throw "invalid URI for request"
    if (cutAt rest '/').1.contains ':' then throw "first path segment in URL cannot contain colon"
  let slashes := rest.take 2 == ['/', '/']
  if (scheme != "" || (!request && rest.take 3 != ['/', '/', '/'])) && slashes then
    let authority := rest.drop 2
    let (auth, path) := match authority.findIdx? (· = '/') with
      | some i => (authority.take i, authority.drop i)
      | none => (authority, [])
    let (user, host) ← parseAuthority auth
    pure { base with user := user, host := host, path := ← unescapeIn .path path }
  else
    pure { base with path := ← unescapeIn .path rest }

def parseFailure (raw reason : String) : String := "parse " ++ Text.quoted raw ++ ": " ++ reason

/-- A URL or reference: the fragment after `#` is split off first. -/
def Url.parse (raw : String) : Except String Url :=
  let (u, frag) := cutAt raw.toList '#'
  match parseWithout (String.ofList u) false with
  | .error e => .error (parseFailure (String.ofList u) e)
  | .ok url =>
    match frag with
    | none | some [] => .ok url
    | some f =>
      match unescapeIn .fragment f with
      | .ok fr => .ok { url with fragment := fr }
      | .error e => .error (parseFailure raw e)

def Url.parseRequest (raw : String) : Except String Url :=
  match parseWithout raw true with
  | .error e => .error (parseFailure raw e)
  | .ok url => .ok url

/-- The name-value pairs of a query, unescaped; malformed pairs are skipped. -/
def queryPairs (q : String) : List (String × String) :=
  (q.splitOn "&").filterMap fun part =>
    if part.isEmpty || part.contains ';' then none
    else
      let (k, v) := match cutAt part.toList '=' with
        | (k, some v) => (k, v)
        | (k, none) => (k, [])
      match unescapeIn .queryComponent k, unescapeIn .queryComponent v with
      | .ok k', .ok v' => some (k', v')
      | _, _ => none

end Outliner.Net
