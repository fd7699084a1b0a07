import Outliner.Http.Problem
import Outliner.Json.Write
/-!
# Responses

What the service answers to a request: a status, a content type, a body and extra headers. JSON
bodies are compact JSON; failures are problem details; a request that changes something and answers
nothing gets 204 with no body; routing failures are plain text.
-/

set_option autoImplicit false

namespace Outliner.Http

/-- An answer to a request. -/
structure Response where
  status : Nat
  contentType : String
  body : String
  headers : List (String × String)
  deriving Repr, Inhabited

namespace Response

def json (status : Nat) (j : Json) : Response := ⟨status, "application/json", Json.write j, []⟩

def problemOf (status : Nat) (detail : String) (extras : List (String × Json)) : Response :=
  ⟨status, "application/problem+json", Json.write (problem status detail extras), []⟩

def noContent : Response := ⟨204, "", "", []⟩

def text (status : Nat) (body : String) : Response := ⟨status, "text/plain; charset=utf-8", body, []⟩

def notFound : Response := text 404 "404 page not found\n"

def methodNotAllowed : Response := text 405 "Method Not Allowed\n"

def htmlChar (c : Char) : String :=
  match c with
  | '&' => "&amp;"
  | '<' => "&lt;"
  | '>' => "&gt;"
  | '"' => "&#34;"
  | '\'' => "&#39;"
  | c => c.toString

def redirect (method location : String) : Response :=
  let ct := if method == "GET" || method == "HEAD" then "text/html; charset=utf-8" else ""
  let body := if method == "GET" then
    "<a href=\"" ++ String.join (location.toList.map htmlChar) ++ "\">Moved Permanently</a>.\n\n"
    else ""
  ⟨301, ct, body, [("Location", location)]⟩

def ofFailure (f : Failure) : Response :=
  match f.fault with
  | .invalidRoot c => problemOf 400 f.text [("root_item", .str c)]
  | .tooLarge | .validation => problemOf 400 f.text []
  | .notFound => problemOf 404 "resource not found" []
  | .unauthorized => problemOf 401 "not logged in" []
  | .forbidden => problemOf 403 "insufficient permissions" []
  | .conflict d t i => problemOf 409 d [("resource_type", .str t), ("resource_id", .str i)]
  | .alreadyExists | .storage => problemOf 500 "internal server error" []

def badBody : Response := problemOf 400 "Invalid request body" []

end Response

end Outliner.Http
