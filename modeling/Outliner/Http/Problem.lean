import Outliner.Failure
import Outliner.Json.Value
/-!
# Problem details

Failures answered over HTTP: each class of failure has a status code, and an error response is a
problem-details object with a type URL for the status, the status's reason phrase, the status, a
detail text when there is one, and extra members.
-/

set_option autoImplicit false

namespace Outliner.Http

/-- The status code of a class of failure. -/
def Fault.status : Fault → Nat
  | .invalidRoot _ => 400
  | .tooLarge => 400
  | .validation => 400
  | .notFound => 404
  | .unauthorized => 401
  | .forbidden => 403
  | .conflict .. => 409
  | .alreadyExists => 500
  | .storage => 500

/-- The reason phrase of a status code. -/
def statusText : Nat → String
  | 200 => "OK"
  | 201 => "Created"
  | 204 => "No Content"
  | 400 => "Bad Request"
  | 401 => "Unauthorized"
  | 403 => "Forbidden"
  | 404 => "Not Found"
  | 405 => "Method Not Allowed"
  | 409 => "Conflict"
  | 500 => "Internal Server Error"
  | 503 => "Service Unavailable"
  | _ => ""

def problemType : Nat → String
  | 400 => "https://datatracker.ietf.org/doc/html/rfc7231#section-6.5.1"
  | 401 => "https://datatracker.ietf.org/doc/html/rfc7235#section-3.1"
  | 403 => "https://datatracker.ietf.org/doc/html/rfc7231#section-6.5.3"
  | 404 => "https://datatracker.ietf.org/doc/html/rfc7231#section-6.5.4"
  | 409 => "https://datatracker.ietf.org/doc/html/rfc7231#section-6.5.8"
  | 500 => "https://datatracker.ietf.org/doc/html/rfc7231#section-6.6.1"
  | 503 => "https://datatracker.ietf.org/doc/html/rfc7231#section-6.6.4"
  | _ => "about:blank"

def problem (status : Nat) (detail : String) (extras : List (String × Json)) : Json :=
  .obj ([("type", .str (problemType status)), ("title", .str (statusText status)),
         ("status", Json.int status)] ++
        (if detail = "" then [] else [("detail", .str detail)]) ++ extras)

end Outliner.Http
