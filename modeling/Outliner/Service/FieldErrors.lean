import Outliner.Failure
/-!
# Field errors

How a request's faults are written: each faulty field with its message, fields in ascending order of
name, separated by `; `, the whole closed by a point. A field whose parts are faulty (the elements
of a list, the entries of a map) shows its parts the same way in parentheses: `items: (k: the length
must be no more than 10000.).`
-/

set_option autoImplicit false

namespace Outliner

/-- The fault of one field: a message, or the faults of its parts by key, in ascending order of
key. -/
inductive FieldError where
  | message (text : String)
  | parts (errors : List (String × FieldError))
  deriving Repr, Inhabited

namespace FieldError

mutual

def render : FieldError → String
  | message t => t
  | parts es => "(" ++ renderAll es ++ ")"

def renderAll : List (String × FieldError) → String
  | es => renderJoined es ++ "."

def renderJoined : List (String × FieldError) → String
  | [] => ""
  | [(k, e)] => k ++ ": " ++ render e
  | (k, e) :: r => k ++ ": " ++ render e ++ "; " ++ renderJoined r

end

end FieldError

def FieldError.byKey (es : List (String × FieldError)) : List (String × FieldError) :=
  es.mergeSort (fun a b => a.1 ≤ b.1)

def FieldError.ofParts (es : List (String × FieldError)) : FieldError := .parts (FieldError.byKey es)

def FieldError.describe (es : List (String × FieldError)) : String :=
  FieldError.renderAll (FieldError.byKey es)

def Failure.ofFields (es : List (String × FieldError)) : Failure :=
  Failure.invalid (FieldError.describe es)

def FieldError.required (v : String) : Option FieldError :=
  if v.isEmpty then some (.message "cannot be blank") else none

def FieldError.lengthMessage (lo hi : Nat) : FieldError :=
  if lo = 0 then .message s!"the length must be no more than {hi}"
  else .message s!"the length must be between {lo} and {hi}"

end Outliner
