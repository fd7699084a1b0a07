import Outliner.Json.Decode
import Outliner.Text.Blank
import Outliner.Text.Case
/-!
# Categories

A category is a name one user puts on one document. Names are kept in one spelling: blanks around
the name are dropped, the name is lowered, its first character raised, and it is cut to 32
characters. The category `Trash` marks a document the user has put away.
-/

set_option autoImplicit false

namespace Outliner

/-- A user's category on a document. -/
structure Category where
  id : String
  userId : String
  documentId : String
  name : String
  deriving Repr, BEq, DecidableEq, Inhabited

namespace Category

def trash : String := "Trash"

def maxNameLength : Nat := 32

def toJson (c : Category) : Json :=
  .obj [("id", .str c.id), ("user_id", .str c.userId), ("document_id", .str c.documentId),
        ("category_name", .str c.name)]

def blank : Category := ⟨"", "", "", ""⟩

def decoder : Decoder Category :=
  Decoder.record [
    ("id", fun j c => (Decoder.text j c.id).map fun v => { c with id := v }),
    ("user_id", fun j c => (Decoder.text j c.userId).map fun v => { c with userId := v }),
    ("document_id", fun j c => (Decoder.text j c.documentId).map fun v => { c with documentId := v }),
    ("category_name", fun j c => (Decoder.text j c.name).map fun v => { c with name := v })]

def sanitize (name : String) : String :=
  match (Text.lowerText (Text.trimBlank name)).toList with
  | [] => ""
  | c :: cs => String.ofList (Text.upperChar c :: cs.take (maxNameLength - 1))

end Category

end Outliner
