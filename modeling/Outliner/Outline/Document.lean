import Outliner.Json.Decode
import Outliner.Time.Read
/-!
# Documents

A document belongs to one user, has one root item (set right after the document is created) and
optionally a table-of-contents item, may be viewable by everyone, and carries the times it was
created and last modified.
-/

set_option autoImplicit false

namespace Outliner

/-- An outline document. -/
structure Document where
  id : String
  userId : String
  rootItemId : Option String
  tocItemId : Option String
  publiclyViewable : Bool
  createdAt : Time.Instant
  modifiedAt : Option Time.Instant
  deriving Repr, BEq, DecidableEq, Inhabited

namespace Document

def rootId (d : Document) : String := d.rootItemId.getD ""

def jsonMembers (d : Document) : List (String × Json) :=
  [("id", .str d.id), ("user_id", .str d.userId), ("root_item_id", Json.optStr d.rootItemId),
   ("toc_item_id", Json.optStr d.tocItemId), ("publicly_viewable", .bool d.publiclyViewable),
   ("created_at", .str d.createdAt.text), ("modified_at", Json.optStr (d.modifiedAt.map (·.text)))]

def toJson (d : Document) : Json := .obj d.jsonMembers

def blank : Document := ⟨"", "", none, none, false, Time.Instant.ofCivil 1 1 1 0 0 0, none⟩

def instant : Decoder Time.Instant
  | .null, t => some t
  | .str s, _ => (Time.Instant.read s).toOption
  | _, _ => none

/-- Reads a document from JSON. -/
def decoder : Decoder Document :=
  Decoder.record [
    ("id", fun j d => (Decoder.text j d.id).map fun v => { d with id := v }),
    ("user_id", fun j d => (Decoder.text j d.userId).map fun v => { d with userId := v }),
    ("root_item_id", fun j d =>
      (Decoder.optional Decoder.text "" j d.rootItemId).map fun v => { d with rootItemId := v }),
    ("toc_item_id", fun j d =>
      (Decoder.optional Decoder.text "" j d.tocItemId).map fun v => { d with tocItemId := v }),
    ("publicly_viewable", fun j d =>
      (Decoder.flag j d.publiclyViewable).map fun v => { d with publiclyViewable := v }),
    ("created_at", fun j d => (instant j d.createdAt).map fun v => { d with createdAt := v }),
    ("modified_at", fun j d =>
      (Decoder.optional instant blank.createdAt j d.modifiedAt).map fun v => { d with modifiedAt := v })]

end Document

def untitledTitle : String := "Untitled Document"

def effectiveTitle (rootText : String) : String :=
  if rootText = "" then untitledTitle else rootText

end Outliner
