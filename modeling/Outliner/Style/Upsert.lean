import Outliner.Store.Repository
/-!
# Writing styles

Edits are written to an item one after the other: a property the item has is updated, any other is
inserted and counts as present for the edits after it. The answer lists the styles written, in the
order of the edits.
-/

set_option autoImplicit false

namespace Outliner.StyleWrite

variable {m : Type → Type} [Monad m] [MonadExceptOf Failure m]

/-- Writes edits to an item, given the properties it has. -/
def apply (r : Repository m) (itemId : String) : List StyleEdit → List String → m (List Style)
  | [], _ => pure []
  | e :: es, present => do
    let st := e.toStyle itemId
    if present.contains e.property then
      Failure.during ("update style " ++ e.property) (r.updateStyle st)
      let rest ← apply r itemId es present
      pure (st :: rest)
    else
      Failure.during ("insert style " ++ e.property) (r.insertStyle st)
      let rest ← apply r itemId es (e.property :: present)
      pure (st :: rest)

def upsert (r : Repository m) (itemId : String) (edits : List StyleEdit) : m (List Style) :=
  if edits.isEmpty then pure []
  else do
    let existing ← Failure.during ("load styles for item " ++ itemId) (r.listItemStyles itemId)
    apply r itemId edits (existing.map (·.property))

end Outliner.StyleWrite
