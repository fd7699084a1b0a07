/-!
# The relational schema

The three schema changes of the store, each with the statements that apply it and those that undo
it. Table names are written with the placeholder `{{prefix}}`, which is replaced by the deployment's
table prefix; changes are applied in order of their version.
-/

set_option autoImplicit false

namespace Outliner.Relational

/-- A schema change: its version, the statements that apply it and those that undo it. -/
structure Migration where
  version : String
  up : String
  down : String
  deriving Repr, BEq, Inhabited

def prefixPlaceholder : String := "\x7b\x7bprefix\x7d\x7d"

/-- The schema changes with the placeholder in place, ascending by version. -/
def migrationTemplates : List Migration := [
  ⟨"0001_documents_items",
    "CREATE TABLE IF NOT EXISTS \x7b\x7bprefix\x7d\x7ddocuments (\n"
    ++ "\tid UUID PRIMARY KEY DEFAULT gen_random_uuid(),\n"
    ++ "\tuser_id TEXT NOT NULL,\n"
    ++ "\troot_item_id UUID,\n"
    ++ "\ttoc_item_id UUID,\n"
    ++ "\tpublicly_viewable BOOLEAN NOT NULL DEFAULT FALSE,\n"
    ++ "\tcreated_at TIMESTAMPTZ NOT NULL DEFAULT NOW(),\n"
    ++ "\tmodified_at TIMESTAMPTZ\n"
    ++ ");\n"
    ++ "\n"
    ++ "CREATE INDEX IF NOT EXISTS idx_\x7b\x7bprefix\x7d\x7ddocuments_user ON \x7b\x7bprefix\x7d\x7ddocuments(user_id, created_at DESC);\n"
    ++ "\n"
    ++ "CREATE TABLE IF NOT EXISTS \x7b\x7bprefix\x7d\x7ditems (\n"
    ++ "\tid UUID PRIMARY KEY DEFAULT gen_random_uuid(),\n"
    ++ "\tdocument_id UUID NOT NULL REFERENCES \x7b\x7bprefix\x7d\x7ddocuments(id) ON DELETE CASCADE,\n"
    ++ "\tparent_id UUID REFERENCES \x7b\x7bprefix\x7d\x7ditems(id) ON DELETE CASCADE,\n"
    ++ "\titem_text TEXT NOT NULL DEFAULT '',\n"
    ++ "\tchild_order INTEGER NOT NULL DEFAULT 0,\n"
    ++ "\tcollapsed BOOLEAN NOT NULL DEFAULT FALSE\n"
    ++ ");\n"
    ++ "\n"
    ++ "CREATE INDEX IF NOT EXISTS idx_\x7b\x7bprefix\x7d\x7ditems_document ON \x7b\x7bprefix\x7d\x7ditems(document_id);\n"
    ++ "CREATE INDEX IF NOT EXISTS idx_\x7b\x7bprefix\x7d\x7ditems_parent ON \x7b\x7bprefix\x7d\x7ditems(parent_id, child_order);\n"
    ++ "\n"
    ++ "ALTER TABLE \x7b\x7bprefix\x7d\x7ddocuments\n"
    ++ "\tADD CONSTRAINT \x7b\x7bprefix\x7d\x7ddocuments_root_item_fk\n"
    ++ "\tFOREIGN KEY (root_item_id) REFERENCES \x7b\x7bprefix\x7d\x7ditems(id)\n"
    ++ "\tDEFERRABLE INITIALLY DEFERRED;\n"
    ++ "\n"
    ++ "ALTER TABLE \x7b\x7bprefix\x7d\x7ddocuments\n"
    ++ "\tADD CONSTRAINT \x7b\x7bprefix\x7d\x7ddocuments_toc_item_fk\n"
    ++ "\tFOREIGN KEY (toc_item_id) REFERENCES \x7b\x7bprefix\x7d\x7ditems(id)\n"
    ++ "\tON DELETE SET NULL;\n",
    "ALTER TABLE IF EXISTS \x7b\x7bprefix\x7d\x7ddocuments DROP CONSTRAINT IF EXISTS \x7b\x7bprefix\x7d\x7ddocuments_toc_item_fk;\n"
    ++ "ALTER TABLE IF EXISTS \x7b\x7bprefix\x7d\x7ddocuments DROP CONSTRAINT IF EXISTS \x7b\x7bprefix\x7d\x7ddocuments_root_item_fk;\n"
    ++ "DROP TABLE IF EXISTS \x7b\x7bprefix\x7d\x7ditems;\n"
    ++ "DROP TABLE IF EXISTS \x7b\x7bprefix\x7d\x7ddocuments;\n"⟩,
  ⟨"0002_styles",
    "CREATE TABLE IF NOT EXISTS \x7b\x7bprefix\x7d\x7dstyles (\n"
    ++ "\titem_id UUID NOT NULL REFERENCES \x7b\x7bprefix\x7d\x7ditems(id) ON DELETE CASCADE,\n"
    ++ "\tproperty TEXT NOT NULL,\n"
    ++ "\tvalue_number INTEGER,\n"
    ++ "\tvalue_string TEXT,\n"
    ++ "\tunit TEXT,\n"
    ++ "\tPRIMARY KEY (item_id, property)\n"
    ++ ");\n",
    "DROP TABLE IF EXISTS \x7b\x7bprefix\x7d\x7dstyles;\n"⟩,
  ⟨"0003_categories",
    "CREATE TABLE IF NOT EXISTS \x7b\x7bprefix\x7d\x7dcategories (\n"
    ++ "\tid UUID PRIMARY KEY DEFAULT gen_random_uuid(),\n"
    ++ "\tuser_id TEXT NOT NULL,\n"
    ++ "\tdocument_id UUID NOT NULL REFERENCES \x7b\x7bprefix\x7d\x7ddocuments(id) ON DELETE CASCADE,\n"
    ++ "\tcategory_name TEXT NOT NULL,\n"
    ++ "\tUNIQUE (user_id, document_id, category_name)\n"
    ++ ");\n"
    ++ "\n"
    ++ "CREATE INDEX IF NOT EXISTS idx_\x7b\x7bprefix\x7d\x7dcategories_user ON \x7b\x7bprefix\x7d\x7dcategories(user_id);\n",
    "DROP TABLE IF EXISTS \x7b\x7bprefix\x7d\x7dcategories;\n"⟩]

def replaceAll (s pat r : String) : String :=
  if pat.isEmpty then s else r.intercalate (s.splitOn pat)

def migrations (pre : String) : List Migration :=
  migrationTemplates.map fun m =>
    { m with up := replaceAll m.up prefixPlaceholder pre, down := replaceAll m.down prefixPlaceholder pre }

def tables (pre : String) : List String :=
  ["documents", "items", "styles", "categories"].map (pre ++ ·)

end Outliner.Relational
