import Outliner.Program.Machine
import Outliner.Program.Flags
import Outliner.Config.EnvFile
import Outliner.Relational.Migrate
import Outliner.Service.Documents
import Outliner.Ident.Uuid
/-!
# Seeding sample documents

The seed program fills a user's account with sample outlines, for trying the editor out. It refuses
to run in `prod`, needs the owner as a uuid (`-user`), brings the schema up to date (after rolling
it all back with `-drop-tables`), and then creates each sample document and writes its outline in
one reconciliation.
-/

set_option autoImplicit false

namespace Outliner.Program.Seed

def flags : List Flags.Spec :=
  [⟨"user", .text, "Owner user id (UUID) for the seeded documents"⟩,
   ⟨"drop-tables", .switch, "Roll back all migrations before seeding (fresh start)"⟩,
   ⟨"clear-data", .switch, "Delete the user's documents and exit"⟩]

/-- A line of a sample outline: how deep it is (0 for the document's title), its text and
its styles. -/
structure SampleLine where
  depth : Nat
  text : String
  styles : List StyleEdit
  deriving Repr, Inhabited

def heading : List StyleEdit := [⟨"font-weight", none, some 700, none⟩]

def accent : List StyleEdit := [⟨"color", some "#b5452a", none, none⟩]

/-- The sample outlines, each starting with its title line. -/
def samples : List (List SampleLine) :=
  [[⟨0, "Getting Started", []⟩,
    ⟨1, "Every line is an item", heading⟩,
    ⟨2, "Press Tab to indent", []⟩,
    ⟨2, "Press Shift+Tab to outdent", []⟩,
    ⟨1, "Collapse a branch to hide its children", []⟩,
    ⟨1, "Share a document by making it public", accent⟩],
   [⟨0, "Reading List", []⟩,
    ⟨1, "Fiction", heading⟩,
    ⟨2, "The Left Hand of Darkness", []⟩,
    ⟨2, "Piranesi", []⟩,
    ⟨1, "Non-fiction", heading⟩,
    ⟨2, "The Design of Everyday Things", []⟩]]

def clientId (rootId : String) (i : Nat) : String :=
  if i = 0 then rootId else "00000000-0000-4000-a000-" ++ Text.hexPadded 12 i

def parentOf (lines : List SampleLine) (i : Nat) : Option Nat :=
  let d := (lines.getD i default).depth
  if d = 0 then none
  else ((List.range i).reverse.find? fun j => (lines.getD j default).depth + 1 = d)

/-- The snapshot that writes a sample outline under a document's root item. -/
def snapshotOf (rootId : String) (lines : List SampleLine) : Snapshot :=
  let places := List.range lines.length
  let node (i : Nat) : String × SnapshotNode :=
    let l := lines.getD i default
    let parent := parentOf lines i
    let siblings := places.filter fun j => parentOf lines j == parent && j < i
    let children := places.filter fun j => parentOf lines j == some i
    (clientId rootId i, ⟨clientId rootId i, none, siblings.length, children.map (clientId rootId),
      some l.text, l.styles⟩)
  ⟨rootId, none, places.map node⟩

def titleOf (lines : List SampleLine) : String := (lines.head?.map (·.text)).getD ""

/-- Creates a sample document and writes its outline; the records the services log go to the
record logger. -/
def seedSample (repo : Repository Relational.StoreM) (limits : Limits) (user : String)
    (lines : List SampleLine) : ProgramM (Except Failure Document) := do
  match ← store (Documents.create repo user) with
  | .error f => pure (.error f)
  | .ok d =>
    log .info .info "document created"
      [("id", .str d.id), ("user_id", .str user), ("root_item_id", .str d.rootId)]
    match ← store (Documents.reconcile repo Catalog.standard limits user d.id (some (snapshotOf d.rootId lines))) with
    | .error f => pure (.error f)
    | .ok r =>
      if !r.reasons.isEmpty then
        log .info .warn "outline reconciled with unresolved items"
          [("document_id", .str d.id), ("unresolved", Json.int r.reasons.length)]
      log .info .info "outline reconciled"
        [("document_id", .str d.id), ("removed_children", Json.int r.removed),
         ("created", Json.int r.created), ("toc_item_id", Json.optStr r.tocItemId)]
      pure (.ok d)

def clearData (repo : Repository Relational.StoreM) (user : String) : ProgramM Unit := do
  match ← store (repo.listDocuments user) with
  | .error f => fatal ("Failed to list documents: " ++ f.text)
  | .ok docs =>
    for d in docs do
      if let .error f := ← store (repo.deleteDocument d.id) then
        fatal ("Failed to delete document " ++ d.id ++ ": " ++ f.text)
    say ("🧹 Deleted " ++ toString docs.length ++ " documents")

/-- The seed program. -/
def run (inv : Invocation) : ProgramM Unit := do
  let values ← match Flags.read flags inv.args with
    | .parsed vs _ => pure vs
    | .help =>
      write (.plain (Flags.usage inv.program flags))
      throw 0
    | .mistake msg =>
      write (.plain (msg ++ "\n" ++ Flags.usage inv.program flags))
      throw 2
  let user := Flags.textOf values "user"
  let env := match inv.envFile with
    | some text => EnvFile.load inv.env text
    | none => inv.env
  let cfg := Config.load env
  if cfg.environment == "prod" then fatal "🚫 BLOCKED: seeding is disabled in the production environment"
  if !Uuid.isValid user then fatal ("--user must be a UUID, got " ++ Text.quoted user)
  let opening ← onDb (Relational.createPool (← get).dbSocketDir cfg.databaseUrl)
  if let .error e := opening.result then fatal ("Failed to connect to database: " ++ e)
  if Flags.isOn values "drop-tables" then
    say ("🗑️  Rolling back migrations (prefix: " ++ cfg.tablePrefix ++ ")...")
    if let some e := ← onDb (Relational.rollbackMigrations cfg.tablePrefix) then
      fatal ("Failed to roll back migrations: " ++ e)
  let (applied, err) ← onDb (Relational.applyMigrations cfg.tablePrefix)
  if let some e := err then fatal ("Failed to apply migrations: " ++ e)
  say ("✅ Schema ready (" ++ toString applied.length ++ " migrations applied)")
  let repo := Relational.repository (Relational.Tables.ofPrefix cfg.tablePrefix) (← get).now
  if Flags.isOn values "clear-data" then
    clearData repo user
    return
  for lines in samples do
    match ← seedSample repo cfg.limits user lines with
    | .error f => say ("❌ Failed to seed " ++ Text.quoted (titleOf lines) ++ ": " ++ f.text)
    | .ok d => say ("✅ Created " ++ Text.quoted (titleOf lines) ++ " (ID: " ++ d.id ++ ")")
  say "🎉 Seeding complete!"

end Outliner.Program.Seed
