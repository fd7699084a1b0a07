import Outliner.Auth.Token
import Outliner.Config
import Outliner.Config.EnvFile
import Outliner.Failure
import Outliner.Http.Handlers
import Outliner.Http.Header
import Outliner.Http.Path
import Outliner.Http.Problem
import Outliner.Http.Response
import Outliner.Http.Route
import Outliner.Http.Server
import Outliner.Ident.Uuid
import Outliner.Json.Decode
import Outliner.Json.Read
import Outliner.Json.Syntax
import Outliner.Json.Value
import Outliner.Json.Write
import Outliner.KeyValue.Server
import Outliner.Log.Folder
import Outliner.Log.Record
import Outliner.Main
import Outliner.Net.Url
import Outliner.Outline.Category
import Outliner.Outline.Document
import Outliner.Outline.Item
import Outliner.Outline.Snapshot
import Outliner.Outline.Tree
import Outliner.Program.Flags
import Outliner.Program.Machine
import Outliner.Program.Seed
import Outliner.Program.Server
import Outliner.Reconcile.Plan
import Outliner.Reconcile.Write
import Outliner.Relational.Client
import Outliner.Relational.Connect
import Outliner.Relational.Error
import Outliner.Relational.Migrate
import Outliner.Relational.Schema
import Outliner.Relational.Server
import Outliner.Relational.Sql
import Outliner.Relational.Store
import Outliner.Service.Access
import Outliner.Service.Copy
import Outliner.Service.Documents
import Outliner.Service.FieldErrors
import Outliner.Session.Address
import Outliner.Session.Data
import Outliner.Session.Store
import Outliner.Store.Backend
import Outliner.Store.Memory
import Outliner.Store.Repository
import Outliner.Style.Basic
import Outliner.Style.Catalog
import Outliner.Style.CatalogText
import Outliner.Style.Upsert
import Outliner.Text.Base64
import Outliner.Text.Blank
import Outliner.Text.Case
import Outliner.Text.Graphic
import Outliner.Text.Quoted
import Outliner.Text.Utf8
import Outliner.Text.Wildcard
import Outliner.Time.Duration
import Outliner.Time.Instant
import Outliner.Time.Read
import Outliner.Yaml.Event
import Outliner.Yaml.Node
import Outliner.Yaml.Scalar
import Outliner.Yaml.Token
import Outliner.Yaml.Token.Lexer
import Outliner.Yaml.Value
import Outliner.Proofs.Rollback
import Outliner.Proofs.Integrity
import Outliner.Proofs.Rebuild
import Outliner.Proofs.Answer
import Outliner.Proofs.SignOut
import Outliner.Proofs.ReadBack
import Outliner.Proofs.SessionIndex
import Outliner.Proofs.Holdings
import Outliner.Proofs.Ownership
import Outliner.Proofs.CopyWalk
import Outliner.Proofs.Plain
import Outliner.Proofs.Caps
import Outliner.Proofs.Injection
import Outliner.Proofs.CopyTree
import Outliner.Proofs.StyleRows
import Outliner.Proofs.ReconcileStyles
import Outliner.Proofs.InstantText
import Outliner.Proofs.Eviction
import Outliner.Proofs.CategoryNames
import Outliner.Proofs.RecursiveTree
import Outliner.Proofs.Confinement
import Outliner.Proofs.Deletion
import Outliner.Proofs.TextEdits
import Outliner.Proofs.Isolation
import Outliner.Proofs.Cascade
import Outliner.Proofs.PreOrderPlan
import Outliner.Proofs.StyleValidation
import Outliner.Proofs.DocumentListing
