import Outliner.Outline.Document
import Outliner.Outline.Item
import Outliner.Outline.Category
import Outliner.Style.Basic
import Outliner.Failure
/-!
# Repositories

What the services need of a store, as operations in a monad `m`: documents, items, styles and
categories, running a block of operations as one transaction, and the clock that stamps documents.
Two stores provide them: the in-memory store and the relational store.
-/

set_option autoImplicit false

namespace Outliner

/-- The operations of a store in the monad `m`. -/
structure Repository (m : Type → Type) where
  /-- The current time. -/
  now : m Time.Instant
  /-- Creates a document of a user, with the given visibility, created and modified at the
  given time, and no root item. -/
  createDocument : String → Bool → Time.Instant → m Document
  getDocument : String → m Document
  /-- A user's documents, newest first. -/
  listDocuments : String → m (List Document)
  /-- Sets the root item of a document that has none. -/
  setRootItem : String → String → m Unit
  /-- Locks a document for the rest of the transaction. -/
  lockDocument : String → m Unit
  setTocItem : String → Option String → m Unit
  setPubliclyViewable : String → Bool → m Unit
  /-- Marks a document as modified at the given time. -/
  touchDocument : String → Time.Instant → m Unit
  /-- Deletes a document with its items and categories. -/
  deleteDocument : String → m Unit
  /-- Creates an item; its `id` is ignored and the new id is in the answer. -/
  createItem : Item → m Item
  getItem : String → m Item
  /-- The items of a document. -/
  listItems : String → m (List Item)
  /-- The items directly under an item. -/
  listChildren : String → m (List Item)
  /-- Deletes the items under an item, with their subtrees; answers how many were directly
  under it. -/
  deleteChildren : String → m Nat
  deleteItem : String → m Unit
  /-- Sets the text of an item of a document: document id, item id, text. -/
  updateText : String → String → String → m Unit
  /-- The styles of an item, by property. -/
  listItemStyles : String → m (List Style)
  /-- The styles of a document's items. -/
  listDocumentStyles : String → m (List Style)
  insertStyle : Style → m Unit
  updateStyle : Style → m Unit
  /-- Creates a category: user, document, name. -/
  createCategory : String → String → String → m Category
  getCategory : String → String → String → m Category
  /-- A user's categories on a document, by name. -/
  listDocumentCategories : String → String → m (List Category)
  /-- A user's categories on all documents. -/
  listUserCategories : String → m (List Category)
  deleteCategory : String → String → String → m Unit
  /-- Runs a block as one transaction: if it fails, none of its writes stay. A block inside a
  transaction joins it. -/
  atomically : {α : Type} → m α → m α

end Outliner
