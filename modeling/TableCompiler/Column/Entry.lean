import TableCompiler.Column.Key
import TableCompiler.Dependencies
import TableCompiler.Descriptor

/-!
# Columns with their dependencies

The columns of a table are collected one by one, each with the properties that it depends on.
Afterwards every dependency is linked to the column that shows the property: a column of a bare
property can be shared, and where there is none, a hidden one is asked for.

* `ColumnOrigin`, `ColumnEntry` — a column, the properties that it depends on and its links;
* `ColumnStore` — what columns are collected in;
* `HiddenColumn` — the hidden column that is asked for when a dependency has none;
* `addFound`, `ColumnEntry.link` — links for the properties of an entry, wherever these are found.
-/

namespace TableCompiler

/-! ### Entries -/

/-- Why a column is there. -/
inductive ColumnOrigin where
  /-- It shows a record of the line item. -/
  | lineItem
  /-- It shows a bare property. -/
  | property
  /-- It is hidden and serves another column. -/
  | related
deriving DecidableEq

namespace ColumnOrigin

def all : List ColumnOrigin := [.lineItem, .property, .related]

def name : ColumnOrigin → String
  | .lineItem => "LineItem"
  | .property => "Property"
  | .related => "Related"

end ColumnOrigin

/-- A column with its dependencies; `ι` says how a link names a column. -/
structure ColumnEntry (ι : Type) where
  column : Column
  origin : ColumnOrigin
  /-- Whether the column was inserted with properties that it shows. -/
  isComposite : Bool
  /-- The shown properties that are not linked yet. -/
  pending : List PropertyPath
  /-- The loaded properties that are not linked yet. -/
  pendingAdditional : List PropertyPath
  /-- The columns of the shown properties. -/
  links : List ι := []
  /-- The columns of the loaded properties. -/
  additionalLinks : List ι := []

namespace ColumnEntry

variable {ι κ : Type}

/-- A column with dependencies of which none is linked. -/
def ofColumn (column : Column) (origin : ColumnOrigin) (r : RelatedProperties) :
    ColumnEntry ι where
  column := column
  origin := origin
  isComposite := !r.properties.isEmpty
  pending := r.properties
  pendingAdditional := r.additional

def name (c : ColumnEntry ι) : String := c.column.name

/-- The entry with other names for the columns that it is linked to. -/
def mapLinks (f : ι → κ) (c : ColumnEntry ι) : ColumnEntry κ :=
  { c with links := c.links.map f, additionalLinks := c.additionalLinks.map f }

end ColumnEntry

/-- What columns are collected in. -/
class ColumnStore (σ : Type) where
  /-- Whether a name is taken. -/
  containsName : σ → String → Bool
  /-- Whether a property was found to be a text that is shown in place of a value. -/
  isTextOnly : σ → PropertyPath → Bool
  /-- Adds a column, which is dropped if its name or key is taken. -/
  insert : σ → Column → ColumnOrigin → RelatedProperties → σ

/-! ### Links -/

/-- A hidden column that a dependency needs. -/
structure HiddenColumn where
  path : PropertyPath
  name : String
  key : String
  /-- Whether the property is a text that is shown in place of a value. -/
  isTextOnly : Bool
deriving DecidableEq

section Links

variable {ι τ : Type} [BEq ι]

/-- Adds the column that is found for a property, unless it is there already or one of `others`. -/
def addFound (find : PropertyPath → τ → Option ι × τ) (others : List ι) (state : List ι × τ)
    (path : PropertyPath) : List ι × τ :=
  match find path state.2 with
  | (none, t) => (state.1, t)
  | (some link, t) =>
    if state.1.contains link || others.contains link then (state.1, t)
    else (state.1 ++ [link], t)

/-- The entry with its dependencies linked, the shown ones first. -/
def ColumnEntry.link (find : PropertyPath → τ → Option ι × τ) (c : ColumnEntry ι) (t : τ) :
    ColumnEntry ι × τ :=
  let (links, t) := c.pending.foldl (addFound find []) (c.links, t)
  let (additionalLinks, t) :=
    c.pendingAdditional.foldl (addFound find links) (c.additionalLinks, t)
  ({ c with
      pending := []
      pendingAdditional := []
      links := links
      additionalLinks := additionalLinks }, t)

end Links

end TableCompiler
