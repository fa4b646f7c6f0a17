import TableCompiler.Column.Entry

/-!
# Pools of columns

A pool has the columns of a table, like an arena, but finds them among its entries, and its links are
names.  This is how an arena is seen from outside: names are what columns know of each other when
they are taken out.

* `PooledColumn`, `ColumnPool` — entries by their names;
* `ColumnPool.insert?` — a column is refused if its name or key is taken;
* `ColumnPool.link` — links all dependencies;
* `ColumnPool.columns` — the columns with the names of those they depend on.
-/

namespace TableCompiler

/-! ### The pool -/

/-- A column with its dependencies, linked by names. -/
abbrev PooledColumn := ColumnEntry String

namespace PooledColumn

/-- Whether another column can be linked to this one: it must be that of a bare property. -/
def canServe (c : PooledColumn) (owner : String) : Bool :=
  c.name != owner && !c.isComposite && c.origin != .lineItem

/-- The column with the names of those it depends on. -/
def linkedColumn (c : PooledColumn) : Column :=
  { c.column with propertyInfos := c.links, additionalPropertyInfos := c.additionalLinks }

end PooledColumn

/-- The columns of a table, which know each other by their names. -/
structure ColumnPool where
  /-- The columns, in the order of their insertion. -/
  entries : List PooledColumn := []
  /-- The texts that are shown in place of a value. -/
  textOnly : Dictionary Unit := .empty
  /-- Currencies and units. -/
  units : Dictionary Unit := .empty

namespace ColumnPool

def entry? (p : ColumnPool) (name : String) : Option PooledColumn :=
  p.entries.find? (·.name == name)

def containsName (p : ColumnPool) (name : String) : Bool :=
  (p.entry? name).isSome

def containsKey (p : ColumnPool) (key : String) : Bool :=
  p.entries.any (·.column.key == key)

def isTextOnly (p : ColumnPool) (path : PropertyPath) : Bool :=
  p.textOnly.contains path

/-- The pool with one more column and its dependencies, unless the name or the key of the column
is taken. -/
def insert? (p : ColumnPool) (column : Column) (origin : ColumnOrigin) (r : RelatedProperties) :
    Option ColumnPool :=
  if p.containsName column.name || p.containsKey column.key then none
  else some {
    entries := p.entries ++ [.ofColumn column origin r]
    textOnly := p.textOnly.extend r.textOnly
    units := p.units.extend r.units }

/-- The pool with one more column, which is dropped if its name or key is taken. -/
def insert (p : ColumnPool) (column : Column) (origin : ColumnOrigin) (r : RelatedProperties) :
    ColumnPool :=
  (p.insert? column origin r).getD p

instance : ColumnStore ColumnPool where
  containsName := containsName
  isTextOnly := isTextOnly
  insert := insert

def columns (p : ColumnPool) : List Column :=
  p.entries.map (·.linkedColumn)

end ColumnPool

/-! ### Linking -/

/-- The pool during linking, and the hidden columns that were asked for so far. -/
structure Linking where
  pool : ColumnPool
  asked : List HiddenColumn := []

namespace ColumnPool

/-- The name of the column that shows a property to the column `owner`. -/
def linkName (p : ColumnPool) (owner : String) (path : PropertyPath) : String :=
  match p.entry? path with
  | some host => if host.canServe owner then path else propertyAlias path
  | none => path

def hiddenColumn (p : ColumnPool) (path : PropertyPath) (name : String) : HiddenColumn where
  path := path
  name := name
  key := if p.containsKey (propertyKey path) then propertyKey name else propertyKey path
  isTextOnly := p.isTextOnly path

end ColumnPool

namespace Linking

/-- The name of the column that shows a property to the column `owner`.  If there is none,
`build` is asked for a hidden one; it may have no answer, if the property does not exist. -/
def resolve (build : HiddenColumn → Option Column) (owner : String) (path : PropertyPath)
    (l : Linking) : Option String × Linking :=
  let name := l.pool.linkName owner path
  if l.pool.containsName name then (some name, l)
  else
    let hidden := l.pool.hiddenColumn path name
    let asked := l.asked ++ [hidden]
    match build hidden with
    | none => (none, ⟨l.pool, asked⟩)
    | some column =>
      match l.pool.insert? column .related {} with
      | none => (none, ⟨l.pool, asked⟩)
      | some pool => (some column.name, ⟨pool, asked⟩)

/-- Adds the link for a property to the links of `owner`, unless it is one of them already or
one of `others`. -/
def addLink (build : HiddenColumn → Option Column) (owner : String) (others : List String) :
    List String × Linking → PropertyPath → List String × Linking :=
  addFound (resolve build owner) others

/-- Puts an entry in place of the one of its name. -/
def replace (c : PooledColumn) (l : Linking) : Linking :=
  { l with pool := { l.pool with
      entries := l.pool.entries.map fun other => if other.name = c.name then c else other } }

def linkEntry (build : HiddenColumn → Option Column) (l : Linking) (c : PooledColumn) : Linking :=
  let (linked, l) := c.link (resolve build c.name) l
  l.replace linked

end Linking

namespace ColumnPool

/-- Links the dependencies of all columns, in their order.  Hidden columns have none. -/
def link (build : HiddenColumn → Option Column) (p : ColumnPool) : Linking :=
  p.entries.foldl (Linking.linkEntry build) ⟨p, []⟩

end ColumnPool

end TableCompiler
