import TableCompiler.Column.Entry

/-!
# The arena of columns

The columns of a table stand in an arena while they are collected.  A link is the place of a column
in it; a table leads from names to places, and a set has the keys that are taken, so that nothing is
searched for among the entries.  Links become names when the columns are taken out.  A property
whose name is taken by a column that cannot be shared gets its hidden column under a second name.

* `ColumnArena` — entries by their places, with the tables beside them;
* `ColumnArena.insert` — a column is refused if its name or key is taken;
* `ColumnBuilder`, `ArenaLinking` — what answers for hidden columns, and what it was asked;
* `ColumnArena.link` — links all dependencies;
* `ColumnArena.columns` — the columns with the names of those they depend on.
-/

namespace TableCompiler

/-! ### The arena -/

/-- The columns of a table while they are collected. -/
structure ColumnArena where
  /-- The columns, in the order of their insertion. -/
  entries : List (ColumnEntry Nat) := []
  /-- The place of the column of a name. -/
  byName : Dictionary Nat := .empty
  /-- The keys of the columns. -/
  keys : Dictionary Unit := .empty
  /-- The texts that are shown in place of a value. -/
  textOnly : Dictionary Unit := .empty
  /-- Currencies and units. -/
  units : Dictionary Unit := .empty

namespace ColumnArena

def containsName (a : ColumnArena) (name : String) : Bool :=
  a.byName.contains name

def isTextOnly (a : ColumnArena) (path : PropertyPath) : Bool :=
  a.textOnly.contains path

/-- Adds a column with its dependencies and answers its place.  There is no answer, and nothing is
added, if the name or the key of the column is taken. -/
def insert (a : ColumnArena) (column : Column) (origin : ColumnOrigin) (r : RelatedProperties) :
    Option Nat × ColumnArena :=
  if a.containsName column.name || a.keys.contains column.key then (none, a)
  else (some a.entries.length, {
    entries := a.entries ++ [.ofColumn column origin r]
    byName := a.byName.insert column.name a.entries.length
    keys := a.keys.insert column.key ()
    textOnly := a.textOnly.extend r.textOnly
    units := a.units.extend r.units })

instance : ColumnStore ColumnArena where
  containsName := containsName
  isTextOnly := isTextOnly
  insert a column origin r := (a.insert column origin r).2

def nameAt (a : ColumnArena) (place : Nat) : String :=
  match a.entries[place]? with
  | some c => c.name
  | none => ""

def columns (a : ColumnArena) : List Column :=
  a.entries.map fun c => { c.column with
    propertyInfos := c.links.map a.nameAt
    additionalPropertyInfos := c.additionalLinks.map a.nameAt }

/-! ### Linking -/

/-- Whether the column at the place `owner` can be linked to that at `host`: that must be another
one, and of a bare property. -/
def canHost (a : ColumnArena) (owner host : Nat) : Bool :=
  host != owner &&
    a.entries[host]?.any fun c => !c.isComposite && c.origin != .lineItem

/-- The name of the column that shows a property to the column at the place `owner`. -/
def linkName (a : ColumnArena) (owner : Nat) (path : PropertyPath) : String :=
  match a.byName.get? path with
  | some host => if a.canHost owner host then path else propertyAlias path
  | none => path

def hiddenColumn (a : ColumnArena) (path : PropertyPath) (name : String) : HiddenColumn where
  path := path
  name := name
  key := if a.keys.contains (propertyKey path) then propertyKey name else propertyKey path
  isTextOnly := a.isTextOnly path

end ColumnArena

/-- What answers for hidden columns.  The answer may depend on what was asked for before, and there
may be none. -/
abbrev ColumnBuilder := List HiddenColumn → HiddenColumn → Option Column

/-- The arena during linking, and the hidden columns that were asked for so far. -/
structure ArenaLinking where
  arena : ColumnArena
  asked : List HiddenColumn := []

namespace ArenaLinking

/-- The place of the column that shows a property to the column at the place `owner`.  If there is
none, `build` is asked for a hidden one, which is refused like any other column. -/
def resolve (build : ColumnBuilder) (owner : Nat) (path : PropertyPath) (l : ArenaLinking) :
    Option Nat × ArenaLinking :=
  let name := l.arena.linkName owner path
  match l.arena.byName.get? name with
  | some place => (some place, l)
  | none =>
    let hidden := l.arena.hiddenColumn path name
    let asked := l.asked ++ [hidden]
    match build l.asked hidden with
    | none => (none, ⟨l.arena, asked⟩)
    | some column =>
      let (place, arena) := l.arena.insert column .related {}
      (place, ⟨arena, asked⟩)

def set (l : ArenaLinking) (place : Nat) (c : ColumnEntry Nat) : ArenaLinking :=
  { l with arena := { l.arena with entries := l.arena.entries.set place c } }

/-- Links the dependencies of the column at a place. -/
def linkAt (build : ColumnBuilder) (l : ArenaLinking) (place : Nat) : ArenaLinking :=
  match l.arena.entries[place]? with
  | none => l
  | some c =>
    let (linked, l) := c.link (resolve build place) l
    l.set place linked

end ArenaLinking

namespace ColumnArena

/-- Links the dependencies of all columns, in their order.  The hidden columns that are added
meanwhile have none. -/
def link (build : ColumnBuilder) (a : ColumnArena) : ArenaLinking :=
  (List.range a.entries.length).foldl (ArenaLinking.linkAt build) ⟨a, []⟩

end ColumnArena

end TableCompiler
