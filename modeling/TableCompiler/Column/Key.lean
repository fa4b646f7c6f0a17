import TableCompiler.DataField
import TableCompiler.Text

/-!
# Keys and names

The manifest refers to columns and actions by keys that are made from the record or property
that they show, and columns refer to each other by names.

* `sanitize` — a path as part of a key;
* `DataField.key?` — the key of the column or action of a record;
* `propertyKey`, `propertyAlias` — key and second name of the column of a bare property.
-/

namespace TableCompiler

/-- A path with the separators of keys: slashes and hash marks become double colons, annotation
marks are dropped, and no separator stands at the start. -/
def sanitizeChars (chars : List Char) : List Char :=
  (chars.filter (· ≠ '@')).flatMap fun c => if c = '/' ∨ c = '#' then [':', ':'] else [c]

/-- A list without the separators at its start. -/
def dropSeparators : List Char → List Char
  | ':' :: ':' :: rest => dropSeparators rest
  | chars => chars

def sanitize (path : String) : String :=
  String.ofList (dropSeparators (sanitizeChars path.toList))

/-- What precedes the path in the key of the column of a bare property. -/
def propertyMark : String := "Property::"

def propertyKey (path : PropertyPath) : String :=
  propertyMark ++ sanitize path

/-- The name of the column of a bare property whose own name is taken. -/
def propertyAlias (path : PropertyPath) : String :=
  propertyMark ++ path

namespace DataField

/-- The texts that tell a record from others of its type. -/
def keyParts : DataField → List String
  | .value field => [field.value]
  | .reference field => [field.target]
  | .action field => [field.action]
  | .intent field => field.semanticObject :: field.action.toList
  | .unknown => []

/-- The key of the column or action of a record. -/
def key? (field : DataField) : Option String :=
  match field with
  | .unknown => none
  | _ => some ("::".intercalate (field.typeName :: field.keyParts.map sanitize))

end DataField

end TableCompiler
