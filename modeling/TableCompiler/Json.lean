import TableCompiler.Number

/-!
# JSON values

Snapshots, manifests and descriptors are exchanged as JSON.  A value keeps the members of an
object as they were written, in order and with repetitions, because the readers of records
treat a repeated member differently from the readers of maps.

* `Json` — whole numbers and double precision numbers are told apart, and a text may hold parts
  without a value;
* `Json.str?`, `Json.bool?`, `Json.arr?`, `Json.obj?` — the content of a value of one kind;
* `Json.member?` — a member of an object, the last one of its name;
* `Json.isReadable` — every part of the value has a value of its own;
* `Json.settle` — the value with repeated members of objects dropped.
-/

namespace TableCompiler

/-- A JSON value.  What follows the grammar but stands for no value is kept as `unreadable`, since
the reader of a record passes over such a part in a member that it does not know. -/
inductive Json where
  | null
  | bool (b : Bool)
  | int (n : Int)
  | real (x : Number)
  | str (s : String)
  | arr (items : List Json)
  | obj (members : List (String × Json))
  /-- A string with half a surrogate pair, an object with such a name, a number out of range, or a
  container inside too many others. -/
  | unreadable

namespace Json

instance : Inhabited Json := ⟨.null⟩

def str? : Json → Option String
  | .str s => some s
  | _ => none

def bool? : Json → Option Bool
  | .bool b => some b
  | _ => none

def arr? : Json → Option (List Json)
  | .arr items => some items
  | _ => none

def obj? : Json → Option (List (String × Json))
  | .obj members => some members
  | _ => none

/-- The last member of a name in an object. -/
def member? (name : String) : Json → Option Json
  | .obj members => members.reverse.lookup name
  | _ => none

mutual

/-- Whether every part of a value has a value of its own. -/
def isReadable : Json → Bool
  | .real x => x.isFinite
  | .arr items => itemsReadable items
  | .obj members => membersReadable members
  | .unreadable => false
  | _ => true

/-- `isReadable` for the items of an array. -/
def itemsReadable : List Json → Bool
  | [] => true
  | item :: rest => isReadable item && itemsReadable rest

/-- `isReadable` for the members of an object. -/
def membersReadable : List (String × Json) → Bool
  | [] => true
  | (_, value) :: rest => isReadable value && membersReadable rest

end

mutual

/-- A value in whose objects no name is repeated: the last member of a name counts. -/
def settle : Json → Json
  | .arr items => .arr (settleItems items)
  | .obj members => .obj (settleMembers members)
  | value => value

/-- `settle` for the items of an array. -/
def settleItems : List Json → List Json
  | [] => []
  | item :: rest => settle item :: settleItems rest

/-- `settle` for the members of an object. -/
def settleMembers : List (String × Json) → List (String × Json)
  | [] => []
  | (name, value) :: rest =>
    if rest.any (·.1 = name) then settleMembers rest
    else (name, settle value) :: settleMembers rest

end

end Json

end TableCompiler
