import TableCompiler.Json
import TableCompiler.Dictionary

/-!
# Codecs

A codec says how the values of a type are written as JSON and which JSON values read as them.
Records are read leniently: from an object whose unknown members are ignored, or from an array
of the members in their order, in which trailing members with a default may be missing.

* `Codec` — a writer and a reader;
* `Codec.text`, `Codec.flag`, `Codec.word`, `Codec.list`, `Codec.dictionary`;
* `Codec.nullable` — `null` stands for an unset value;
* `Codec.readable` — nothing in the value may be unreadable, used or not;
* `Codec.enumeration` — values that are written by name;
* `Json.members?`, `Members.required`, `Members.optional`, `Members.orElse` — reading a record;
* `Json.record`, `put`, `putNullable`, `putSet`, `putList` — writing one.
-/

namespace TableCompiler

variable {α β : Type}

/-- How values are written as JSON and read from it. -/
structure Codec (α : Type) where
  write : α → Json
  read : Json → Option α

namespace Codec

/-! ### Scalars -/

def text : Codec String where
  write := .str
  read := Json.str?

def flag : Codec Bool where
  write := .bool
  read := Json.bool?

/-- Counts are whole numbers of 32 bits. -/
def word : Codec UInt32 where
  write n := .int n.toNat
  read
    | .int n => if 0 ≤ n ∧ n < UInt32.size then some (UInt32.ofNat n.toNat) else none
    | _ => none

/-! ### Containers -/

/-- A value that may be unset, which is written as `null`. -/
def nullable (c : Codec α) : Codec (Option α) where
  write
    | none => .null
    | some a => c.write a
  read
    | .null => some none
    | value => (c.read value).map some

/-- A value that is refused if any part of it is unreadable, even in a member that would be
ignored. -/
def readable (c : Codec α) : Codec α where
  write := c.write
  read j := if j.isReadable then c.read j else none

def list (c : Codec α) : Codec (List α) where
  write items := .arr (items.map c.write)
  read
    | .arr items => items.mapM c.read
    | _ => none

/-- Reads the value of a named member. -/
def readEntry (c : Codec α) (entry : String × Json) : Option (String × α) :=
  (c.read entry.2).map fun a => (entry.1, a)

/-- Dictionaries are objects; of members with one name the last counts. -/
def dictionary (c : Codec α) : Codec (Dictionary α) where
  write d := .obj (d.entries.map fun entry => (entry.1, c.write entry.2))
  read
    | .obj members => (members.mapM c.readEntry).map Dictionary.ofList
    | _ => none

/-- Values that are written by name.  The name may also be that of the only member of an
object, with `null` as its value. -/
def enumeration (all : List α) (name : α → String) : Codec α where
  write a := .str (name a)
  read
    | .str s => all.find? fun a => name a = s
    | .obj [(s, .null)] => all.find? fun a => name a = s
    | _ => none

/-- An enumeration inside a record that is told from others by a tag, where the only member of
an object may also have an empty object as its value. -/
def taggedEnumeration (all : List α) (name : α → String) : Codec α where
  write := (enumeration all name).write
  read
    | .obj [(s, .obj [])] => all.find? fun a => name a = s
    | value => (enumeration all name).read value

end Codec

/-! ### Reading records -/

/-- The members of a record that were given. -/
abbrev Members := String → Option Json

namespace Json

/-- The members of a record with the given names.  An object must not repeat one of them, and
an array must not be longer than their list. -/
def members? (names : List String) : Json → Option Members
  | .obj members =>
    let known := members.filter fun member => names.contains member.1
    if (known.map (·.1)).Nodup then some fun name => known.lookup name else none
  | .arr items =>
    if items.length ≤ names.length then some fun name => (names.zip items).lookup name else none
  | _ => none

end Json

namespace Members

def required (m : Members) (name : String) (c : Codec α) : Option α :=
  (m name).bind c.read

def orElse (m : Members) (name : String) (c : Codec α) (default : α) : Option α :=
  match m name with
  | none => some default
  | some value => c.read value

/-- A member that may be missing or `null`. -/
def optional (m : Members) (name : String) (c : Codec α) : Option (Option α) :=
  m.orElse name c.nullable none

/-- A list that may be missing, and is empty then. -/
def listOrEmpty (m : Members) (name : String) (c : Codec α) : Option (List α) :=
  m.orElse name c.list []

/-- A dictionary that may be missing, and is empty then. -/
def dictionaryOrEmpty (m : Members) (name : String) (c : Codec α) : Option (Dictionary α) :=
  m.orElse name c.dictionary .empty

end Members

/-! ### Writing records -/

namespace Json

/-- The object of the members that are present. -/
def record (members : List (String × Option Json)) : Json :=
  .obj (members.filterMap fun member => member.2.map fun value => (member.1, value))

end Json

namespace Codec

/-- A member that is always written. -/
def put (c : Codec α) (name : String) (a : α) : String × Option Json :=
  (name, some (c.write a))

/-- A member that is written as `null` when unset. -/
def putNullable (c : Codec α) (name : String) (a : Option α) : String × Option Json :=
  (name, some (c.nullable.write a))

/-- A member that is left out when unset. -/
def putSet (c : Codec α) (name : String) (a : Option α) : String × Option Json :=
  (name, a.map c.write)

/-- A list that is left out when empty. -/
def putList (c : Codec α) (name : String) (items : List α) : String × Option Json :=
  (name, if items.isEmpty then none else some (c.list.write items))

end Codec

end TableCompiler
