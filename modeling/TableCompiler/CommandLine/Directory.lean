import TableCompiler.CommandLine.FileSystem
import TableCompiler.Dictionary
import TableCompiler.Text

/-!
# A directory in memory

A path is walked name by name.  Each name on the way must be that of a directory; the last one
may be new if it is written to.

* `Place` — where a walk has come to;
* `Directory` — files by their places, around them the places that every machine has;
* `Directory.entry?` — what is at a place;
* `Directory.locate` — the place of a path;
* `Directory.fileSystem` — the interface to the files.
-/

namespace TableCompiler

/-! ### Places -/

/-- A place in the tree of files, by the names that lead to it.  Only at their start can `".."`
be among them, for the directories above the working directory. -/
structure Place where
  /-- Whether the names lead on from the root, and not from the working directory. -/
  fromRoot : Bool
  names : List String
deriving DecidableEq

namespace Place

def child (p : Place) (name : String) : Place :=
  { p with names := p.names ++ [name] }

/-- The place above a place; the root is above itself. -/
def parent (p : Place) : Place :=
  match p.names.getLast? with
  | none => if p.fromRoot then p else p.child ".."
  | some name => if name = ".." then p.child ".." else { p with names := p.names.dropLast }

def key (p : Place) : String :=
  (if p.fromRoot then "/" else "") ++ "/".intercalate p.names

/-- Whether a place is that of a directory on every machine: the working directory and those
above it, the root, and the directories of devices and of temporary files. -/
def isStanding (p : Place) : Bool :=
  if p.fromRoot then p.names = [] || p.names = ["dev"] || p.names = ["tmp"]
  else p.names.all (· = "..")

/-- The place of the device that is always empty. -/
def emptyDevice : Place := ⟨true, ["dev", "null"]⟩

end Place

/-! ### Directories -/

/-- Files by the keys of their places. -/
structure Directory where
  files : Dictionary String := .empty

namespace Directory

/-- What can be at a place. -/
inductive Entry where
  | directory
  | file (content : String)
  /-- The device that is always empty. -/
  | device

def entry? (d : Directory) (p : Place) : Option Entry :=
  if p.isStanding then some .directory
  else if p = .emptyDevice then some .device
  else match d.files.get? p.key with
    | some content => some (.file content)
    | none => if d.files.keys.any (Text.startsWith (p.key ++ "/")) then some .directory else none

def nameLimit : Nat := 255

def pathLimit : Nat := 4095

/-- The place to which a name leads from a directory. -/
def follow (p : Place) (name : String) : Except FileFault Place :=
  if name = "." then .ok p
  else if name = ".." then .ok p.parent
  else if nameLimit < name.utf8ByteSize then .error .nameTooLong
  else .ok (p.child name)

/-- The directory to which a name leads from a directory. -/
def enter (d : Directory) (p : Place) (name : String) : Except FileFault Place := do
  let p ← follow p name
  match d.entry? p with
  | some .directory => return p
  | some _ => throw .notDirectory
  | none => throw .missing

/-- Whether a path asks for a directory by a slash at its end. -/
def asksDirectory (path : String) : Bool :=
  path.toList.getLast? = some '/'

/-- The place of a path.  What `isNew` may be a file to create, and thus has no slash at its
end. -/
def locate (d : Directory) (isNew : Bool) (path : String) : Except FileFault Place := do
  let names := Text.segments '/' path
  if path = "" then throw .missing
  if pathLimit < path.utf8ByteSize then throw .nameTooLong
  let above ← names.dropLast.foldlM d.enter ⟨Text.startsWith "/" path, []⟩
  if isNew && asksDirectory path then throw .isDirectory
  match names.getLast? with
  | none => return above
  | some name => follow above name

def read (d : Directory) (path : String) : Except FileFault String := do
  match d.entry? (← d.locate false path) with
  | none => throw .missing
  | some .directory => throw .isDirectory
  | some (.file content) => if asksDirectory path then throw .notDirectory else return content
  | some .device => if asksDirectory path then throw .notDirectory else return ""

/-- The directory with what `content` makes of the content of the file at a path, which need not
be there. -/
def update (d : Directory) (path : String) (content : String → String) :
    Except FileFault Directory := do
  let place ← d.locate true path
  match d.entry? place with
  | some .directory => throw .isDirectory
  | some .device => return d
  | some (.file old) => return ⟨d.files.insert place.key (content old)⟩
  | none => return ⟨d.files.insert place.key (content "")⟩

def change (f : Directory → Except FileFault Directory) :
    StateM Directory (Except FileFault Unit) := fun d =>
  match f d with
  | .ok d => (.ok (), d)
  | .error fault => (.error fault, d)

def fileSystem : FileSystem (StateM Directory) where
  read path := fun d => (d.read path, d)
  write path content := change (·.update path fun _ => content)
  append path more := change (·.update path (· ++ more))

end Directory

end TableCompiler
