import TableCompiler.Json.Codec

/-!
# Dynamic values

Many annotations hold either a literal or a path to a property that holds the value.

* `PropertyPath` — names separated by slashes, relative to an entity type;
* `pathCodec`, `annotationPathCodec` — a path is written as a record with one member;
* `Dynamic` — a path or a literal; `Dynamic.codec` reads a path where it can, and nothing that is
  not readable throughout.
-/

namespace TableCompiler

variable {α : Type}

/-- A path to a property: names separated by slashes. -/
abbrev PropertyPath := String

/-- A text as the only member of a record. -/
def memberCodec (name : String) : Codec String where
  write p := .record [Codec.text.put name p]
  read j := do (← j.members? [name]).required name .text

/-- Property paths are records with the member `$Path`. -/
def pathCodec : Codec PropertyPath := memberCodec "$Path"

/-- The texts of annotation paths are records with the member `$AnnotationPath`. -/
def annotationPathCodec : Codec String := memberCodec "$AnnotationPath"

/-- A path to the property that holds a value, or the value itself. -/
inductive Dynamic (α : Type) where
  | path (p : PropertyPath)
  | literal (a : α)
deriving DecidableEq

namespace Dynamic

def path? : Dynamic α → Option PropertyPath
  | .path p => some p
  | .literal _ => none

def literal? : Dynamic α → Option α
  | .path _ => none
  | .literal a => some a

def isLiteralTrue : Dynamic Bool → Bool
  | .literal b => b
  | .path _ => false

/-- A path is a record, a literal is written as it is. -/
def lenientCodec (c : Codec α) : Codec (Dynamic α) where
  write
    | .path p => pathCodec.write p
    | .literal a => c.write a
  read j :=
    match pathCodec.read j with
    | some p => some (.path p)
    | none => (c.read j).map .literal

/-- Paths and literals that are readable throughout. -/
def codec (c : Codec α) : Codec (Dynamic α) := (lenientCodec c).readable

def flag : Codec (Dynamic Bool) := codec .flag

def text : Codec (Dynamic String) := codec .text

end Dynamic

end TableCompiler
