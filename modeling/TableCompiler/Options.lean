import TableCompiler.Vocabulary

/-!
# Compile options

Defaults that apply where neither annotations nor the manifest decide.

* `CompileOptions` and its codec;
* `CompileOptions.threshold` — how many rows a table type requests at a time.
-/

namespace TableCompiler

/-- Defaults of a compilation. -/
structure CompileOptions where
  /-- The rows that a responsive table requests at a time. -/
  responsiveThreshold : UInt32 := 30
  /-- The rows that any other table requests at a time. -/
  defaultThreshold : UInt32 := 100
  defaultSelectionLimit : UInt32 := 200
  defaultTableType : TableType := .responsive
  /-- Whether issues of medium or high severity are failures. -/
  strict : Bool := false
deriving DecidableEq

namespace CompileOptions

/-- How many rows a table type requests at a time. -/
def threshold (o : CompileOptions) : TableType → UInt32
  | .responsive => o.responsiveThreshold
  | .grid | .analytical | .tree => o.defaultThreshold

def names : List String := ["responsive_threshold", "default_threshold",
  "default_selection_limit", "default_table_type", "strict"]

/-- Reads options from the members that were given; all may be missing. -/
def ofMembers? (m : Members) : Option CompileOptions := do
  return {
    responsiveThreshold := ← m.orElse "responsive_threshold" .word 30
    defaultThreshold := ← m.orElse "default_threshold" .word 100
    defaultSelectionLimit := ← m.orElse "default_selection_limit" .word 200
    defaultTableType := ← m.orElse "default_table_type" TableType.codec .responsive
    strict := ← m.orElse "strict" .flag false }

def codec : Codec CompileOptions where
  write o := .record [
    Codec.word.put "responsive_threshold" o.responsiveThreshold,
    Codec.word.put "default_threshold" o.defaultThreshold,
    Codec.word.put "default_selection_limit" o.defaultSelectionLimit,
    TableType.codec.put "default_table_type" o.defaultTableType,
    Codec.flag.put "strict" o.strict]
  read j := do ofMembers? (← j.members? names)

end CompileOptions

end TableCompiler
