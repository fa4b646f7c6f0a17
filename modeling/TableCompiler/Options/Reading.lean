import TableCompiler.Options
import TableCompiler.Toml.Reading

/-!
# Options from a configuration file

* `Toml.member` — the value of an option as a member of a record;
* `CompileOptions.ofText?` — the options of a configuration file; other entries are ignored.
-/

namespace TableCompiler

namespace Toml

/-- The value of an option as a member of a record.  Of arrays and tables only the table with one
empty entry stands for something, namely the name of the entry. -/
def member : Toml → Json
  | .text s => .str s
  | .integer n => .int n
  | .float x => .real x
  | .boolean b => .bool b
  | .table _ [(name, .array [])] | .table _ [(name, .table _ [])] => .obj [(name, .null)]
  | _ => .null

end Toml

namespace CompileOptions

/-- The options of a configuration file. -/
def ofText? (text : String) : Option CompileOptions := do
  let entries ← Toml.ofText? text
  ofMembers? fun name => (entries.lookup name).map (·.member)

end CompileOptions

end TableCompiler
