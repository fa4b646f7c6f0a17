import TableCompiler.Json
import TableCompiler.Number.Shortest

/-!
# Writing JSON

* `quoteChar`, `quote` — a string with its escapes: the quotation mark, the backslash and the
  control characters;
* `Json.compact` — a value without any white space;
* `Json.pretty` — a value with one item or member on a line, indented by two blanks.
-/

namespace TableCompiler

namespace Json

/-! ### Strings -/

def hexDigit (n : Nat) : Char :=
  Nat.digitChar n

/-- The characters that stand for one character of a string. -/
def quoteChar (c : Char) : List Char :=
  if c = '\x22' then ['\\', '\x22']
  else if c = '\\' then ['\\', '\\']
  else if c = '\n' then ['\\', 'n']
  else if c = '\r' then ['\\', 'r']
  else if c = '\t' then ['\\', 't']
  else if c = '\x08' then ['\\', 'b']
  else if c = '\x0c' then ['\\', 'f']
  else if c.toNat < 0x20 then
    ['\\', 'u', '0', '0', hexDigit (c.toNat / 16), hexDigit (c.toNat % 16)]
  else [c]

def quote (s : String) : String :=
  "\x22" ++ String.ofList (s.toList.flatMap quoteChar) ++ "\x22"

/-- The numeral of a double precision number, which always has a point. -/
def realText (x : Number) : String :=
  let text := x.text
  if text.toList.contains '.' then text else text ++ ".0"

/-! ### Compact -/

mutual

/-- A value without white space; what has no value is written as `null`. -/
def compact : Json → String
  | .null | .unreadable => "null"
  | .bool b => if b then "true" else "false"
  | .int n => toString n
  | .real x => realText x
  | .str s => quote s
  | .arr items => "[" ++ ",".intercalate (compactItems items) ++ "]"
  | .obj members => "\x7b" ++ ",".intercalate (compactMembers members) ++ "\x7d"

def compactItems : List Json → List String
  | [] => []
  | item :: rest => compact item :: compactItems rest

def compactMembers : List (String × Json) → List String
  | [] => []
  | (name, value) :: rest => (quote name ++ ":" ++ compact value) :: compactMembers rest

end

/-! ### Pretty -/

/-- A line break with the indentation of a depth. -/
def lineBreak (depth : Nat) : String :=
  "\n" ++ String.ofList (List.replicate (2 * depth) ' ')

/-- The texts of a container's parts between its brackets, a part on a line. -/
def block (depth : Nat) (opening closing : String) (parts : List String) : String :=
  if parts = [] then opening ++ closing
  else opening ++ lineBreak (depth + 1) ++ ("," ++ lineBreak (depth + 1)).intercalate parts
    ++ lineBreak depth ++ closing

mutual

/-- A value at a depth of indentation. -/
def prettyAt (depth : Nat) : Json → String
  | .arr items => block depth "[" "]" (prettyItems (depth + 1) items)
  | .obj members => block depth "\x7b" "\x7d" (prettyMembers (depth + 1) members)
  | .null | .unreadable => "null"
  | .bool b => if b then "true" else "false"
  | .int n => toString n
  | .real x => realText x
  | .str s => quote s

def prettyItems (depth : Nat) : List Json → List String
  | [] => []
  | item :: rest => prettyAt depth item :: prettyItems depth rest

def prettyMembers (depth : Nat) : List (String × Json) → List String
  | [] => []
  | (name, value) :: rest =>
    (quote name ++ ": " ++ prettyAt depth value) :: prettyMembers depth rest

end

/-- A value with one item or member on a line. -/
def pretty (value : Json) : String :=
  prettyAt 0 value

end Json

end TableCompiler
