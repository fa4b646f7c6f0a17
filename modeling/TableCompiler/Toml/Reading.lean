import TableCompiler.Toml.Scalar
import TableCompiler.Toml.Token

/-!
# Reading TOML

The tokens of a text are put together by a machine: lines are headers or assignments, and a value
may open arrays and tables that go on over several lines.

* `Frame` — an open array or table in braces with what it holds so far;
* `Document` — the tables so far and the header that assignments belong to;
* `State` — what may come next;
* `Reader.step` — the effect of one token;
* `Toml.ofText?` — the entries of a text, which nests at most `depthLimit` containers and whose
  keys have at most `partLimit` parts.
-/

namespace TableCompiler

namespace Toml

/-- An open container; items are kept in reverse. -/
inductive Frame where
  | array (items : List Toml)
  /-- A table with the key whose value is awaited. -/
  | table (entries : List (String × Toml)) (key : List String)

/-- The document so far. -/
structure Document where
  root : List (String × Toml) := []
  /-- The path of the header that assignments belong to. -/
  header : List String := []

/-- What a key is part of. -/
inductive KeyPlace where
  | statement
  | header
  | arrayHeader
  | braces (stack : List Frame) (entries : List (String × Toml))

/-- What may come next. -/
inductive State where
  | lineStart
  | lineEnd
  /-- After the opening bracket of a header. -/
  | headerStart
  /-- A part of a key, after the given parts. -/
  | keyPart (place : KeyPlace) (parts : List String)
  /-- The continuation or the end of a key. -/
  | keyEnd (place : KeyPlace) (parts : List String)
  /-- The second closing bracket of the header of an array. -/
  | headerEnd (parts : List String)
  /-- A value for the innermost open container, or for the key of the statement. -/
  | value (stack : List Frame)
  /-- The rest of a word. -/
  | word (stack : List Frame) (chars : List Char)
  /-- The time after a date and a blank. -/
  | time (stack : List Frame) (chars : List Char)
  /-- An item of an array or its end. -/
  | item (stack : List Frame) (items : List Toml)
  /-- What separates items, or the end of the array. -/
  | afterItem (stack : List Frame) (items : List Toml)
  /-- A key in braces or their end. -/
  | entry (stack : List Frame) (entries : List (String × Toml))
  /-- What separates entries in braces, or their end. -/
  | afterEntry (stack : List Frame) (entries : List (String × Toml))

/-- A machine that has read part of a text. -/
structure Reader where
  document : Document := {}
  state : State := .lineStart
  /-- The key of the statement whose value is being read. -/
  statementKey : List String := []

/-- Whether a word can be a key without quotes. -/
def isBareKey (chars : List Char) : Bool :=
  chars.all fun c => c.isAlphanum || c == '_' || c == '-'

/-- The part of a key that a token stands for. -/
def keyPart? : Token → Option String
  | .text s false => some s
  | .word chars => if isBareKey chars then some (String.ofList chars) else none
  | _ => none

/-- How many arrays and tables in braces may be open at once. -/
def depthLimit : Nat := 80

/-- How many parts a dotted key may have. -/
def partLimit : Nat := 80

namespace Reader

/-- The reader in another state. -/
def goto (r : Reader) (state : State) : Reader := { r with state := state }

/-- Hands a finished value to the innermost open container, or to the statement. -/
def deliver (r : Reader) (value : Toml) : List Frame → Option Reader
  | [] => do
    let root ← assignUnder? r.document.header r.statementKey value r.document.root
    return { r with document := { r.document with root := root }, state := .lineEnd }
  | .array items :: stack => some (r.goto (.afterItem stack (value :: items)))
  | .table entries key :: stack => do
    return r.goto (.afterEntry stack (← assign? value key entries))

/-- The end of a key. -/
def closeKey (r : Reader) (place : KeyPlace) (parts : List String) : Token → Option Reader
  | .equals =>
    match place with
    | .statement => some { r with statementKey := parts, state := .value [] }
    | .braces stack entries =>
      some (r.goto (.value (.table entries parts :: stack)))
    | _ => none
  | .closeBracket =>
    match place with
    | .header => do
      let root ← descend? openTable? parts r.document.root
      return { r with document := ⟨root, parts⟩, state := .lineEnd }
    | .arrayHeader => some (r.goto (.headerEnd parts))
    | _ => none
  | _ => none

/-- The token with which a value begins. -/
def beginValue (r : Reader) (stack : List Frame) : Token → Option Reader
  | .text s _ => r.deliver (.text s) stack
  | .word chars => some (r.goto (.word stack chars))
  | .openBracket => if stack.length < depthLimit then some (r.goto (.item stack [])) else none
  | .openBrace => if stack.length < depthLimit then some (r.goto (.entry stack [])) else none
  | _ => none

/-- A further part of a key. -/
def addPart (r : Reader) (place : KeyPlace) (parts : List String) (token : Token) :
    Option Reader := do
  let part ← keyPart? token
  if parts.length < partLimit then return r.goto (.keyEnd place (parts ++ [part])) else none

/-- A token outside values, or after a finished one. -/
def plainStep (r : Reader) (token : Token) : Option Reader :=
  match r.state, token with
  | .lineStart, .blank _ | .lineStart, .newline => some r
  | .lineStart, .openBracket => some (r.goto .headerStart)
  | .lineStart, token => r.addPart .statement [] token
  | .lineEnd, .blank _ => some r
  | .lineEnd, .newline => some (r.goto .lineStart)
  | .headerStart, .openBracket => some (r.goto (.keyPart .arrayHeader []))
  | .headerStart, .blank _ => some (r.goto (.keyPart .header []))
  | .headerStart, token => r.addPart .header [] token
  | .keyPart _ _, .blank _ | .keyEnd _ _, .blank _ => some r
  | .keyPart place parts, token => r.addPart place parts token
  | .keyEnd place parts, .dot => some (r.goto (.keyPart place parts))
  | .keyEnd place parts, token => r.closeKey place parts token
  | .headerEnd parts, .closeBracket => do
    let root ← descend? pushTable? parts r.document.root
    return { r with document := ⟨root, parts⟩, state := .lineEnd }
  | .value _, .blank _ => some r
  | .value stack, token => r.beginValue stack token
  | .item _ _, .blank _ | .item _ _, .newline => some r
  | .item stack items, .closeBracket => r.deliver (.array items.reverse) stack
  | .item stack items, token => r.beginValue (.array items :: stack) token
  | .afterItem _ _, .blank _ | .afterItem _ _, .newline => some r
  | .afterItem stack items, .comma => some (r.goto (.item stack items))
  | .afterItem stack items, .closeBracket => r.deliver (.array items.reverse) stack
  | .entry _ _, .blank _ | .entry _ _, .newline => some r
  | .entry stack entries, .closeBrace => r.deliver (.table .complete entries) stack
  | .entry stack entries, token => r.addPart (.braces stack entries) [] token
  | .afterEntry _ _, .blank _ | .afterEntry _ _, .newline => some r
  | .afterEntry stack entries, .comma => some (r.goto (.entry stack entries))
  | .afterEntry stack entries, .closeBrace => r.deliver (.table .complete entries) stack
  | _, _ => none

/-- The token after a finished word. -/
def finishWord (r : Reader) (stack : List Frame) (chars : List Char) (token : Token) :
    Option Reader := do
  let value ← scalar? chars
  (← r.deliver value stack).plainStep token

/-- The effect of one token.  A point inside a number separates words, and so does the blank
between a date and a time. -/
def step (r : Reader) (token : Token) : Option Reader :=
  match r.state, token with
  | .word stack chars, .word more => some (r.goto (.word stack (chars ++ more)))
  | .word stack chars, .dot => some (r.goto (.word stack (chars ++ ['.'])))
  | .word stack chars, .blank c =>
    if c = ' ' ∧ isDate chars then some (r.goto (.time stack chars))
    else r.finishWord stack chars token
  | .word stack chars, token => r.finishWord stack chars token
  | .time stack chars, .word more =>
    if (more.head?.map Char.isDigit).getD false then
      some (r.goto (.word stack (chars ++ ' ' :: more)))
    else r.finishWord stack chars token
  | .time stack chars, token => r.finishWord stack chars token
  | _, _ => r.plainStep token

end Reader

/-- The entries of a text. -/
def ofText? (text : String) : Option (List (String × Toml)) := do
  let tokens ← Token.ofText? text
  let reader ← tokens.foldlM Reader.step {}
  match reader.state with
  | .lineStart => some reader.document.root
  | _ => none

end Toml

end TableCompiler
