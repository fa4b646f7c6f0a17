import TableCompiler.Expression
import TableCompiler.Number.Shortest
import TableCompiler.Text

/-!
# Bindings

A binding is the text under which the renderer evaluates an expression.  A constant is written
as it is, a lone path as `{model>path}`, a formatted list as `{parts:[..],formatter:'f'}`, and
any other tree as an expression binding `{= ..}`.

* `quote` — a text in apostrophes;
* `Expression.body` — a tree inside an expression binding;
* `Expression.compile` — the binding of a tree;
* `Expression.ofBinding` — the tree that a binding reads as.
-/

namespace TableCompiler

/-- A text in apostrophes, with a backslash before each backslash and apostrophe in it. -/
def quote (text : String) : String :=
  "\x27" ++ String.ofList (text.toList.flatMap fun c =>
    if c = '\\' ∨ c = '\x27' then ['\\', c] else [c]) ++ "\x27"

def braced (text : String) : String :=
  "\x7b" ++ text ++ "\x7d"

/-- A path with the model that it is in. -/
def bindingPath (model : Option String) (path : String) : String :=
  match model with
  | some model => model ++ ">" ++ path
  | none => path

namespace Value

/-- The text of a constant on its own. -/
def plain : Value → String
  | .bool b => if b then "true" else "false"
  | .text s => s
  | .number x => x.text

/-- The text of a constant inside an expression, where texts are quoted. -/
def operand : Value → String
  | .text s => quote s
  | v => v.plain

end Value

/-- The binding of formatted parts, given the texts of the parts. -/
def formattedBinding (parts : List String) (formatter : String) : String :=
  braced ("parts:[" ++ ",".intercalate parts ++ "],formatter:" ++ quote formatter)

namespace Expression

/-- Whether a tree is put in parentheses as an operand. -/
def needsParentheses : Expression → Bool
  | .conjunction _ | .disjunction _ | .comparison _ _ _ | .choice _ _ _ | .embedded _ => true
  | _ => false

/-- The text of an operand, given the tree and its body. -/
def operandText (e : Expression) (body : String) : String :=
  if e.needsParentheses then "(" ++ body ++ ")" else body

/-- The part of a formatted binding that stands for a path. -/
def pathPart (model : Option String) (path : String) : String :=
  match model with
  | some model => braced ("path:" ++ quote path ++ ",model:" ++ quote model)
  | none => braced ("path:" ++ quote path)

mutual

/-- The text of a tree inside an expression binding. -/
def body : Expression → String
  | .constant v => v.operand
  | .path model p => "%" ++ braced (bindingPath model p)
  | .negation e => "!" ++ operandText e (body e)
  | .conjunction es => " && ".intercalate (operands es)
  | .disjunction es => " || ".intercalate (operands es)
  | .comparison op l r =>
    operandText l (body l) ++ " " ++ op.symbol ++ " " ++ operandText r (body r)
  | .choice c t f =>
    operandText c (body c) ++ " ? " ++ operandText t (body t) ++ " : " ++ operandText f (body f)
  | .formatted ps formatter => "$" ++ formattedBinding (parts ps) formatter
  | .embedded body => body

def operands : List Expression → List String
  | [] => []
  | e :: rest => operandText e (body e) :: operands rest

def parts : List Expression → List String
  | [] => []
  | .path model p :: rest => pathPart model p :: parts rest
  | .constant v :: rest => braced ("value:" ++ v.operand) :: parts rest
  | .formatted ps formatter :: rest =>
    braced ("value:" ++ quote (formattedBinding (parts ps) formatter)) :: parts rest
  | e :: rest => braced ("value:" ++ quote (braced ("= " ++ body e))) :: parts rest

end

def compile : Expression → String
  | .constant v => v.plain
  | .path model p => braced (bindingPath model p)
  | .formatted ps formatter => formattedBinding (parts ps) formatter
  | e => braced ("= " ++ body e)

/-! ### Reading -/

/-- The characters between a brace at the start and one at the end. -/
def unbraced? (chars : List Char) : Option (List Char) :=
  match chars with
  | '\x7b' :: rest =>
    match rest.reverse with
    | '\x7d' :: inner => some inner.reverse
    | _ => none
  | _ => none

/-- Characters that no simple path binding holds. -/
def isBindingSyntax (c : Char) : Bool :=
  c == ':' || c == '\x7b' || c == '\x7d' || c == ','

/-- The path inside a simple binding, with its model before the first `>`. -/
def ofBindingPath (inner : String) : Expression :=
  match Text.cut? '>' inner with
  | some (model, p) => .path (some model) p
  | none => .path none inner

/-- The tree that a binding reads as.  What is neither a truth value nor in braces, or has braces
around something else than a path or an expression, is a constant text. -/
def ofBinding (text : String) : Expression :=
  let trimmed := Text.trim text
  if trimmed = "true" then ofBool true
  else if trimmed = "false" then ofBool false
  else match unbraced? trimmed.toList with
    | none => ofText trimmed
    | some ('=' :: body) => .embedded (Text.trim (String.ofList body))
    | some inner =>
      if inner.any isBindingSyntax then ofText trimmed
      else ofBindingPath (String.ofList inner)

end Expression

end TableCompiler
