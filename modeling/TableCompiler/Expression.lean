import TableCompiler.Number

/-!
# Expressions

Visibility, enablement and selection are computed as expression trees and only then turned into
binding texts.  The constructors of the tree are nouns; the functions that build trees fold
them as they go, so that no `true && x` and no `!!x` is ever built from folded parts.

* `Value`, `Comparison`, `Expression` — constants, comparison operators and trees;
* `Expression.beq` — equality of trees, with the equality of numbers at the constants;
* `Expression.not`, `Expression.and`, `Expression.or` — connectives: constants are absorbed,
  nested lists of one kind are flattened, repetitions dropped, negations cancelled;
* `Expression.compare`, `Expression.equal`, `Expression.notEqual`,
  `Expression.greaterOrEqual` — comparisons of constants are decided, and equality of a Boolean
  tree with a constant is the tree or its negation;
* `Expression.ifElse` — a choice with a constant condition or equal branches is a branch;
* `Expression.isEditable` and its neighbours — the well-known paths of the page models.
-/

namespace TableCompiler

/-! ### Trees -/

/-- A constant. -/
inductive Value where
  | bool (b : Bool)
  | text (s : String)
  | number (x : Number)
deriving DecidableEq

namespace Value

/-- Equality of constants; numbers are compared as numbers. -/
def same : Value → Value → Bool
  | .bool a, .bool b => a == b
  | .text a, .text b => a == b
  | .number a, .number b => a == b
  | _, _ => false

instance : BEq Value := ⟨same⟩

end Value

/-- A comparison operator. -/
inductive Comparison where
  | equal
  | notEqual
  | greater
  | greaterOrEqual
  | less
  | lessOrEqual
deriving DecidableEq

namespace Comparison

def all : List Comparison := [.equal, .notEqual, .greater, .greaterOrEqual, .less, .lessOrEqual]

def symbol : Comparison → String
  | .equal => "==="
  | .notEqual => "!=="
  | .greater => ">"
  | .greaterOrEqual => ">="
  | .less => "<"
  | .lessOrEqual => "<="

def inverse : Comparison → Comparison
  | .equal => .notEqual
  | .notEqual => .equal
  | .greater => .lessOrEqual
  | .greaterOrEqual => .less
  | .less => .greaterOrEqual
  | .lessOrEqual => .greater

def holdsFor (op : Comparison) (x y : Number) : Bool :=
  match op with
  | .equal => x == y
  | .notEqual => x != y
  | .greater => y.precedes x
  | .greaterOrEqual => y.atMost x
  | .less => x.precedes y
  | .lessOrEqual => x.atMost y

/-- The result of a comparison of constants, where it is defined: any two constants can be equal
or not, but only numbers are ordered. -/
def decide? (op : Comparison) (a b : Value) : Option Bool :=
  match op, a, b with
  | .equal, a, b => some (a == b)
  | .notEqual, a, b => some (a != b)
  | op, .number x, .number y => some (op.holdsFor x y)
  | _, _, _ => none

end Comparison

/-- An expression tree. -/
inductive Expression where
  | constant (value : Value)
  /-- A binding path, in a named model or in the default one. -/
  | path (model : Option String) (path : String)
  | negation (operand : Expression)
  | conjunction (operands : List Expression)
  | disjunction (operands : List Expression)
  | comparison (op : Comparison) (left right : Expression)
  | choice (condition onTrue onFalse : Expression)
  /-- A binding of several parts that passes through a named formatter. -/
  | formatted (parts : List Expression) (formatter : String)
  /-- The body of an expression binding that was written by hand. -/
  | embedded (body : String)

namespace Expression

mutual

def beq : Expression → Expression → Bool
  | .constant a, .constant b => a == b
  | .path m p, .path n q => m == n && p == q
  | .negation a, .negation b => beq a b
  | .conjunction as, .conjunction bs => beqList as bs
  | .disjunction as, .disjunction bs => beqList as bs
  | .comparison o a b, .comparison u c d => o == u && beq a c && beq b d
  | .choice a b c, .choice d e f => beq a d && beq b e && beq c f
  | .formatted as f, .formatted bs g => beqList as bs && f == g
  | .embedded a, .embedded b => a == b
  | _, _ => false

def beqList : List Expression → List Expression → Bool
  | [], [] => true
  | a :: as, b :: bs => beq a b && beqList as bs
  | _, _ => false

end

instance : BEq Expression := ⟨beq⟩

/-! ### Constants and Boolean trees -/

def ofBool (b : Bool) : Expression := .constant (.bool b)

def ofText (s : String) : Expression := .constant (.text s)

def ofNat (n : Nat) : Expression := .constant (.number (.ofNat n))

def ofPath (p : String) : Expression := .path none p

def asBool? : Expression → Option Bool
  | .constant (.bool b) => some b
  | _ => none

def isConstant : Expression → Bool
  | .constant _ => true
  | _ => false

def isTrue (e : Expression) : Bool := e.asBool? == some true

def isFalse (e : Expression) : Bool := e.asBool? == some false

/-- Whether a tree has a Boolean value whatever its paths hold. -/
def isBoolean : Expression → Bool
  | .constant (.bool _) => true
  | .negation _ | .conjunction _ | .disjunction _ | .comparison _ _ _ => true
  | .choice _ onTrue onFalse => onTrue.isBoolean && onFalse.isBoolean
  | _ => false

/-! ### Connectives -/

/-- Negation; that of a comparison inverts its operator. -/
def not : Expression → Expression
  | .constant (.bool b) => ofBool (!b)
  | .negation e => e
  | .comparison op left right => .comparison op.inverse left right
  | e => .negation e

/-- The list without the trees that repeat an earlier one. -/
def distinct (seen : List Expression) : List Expression → List Expression
  | [] => []
  | e :: rest =>
    if seen.any (· == e) then distinct seen rest else e :: distinct (seen ++ [e]) rest

/-- The tree of a list of operands: a node only if there are at least two. -/
def assemble (neutral : Bool) (node : List Expression → Expression) :
    List Expression → Expression
  | [] => ofBool neutral
  | [e] => e
  | operands => node operands

/-- The operands of a conjunction, or the tree itself. -/
def conjuncts : Expression → List Expression
  | .conjunction operands => operands
  | e => [e]

/-- The operands of a disjunction, or the tree itself. -/
def disjuncts : Expression → List Expression
  | .disjunction operands => operands
  | e => [e]

def and (operands : List Expression) : Expression :=
  let flat := operands.flatMap conjuncts
  if flat.any isFalse then ofBool false
  else assemble true .conjunction (distinct [] (flat.filter fun e => !e.isTrue))

def or (operands : List Expression) : Expression :=
  let flat := operands.flatMap disjuncts
  if flat.any isTrue then ofBool true
  else assemble false .disjunction (distinct [] (flat.filter fun e => !e.isFalse))

/-! ### Comparisons and choices -/

/-- Comparison; that of two constants is decided where it is defined. -/
def compare (op : Comparison) : Expression → Expression → Expression
  | .constant a, .constant b =>
    match op.decide? a b with
    | some result => ofBool result
    | none => .comparison op (.constant a) (.constant b)
  | left, right => .comparison op left right

/-- Equality; that of a Boolean tree with a Boolean constant is the tree or its negation. -/
def equal (left right : Expression) : Expression :=
  match left.asBool?, right.asBool? with
  | none, some flag =>
    if left.isBoolean then (if flag then left else left.not) else compare .equal left right
  | some flag, none =>
    if right.isBoolean then (if flag then right else right.not) else compare .equal left right
  | _, _ => compare .equal left right

def notEqual (left right : Expression) : Expression :=
  (equal left right).not

/-- The comparison of being at least as great. -/
def greaterOrEqual (left right : Expression) : Expression :=
  compare .greaterOrEqual left right

/-- Choice by a condition; a negated condition exchanges the branches. -/
def ifElse (condition onTrue onFalse : Expression) : Expression :=
  match condition.asBool? with
  | some flag => if flag then onTrue else onFalse
  | none =>
    if onTrue == onFalse then onTrue
    else match condition with
      | .negation e => .choice e onFalse onTrue
      | e => .choice e onTrue onFalse

/-! ### Well-known paths -/

/-- The page is in edit mode. -/
def isEditable : Expression := .path (some "ui") "/isEditable"

/-- How many rows are selected in the table. -/
def numberOfSelectedContexts : Expression := .path (some "internal") "numberOfSelectedContexts"

/-- The level of the current row in a grouped or tree table. -/
def nodeLevel : Expression := ofPath "@$ui5.node.level"

/-- Whether the current group header row is expanded. -/
def nodeExpanded : Expression := ofPath "@$ui5.node.isExpanded"

end Expression

end TableCompiler
