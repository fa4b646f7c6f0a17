import TableCompiler.Json.Token

/-!
# Reading JSON

The tokens of a text are put together by a machine whose stack holds the containers that are
still open.

* `Frame` — an open container with what it holds so far;
* `State` — what may come next;
* `State.step` — the effect of one token;
* `Json.ofText?` — the value of a text, in which a container inside `depthLimit` others is not
  readable.
-/

namespace TableCompiler

namespace Json

/-- Members of an object, in reverse; there are none once a name was not readable. -/
abbrev OpenMembers := Option (List (String × Json))

/-- An open container. -/
inductive Frame where
  /-- An array with its items in reverse. -/
  | array (items : List Json)
  /-- An object with the name of the member whose value is awaited. -/
  | object (members : OpenMembers) (name : Option String)

/-- What may come next. -/
inductive State where
  /-- A value; if `first`, also the end of the array just opened. -/
  | awaitValue (stack : List Frame) (first : Bool)
  /-- A member name; if `first`, also the end of the object just opened. -/
  | awaitName (stack : List Frame) (members : OpenMembers) (first : Bool)
  | awaitColon (stack : List Frame) (members : OpenMembers) (name : Option String)
  | afterItem (stack : List Frame) (items : List Json)
  | afterMember (stack : List Frame) (members : OpenMembers)
  | done (value : Json)

/-- How many containers may be open at once for the innermost one to be readable. -/
def depthLimit : Nat := 127

/-- The members of an object with a further one. -/
def addMember (members : OpenMembers) (name : Option String) (value : Json) : OpenMembers := do
  return (← name, value) :: (← members)

namespace State

/-- Hands a finished value to the innermost open container. -/
def deliver (value : Json) : List Frame → State
  | [] => .done value
  | .array items :: stack => .afterItem stack (value :: items)
  | .object members name :: stack => .afterMember stack (addMember members name value)

/-- Whether as many containers are open as there may be. -/
def isFull (stack : List Frame) : Bool :=
  !(stack.drop (depthLimit - 1)).isEmpty

/-- Hands a finished container on, if it is not inside too many others. -/
def close (container : Json) (stack : List Frame) : State :=
  deliver (if isFull stack then .unreadable else container) stack

def closeArray (items : List Json) (stack : List Frame) : State :=
  close (.arr items.reverse) stack

def closeObject (members : OpenMembers) (stack : List Frame) : State :=
  close ((members.map fun members => .obj members.reverse).getD .unreadable) stack

/-- Reads the token with which a value begins. -/
def begin (stack : List Frame) : Token → Option State
  | .text s => some (deliver ((s.map .str).getD .unreadable) stack)
  | .scalar value => some (deliver value stack)
  | .openArray => some (.awaitValue (.array [] :: stack) true)
  | .openObject => some (.awaitName stack (some []) true)
  | _ => none

def step : State → Token → Option State
  | .awaitValue (.array [] :: stack) true, .closeArray => some (closeArray [] stack)
  | .awaitValue stack _, token => begin stack token
  | .awaitName stack _ true, .closeObject => some (closeObject (some []) stack)
  | .awaitName stack members _, .text name => some (.awaitColon stack members name)
  | .awaitColon stack members name, .colon =>
    some (.awaitValue (.object members name :: stack) false)
  | .afterItem stack items, .comma => some (.awaitValue (.array items :: stack) false)
  | .afterItem stack items, .closeArray => some (closeArray items stack)
  | .afterMember stack members, .comma => some (.awaitName stack members false)
  | .afterMember stack members, .closeObject => some (closeObject members stack)
  | _, _ => none

end State

def ofTokens? (tokens : List Token) : Option Json :=
  match tokens.foldlM State.step (.awaitValue [] false) with
  | some (.done value) => some value
  | _ => none

def ofText? (text : String) : Option Json :=
  (Token.ofText? text).bind ofTokens?

end Json

end TableCompiler
