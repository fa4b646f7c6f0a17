import TableCompiler.Json.Token

/-!
# TOML tokens

A text is split into tokens by a machine that takes one character at a time.  White space and
line ends are tokens, because they separate what would else belong together.

* `Toml.Token` — punctuation, strings and words;
* `Toml.Token.Mode` — what the machine is in the middle of;
* `Toml.Token.step` — the effect of one character;
* `Toml.Token.ofText?` — the tokens of a text, with a line end after the last one.
-/

namespace TableCompiler

namespace Toml

/-- A token of a TOML text. -/
inductive Token where
  | blank (c : Char)
  | newline
  | equals
  | dot
  | comma
  | openBracket
  | closeBracket
  | openBrace
  | closeBrace
  /-- A string in quotes of one kind or the other, in one or three. -/
  | text (s : String) (isMultiline : Bool)
  /-- Anything else. -/
  | word (chars : List Char)

namespace Token

/-- What has been read of a token.  Characters are kept in reverse, and `quote` is the quotation
mark of the string. -/
inductive Mode where
  | between
  | comment
  | word (chars : List Char)
  /-- After one or two quotation marks. -/
  | opening (quote : Char) (isSecond : Bool)
  | line (quote : Char) (chars : List Char)
  /-- At the start of a string of several lines, where a line end does not count. -/
  | firstLine (quote : Char)
  /-- In a string of several lines, after some quotation marks. -/
  | lines (quote : Char) (chars : List Char) (marks : Nat)
  | escape (isMultiline : Bool) (chars : List Char)
  /-- In an escape with `left` hexadecimal digits to come. -/
  | code (isMultiline : Bool) (chars : List Char) (value : Nat) (left : Nat)
  /-- After a backslash at the end of a line. -/
  | continuation (chars : List Char) (lineEnded : Bool)

/-- Whether a character must not stand in comments and strings. -/
def isControl (c : Char) : Bool :=
  (c.toNat < 0x20 && c != '\t') || c.toNat == 0x7F

/-- Whether a character belongs to a word. -/
def isWordPart (c : Char) : Bool :=
  !(c == ' ' || c == '\t' || c == '\n' || c == '#' || c == '=' || c == '.' || c == ','
    || c == '[' || c == ']' || c == '\x7b' || c == '\x7d' || c == '\x22' || c == '\x27')

/-- The effect of a character with which a token begins, or of one between tokens. -/
def start (c : Char) : List Token × Mode :=
  if c = ' ' ∨ c = '\t' then ([.blank c], .between)
  else if c = '\n' then ([.newline], .between)
  else if c = '#' then ([], .comment)
  else if c = '=' then ([.equals], .between)
  else if c = '.' then ([.dot], .between)
  else if c = ',' then ([.comma], .between)
  else if c = '[' then ([.openBracket], .between)
  else if c = ']' then ([.closeBracket], .between)
  else if c = '\x7b' then ([.openBrace], .between)
  else if c = '\x7d' then ([.closeBrace], .between)
  else if c = '\x22' ∨ c = '\x27' then ([], .opening c false)
  else ([], .word [c])

/-- The string of characters in reverse. -/
def stringToken (chars : List Char) (isMultiline : Bool) : Token :=
  .text (String.ofList chars.reverse) isMultiline

/-- The character of a one-letter escape. -/
def shortEscape? (c : Char) : Option Char :=
  match c with
  | '\x22' => some '\x22'
  | '\\' => some '\\'
  | 'b' => some '\x08'
  | 'e' => some '\x1b'
  | 'f' => some '\x0c'
  | 'n' => some '\n'
  | 'r' => some '\r'
  | 't' => some '\t'
  | _ => none

/-- How many hexadecimal digits follow the letter of an escape. -/
def codeLength? (c : Char) : Option Nat :=
  match c with
  | 'x' => some 2
  | 'u' => some 4
  | 'U' => some 8
  | _ => none

/-- The mode in which a string goes on after an escape. -/
def resume (isMultiline : Bool) (chars : List Char) : Mode :=
  if isMultiline then .lines '\x22' chars 0 else .line '\x22' chars

/-- The effect of a character in a string of several lines that is no quotation mark. -/
def inLines (quote : Char) (chars : List Char) (c : Char) : Option Mode :=
  if c = '\\' ∧ quote = '\x22' then some (.escape true chars)
  else if c = '\n' ∨ !isControl c then some (.lines quote (c :: chars) 0)
  else none

/-- The effect of a character after a backslash. -/
def afterBackslash (isMultiline : Bool) (chars : List Char) (c : Char) : Option Mode :=
  match shortEscape? c, codeLength? c with
  | some e, _ => some (resume isMultiline (e :: chars))
  | none, some length => some (.code isMultiline chars 0 length)
  | none, none =>
    if !isMultiline then none
    else if c = '\n' then some (.continuation chars true)
    else if c = ' ' ∨ c = '\t' then some (.continuation chars false)
    else none

/-- Whether a number is that of a character. -/
def isScalarValue (n : Nat) : Bool :=
  n < 0xD800 || (0xE000 ≤ n && n < 0x110000)

/-- The effect of one character: the tokens that end with it, and the mode after it. -/
def step : Mode → Char → Option (List Token × Mode)
  | .between, c => some (start c)
  | .comment, c =>
    if c = '\n' then some (start c)
    else if isControl c then none
    else some ([], .comment)
  | .word chars, c =>
    if isWordPart c then some ([], .word (c :: chars))
    else
      let (tokens, mode) := start c
      some (.word chars.reverse :: tokens, mode)
  | .opening quote isSecond, c =>
    if c = quote then some ([], if isSecond then .firstLine quote else .opening quote true)
    else if isSecond then
      let (tokens, mode) := start c
      some (.text "" false :: tokens, mode)
    else inLine quote [] c
  | .line quote chars, c => inLine quote chars c
  | .firstLine quote, c =>
    if c = '\n' then some ([], .lines quote [] 0)
    else if c = quote then some ([], .lines quote [] 1)
    else (inLines quote [] c).map fun mode => ([], mode)
  | .lines quote chars marks, c =>
    if c = quote ∧ marks < 5 then some ([], .lines quote chars (marks + 1))
    else if marks < 3 then
      (inLines quote (List.replicate marks quote ++ chars) c).map fun mode => ([], mode)
    else
      let (tokens, mode) := start c
      some (stringToken (List.replicate (marks - 3) quote ++ chars) true :: tokens, mode)
  | .escape isMultiline chars, c =>
    (afterBackslash isMultiline chars c).map fun mode => ([], mode)
  | .code isMultiline chars value left, c => do
    let digit ← Json.Token.hexDigit? c
    let value := value * 16 + digit
    if 1 < left then return ([], .code isMultiline chars value (left - 1))
    else if isScalarValue value then
      return ([], resume isMultiline (Char.ofNat value :: chars))
    else none
  | .continuation chars lineEnded, c =>
    if c = ' ' ∨ c = '\t' then some ([], .continuation chars lineEnded)
    else if c = '\n' then some ([], .continuation chars true)
    else if !lineEnded then none
    else if c = '\x22' then some ([], .lines '\x22' chars 1)
    else (inLines '\x22' chars c).map fun mode => ([], mode)
where
  /-- The effect of a character in a string of one line. -/
  inLine (quote : Char) (chars : List Char) (c : Char) : Option (List Token × Mode) :=
    if c = quote then some ([stringToken chars false], .between)
    else if c = '\\' ∧ quote = '\x22' then some ([], .escape false chars)
    else if isControl c then none
    else some ([], .line quote (c :: chars))

/-- The tokens that have been read, the latest first, and the mode after them. -/
structure Scan where
  tokens : List Token := []
  mode : Mode := .between

def Scan.next (s : Scan) (c : Char) : Option Scan := do
  let (tokens, mode) ← step s.mode c
  return ⟨tokens.reverse ++ s.tokens, mode⟩

/-- The tokens of a list of characters, the last of which must end between tokens. -/
def ofChars? (chars : List Char) : Option (List Token) := do
  let scan ← chars.foldlM Scan.next {}
  match scan.mode with
  | .between => some scan.tokens.reverse
  | _ => none

/-- A list of characters in which a line ends with one character; a carriage return on its own is
left to be refused. -/
def unifyLineEnds : List Char → List Char
  | '\r' :: '\n' :: rest => '\n' :: unifyLineEnds rest
  | c :: rest => c :: unifyLineEnds rest
  | [] => []

/-- A list of characters without a byte order mark. -/
def dropMark : List Char → List Char
  | c :: rest => if c.toNat = 0xFEFF then rest else c :: rest
  | [] => []

def ofText? (text : String) : Option (List Token) :=
  ofChars? (unifyLineEnds (dropMark text.toList) ++ ['\n'])

end Token

end Toml

end TableCompiler
