import TableCompiler.Json.Numeral

/-!
# JSON tokens

A text is split into tokens by a machine that takes one character at a time.

* `Token` — punctuation, a string, or another scalar value;
* `decode?` — the characters of a string;
* `Token.Mode` — what the machine is in the middle of;
* `Token.step` — the effect of one character;
* `Token.ofText?` — the tokens of a text.

A string holds no control character.  The escapes for a pair of surrogates stand for one
character; a surrogate without its partner is no fault of the text, but then the string has no
value.
-/

namespace TableCompiler

namespace Json

/-- A token of a JSON text. -/
inductive Token where
  | openObject
  | closeObject
  | openArray
  | closeArray
  | comma
  | colon
  /-- A string, if all of its characters are given. -/
  | text (s : Option String)
  | scalar (value : Json)

/-! ### Surrogates -/

/-- Whether a code is that of the first half of a pair. -/
def isLeading (code : Nat) : Bool :=
  0xD800 ≤ code && code < 0xDC00

/-- Whether a code is that of the second half of a pair. -/
def isTrailing (code : Nat) : Bool :=
  0xDC00 ≤ code && code < 0xE000

/-- The character that a pair stands for. -/
def joinPair (leading trailing : Nat) : Char :=
  Char.ofNat (0x10000 + (leading - 0xD800) * 0x400 + (trailing - 0xDC00))

/-- The characters of a list of codes in reverse, before the given ones.  A half of a pair that
stands alone is no character. -/
def decodeBefore? (chars : List Char) : List Nat → Option (List Char)
  | [] => some chars
  | trailing :: leading :: rest =>
    if isLeading leading && isTrailing trailing then
      decodeBefore? (joinPair leading trailing :: chars) rest
    else if isLeading trailing || isTrailing trailing then none
    else decodeBefore? (Char.ofNat trailing :: chars) (leading :: rest)
  | [code] =>
    if isLeading code || isTrailing code then none else some (Char.ofNat code :: chars)

/-- The string of a list of codes in reverse. -/
def decode? (codes : List Nat) : Option String :=
  (decodeBefore? [] codes).map String.ofList

namespace Token

/-- What has been read of a token; letters, characters and codes are kept in reverse. -/
inductive Mode where
  | between
  | word (letters : List Char)
  | numeral (chars : List Char)
  | text (codes : List Nat)
  | escape (codes : List Nat)
  /-- In an escape with `left` hexadecimal digits to come. -/
  | code (codes : List Nat) (value : Nat) (left : Nat)

/-- White space between tokens. -/
def isSpace (c : Char) : Bool :=
  c == ' ' || c == '\n' || c == '\t' || c == '\r'

/-- Characters of which numerals are made. -/
def isNumeric (c : Char) : Bool :=
  c.isDigit || c == '-' || c == '+' || c == '.' || c == 'e' || c == 'E'

def hexDigit? (c : Char) : Option Nat :=
  if c.isDigit then some (c.toNat - '0'.toNat)
  else if 'a' ≤ c ∧ c ≤ 'f' then some (c.toNat - 'a'.toNat + 10)
  else if 'A' ≤ c ∧ c ≤ 'F' then some (c.toNat - 'A'.toNat + 10)
  else none

/-- The value of a literal name, from its letters in reverse. -/
def word? (letters : List Char) : Option Json :=
  match String.ofList letters.reverse with
  | "null" => some .null
  | "true" => some (.bool true)
  | "false" => some (.bool false)
  | _ => none

/-- The effect of a character with which a token begins, or of one between tokens. -/
def start (c : Char) : Option (List Token × Mode) :=
  if isSpace c then some ([], .between)
  else if c = '\x7b' then some ([.openObject], .between)
  else if c = '\x7d' then some ([.closeObject], .between)
  else if c = '[' then some ([.openArray], .between)
  else if c = ']' then some ([.closeArray], .between)
  else if c = ',' then some ([.comma], .between)
  else if c = ':' then some ([.colon], .between)
  else if c = '\x22' then some ([], .text [])
  else if c.isDigit || c == '-' then some ([], .numeral [c])
  else if c.isLower then some ([], .word [c])
  else none

/-- The character of a one-letter escape. -/
def shortEscape? (c : Char) : Option Char :=
  match c with
  | '\x22' => some '\x22'
  | '\\' => some '\\'
  | '/' => some '/'
  | 'b' => some '\x08'
  | 'f' => some '\x0c'
  | 'n' => some '\n'
  | 'r' => some '\r'
  | 't' => some '\t'
  | _ => none

/-- The effect of one character: the tokens that end with it, and the mode after it. -/
def step : Mode → Char → Option (List Token × Mode)
  | .between, c => start c
  | .word letters, c =>
    if c.isLower then some ([], .word (c :: letters))
    else do
      let value ← word? letters
      let (tokens, mode) ← start c
      return (.scalar value :: tokens, mode)
  | .numeral chars, c =>
    if isNumeric c then some ([], .numeral (c :: chars))
    else do
      let value ← ofNumeral? chars.reverse
      let (tokens, mode) ← start c
      return (.scalar value :: tokens, mode)
  | .text codes, c =>
    if c = '\\' then some ([], .escape codes)
    else if c = '\x22' then some ([.text (decode? codes)], .between)
    else if c.toNat < 0x20 then none
    else some ([], .text (c.toNat :: codes))
  | .escape codes, c =>
    if c = 'u' then some ([], .code codes 0 4)
    else (shortEscape? c).map fun e => ([], .text (e.toNat :: codes))
  | .code codes value left, c => do
    let digit ← hexDigit? c
    let value := value * 16 + digit
    if left ≤ 1 then return ([], .text (value :: codes))
    else return ([], .code codes value (left - 1))

/-- The token that the end of the text completes. -/
def finish : Mode → Option (List Token)
  | .between => some []
  | .word letters => (word? letters).map fun value => [.scalar value]
  | .numeral chars => (ofNumeral? chars.reverse).map fun value => [.scalar value]
  | _ => none

/-- The tokens that have been read, the latest first, and the mode after them. -/
structure Scan where
  tokens : List Token := []
  mode : Mode := .between

def Scan.next (s : Scan) (c : Char) : Option Scan := do
  let (tokens, mode) ← step s.mode c
  return ⟨tokens.reverse ++ s.tokens, mode⟩

def ofText? (text : String) : Option (List Token) := do
  let scan ← text.toList.foldlM Scan.next {}
  return scan.tokens.reverse ++ (← finish scan.mode)

end Token

end Json

end TableCompiler
