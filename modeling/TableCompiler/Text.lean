/-!
# Cutting and joining texts

Paths, qualified names and bindings are short texts with separator characters.  The
functions here work on the characters of a text, so that each is a recursion on a list:

* `splitChars`, `split` — the pieces between the occurrences of a separator;
* `cut?`, `cutLast?` — the two sides of its first and of its last occurrence;
* `stripStart?`, `stripEnd?` — what follows or precedes a given text;
* `trimStart`, `trimEnd`, `trimBoth` — dropping one character at the ends;
* `replaceChars`, `replace` — every occurrence of a text, from the left;
* `isBlank`, `trim` — Unicode white space, and a text without it at either end.
-/

namespace TableCompiler

namespace Text

/-! ### Pieces -/

/-- The pieces of a list between the occurrences of `separator`; there is always one. -/
def splitChars (separator : Char) : List Char → List (List Char)
  | [] => [[]]
  | c :: rest =>
    if c = separator then [] :: splitChars separator rest
    else match splitChars separator rest with
      | [] => [[c]]
      | piece :: pieces => (c :: piece) :: pieces

/-- The pieces of a text between the occurrences of `separator`. -/
def split (separator : Char) (text : String) : List String :=
  (splitChars separator text.toList).map String.ofList

/-- The pieces that are not empty. -/
def segments (separator : Char) (text : String) : List String :=
  (split separator text).filter (· ≠ "")

/-- What stands before and after the first occurrence of `separator`. -/
def cutChars? (separator : Char) : List Char → Option (List Char × List Char)
  | [] => none
  | c :: rest =>
    if c = separator then some ([], rest)
    else (cutChars? separator rest).map fun (before, after) => (c :: before, after)

/-- What stands before and after the first occurrence of `separator` in a text. -/
def cut? (separator : Char) (text : String) : Option (String × String) :=
  (cutChars? separator text.toList).map fun (before, after) =>
    (String.ofList before, String.ofList after)

/-- What stands before and after the last occurrence of `separator` in a text. -/
def cutLast? (separator : Char) (text : String) : Option (String × String) :=
  (cutChars? separator text.toList.reverse).map fun (after, before) =>
    (String.ofList before.reverse, String.ofList after.reverse)

/-- The text after the last occurrence of `separator`, or all of it. -/
def afterLast (separator : Char) (text : String) : String :=
  match cutLast? separator text with
  | some (_, after) => after
  | none => text

/-! ### Ends -/

/-- The rest of a list after the characters `start`. -/
def stripStartChars? : List Char → List Char → Option (List Char)
  | [], text => some text
  | _ :: _, [] => none
  | s :: start, c :: text => if s = c then stripStartChars? start text else none

/-- The rest of a text after `start`. -/
def stripStart? (start text : String) : Option String :=
  (stripStartChars? start.toList text.toList).map String.ofList

/-- What precedes `ending` in a text. -/
def stripEnd? (ending text : String) : Option String :=
  (stripStartChars? ending.toList.reverse text.toList.reverse).map
    fun rest => String.ofList rest.reverse

/-- Whether a text begins with `start`. -/
def startsWith (start text : String) : Bool :=
  (stripStart? start text).isSome

/-- A list without the characters of a class at its end. -/
def dropEndWhile (p : Char → Bool) (chars : List Char) : List Char :=
  (chars.reverse.dropWhile p).reverse

/-- A text without the occurrences of `c` at its start. -/
def trimStart (c : Char) (text : String) : String :=
  String.ofList (text.toList.dropWhile (· == c))

/-- A text without the occurrences of `c` at its end. -/
def trimEnd (c : Char) (text : String) : String :=
  String.ofList (dropEndWhile (· == c) text.toList)

/-- A text without the occurrences of `c` at either end. -/
def trimBoth (c : Char) (text : String) : String :=
  trimEnd c (trimStart c text)

/-! ### Replacement -/

/-- Replaces `pattern` from the left; `skip` counts the characters that are left of an
occurrence already replaced. -/
def replaceFrom (pattern replacement : List Char) : Nat → List Char → List Char
  | _, [] => []
  | skip + 1, _ :: rest => replaceFrom pattern replacement skip rest
  | 0, c :: rest =>
    if pattern ≠ [] ∧ pattern.isPrefixOf (c :: rest) then
      replacement ++ replaceFrom pattern replacement (pattern.length - 1) rest
    else c :: replaceFrom pattern replacement 0 rest

/-- A text with every occurrence of `pattern` replaced, from the left. -/
def replace (pattern replacement text : String) : String :=
  String.ofList (replaceFrom pattern.toList replacement.toList 0 text.toList)

/-! ### White space -/

/-- The Unicode property `White_Space`. -/
def isBlank (c : Char) : Bool :=
  (0x9 ≤ c.toNat && c.toNat ≤ 0xD) || c.toNat == 0x20 || c.toNat == 0x85 || c.toNat == 0xA0
    || c.toNat == 0x1680 || (0x2000 ≤ c.toNat && c.toNat ≤ 0x200A) || c.toNat == 0x2028
    || c.toNat == 0x2029 || c.toNat == 0x202F || c.toNat == 0x205F || c.toNat == 0x3000

/-- A list without white space at either end. -/
def trimChars (chars : List Char) : List Char :=
  dropEndWhile isBlank (chars.dropWhile isBlank)

/-- A text without white space at either end. -/
def trim (text : String) : String :=
  String.ofList (trimChars text.toList)

end Text

end TableCompiler
