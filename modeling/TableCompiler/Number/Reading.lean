import TableCompiler.Number
import TableCompiler.Text

/-!
# Reading a number

A number may be given by a decimal text with an optional fraction and exponent, or by name.

* `digitsValue` — the value of a list of decimal digits;
* `takeDigits` — the leading digits of a list and the rest;
* `Number.ofText?` — the number nearest to a decimal text, or a named one.
-/

namespace TableCompiler

namespace Number

/-- The value of a list of decimal digits. -/
def digitsValue (digits : List Char) : Nat :=
  digits.foldl (fun n c => 10 * n + (c.toNat - '0'.toNat)) 0

/-- The leading decimal digits of a list, and the rest. -/
def takeDigits (chars : List Char) : List Char × List Char :=
  (chars.takeWhile Char.isDigit, chars.dropWhile Char.isDigit)

/-- The sign of a list of characters, and the rest. -/
def takeSign : List Char → Bool × List Char
  | '-' :: rest => (true, rest)
  | '+' :: rest => (false, rest)
  | rest => (false, rest)

/-- The exponent at the end of a decimal, or zero when nothing is left. -/
def exponent? : List Char → Option Int
  | [] => some 0
  | c :: rest =>
    if c = 'e' ∨ c = 'E' then
      let (negative, digits) := takeSign rest
      if digits ≠ [] ∧ digits.all Char.isDigit then
        let n : Int := digitsValue digits
        some (if negative then -n else n)
      else none
    else none

/-- An unsigned decimal: digits, a point and an exponent, with at least one digit. -/
def decimal? (negative : Bool) (chars : List Char) : Option Number :=
  let (whole, rest) := takeDigits chars
  let (fraction, rest) := match rest with
    | '.' :: rest => takeDigits rest
    | rest => ([], rest)
  if whole = [] ∧ fraction = [] then none
  else (exponent? rest).map fun e =>
    ofDecimal negative (digitsValue (whole ++ fraction)) (e - fraction.length)

/-- The number nearest to a decimal text; `inf`, `infinity` and `nan` count in any case. -/
def ofText? (text : String) : Option Number :=
  let (negative, chars) := takeSign text.toList
  let name := String.ofList (chars.map Char.toLower)
  if name = "nan" then some .nan
  else if name = "inf" ∨ name = "infinity" then some (.infinite negative)
  else decimal? negative chars

end Number

end TableCompiler
