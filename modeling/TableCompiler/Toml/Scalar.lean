import TableCompiler.Number.Reading
import TableCompiler.Toml

/-!
# TOML scalars

Values that are written without quotes: truth values, integers, floats, dates and times.

* `Toml.underscored?` — digits with underscores between them;
* `Toml.integer?`, `Toml.float?`, `Toml.isMoment` — the grammars;
* `Toml.scalar?` — the value of a word.
-/

namespace TableCompiler

namespace Toml

/-! ### Digits -/

/-- Digits of a class with single underscores between them; the underscores are dropped. -/
def underscored? (isDigit : Char → Bool) : List Char → Option (List Char)
  | [] => none
  | [c] => if isDigit c then some [c] else none
  | c :: '_' :: rest => if isDigit c then (underscored? isDigit rest).map (c :: ·) else none
  | c :: rest => if isDigit c then (underscored? isDigit rest).map (c :: ·) else none

/-- The value of a digit of any base up to sixteen. -/
def digitValue (c : Char) : Nat :=
  if c.isDigit then c.toNat - '0'.toNat
  else if 'a' ≤ c ∧ c ≤ 'f' then c.toNat - 'a'.toNat + 10
  else if 'A' ≤ c ∧ c ≤ 'F' then c.toNat - 'A'.toNat + 10
  else 16

/-- The value of digits in a base. -/
def natural? (base : Nat) (chars : List Char) : Option Nat :=
  (underscored? (digitValue · < base) chars).map fun digits =>
    digits.foldl (fun n c => base * n + digitValue c) 0

/-! ### Numbers -/

/-- Decimal digits without a redundant leading zero. -/
def plainDigits? (chars : List Char) : Option (List Char) :=
  if chars.head? = some '0' ∧ 1 < chars.length then none else underscored? Char.isDigit chars

/-- An integer, signed in base ten, or unsigned with the mark of another base. -/
def unboundedInteger? : List Char → Option Int
  | '0' :: 'x' :: rest => (natural? 16 rest).map Int.ofNat
  | '0' :: 'o' :: rest => (natural? 8 rest).map Int.ofNat
  | '0' :: 'b' :: rest => (natural? 2 rest).map Int.ofNat
  | chars =>
    let (negative, rest) := Number.takeSign chars
    (plainDigits? rest).map fun digits =>
      let n : Int := Number.digitsValue digits
      if negative then -n else n

/-- An integer that fits 128 bits, signed or not. -/
def integer? (chars : List Char) : Option Int :=
  (unboundedInteger? chars).filter fun n => -Int.pow 2 127 ≤ n ∧ n < Int.pow 2 128

/-- The fraction of a float: a point and digits, or nothing. -/
def fraction? : List Char → Option (List Char)
  | [] => some []
  | '.' :: rest => (underscored? Char.isDigit rest).map ('.' :: ·)
  | _ => none

/-- The exponent of a float without its mark. -/
def exponent? (chars : List Char) : Option (List Char) :=
  let (negative, rest) := Number.takeSign chars
  (underscored? Char.isDigit rest).map fun digits =>
    if negative then 'e' :: '-' :: digits else 'e' :: digits

/-- The sides of the mark of an exponent. -/
def splitExponent (chars : List Char) : List Char × Option (List Char) :=
  let isMark (c : Char) : Bool := c == 'e' || c == 'E'
  match chars.dropWhile (!isMark ·) with
  | [] => (chars, none)
  | _ :: rest => (chars.takeWhile (!isMark ·), some rest)

/-- A finite float in decimal notation, with a fraction, an exponent or both. -/
def decimalFloat? (chars : List Char) : Option Number := do
  let (negative, rest) := Number.takeSign chars
  let (mantissa, exponent) := splitExponent rest
  let whole ← plainDigits? (mantissa.takeWhile (· != '.'))
  let fraction ← fraction? (mantissa.dropWhile (· != '.'))
  let exponent ← match exponent with
    | none => some []
    | some exponent => exponent? exponent
  if fraction.isEmpty && exponent.isEmpty then none
  else (Number.decimal? negative (whole ++ fraction ++ exponent)).filter (·.isFinite)

/-- A float, which may be infinite or no number by name. -/
def float? (chars : List Char) : Option Number :=
  let (negative, rest) := Number.takeSign chars
  match String.ofList rest with
  | "inf" => some (.infinite negative)
  | "nan" => some .nan
  | _ => decimalFloat? chars

/-! ### Dates and times -/

/-- The value of exactly so many digits. -/
def fixedDigits? (count : Nat) (chars : List Char) : Option Nat :=
  if chars.length = count ∧ chars.all Char.isDigit then some (Number.digitsValue chars) else none

/-- How many days a month has. -/
def daysInMonth (year month : Nat) : Nat :=
  if month = 2 then
    if year % 4 = 0 ∧ (year % 100 ≠ 0 ∨ year % 400 = 0) then 29 else 28
  else if month = 4 ∨ month = 6 ∨ month = 9 ∨ month = 11 then 30
  else 31

/-- Whether a text is a date of the calendar. -/
def isDate (chars : List Char) : Bool :=
  match (Text.splitChars '-' chars) with
  | [year, month, day] =>
    match fixedDigits? 4 year, fixedDigits? 2 month, fixedDigits? 2 day with
    | some y, some m, some d => 1 ≤ m && m ≤ 12 && 1 ≤ d && d ≤ daysInMonth y m
    | _, _, _ => false
  | _ => false

/-- Whether a text is a number of exactly two digits below or at a bound. -/
def isPart (bound : Nat) (chars : List Char) : Bool :=
  match fixedDigits? 2 chars with
  | some n => n ≤ bound
  | none => false

/-- Whether a text is the seconds of a time, with an optional fraction. -/
def isSeconds (chars : List Char) : Bool :=
  match Text.splitChars '.' chars with
  | [seconds] => isPart 60 seconds
  | [seconds, fraction] => isPart 60 seconds && fraction != [] && fraction.all Char.isDigit
  | _ => false

/-- Whether a text is a time of day; the seconds may be missing. -/
def isTime (chars : List Char) : Bool :=
  match Text.splitChars ':' chars with
  | [hour, minute] => isPart 23 hour && isPart 59 minute
  | [hour, minute, seconds] => isPart 23 hour && isPart 59 minute && isSeconds seconds
  | _ => false

/-- Whether a text is the distance of a time zone. -/
def isOffset (chars : List Char) : Bool :=
  match Text.splitChars ':' chars with
  | [hour, minute] => isPart 23 hour && isPart 59 minute
  | _ => false

/-- Whether a text is a time of day with an optional time zone. -/
def isZonedTime (chars : List Char) : Bool :=
  let isSign (c : Char) : Bool := c == '+' || c == '-' || c == 'Z' || c == 'z'
  match chars.dropWhile (!isSign ·) with
  | [] => isTime chars
  | sign :: offset =>
    let time := isTime (chars.takeWhile (!isSign ·))
    if sign = 'Z' ∨ sign = 'z' then time && offset.isEmpty else time && isOffset offset

/-- Whether a text is a date, a time of day, or both with an optional time zone. -/
def isMoment (chars : List Char) : Bool :=
  isDate chars || isTime chars ||
    match chars.drop 10 with
    | delimiter :: time =>
      (delimiter == 'T' || delimiter == 't' || delimiter == ' ')
        && isDate (chars.take 10) && isZonedTime time
    | [] => false

/-! ### Words -/

/-- The value of a word without quotes. -/
def scalar? (chars : List Char) : Option Toml :=
  if String.ofList chars = "true" then some (.boolean true)
  else if String.ofList chars = "false" then some (.boolean false)
  else match integer? chars with
    | some n => some (.integer n)
    | none =>
      match float? chars with
      | some x => some (.float x)
      | none => if isMoment chars then some .moment else none

end Toml

end TableCompiler
