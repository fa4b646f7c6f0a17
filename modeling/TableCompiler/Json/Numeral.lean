import TableCompiler.Json
import TableCompiler.Number.Reading

/-!
# JSON numerals

A numeral without fraction and exponent that fits 64 bits is a whole number.  Any other one is
read through the first digits that fit 64 bits: their number is multiplied by the power of ten
that remains, or divided by it, and each of the two operations rounds.

* `Numeral` — the parts of a numeral;
* `Numeral.ofChars?` — its grammar;
* `scale` — a significand times a power of ten, infinite when it leaves the range;
* `Json.ofNumeral?` — the value of a numeral.
-/

namespace TableCompiler

namespace Json

/-- The parts of a numeral: sign, digits before and after the point, and exponent. -/
structure Numeral where
  negative : Bool
  whole : List Char
  /-- The digits after the point, if there is one. -/
  fraction : Option (List Char)
  exponent : Option Int

/-- The exponent at the end of a numeral: `e`, a sign and at least one digit. -/
def exponentPart? : List Char → Option (Option Int)
  | [] => some none
  | rest => (Number.exponent? rest).map some

/-- A numeral has no redundant leading zero and digits on both sides of a point. -/
def Numeral.ofChars? (chars : List Char) : Option Numeral :=
  let (negative, chars) := match chars with
    | '-' :: rest => (true, rest)
    | rest => (false, rest)
  let (whole, rest) := Number.takeDigits chars
  if whole = [] ∨ (whole.head? = some '0' ∧ 1 < whole.length) then none
  else match rest with
    | '.' :: rest =>
      let (fraction, rest) := Number.takeDigits rest
      if fraction = [] then none
      else (exponentPart? rest).map fun e => ⟨negative, whole, some fraction, e⟩
    | rest => (exponentPart? rest).map fun e => ⟨negative, whole, none, e⟩

def largestSignificand : Nat := Nat.pow 2 64 - 1

def digitValue (c : Char) : Nat := c.toNat - '0'.toNat

/-- Takes digits into a significand while it fits 64 bits; returns it with the digits left. -/
def takeSignificand (significand : Nat) : List Char → Nat × List Char
  | [] => (significand, [])
  | c :: rest =>
    let next := significand * 10 + digitValue c
    if largestSignificand < next then (significand, c :: rest) else takeSignificand next rest

/-- The power of ten of an exponent up to 308. -/
def power (e : Nat) : Number :=
  Number.ofNat (Nat.pow 10 e)

/-- `significand * 10 ^ exponent`, rounded after each multiplication or division. -/
def scale (significand : Nat) (exponent : Int) : Number :=
  let x := Number.ofNat significand
  match exponent with
  | .ofNat e =>
    if e ≤ 308 then x.scaleUp (power e)
    else if significand = 0 then x else .infinite false
  | .negSucc e =>
    let e := e + 1
    if e ≤ 308 then x.scaleDown (power e)
    else if e ≤ 616 then (x.scaleDown (power 308)).scaleDown (power (e - 308))
    else .finite false 0

/-- The value of a numeral with a fraction, an exponent or too many digits. -/
def Numeral.real (n : Numeral) : Number :=
  let (significand, dropped) := takeSignificand 0 n.whole
  let fraction := n.fraction.getD []
  let (significand, rest) := takeSignificand significand fraction
  let exponent : Int := dropped.length - (fraction.length - rest.length : Nat)
  let magnitude := scale significand (exponent + n.exponent.getD 0)
  if n.negative then magnitude.negate else magnitude

/-- The double precision number of a numeral, if it is within the range. -/
def Numeral.realValue (n : Numeral) : Json :=
  if n.real.isFinite then .real n.real else .unreadable

/-- The value of a numeral; a minus sign before zero asks for a double precision number. -/
def Numeral.value (n : Numeral) : Json :=
  if n.fraction.isSome || n.exponent.isSome then n.realValue
  else
    let magnitude := Number.digitsValue n.whole
    if n.negative then
      if magnitude = 0 ∨ Nat.pow 2 63 < magnitude then n.realValue else .int (-magnitude)
    else if magnitude ≤ largestSignificand then .int magnitude
    else n.realValue

def ofNumeral? (chars : List Char) : Option Json :=
  (Numeral.ofChars? chars).map Numeral.value

end Json

end TableCompiler
