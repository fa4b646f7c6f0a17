import TableCompiler.Number
import TableCompiler.Text

/-!
# The shortest text of a number

A number is written with the fewest decimal digits that still tell it from its neighbours, and
never with an exponent.

* `readsBack` — whether a decimal lies nearer to a number than to the numbers beside it;
* `shortest` — the point of the coarsest decimal grid that reads back, the nearer one of two and
  the greater one of two that are equally near;
* `positional` — the digits of a decimal with its point;
* `Number.text` — the text of a number, with `NaN`, `inf` and `-inf` for the others.
-/

namespace TableCompiler

namespace Number

/-- A decimal `digits * 10 ^ exponent`. -/
structure Decimal where
  digits : Nat
  exponent : Int
deriving DecidableEq

namespace Decimal

/-- A fraction of quarter units that equals a decimal: numerator and denominator. -/
def quarters (d : Decimal) : Nat × Nat :=
  match d.exponent with
  | .ofNat e => (d.digits * Nat.pow 10 e * one * 4, 1)
  | .negSucc e => (d.digits * one * 4, Nat.pow 10 (e + 1))

end Decimal

/-- The distance to the next smaller number. -/
def stepBelow (units : Nat) : Nat :=
  if units = Nat.pow 2 52 * step units then max 1 (step units / 2) else step units

/-- Whether a decimal rounds to the magnitude of `units`: it lies between the midpoints to both
neighbours, and on one of them only if the significand is even. -/
def readsBack (units : Nat) (d : Decimal) : Bool :=
  let (a, b) := d.quarters
  let low := (4 * units - 2 * stepBelow units) * b
  let high := (4 * units + 2 * step units) * b
  if units / step units % 2 = 0 then low ≤ a && a ≤ high else low < a && a < high

/-- How far a decimal lies from a magnitude, in quarter units over a common denominator. -/
def distance (units : Nat) (d : Decimal) : Nat :=
  let (a, b) := d.quarters
  (a - 4 * units * b) + (4 * units * b - a)

/-- The largest multiple of `10 ^ exponent` that is at most the magnitude. -/
def gridFloor (units : Nat) (exponent : Int) : Nat :=
  match exponent with
  | .ofNat e => units / (Nat.pow 10 e * one)
  | .negSucc e => units * Nat.pow 10 (e + 1) / one

/-- The point of a decimal grid that reads back as a magnitude: the nearer one of two, and the
greater one if both are equally near. -/
def gridPoint? (units : Nat) (exponent : Int) : Option Decimal :=
  let below : Decimal := ⟨gridFloor units exponent, exponent⟩
  let above : Decimal := ⟨gridFloor units exponent + 1, exponent⟩
  match readsBack units below, readsBack units above with
  | true, true => some (if distance units above ≤ distance units below then above else below)
  | true, false => some below
  | false, true => some above
  | false, false => none

/-- The decimal with the fewest digits that reads back as a magnitude: the exponents are tried
from the coarsest grid that a number can need to the finest. -/
def shortest (units : Nat) : Decimal :=
  ((List.range 640).findSome? fun (i : Nat) => gridPoint? units (310 - i)).getD ⟨0, 0⟩

/-- The digits of a decimal with zeros up to its point, or with the point among them. -/
def positional (d : Decimal) : String :=
  let digits := Nat.toDigits 10 d.digits
  match d.exponent with
  | .ofNat e => String.ofList (if d.digits = 0 then ['0'] else digits ++ List.replicate e '0')
  | .negSucc e =>
    let places := e + 1
    let padded := List.replicate (places + 1 - digits.length) '0' ++ digits
    let whole := padded.take (padded.length - places)
    let fraction := Text.dropEndWhile (· == '0') (padded.drop (padded.length - places))
    String.ofList (if fraction = [] then whole else whole ++ '.' :: fraction)

def text : Number → String
  | .nan => "NaN"
  | .infinite negative => if negative then "-inf" else "inf"
  | .finite negative units =>
    let magnitude := if units = 0 then "0" else positional (shortest units)
    if negative then "-" ++ magnitude else magnitude

end Number

end TableCompiler
