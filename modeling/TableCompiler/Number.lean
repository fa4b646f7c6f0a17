/-!
# Double precision numbers

The numbers in bindings and in data points have 53 significant bits.  Every finite one is a
natural number of *units* of `2 ^ -1074` with a sign, so comparing, rounding and printing need
only exact arithmetic on natural numbers.

* `Number` — not a number, the infinities, and the finite numbers;
* `Number.same`, `Number.precedes` — comparison as the standard for such numbers has it: one
  that is not a number equals nothing, and the two zeros are equal;
* `step` — the distance of the numbers of a magnitude;
* `Number.round` — the nearest number to a fraction, an even significand winning a tie;
* `Number.ofNat`, `Number.ofDecimal` — the nearest number to a natural number or a decimal;
* `Number.scaleUp`, `Number.scaleDown` — rounded product and quotient of two magnitudes.
-/

namespace TableCompiler

/-- A number of double precision. -/
inductive Number where
  | nan
  | infinite (negative : Bool)
  /-- The number `± units / 2 ^ 1074`. -/
  | finite (negative : Bool) (units : Nat)
deriving DecidableEq

namespace Number

/-- How many units make one. -/
def one : Nat := Nat.pow 2 1074

/-- The units from which on a magnitude is infinite. -/
def ceiling : Nat := Nat.pow 2 1024 * one

/-! ### Comparison -/

/-- Equality of numbers. -/
def same : Number → Number → Bool
  | .finite n a, .finite m b => a == b && (n == m || a == 0)
  | .infinite n, .infinite m => n == m
  | _, _ => false

instance : BEq Number := ⟨same⟩

/-- The signed units of a finite number, and a bound beyond them for an infinite one. -/
def rank? : Number → Option Int
  | .nan => none
  | .infinite negative => some (if negative then -(ceiling : Int) else ceiling)
  | .finite negative units => some (if negative then -(units : Int) else units)

/-- Whether the first number is less than the second. -/
def precedes (x y : Number) : Bool :=
  match x.rank?, y.rank? with
  | some a, some b => decide (a < b)
  | _, _ => false

/-- Whether the first number is less than or equal to the second. -/
def atMost (x y : Number) : Bool :=
  match x.rank?, y.rank? with
  | some a, some b => decide (a ≤ b)
  | _, _ => false

/-! ### Rounding -/

/-- The distance between neighbouring numbers at a magnitude of `units`. -/
def step (units : Nat) : Nat :=
  if units < Nat.pow 2 53 then 1 else Nat.pow 2 (Nat.log2 units - 52)

/-- The quotient of two natural numbers rounded to the nearest, an even one winning a tie. -/
def roundQuotient (a b : Nat) : Nat :=
  let q := a / b
  let r := a % b
  if 2 * r < b then q
  else if b < 2 * r then q + 1
  else if q % 2 = 0 then q else q + 1

/-- The number of the given sign nearest to `a / b` units. -/
def round (negative : Bool) (a b : Nat) : Number :=
  let gap := step (a / b)
  let units := roundQuotient a (b * gap) * gap
  if units < ceiling then .finite negative units else .infinite negative

/-- The number nearest to a natural number. -/
def ofNat (n : Nat) : Number :=
  round false (n * one) 1

/-- The number nearest to an integer. -/
def ofInt (n : Int) : Number :=
  round (n < 0) (n.natAbs * one) 1

/-- How many decimal digits a natural number has. -/
def digitCount (n : Nat) : Nat :=
  (Nat.toDigits 10 n).length

/-- The number nearest to `digits * 10 ^ exponent`.  Decimals far outside the range are
answered at once. -/
def ofDecimal (negative : Bool) (digits : Nat) (exponent : Int) : Number :=
  if digits = 0 then .finite negative 0
  else if exponent + digitCount digits > 310 then .infinite negative
  else if exponent + digitCount digits < -330 then .finite negative 0
  else match exponent with
    | .ofNat e => round negative (digits * Nat.pow 10 e * one) 1
    | .negSucc e => round negative (digits * one) (Nat.pow 10 (e + 1))

/-- The rounded product of two finite magnitudes. -/
def scaleUp : Number → Number → Number
  | .finite n a, .finite _ b => round n (a * b) one
  | x, _ => x

/-- The rounded quotient of two finite magnitudes, the second of which is not zero. -/
def scaleDown : Number → Number → Number
  | .finite n a, .finite _ b => round n (a * one) b
  | x, _ => x

def negate : Number → Number
  | .nan => .nan
  | .infinite negative => .infinite (!negative)
  | .finite negative units => .finite (!negative) units

def isFinite : Number → Bool
  | .finite _ _ => true
  | _ => false

end Number

end TableCompiler
