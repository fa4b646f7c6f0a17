import Mathlib.Algebra.Order.Field.Rat
import Mathlib.Tactic.Linarith
import Mathlib.Tactic.NormNum
import TableCompiler.Expression

/-!
# The meaning of expression trees

A tree is evaluated under a valuation, which gives every path, every formatted binding and every
embedded body a value of its own.  What counts as true is left open but for the truth values, and
so is what an ordering operator yields on values that are not numbers.

* `Datum` — the values: truth values, texts and exact numbers;
* `Expression.isExact` — the number constants of a tree are finite, so each is an exact number;
* `Valuation`, `Valuation.eval`, `Valuation.holds` — evaluation;
* `Valuation.eval_eq_of_beq` — equal trees have equal values;
* `Valuation.exists_eval_eq_bool` — a tree that counts as Boolean has a truth value.
-/

namespace TableCompiler

/-! ### Exact numbers -/

namespace Number

/-- The units of a finite number with its sign. -/
def signedUnits : Number → ℤ
  | .finite negative units => if negative then -(units : ℤ) else units
  | _ => 0

/-- The rational number that a finite number is. -/
def toRat (x : Number) : ℚ :=
  (x.signedUnits : ℚ) / (one : ℚ)

theorem one_cast_pos : (0 : ℚ) < (one : ℚ) := by
  rw [Nat.cast_pos]
  unfold one
  apply Nat.two_pow_pos

theorem toRat_inj {x y : Number} : x.toRat = y.toRat ↔ x.signedUnits = y.signedUnits := by
  rw [toRat, toRat, div_left_inj' (ne_of_gt one_cast_pos)]
  exact Int.cast_inj

theorem toRat_lt {x y : Number} : x.toRat < y.toRat ↔ x.signedUnits < y.signedUnits := by
  rw [toRat, toRat, div_lt_div_iff_of_pos_right one_cast_pos]
  exact Int.cast_lt

theorem toRat_le {x y : Number} : x.toRat ≤ y.toRat ↔ x.signedUnits ≤ y.signedUnits := by
  rw [toRat, toRat, div_le_div_iff_of_pos_right one_cast_pos]
  exact Int.cast_le

/-- The two zeros are one exact number, so equality of finite numbers is that of their values. -/
theorem beq_iff_toRat {x y : Number} (hx : x.isFinite = true) (hy : y.isFinite = true) :
    (x == y) = true ↔ x.toRat = y.toRat := by
  rw [toRat_inj]
  cases x with
  | finite n a =>
    cases y with
    | finite m b =>
      show (a == b && (n == m || a == 0)) = true ↔ _
      cases n <;> cases m <;> simp [signedUnits] <;> omega
    | nan => simp [isFinite] at hy
    | infinite m => simp [isFinite] at hy
  | nan => simp [isFinite] at hx
  | infinite n => simp [isFinite] at hx

/-- Numbers that count as equal have one value, whether they are finite or not. -/
theorem toRat_eq_of_beq {x y : Number} (h : (x == y) = true) : x.toRat = y.toRat := by
  cases x <;> cases y
  case finite.finite => exact (beq_iff_toRat rfl rfl).1 h
  case infinite.infinite => exact toRat_inj.2 rfl
  all_goals cases h

theorem rank?_of_finite {x : Number} (hx : x.isFinite = true) : x.rank? = some x.signedUnits := by
  cases x with
  | finite n a => rfl
  | nan => simp [isFinite] at hx
  | infinite n => simp [isFinite] at hx

theorem precedes_iff_toRat {x y : Number} (hx : x.isFinite = true) (hy : y.isFinite = true) :
    x.precedes y = true ↔ x.toRat < y.toRat := by
  rw [toRat_lt]
  simp [precedes, rank?_of_finite hx, rank?_of_finite hy]

theorem atMost_iff_toRat {x y : Number} (hx : x.isFinite = true) (hy : y.isFinite = true) :
    x.atMost y = true ↔ x.toRat ≤ y.toRat := by
  rw [toRat_le]
  simp [atMost, rank?_of_finite hx, rank?_of_finite hy]

end Number

/-! ### Values -/

/-- A value that a tree can have. -/
inductive Datum where
  | bool (b : Bool)
  | text (s : String)
  | number (x : ℚ)
deriving DecidableEq

namespace Value

/-- Whether a constant is a truth value, a text or an exact number. -/
def isExact : Value → Bool
  | .number x => x.isFinite
  | _ => true

/-- The value of a constant. -/
def datum : Value → Datum
  | .bool b => .bool b
  | .text s => .text s
  | .number x => .number x.toRat

theorem beq_iff_datum {a b : Value} (ha : a.isExact = true) (hb : b.isExact = true) :
    (a == b) = true ↔ a.datum = b.datum := by
  cases a <;> cases b <;> simp only [datum, Datum.bool.injEq, Datum.text.injEq,
    Datum.number.injEq, reduceCtorEq, iff_false]
  case bool.bool p q => exact @beq_iff_eq Bool _ _ p q
  case text.text p q => exact @beq_iff_eq String _ _ p q
  case number.number x y => exact Number.beq_iff_toRat ha hb
  all_goals exact Bool.false_ne_true

/-- Constants that count as equal have one value. -/
theorem datum_eq_of_beq {a b : Value} (h : (a == b) = true) : a.datum = b.datum := by
  cases a <;> cases b
  case bool.bool p q => exact congrArg Datum.bool (@eq_of_beq Bool _ _ p q h)
  case text.text p q => exact congrArg Datum.text (@eq_of_beq String _ _ p q h)
  case number.number x y => exact congrArg Datum.number (Number.toRat_eq_of_beq h)
  all_goals cases h

end Value

namespace Expression

mutual

/-- Whether every constant of a tree is a truth value, a text or an exact number. -/
def isExact : Expression → Bool
  | .constant value => value.isExact
  | .negation e => isExact e
  | .conjunction es | .disjunction es => areExact es
  | .comparison _ a b => isExact a && isExact b
  | .choice c t f => isExact c && isExact t && isExact f
  | .formatted parts _ => areExact parts
  | .path _ _ | .embedded _ => true

/-- Whether every constant of a list of trees is a truth value, a text or an exact number. -/
def areExact : List Expression → Bool
  | [] => true
  | e :: es => isExact e && areExact es

end

end Expression

/-! ### Evaluation -/

/-- What the leaves of trees stand for. -/
structure Valuation where
  path : Option String → String → Datum
  formatted : List Expression → String → Datum
  embedded : String → Datum
  /-- Equal formatted bindings have one value. -/
  formatted_congr : ∀ {ps qs : List Expression} (f : String),
    Expression.beqList ps qs = true → formatted ps f = formatted qs f
  /-- Which values count as true. -/
  truthy : Datum → Bool
  truthy_bool : ∀ b, truthy (.bool b) = b
  /-- What an ordering operator yields on values that are not both numbers. -/
  unordered : Comparison → Datum → Datum → Bool

namespace Valuation

variable (v : Valuation)

/-- Whether a comparison of two values holds. -/
def compares (op : Comparison) (a b : Datum) : Bool :=
  match op, a, b with
  | .equal, a, b => decide (a = b)
  | .notEqual, a, b => decide (a ≠ b)
  | .greater, .number x, .number y => decide (y < x)
  | .greaterOrEqual, .number x, .number y => decide (y ≤ x)
  | .less, .number x, .number y => decide (x < y)
  | .lessOrEqual, .number x, .number y => decide (x ≤ y)
  | op, a, b => v.unordered op a b

mutual

/-- The value of a tree. -/
def eval : Expression → Datum
  | .constant value => value.datum
  | .path model path => v.path model path
  | .negation e => .bool (!v.truthy (eval e))
  | .conjunction es => .bool (evalAll es)
  | .disjunction es => .bool (evalAny es)
  | .comparison op a b => .bool (v.compares op (eval a) (eval b))
  | .choice c t f => if v.truthy (eval c) then eval t else eval f
  | .formatted parts formatter => v.formatted parts formatter
  | .embedded body => v.embedded body

/-- Whether every tree of a list counts as true. -/
def evalAll : List Expression → Bool
  | [] => true
  | e :: es => v.truthy (eval e) && evalAll es

/-- Whether some tree of a list counts as true. -/
def evalAny : List Expression → Bool
  | [] => false
  | e :: es => v.truthy (eval e) || evalAny es

end

/-- Whether a tree counts as true. -/
def holds (e : Expression) : Bool := v.truthy (v.eval e)

theorem evalAll_eq (es : List Expression) : v.evalAll es = es.all v.holds := by
  induction es with
  | nil => rfl
  | cons e es ih => rw [evalAll, ih]; rfl

theorem evalAny_eq (es : List Expression) : v.evalAny es = es.any v.holds := by
  induction es with
  | nil => rfl
  | cons e es ih => rw [evalAny, ih]; rfl

@[simp] theorem holds_ofBool (b : Bool) : v.holds (.ofBool b) = b := v.truthy_bool b

@[simp] theorem holds_negation (e : Expression) : v.holds (.negation e) = !v.holds e :=
  v.truthy_bool _

@[simp] theorem holds_conjunction (es : List Expression) :
    v.holds (.conjunction es) = es.all v.holds := by
  rw [← evalAll_eq]
  exact v.truthy_bool _

@[simp] theorem holds_disjunction (es : List Expression) :
    v.holds (.disjunction es) = es.any v.holds := by
  rw [← evalAny_eq]
  exact v.truthy_bool _

@[simp] theorem holds_comparison (op : Comparison) (a b : Expression) :
    v.holds (.comparison op a b) = v.compares op (v.eval a) (v.eval b) :=
  v.truthy_bool _

theorem eval_choice (c t f : Expression) :
    v.eval (.choice c t f) = if v.holds c then v.eval t else v.eval f := by
  rw [eval]
  rfl

/-! ### Equal trees -/

mutual

/-- **Equality is sound.**  Trees that the constructors take for equal have one value. -/
theorem eval_eq_of_beq : ∀ {a b : Expression}, a.beq b = true → v.eval a = v.eval b := by
  intro a b h
  cases a <;> cases b <;> simp only [Expression.beq, Bool.and_eq_true, Bool.false_eq_true] at h
  case constant.constant x y => exact Value.datum_eq_of_beq h
  case path.path m p n q => rw [eq_of_beq h.1, eq_of_beq h.2]
  case negation.negation a b => rw [eval, eval, eval_eq_of_beq h]
  case conjunction.conjunction as bs => rw [eval, eval, (evalList_eq_of_beq h).1]
  case disjunction.disjunction as bs => rw [eval, eval, (evalList_eq_of_beq h).2]
  case comparison.comparison o a b u c d =>
    rw [eval, eval, eq_of_beq h.1.1, eval_eq_of_beq h.1.2, eval_eq_of_beq h.2]
  case choice.choice a b c d e f =>
    rw [eval, eval, eval_eq_of_beq h.1.1, eval_eq_of_beq h.1.2, eval_eq_of_beq h.2]
  case formatted.formatted as f bs g => rw [eval, eval, eq_of_beq h.2, v.formatted_congr g h.1]
  case embedded.embedded s t => rw [eq_of_beq h]

theorem evalList_eq_of_beq : ∀ {as bs : List Expression}, Expression.beqList as bs = true →
    v.evalAll as = v.evalAll bs ∧ v.evalAny as = v.evalAny bs := by
  intro as bs h
  cases as <;> cases bs <;> simp only [Expression.beqList, Bool.and_eq_true,
    Bool.false_eq_true] at h
  case nil.nil => exact ⟨rfl, rfl⟩
  case cons.cons a as b bs =>
    have hhead := eval_eq_of_beq h.1
    have htail := evalList_eq_of_beq h.2
    exact ⟨by rw [evalAll, evalAll, hhead, htail.1], by rw [evalAny, evalAny, hhead, htail.2]⟩

end

/-! ### Boolean trees -/

/-- A tree that counts as Boolean has a truth value whatever its leaves stand for. -/
theorem exists_eval_eq_bool {e : Expression} (h : e.isBoolean = true) :
    ∃ b, v.eval e = .bool b := by
  fun_induction Expression.isBoolean e with
  | case1 b => exact ⟨b, rfl⟩
  | case2 e => exact ⟨_, rfl⟩
  | case3 es => exact ⟨_, rfl⟩
  | case4 es => exact ⟨_, rfl⟩
  | case5 op a b => exact ⟨_, rfl⟩
  | case6 c t f iht ihf =>
    rw [Bool.and_eq_true] at h
    rw [eval_choice]
    split
    · exact iht h.1
    · exact ihf h.2
  | case7 e => exact absurd h Bool.false_ne_true

/-- A Boolean tree counts as true just when its value is the truth value true. -/
theorem eval_eq_bool_iff {e : Expression} (h : e.isBoolean = true) (b : Bool) :
    v.eval e = .bool b ↔ v.holds e = b := by
  obtain ⟨c, hc⟩ := v.exists_eval_eq_bool h
  rw [holds, hc, v.truthy_bool, Datum.bool.injEq]

end Valuation

end TableCompiler
