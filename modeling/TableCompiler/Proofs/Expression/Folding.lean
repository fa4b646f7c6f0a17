import TableCompiler.Proofs.Expression.Evaluation

/-!
# Folding keeps the meaning of trees

Every constructor that folds yields a tree of the same meaning as the plain node it stands for,
also on trees that were not folded themselves.

* `Valuation.holds_and`, `Valuation.holds_or` — flattening, dropping of constants and repetitions;
* `Valuation.holds_not` — the negation of an ordering is the inverse ordering, which is right where
  both operands are numbers (`Valuation.IsOrdered`);
* `Valuation.holds_compare`, `Valuation.holds_equal`, `Valuation.holds_notEqual`;
* `Valuation.eval_ifElse` — a choice has the value of the branch that its condition selects;
* `Valuation.folding_keeps_meaning` — all of them together.
-/

namespace TableCompiler

namespace Comparison

/-- Whether an operator orders values rather than tells them apart. -/
def isOrdering : Comparison → Bool
  | .equal | .notEqual => false
  | _ => true

end Comparison

namespace Expression

/-! ### Constants -/

theorem asBool?_eq_some {e : Expression} {b : Bool} : e.asBool? = some b ↔ e = .ofBool b := by
  constructor
  · intro h
    cases e with
    | constant value =>
      cases value with
      | bool c =>
        rw [asBool?, Option.some.injEq] at h
        rw [ofBool, h]
      | text s => simp [asBool?] at h
      | number x => simp [asBool?] at h
    | _ => simp [asBool?] at h
  · rintro rfl
    rfl

theorem isTrue_iff {e : Expression} : e.isTrue = true ↔ e = .ofBool true := by
  rw [isTrue, beq_iff_eq, asBool?_eq_some]

theorem isFalse_iff {e : Expression} : e.isFalse = true ↔ e = .ofBool false := by
  rw [isFalse, beq_iff_eq, asBool?_eq_some]

/-! ### Operands -/

theorem mem_of_mem_distinct {e : Expression} {seen es : List Expression}
    (h : e ∈ distinct seen es) : e ∈ es := by
  induction es generalizing seen with
  | nil => exact h
  | cons d es ih =>
    rw [distinct] at h
    split at h
    · exact List.mem_cons_of_mem d (ih h)
    · rcases List.mem_cons.1 h with rfl | h
      · exact List.mem_cons_self
      · exact List.mem_cons_of_mem d (ih h)

end Expression

namespace Valuation

open Expression

variable (v : Valuation)

/-! ### Connectives -/

/-- Every tree keeps a representative of its value among those that are left. -/
theorem exists_mem_distinct (seen : List Expression) {es : List Expression} {e : Expression}
    (he : e ∈ es) :
    ∃ d ∈ seen ++ distinct seen es, v.eval d = v.eval e := by
  induction es generalizing seen with
  | nil => simp at he
  | cons first es ih =>
    rw [distinct]
    split
    · rename_i hany
      rcases List.mem_cons.1 he with rfl | he
      · obtain ⟨d, hd, heq⟩ := List.any_eq_true.1 hany
        exact ⟨d, List.mem_append_left _ hd, v.eval_eq_of_beq heq⟩
      · exact ih seen he
    · rcases List.mem_cons.1 he with rfl | he
      · exact ⟨e, by simp, rfl⟩
      · obtain ⟨d, hd, heq⟩ := ih (seen ++ [first]) he
        exact ⟨d, by simpa [List.append_assoc] using hd, heq⟩

theorem all_distinct (es : List Expression) : (distinct [] es).all v.holds = es.all v.holds := by
  rw [Bool.eq_iff_iff, List.all_eq_true, List.all_eq_true]
  constructor
  · intro hall e he
    obtain ⟨d, hd, heq⟩ := v.exists_mem_distinct [] he
    rw [holds, ← heq]
    exact hall d hd
  · intro hall e he
    exact hall e (mem_of_mem_distinct he)

theorem any_distinct (es : List Expression) : (distinct [] es).any v.holds = es.any v.holds := by
  rw [Bool.eq_iff_iff, List.any_eq_true, List.any_eq_true]
  constructor
  · rintro ⟨e, he, hv⟩
    exact ⟨e, mem_of_mem_distinct he, hv⟩
  · rintro ⟨e, he, hv⟩
    obtain ⟨d, hd, heq⟩ := v.exists_mem_distinct [] he
    refine ⟨d, hd, ?_⟩
    rw [holds, heq]
    exact hv

/-- Trees that are true whatever the leaves stand for do not matter to a conjunction. -/
theorem all_filter_isTrue (es : List Expression) :
    (es.filter fun e => !e.isTrue).all v.holds = es.all v.holds := by
  induction es with
  | nil => rfl
  | cons e es ih =>
    by_cases h : e.isTrue = true
    · have he : v.holds e = true := by rw [isTrue_iff.1 h, holds_ofBool]
      simp [h, he, ih]
    · simp [h, ih]

theorem any_filter_isFalse (es : List Expression) :
    (es.filter fun e => !e.isFalse).any v.holds = es.any v.holds := by
  induction es with
  | nil => rfl
  | cons e es ih =>
    by_cases h : e.isFalse = true
    · have he : v.holds e = false := by rw [isFalse_iff.1 h, holds_ofBool]
      simp [h, he, ih]
    · simp [h, ih]

theorem all_conjuncts (e : Expression) : e.conjuncts.all v.holds = v.holds e := by
  cases e with
  | conjunction es => rw [conjuncts, holds_conjunction]
  | _ => simp [conjuncts]

theorem any_disjuncts (e : Expression) : e.disjuncts.any v.holds = v.holds e := by
  cases e with
  | disjunction es => rw [disjuncts, holds_disjunction]
  | _ => simp [disjuncts]

theorem holds_assemble_conjunction (es : List Expression) :
    v.holds (assemble true .conjunction es) = es.all v.holds := by
  match es with
  | [] => rw [assemble, holds_ofBool]; rfl
  | [e] => simp [assemble]
  | d :: e :: es => exact v.holds_conjunction (d :: e :: es)

theorem holds_assemble_disjunction (es : List Expression) :
    v.holds (assemble false .disjunction es) = es.any v.holds := by
  match es with
  | [] => rw [assemble, holds_ofBool]; rfl
  | [e] => simp [assemble]
  | d :: e :: es => exact v.holds_disjunction (d :: e :: es)

/-- A conjunction is true just when all its operands are, whatever numbers there are in them. -/
theorem holds_and (es : List Expression) : v.holds (Expression.and es) = es.all v.holds := by
  have hflat : (es.flatMap conjuncts).all v.holds = es.all v.holds := by
    rw [List.all_flatMap]
    exact congrArg es.all (funext v.all_conjuncts)
  rw [Expression.and]
  split
  · rename_i hany
    obtain ⟨e, he, hfalse⟩ := List.any_eq_true.1 hany
    rw [holds_ofBool, ← hflat, eq_comm, List.all_eq_false]
    exact ⟨e, he, by rw [isFalse_iff.1 hfalse, holds_ofBool]; exact Bool.false_ne_true⟩
  · rw [holds_assemble_conjunction, all_distinct, all_filter_isTrue, hflat]

/-- A disjunction is true just when one of its operands is, whatever numbers there are in them. -/
theorem holds_or (es : List Expression) : v.holds (Expression.or es) = es.any v.holds := by
  have hflat : (es.flatMap disjuncts).any v.holds = es.any v.holds := by
    rw [List.any_flatMap]
    exact congrArg es.any (funext v.any_disjuncts)
  rw [Expression.or]
  split
  · rename_i hany
    obtain ⟨e, he, htrue⟩ := List.any_eq_true.1 hany
    rw [holds_ofBool, ← hflat, eq_comm, List.any_eq_true]
    exact ⟨e, he, by rw [isTrue_iff.1 htrue, holds_ofBool]⟩
  · rw [holds_assemble_disjunction, any_distinct, any_filter_isFalse, hflat]

/-! ### Negation -/

/-- A tree that is an ordering has numbers on both sides. -/
def OrdersNumbers (e : Expression) : Prop :=
  ∀ op a b, e = .comparison op a b → op.isOrdering = true →
    (∃ x, v.eval a = .number x) ∧ ∃ y, v.eval b = .number y

/-- The inverse operator negates a comparison, an ordering only that of numbers. -/
theorem compares_inverse {op : Comparison} {a b : Datum}
    (h : op.isOrdering = true → (∃ x, a = .number x) ∧ ∃ y, b = .number y) :
    v.compares op.inverse a b = !v.compares op a b := by
  cases op with
  | equal => simp [Comparison.inverse, compares]
  | notEqual => simp [Comparison.inverse, compares]
  | greater =>
    obtain ⟨⟨x, rfl⟩, y, rfl⟩ := h rfl
    simp [Comparison.inverse, compares, ← not_lt]
  | greaterOrEqual =>
    obtain ⟨⟨x, rfl⟩, y, rfl⟩ := h rfl
    simp [Comparison.inverse, compares, ← not_le]
  | less =>
    obtain ⟨⟨x, rfl⟩, y, rfl⟩ := h rfl
    simp [Comparison.inverse, compares, ← not_lt]
  | lessOrEqual =>
    obtain ⟨⟨x, rfl⟩, y, rfl⟩ := h rfl
    simp [Comparison.inverse, compares, ← not_le]

theorem holds_not {e : Expression} (h : v.OrdersNumbers e) :
    v.holds e.not = !v.holds e := by
  cases e with
  | constant value =>
    cases value with
    | bool b => exact (v.holds_ofBool (!b)).trans (congrArg _ (v.holds_ofBool b).symm)
    | text s => exact v.holds_negation _
    | number x => exact v.holds_negation _
  | negation e => rw [Expression.not, holds_negation, Bool.not_not]
  | comparison op a b =>
    rw [Expression.not, holds_comparison, holds_comparison]
    exact v.compares_inverse (h op a b rfl)
  | _ => exact v.holds_negation _

/-! ### Comparisons -/

/-- Comparing finite numbers is comparing the rational numbers that they are. -/
theorem compares_number {x y : Number} (hx : x.isFinite = true) (hy : y.isFinite = true)
    (op : Comparison) :
    v.compares op (.number x.toRat) (.number y.toRat) = op.holdsFor x y := by
  have heq : (x == y) = decide (x.toRat = y.toRat) := by
    rw [Bool.eq_iff_iff, Number.beq_iff_toRat hx hy, decide_eq_true_iff]
  cases op with
  | equal => simp [compares, Comparison.holdsFor, heq]
  | notEqual => simp [compares, Comparison.holdsFor, bne, heq]
  | greater => rw [Bool.eq_iff_iff]; simp [compares, Comparison.holdsFor,
      Number.precedes_iff_toRat hy hx]
  | greaterOrEqual => rw [Bool.eq_iff_iff]; simp [compares, Comparison.holdsFor,
      Number.atMost_iff_toRat hy hx]
  | less => rw [Bool.eq_iff_iff]; simp [compares, Comparison.holdsFor,
      Number.precedes_iff_toRat hx hy]
  | lessOrEqual => rw [Bool.eq_iff_iff]; simp [compares, Comparison.holdsFor,
      Number.atMost_iff_toRat hx hy]

/-- What is decided about two constants is what holds of their values. -/
theorem compares_of_decide? {op : Comparison} {a b : Value} {result : Bool}
    (ha : a.isExact = true) (hb : b.isExact = true) (h : op.decide? a b = some result) :
    v.compares op a.datum b.datum = result := by
  have heq : (a == b) = decide (a.datum = b.datum) := by
    rw [Bool.eq_iff_iff, Value.beq_iff_datum ha hb, decide_eq_true_iff]
  cases op with
  | equal =>
    rw [Comparison.decide?, Option.some.injEq, heq] at h
    exact h
  | notEqual =>
    rw [Comparison.decide?, Option.some.injEq, bne, heq] at h
    rw [← h, compares, decide_not]
  | _ =>
    -- an ordering is decided for numbers only
    cases a <;> cases b <;> simp only [Comparison.decide?, Option.some.injEq, reduceCtorEq] at h
    exact (v.compares_number ha hb _).trans h

/-- A comparison holds just when it holds of the values. -/
theorem holds_compare {a b : Expression} (ha : a.isExact = true) (hb : b.isExact = true)
    (op : Comparison) :
    v.holds (Expression.compare op a b) = v.compares op (v.eval a) (v.eval b) := by
  unfold Expression.compare
  split
  · split
    · rename_i result hresult
      rw [holds_ofBool, eval, eval, v.compares_of_decide? ha hb hresult]
    · exact v.holds_comparison op _ _
  · exact v.holds_comparison op _ _

/-- Comparing a Boolean tree with a truth value is the tree or its negation. -/
theorem holds_flagged {e : Expression} (hbool : e.isBoolean = true) (flag : Bool)
    (h : flag = false → v.OrdersNumbers e) :
    v.holds (if flag then e else e.not) = decide (v.eval e = v.eval (.ofBool flag)) := by
  have heval : v.eval (.ofBool flag) = .bool flag := rfl
  rw [Bool.eq_iff_iff, decide_eq_true_iff, heval, v.eval_eq_bool_iff hbool]
  cases flag with
  | true => rfl
  | false =>
    rw [if_neg Bool.false_ne_true, v.holds_not (h rfl)]
    simp

/-- Equality holds just when the values are equal. -/
theorem holds_equal {a b : Expression} (ha : a.isExact = true) (hb : b.isExact = true)
    (hleft : b.isFalse = true → v.OrdersNumbers a)
    (hright : a.isFalse = true → v.OrdersNumbers b) :
    v.holds (Expression.equal a b) = decide (v.eval a = v.eval b) := by
  have hplain : v.holds (Expression.compare .equal a b) = decide (v.eval a = v.eval b) :=
    v.holds_compare ha hb .equal
  unfold Expression.equal
  split
  case h_1 flag _ hflag =>
    obtain rfl := asBool?_eq_some.1 hflag
    split
    · rename_i hbool
      exact v.holds_flagged hbool flag fun h => hleft (h ▸ rfl)
    · exact hplain
  case h_2 flag hflag _ =>
    obtain rfl := asBool?_eq_some.1 hflag
    split
    · rename_i hbool
      rw [v.holds_flagged hbool flag fun h => hright (h ▸ rfl), decide_eq_decide]
      exact eq_comm
    · exact hplain
  case h_3 => exact hplain

/-- Negating an ordering keeps its operands. -/
theorem ordersNumbers_of_not {e : Expression} (h : v.OrdersNumbers e.not) :
    v.OrdersNumbers e := by
  rintro op a b rfl hop
  exact h op.inverse a b rfl (by cases op <;> simp_all [Comparison.isOrdering, Comparison.inverse])

/-- Inequality holds just when the values differ, provided that the equality it negates is no
ordering of anything but numbers. -/
theorem holds_notEqual {a b : Expression} (ha : a.isExact = true) (hb : b.isExact = true)
    (h : v.OrdersNumbers (Expression.equal a b)) :
    v.holds (Expression.notEqual a b) = decide (v.eval a ≠ v.eval b) := by
  have hleft : b.isFalse = true → v.OrdersNumbers a := by
    rintro hfalse op c d rfl hop
    rw [isFalse_iff.1 hfalse] at h
    have hnot : v.OrdersNumbers (Expression.not (.comparison op c d)) := h
    exact v.ordersNumbers_of_not hnot op c d rfl hop
  have hright : a.isFalse = true → v.OrdersNumbers b := by
    rintro hfalse op c d rfl hop
    rw [isFalse_iff.1 hfalse] at h
    have hnot : v.OrdersNumbers (Expression.not (.comparison op c d)) := h
    exact v.ordersNumbers_of_not hnot op c d rfl hop
  rw [Expression.notEqual, v.holds_not h, v.holds_equal ha hb hleft hright, decide_not]

/-! ### Choices -/

/-- A choice has the value of the branch that its condition selects, whatever numbers there are in
the branches. -/
theorem eval_ifElse (c t f : Expression) :
    v.eval (Expression.ifElse c t f) = if v.holds c then v.eval t else v.eval f := by
  unfold Expression.ifElse
  split
  · rename_i flag hflag
    rw [asBool?_eq_some.1 hflag, holds_ofBool]
    cases flag <;> rfl
  · split
    · rename_i hsame
      rw [v.eval_eq_of_beq hsame, ite_self]
    · split
      · rename_i e hnone
        rw [eval_choice, holds_negation]
        cases v.holds e <;> rfl
      · exact v.eval_choice _ _ _

/-! ### All constructors -/

/-- **Folding keeps the meaning.**  Whatever the leaves stand for and whatever counts as true, the
folding constructors mean on arbitrary trees what the plain nodes mean.  Where an ordering is
negated its operands have to be numbers. -/
theorem folding_keeps_meaning :
    (∀ es, areExact es = true →
      (v.holds (Expression.and es) = true ↔ ∀ e ∈ es, v.holds e = true)) ∧
    (∀ es, areExact es = true →
      (v.holds (Expression.or es) = true ↔ ∃ e ∈ es, v.holds e = true)) ∧
    (∀ op a b, a.isExact = true → b.isExact = true →
      (v.holds (Expression.compare op a b) = true ↔
        v.compares op (v.eval a) (v.eval b) = true)) ∧
    (∀ a b, a.isExact = true → b.isExact = true →
      (b.isFalse = true → v.OrdersNumbers a) → (a.isFalse = true → v.OrdersNumbers b) →
      (v.holds (Expression.equal a b) = true ↔ v.eval a = v.eval b)) ∧
    (∀ a b, a.isExact = true → b.isExact = true → v.OrdersNumbers (Expression.equal a b) →
      (v.holds (Expression.notEqual a b) = true ↔ v.eval a ≠ v.eval b)) ∧
    (∀ c t f, t.isExact = true → f.isExact = true →
      v.eval (Expression.ifElse c t f) = if v.holds c then v.eval t else v.eval f) ∧
    (∀ e, v.OrdersNumbers e → (v.holds e.not = true ↔ ¬ v.holds e = true)) := by
  refine ⟨?_, ?_, ?_, ?_, ?_, ?_, ?_⟩
  · intro es _
    rw [v.holds_and, List.all_eq_true]
  · intro es _
    rw [v.holds_or, List.any_eq_true]
  · intro op a b ha hb
    rw [v.holds_compare ha hb op]
  · intro a b ha hb hleft hright
    rw [v.holds_equal ha hb hleft hright, decide_eq_true_iff]
  · intro a b ha hb h
    rw [v.holds_notEqual ha hb h, decide_eq_true_iff]
  · intro c t f _ _
    exact v.eval_ifElse c t f
  · intro e he
    rw [v.holds_not he, Bool.not_eq_true', Bool.not_eq_true]

/-- A row with a price of three; zero and the empty text do not count as true. -/
def priced : Valuation where
  path _ p := if p = "Price" then .number 3 else .text p
  formatted _ formatter := .text formatter
  embedded body := .text body
  formatted_congr _ _ := rfl
  truthy
    | .bool b => b
    | .text s => s != ""
    | .number x => x != 0
  truthy_bool _ := rfl
  unordered _ _ _ := false

/-- The price is greater than two. -/
def dear : Expression :=
  .comparison .greater (.ofPath "Price") (.ofNat 2)

theorem priced_ordersNumbers_dear : priced.OrdersNumbers dear := by
  rintro op a b ⟨⟩ _
  exact ⟨⟨3, rfl⟩, ⟨_, rfl⟩⟩

theorem isExact_dear : dear.isExact = true := by decide +kernel

/-- The tree is negated, compared with truth values and chosen by, and every hypothesis is met. -/
theorem folding_keeps_meaning_dear :
    areExact [dear, .ofBool true, dear] = true ∧
    (priced.holds (Expression.and [dear, .ofBool true, dear]) = true ↔
      ∀ e ∈ [dear, .ofBool true, dear], priced.holds e = true) ∧
    (priced.holds (Expression.or [dear, .ofBool true, dear]) = true ↔
      ∃ e ∈ [dear, .ofBool true, dear], priced.holds e = true) ∧
    dear.isExact = true ∧ (Expression.ofBool false).isExact = true ∧
    (priced.holds (Expression.compare .equal dear (.ofBool false)) = true ↔
      priced.compares .equal (priced.eval dear) (priced.eval (.ofBool false)) = true) ∧
    priced.OrdersNumbers dear ∧ priced.OrdersNumbers (.ofBool false) ∧
    (priced.holds (Expression.equal dear (.ofBool false)) = true ↔
      priced.eval dear = priced.eval (.ofBool false)) ∧
    priced.OrdersNumbers (Expression.equal dear (.ofBool true)) ∧
    (priced.holds (Expression.notEqual dear (.ofBool true)) = true ↔
      priced.eval dear ≠ priced.eval (.ofBool true)) ∧
    priced.eval (Expression.ifElse dear.not dear (.ofBool false)) =
      (if priced.holds dear.not then priced.eval dear else priced.eval (.ofBool false)) ∧
    (priced.holds dear.not = true ↔ ¬ priced.holds dear = true) := by
  obtain ⟨hand, hor, hcompare, hequal, hnotEqual, hchoice, hnot⟩ := folding_keeps_meaning priced
  have hlist : areExact [dear, .ofBool true, dear] = true := by
    simp [areExact, isExact_dear, ofBool, Expression.isExact, Value.isExact]
  have hflag : priced.OrdersNumbers (.ofBool false) := by
    rintro op a b ⟨⟩
  exact ⟨hlist, hand _ hlist, hor _ hlist, isExact_dear, rfl,
    hcompare .equal dear (.ofBool false) isExact_dear rfl,
    priced_ordersNumbers_dear, hflag,
    hequal dear (.ofBool false) isExact_dear rfl (fun _ => priced_ordersNumbers_dear)
      (fun _ => hflag),
    priced_ordersNumbers_dear,
    hnotEqual dear (.ofBool true) isExact_dear rfl priced_ordersNumbers_dear,
    hchoice dear.not dear (.ofBool false) isExact_dear rfl,
    hnot dear priced_ordersNumbers_dear⟩

end Valuation

end TableCompiler
