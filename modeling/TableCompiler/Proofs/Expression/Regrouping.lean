import TableCompiler.Proofs.Expression.Normal

/-!
# Regrouping the operands of connectives

A connective inside a connective of its own kind may as well be spelled out, and the two trees are
the same, not only of the same meaning.  What the inner one drops the outer one would drop too, even
if it compares it with other trees: equality of trees is transitive, although a tree with a number
that is not one differs from itself.

* `Expression.beq_trans` — equality of trees is transitive;
* `Expression.distinct_append`, `Expression.distinct_distinct`, `Expression.distinct_eq_self` —
  repetitions of a list in two parts, of a list without some of them, and of one that has none;
* `Expression.connect` — both connectives, told apart by the truth value that is neutral to them;
* `Expression.connect_connect`, `Expression.connect_singleton`, `Expression.IsReduced.not_not` — the
  laws for trees at whose root nothing can be simplified;
* `Expression.regrouping` — the laws for the trees that the folding constructors build.
-/

namespace TableCompiler

/-! ### Equality is transitive -/

theorem Number.beq_trans {x y z : Number} (hxy : (x == y) = true) (hyz : (y == z) = true) :
    (x == z) = true := by
  change x.same y = true at hxy
  change y.same z = true at hyz
  show x.same z = true
  cases x <;> cases y <;> cases z <;>
    simp only [Number.same, Bool.false_eq_true, Bool.and_eq_true, Bool.or_eq_true, beq_iff_eq]
      at hxy hyz ⊢
  case infinite.infinite.infinite n m k => exact hxy.trans hyz
  case finite.finite.finite n a m b k c =>
    obtain ⟨rfl, hsign⟩ := hxy
    obtain ⟨rfl, hsign'⟩ := hyz
    refine ⟨rfl, ?_⟩
    rcases hsign with rfl | hzero
    · exact hsign'
    · exact .inr hzero

theorem Value.beq_trans {a b c : Value} (hab : (a == b) = true) (hbc : (b == c) = true) :
    (a == c) = true := by
  change a.same b = true at hab
  change b.same c = true at hbc
  show a.same c = true
  cases a <;> cases b <;> cases c <;> simp only [Value.same, Bool.false_eq_true] at hab hbc ⊢
  case bool.bool.bool p q r => exact PartialEquivBEq.trans hab hbc
  case text.text.text s t u => exact PartialEquivBEq.trans hab hbc
  case number.number.number x y z => exact Number.beq_trans hab hbc

namespace Expression

mutual

/-- Equality of trees is transitive. -/
theorem beq_trans : ∀ {a b c : Expression}, a.beq b = true → b.beq c = true → a.beq c = true := by
  intro a b c hab hbc
  cases a <;> cases b <;> simp only [beq, Bool.false_eq_true] at hab <;>
    cases c <;> simp only [beq, Bool.false_eq_true] at hbc ⊢
  case constant.constant.constant x y z => exact Value.beq_trans hab hbc
  case negation.negation.negation a b c => exact beq_trans hab hbc
  case conjunction.conjunction.conjunction as bs cs => exact beqList_trans hab hbc
  case disjunction.disjunction.disjunction as bs cs => exact beqList_trans hab hbc
  case embedded.embedded.embedded s t u => exact PartialEquivBEq.trans hab hbc
  all_goals
    simp only [Bool.and_eq_true, beq_iff_eq] at hab hbc ⊢
  case path.path.path =>
    exact ⟨hab.1.trans hbc.1, hab.2.trans hbc.2⟩
  case comparison.comparison.comparison =>
    exact ⟨⟨hab.1.1.trans hbc.1.1, beq_trans hab.1.2 hbc.1.2⟩, beq_trans hab.2 hbc.2⟩
  case choice.choice.choice =>
    exact ⟨⟨beq_trans hab.1.1 hbc.1.1, beq_trans hab.1.2 hbc.1.2⟩, beq_trans hab.2 hbc.2⟩
  case formatted.formatted.formatted =>
    exact ⟨beqList_trans hab.1 hbc.1, hab.2.trans hbc.2⟩

theorem beqList_trans : ∀ {as bs cs : List Expression}, beqList as bs = true →
    beqList bs cs = true → beqList as cs = true := by
  intro as bs cs hab hbc
  cases as <;> cases bs <;> simp only [beqList, Bool.false_eq_true] at hab <;>
    cases cs <;> simp only [beqList, Bool.false_eq_true] at hbc ⊢
  case cons.cons.cons a as b bs c cs =>
    rw [Bool.and_eq_true] at hab hbc ⊢
    exact ⟨beq_trans hab.1 hbc.1, beqList_trans hab.2 hbc.2⟩

end

/-! ### Repetitions -/

/-- A list in two parts: the second one repeats neither what was seen before nor the first one. -/
theorem distinct_append (seen as bs : List Expression) :
    distinct seen (as ++ bs) = distinct seen as ++ distinct (seen ++ distinct seen as) bs := by
  induction as generalizing seen with
  | nil => rw [List.nil_append, distinct, List.nil_append, List.append_nil]
  | cons a as ih =>
    rw [List.cons_append, distinct, distinct]
    split
    · exact ih seen
    · rw [ih, List.append_assoc, List.singleton_append, List.cons_append]

/-- Repetitions may be dropped beforehand, of whatever is known to be seen. -/
theorem distinct_distinct {seen : List Expression} (known es : List Expression)
    (h : ∀ e, known.any (· == e) = true → seen.any (· == e) = true) :
    distinct seen (distinct known es) = distinct seen es := by
  induction es generalizing seen known with
  | nil => rfl
  | cons e es ih =>
    rw [distinct, distinct]
    by_cases hknown : known.any (· == e) = true
    · rw [if_pos hknown, if_pos (h e hknown)]
      exact ih known h
    rw [if_neg hknown, distinct]
    by_cases hseen : seen.any (· == e) = true
    · rw [if_pos hseen, if_pos hseen]
      refine ih _ fun d hd => ?_
      rw [List.any_append, Bool.or_eq_true, List.any_cons, List.any_nil, Bool.or_false] at hd
      rcases hd with hd | hd
      · exact h d hd
      · -- what equals `e` equals what `e` repeats
        obtain ⟨a, ha, hae⟩ := List.any_eq_true.1 hseen
        exact List.any_eq_true.2 ⟨a, ha, beq_trans hae hd⟩
    · rw [if_neg hseen, if_neg hseen]
      refine congrArg (e :: ·) (ih _ fun d hd => ?_)
      rw [List.any_append, Bool.or_eq_true] at hd ⊢
      exact hd.imp_left (h d)

/-- A list without repetitions stays as it is. -/
theorem distinct_eq_self (seen : List Expression) {es : List Expression}
    (h : (seen ++ es).Pairwise fun a b => (a == b) = false) : distinct seen es = es := by
  induction es generalizing seen with
  | nil => rfl
  | cons e es ih =>
    have hnew : ¬ seen.any (· == e) = true := by
      intro hany
      obtain ⟨a, ha, hae⟩ := List.any_eq_true.1 hany
      have hdiffer := (List.pairwise_append.1 h).2.2 a ha e List.mem_cons_self
      exact Bool.false_ne_true (hdiffer.symm.trans hae)
    rw [distinct, if_neg hnew, ih]
    rwa [List.append_assoc, List.singleton_append]

/-! ### Both connectives -/

/-- The node of the connective to which a truth value is neutral. -/
def node : Bool → List Expression → Expression
  | true => .conjunction
  | false => .disjunction

/-- The operands that a tree brings to the connective to which a truth value is neutral. -/
def brought : Bool → Expression → List Expression
  | true => conjuncts
  | false => disjuncts

/-- The operands that are left of those brought to a connective, if none of them decides it. -/
def kept (neutral : Bool) (es : List Expression) : List Expression :=
  (es.flatMap (brought neutral)).filter fun e => !(e.asBool? == some neutral)

/-- Whether one of the operands brought to a connective decides it. -/
def isDecided (neutral : Bool) (es : List Expression) : Bool :=
  (es.flatMap (brought neutral)).any fun e => e.asBool? == some !neutral

/-- The connective to which a truth value is neutral. -/
def connect (neutral : Bool) (es : List Expression) : Expression :=
  if isDecided neutral es then ofBool !neutral
  else assemble neutral (node neutral) (distinct [] (kept neutral es))

theorem and_eq_connect (es : List Expression) : Expression.and es = connect true es := rfl

theorem or_eq_connect (es : List Expression) : Expression.or es = connect false es := rfl

variable {neutral : Bool} {e : Expression} {xs ys zs : List Expression}

theorem brought_node (neutral : Bool) (es : List Expression) :
    brought neutral (node neutral es) = es := by
  cases neutral <;> rfl

/-- A truth value that is neutral is dropped, and a connective of nothing is one. -/
theorem kept_ofBool (neutral : Bool) : kept neutral [ofBool neutral] = [] := by
  cases neutral <;> rfl

theorem kept_append (neutral : Bool) (xs ys : List Expression) :
    kept neutral (xs ++ ys) = kept neutral xs ++ kept neutral ys := by
  rw [kept, List.flatMap_append, List.filter_append]
  rfl

theorem isDecided_append (neutral : Bool) (xs ys : List Expression) :
    isDecided neutral (xs ++ ys) = (isDecided neutral xs || isDecided neutral ys) := by
  rw [isDecided, List.flatMap_append, List.any_append]
  rfl

/-- What is kept is of no truth value, if nothing decides the connective. -/
theorem asBool?_of_mem_kept (hopen : isDecided neutral ys = false) (he : e ∈ kept neutral ys) :
    e.asBool? = none := by
  obtain ⟨hmem, hkept⟩ := List.mem_filter.1 he
  have hother := List.any_eq_false.1 hopen e hmem
  cases hvalue : e.asBool? with
  | none => rfl
  | some b =>
    rw [hvalue] at hkept hother
    revert hkept hother
    cases b <;> cases neutral <;> decide

/-- A tree at whose root nothing can be simplified is a node with operands of its own, or brings
itself. -/
theorem brought_cases (neutral : Bool) (h : e.IsReduced) :
    (∃ es, e = node neutral es ∧ 2 ≤ es.length ∧ (es.Pairwise fun a b => (a == b) = false) ∧
      ∀ d ∈ es, brought neutral d = [d] ∧ d.asBool? = none) ∨ brought neutral e = [e] := by
  -- an operand that is no connective of the kind brings itself
  have hand : ∀ d : Expression, d.isConjunction = false → brought true d = [d] := by
    intro d hd
    cases d with
    | conjunction es => cases hd
    | _ => rfl
  have hor : ∀ d : Expression, d.isDisjunction = false → brought false d = [d] := by
    intro d hd
    cases d with
    | disjunction es => cases hd
    | _ => rfl
  cases neutral with
  | true =>
    cases e with
    | conjunction es =>
      exact .inl ⟨es, rfl, h.several, h.distinct,
        fun d hd => ⟨hand d (h.flat d hd), h.undecided d hd⟩⟩
    | _ => exact .inr rfl
  | false =>
    cases e with
    | disjunction es =>
      exact .inl ⟨es, rfl, h.several, h.distinct,
        fun d hd => ⟨hor d (h.flat d hd), h.undecided d hd⟩⟩
    | _ => exact .inr rfl

/-- No operand that is kept is a connective of the kind. -/
theorem brought_of_mem_kept (h : ∀ e ∈ ys, e.IsReduced) (he : e ∈ kept neutral ys) :
    brought neutral e = [e] := by
  obtain ⟨d, hd, hde⟩ := List.mem_flatMap.1 (List.mem_of_mem_filter he)
  rcases brought_cases neutral (h d hd) with ⟨es, rfl, -, -, hes⟩ | hself
  · rw [brought_node] at hde
    exact (hes e hde).1
  · rw [hself, List.mem_singleton] at hde
    rw [hde, hself]

/-- Nothing but truth values is dropped. -/
theorem filter_undecided (neutral : Bool) {es : List Expression}
    (hopen : ∀ e ∈ es, e.asBool? = none) :
    (es.filter fun e => !(e.asBool? == some neutral)) = es := by
  rw [List.filter_eq_self]
  intro e he
  rw [hopen e he]
  rfl

/-- A list of trees that bring themselves is kept, but for truth values. -/
theorem kept_eq_self {es : List Expression} (h : ∀ e ∈ es, brought neutral e = [e])
    (hopen : ∀ e ∈ es, e.asBool? = none) : kept neutral es = es := by
  have hflat : es.flatMap (brought neutral) = es := by
    rw [List.flatMap_congr h, List.flatMap_singleton']
  rw [kept, hflat, filter_undecided neutral hopen]

/-- Operands that are put together are brought again as they were. -/
theorem kept_assemble {es : List Expression} (h : ∀ e ∈ es, brought neutral e = [e])
    (hopen : ∀ e ∈ es, e.asBool? = none) :
    isDecided neutral [assemble neutral (node neutral) es] = false ∧
      kept neutral [assemble neutral (node neutral) es] = es := by
  -- what decides the connective is a truth value
  have hundecided : es.any (fun e => e.asBool? == some !neutral) = false := by
    rw [List.any_eq_false]
    intro e he
    rw [hopen e he]
    exact Bool.false_ne_true
  match es with
  | [] =>
    refine ⟨?_, kept_ofBool neutral⟩
    cases neutral <;> rfl
  | [e] =>
    refine ⟨?_, kept_eq_self h hopen⟩
    rw [isDecided, assemble, List.flatMap_singleton, h e List.mem_cons_self]
    exact hundecided
  | d :: e :: es =>
    have hbrought : [assemble neutral (node neutral) (d :: e :: es)].flatMap (brought neutral) =
        d :: e :: es := by
      rw [assemble, List.flatMap_singleton, brought_node]
      · exact List.cons_ne_nil _ _
      · intro f hf
        cases hf
    refine ⟨?_, ?_⟩
    · rw [isDecided, hbrought]
      exact hundecided
    · rw [kept, hbrought, filter_undecided neutral hopen]

/-! ### The laws -/

theorem connect_of_isDecided {es : List Expression} (h : isDecided neutral es = true) :
    connect neutral es = ofBool !neutral := by
  rw [connect, if_pos h]

theorem connect_of_not_isDecided {es : List Expression} (h : isDecided neutral es = false) :
    connect neutral es = assemble neutral (node neutral) (distinct [] (kept neutral es)) := by
  rw [connect, h, if_neg Bool.false_ne_true]

/-- **A connective in a connective of its kind** may be spelled out. -/
theorem connect_connect (neutral : Bool) (xs zs : List Expression) (h : ∀ e ∈ ys, e.IsReduced) :
    connect neutral (xs ++ [connect neutral ys] ++ zs) = connect neutral (xs ++ ys ++ zs) := by
  cases hdecided : isDecided neutral ys with
  | true =>
    have hinner : isDecided neutral [connect neutral ys] = true := by
      rw [connect_of_isDecided hdecided]
      cases neutral <;> rfl
    rw [connect_of_isDecided, connect_of_isDecided]
    · rw [isDecided_append, isDecided_append, hdecided, Bool.or_true, Bool.true_or]
    · rw [isDecided_append, isDecided_append, hinner, Bool.or_true, Bool.true_or]
  | false =>
    have hself : ∀ e ∈ distinct [] (kept neutral ys), brought neutral e = [e] :=
      fun e he => brought_of_mem_kept h (mem_of_mem_distinct he)
    have hopen : ∀ e ∈ distinct [] (kept neutral ys), e.asBool? = none :=
      fun e he => asBool?_of_mem_kept hdecided (mem_of_mem_distinct he)
    obtain ⟨hinner, hkept⟩ := kept_assemble hself hopen
    rw [← connect_of_not_isDecided hdecided] at hinner hkept
    have hsame : isDecided neutral (xs ++ [connect neutral ys] ++ zs) =
        isDecided neutral (xs ++ ys ++ zs) := by
      simp only [isDecided_append, hinner, hdecided]
    -- the outer connective drops what the inner one has dropped
    have hrest : distinct [] (kept neutral (xs ++ [connect neutral ys] ++ zs)) =
        distinct [] (kept neutral (xs ++ ys ++ zs)) := by
      simp only [kept_append, hkept, distinct_append, List.nil_append]
      rw [distinct_distinct [] _ fun e he => absurd he Bool.false_ne_true]
    show (if isDecided neutral _ then _ else assemble neutral (node neutral) _) =
      if isDecided neutral _ then _ else assemble neutral (node neutral) _
    rw [hsame, hrest]

/-- Different operands that are put together are a connective of one operand, and stay as they
are. -/
theorem connect_assemble {es : List Expression} (h : ∀ e ∈ es, brought neutral e = [e])
    (hopen : ∀ e ∈ es, e.asBool? = none) (hdistinct : es.Pairwise fun a b => (a == b) = false) :
    connect neutral [assemble neutral (node neutral) es] =
      assemble neutral (node neutral) es := by
  obtain ⟨hdecided, hkept⟩ := kept_assemble h hopen
  rw [connect_of_not_isDecided hdecided, hkept, distinct_eq_self [] hdistinct]

/-- **A connective of one operand** is that operand. -/
theorem connect_singleton (neutral : Bool) (h : e.IsReduced) : connect neutral [e] = e := by
  rcases brought_cases neutral h with ⟨es, rfl, hseveral, hdistinct, hes⟩ | hself
  · have hnode : assemble neutral (node neutral) es = node neutral es := by
      match es, hseveral with
      | d :: e :: es, _ => rfl
    rw [← hnode]
    exact connect_assemble (fun d hd => (hes d hd).1) (fun d hd => (hes d hd).2) hdistinct
  · cases hvalue : e.asBool? with
    | none =>
      have halone : ∀ d ∈ [e], brought neutral d = [d] := by simpa using hself
      have hopen : ∀ d ∈ [e], d.asBool? = none := by simpa using hvalue
      exact connect_assemble halone hopen (List.pairwise_singleton _ _)
    | some b =>
      rw [asBool?_eq_some.1 hvalue]
      cases neutral <;> cases b <;> rfl

/-- **Neutral operands** do not count. -/
theorem connect_neutral (neutral : Bool) (xs zs : List Expression) :
    connect neutral (xs ++ [ofBool neutral] ++ zs) = connect neutral (xs ++ zs) := by
  have hnone : ∀ e ∈ ([] : List Expression), e.IsReduced := fun _ he =>
    absurd he List.not_mem_nil
  have h := connect_connect neutral xs zs hnone
  rwa [List.append_nil] at h

/-- **A negation of a negation** is the tree itself, unless it could be simplified. -/
theorem IsReduced.not_not (h : e.IsReduced) : e.not.not = e := by
  cases e with
  | constant value =>
    cases value with
    | bool b => rw [Expression.not, ofBool, Expression.not, ofBool, Bool.not_not]
    | text s => rfl
    | number x => rfl
  | negation d =>
    obtain ⟨hopen, hnegation, hcomparison⟩ : (negation d).IsReduced := h
    show d.not = negation d
    cases d with
    | constant value =>
      cases value with
      | bool b => cases hopen
      | text s => rfl
      | number x => rfl
    | negation d => cases hnegation
    | comparison op a b => cases hcomparison
    | _ => rfl
  | comparison op a b => cases op <;> rfl
  | _ => rfl

/-- Nothing can be simplified at the root of a tree that the folding constructors have built. -/
theorem IsBuilt.isReduced (h : e.IsBuilt) : e.IsReduced := h.isNormal.root

/-- **Regrouping.**  In a conjunction of trees that the folding constructors have built, a
conjunction among them may be replaced by its operands, and the tree is the same; so it is with
disjunctions.  Either connective of a single tree is that tree, also with a neutral truth value
beside it, and so is a negation that is negated. -/
theorem regrouping :
    (∀ xs ys zs : List Expression, (∀ e ∈ ys, e.IsBuilt) →
      Expression.and (xs ++ [Expression.and ys] ++ zs) = Expression.and (xs ++ ys ++ zs) ∧
      Expression.or (xs ++ [Expression.or ys] ++ zs) = Expression.or (xs ++ ys ++ zs)) ∧
    ∀ e : Expression, e.IsBuilt →
      Expression.and [e] = e ∧ Expression.and [e, ofBool true] = e ∧
      Expression.or [e] = e ∧ Expression.or [ofBool false, e] = e ∧ e.not.not = e := by
  simp only [and_eq_connect, or_eq_connect]
  refine ⟨fun xs ys zs hys => ?_, fun e he => ?_⟩
  · have hreduced : ∀ e ∈ ys, e.IsReduced := fun e he => (hys e he).isReduced
    exact ⟨connect_connect true xs zs hreduced, connect_connect false xs zs hreduced⟩
  · have hand := connect_singleton true he.isReduced
    have hor := connect_singleton false he.isReduced
    refine ⟨hand, ?_, hor, ?_, he.isReduced.not_not⟩
    · exact (connect_neutral true [e] []).trans hand
    · exact (connect_neutral false [] [e]).trans hor

/-- A row is one's own, or it is not shared. -/
def isOwn : Expression := .or [.ofPath "Own", .not (.ofPath "Shared")]

theorem isBuilt_isOwn : isOwn.IsBuilt := by
  refine .or fun e he => ?_
  rcases List.mem_pair.1 he with rfl | rfl
  · exact .path _ _
  · exact .not (.path _ _)

/-- The inner connective drops a neutral operand, and the outer one a repeated one. -/
theorem regrouping_isOwn :
    (∀ e ∈ [isOwn, .ofBool true, .ofPath "Open"], e.IsBuilt) ∧
    Expression.and ([.ofPath "Open"] ++ [.and [isOwn, .ofBool true, .ofPath "Open"]] ++ [isOwn]) =
      Expression.and ([.ofPath "Open"] ++ [isOwn, .ofBool true, .ofPath "Open"] ++ [isOwn]) ∧
    isOwn.IsBuilt ∧ Expression.or [isOwn] = isOwn ∧ isOwn.not.not = isOwn := by
  have hbuilt : ∀ e ∈ [isOwn, .ofBool true, .ofPath "Open"], e.IsBuilt := by
    intro e he
    rcases List.mem_cons.1 he with rfl | he
    · exact isBuilt_isOwn
    · rcases List.mem_pair.1 he with rfl | rfl
      · exact .constant _
      · exact .path _ _
  obtain ⟨-, -, hor, -, hnot⟩ := regrouping.2 isOwn isBuilt_isOwn
  exact ⟨hbuilt, (regrouping.1 [.ofPath "Open"] _ [isOwn] hbuilt).1, isBuilt_isOwn, hor, hnot⟩

-- both sides are the conjunction of the two different operands
example : Expression.and [.ofPath "Open", .and [isOwn, .ofBool true, .ofPath "Open"], isOwn] =
    .conjunction [.ofPath "Open", isOwn] := rfl

end Expression

end TableCompiler
