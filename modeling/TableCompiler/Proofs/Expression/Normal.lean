import Mathlib.Data.List.Basic
import TableCompiler.Proofs.Expression.Folding
import TableCompiler.Proofs.Expression.Readability

/-!
# Folded trees are normal

Every constructor that folds simplifies at the root alone and relies on its operands to be normal
already.  A singleton that is unwrapped, a negation that is cancelled and an equality that collapses
bring a tree from below into a new place, so the constructors keep the normal form only together.

* `Expression.IsReduced` — nothing can be simplified at the root of a tree;
* `Expression.IsNormal` — nothing can be simplified anywhere in it;
* `Expression.IsBuilt` — the trees that are built by the folding constructors;
* `Expression.beq_comm` — equality of trees is symmetric, also where it is not reflexive;
* `Expression.IsNormal.not`, `Expression.IsNormal.and`, `Expression.IsNormal.or`,
  `Expression.IsNormal.compare`, `Expression.IsNormal.equal`, `Expression.IsNormal.ifElse` — each
  constructor keeps trees normal;
* `Expression.IsBuilt.isNormal`, `Expression.built_normal` — all of them together.
-/

namespace TableCompiler

/-! ### Equality is symmetric -/

theorem Number.beq_comm (x y : Number) : (x == y) = (y == x) := by
  show x.same y = y.same x
  cases x <;> cases y <;> simp only [Number.same]
  case infinite.infinite n m => exact BEq.comm
  case finite.finite n a m b =>
    rw [BEq.comm (a := a), BEq.comm (a := n)]
    by_cases h : b = a
    · rw [h]
    · rw [beq_eq_false_iff_ne.2 h, Bool.false_and, Bool.false_and]

theorem Value.beq_comm (a b : Value) : (a == b) = (b == a) := by
  show a.same b = b.same a
  cases a <;> cases b <;> simp only [Value.same]
  case bool.bool p q => exact BEq.comm
  case text.text s t => exact BEq.comm
  case number.number x y => exact Number.beq_comm x y

namespace Expression

mutual

/-- Equality of trees is symmetric. -/
theorem beq_comm : ∀ a b : Expression, a.beq b = b.beq a := by
  intro a b
  cases a <;> cases b <;> simp only [beq]
  case constant.constant x y => exact Value.beq_comm x y
  case path.path m p n q => rw [BEq.comm (a := m), BEq.comm (a := p)]
  case negation.negation a b => exact beq_comm a b
  case conjunction.conjunction as bs => exact beqList_comm as bs
  case disjunction.disjunction as bs => exact beqList_comm as bs
  case comparison.comparison o a b u c d =>
    rw [BEq.comm (a := o), beq_comm a c, beq_comm b d]
  case choice.choice a b c d e f => rw [beq_comm a d, beq_comm b e, beq_comm c f]
  case formatted.formatted as f bs g => rw [beqList_comm as bs, BEq.comm (a := f)]
  case embedded.embedded s t => exact BEq.comm

theorem beqList_comm : ∀ as bs : List Expression, beqList as bs = beqList bs as := by
  intro as bs
  cases as <;> cases bs <;> simp only [beqList]
  case cons.cons a as b bs => rw [beq_comm a b, beqList_comm as bs]

end

/-! ### Normal trees -/

/-- Whether a tree is a negation. -/
def isNegation : Expression → Bool
  | .negation _ => true
  | _ => false

/-- Whether a tree is a comparison. -/
def isComparison : Expression → Bool
  | .comparison _ _ _ => true
  | _ => false

/-- Whether a tree is a conjunction. -/
def isConjunction : Expression → Bool
  | .conjunction _ => true
  | _ => false

/-- Whether a tree is a disjunction. -/
def isDisjunction : Expression → Bool
  | .disjunction _ => true
  | _ => false

/-- What the operands of a connective should be: at least two, no two of them equal, none of them a
truth value or of the kind of the connective itself. -/
structure AreOperands (ofKind : Expression → Bool) (es : List Expression) : Prop where
  several : 2 ≤ es.length
  distinct : es.Pairwise fun a b => (a == b) = false
  undecided : ∀ e ∈ es, e.asBool? = none
  flat : ∀ e ∈ es, ofKind e = false

/-- Nothing can be simplified at the root of a tree. -/
def IsReduced : Expression → Prop
  | .negation e => e.asBool? = none ∧ e.isNegation = false ∧ e.isComparison = false
  | .conjunction es => AreOperands isConjunction es
  | .disjunction es => AreOperands isDisjunction es
  | .choice c t f => c.asBool? = none ∧ c.isNegation = false ∧ (t == f) = false
  | _ => True

/-- The trees directly below the root of a tree, the parts of a formatted binding too. -/
def subtrees : Expression → List Expression
  | .formatted parts _ => parts
  | e => e.children

/-- Nothing can be simplified at any node of a tree. -/
inductive IsNormal : Expression → Prop
  | node {e : Expression} (root : e.IsReduced) (rest : ∀ d ∈ e.subtrees, IsNormal d) : IsNormal e

/-- The trees that are built by the folding constructors, nested in whatever way. -/
inductive IsBuilt : Expression → Prop
  | constant (value : Value) : IsBuilt (.constant value)
  | path (model : Option String) (p : String) : IsBuilt (.path model p)
  | not {e : Expression} (he : IsBuilt e) : IsBuilt e.not
  | and {es : List Expression} (hes : ∀ e ∈ es, IsBuilt e) : IsBuilt (Expression.and es)
  | or {es : List Expression} (hes : ∀ e ∈ es, IsBuilt e) : IsBuilt (Expression.or es)
  | compare {a b : Expression} (op : Comparison) (ha : IsBuilt a) (hb : IsBuilt b) :
      IsBuilt (Expression.compare op a b)
  | equal {a b : Expression} (ha : IsBuilt a) (hb : IsBuilt b) : IsBuilt (Expression.equal a b)
  | notEqual {a b : Expression} (ha : IsBuilt a) (hb : IsBuilt b) :
      IsBuilt (Expression.notEqual a b)
  | ifElse {c t f : Expression} (hc : IsBuilt c) (ht : IsBuilt t) (hf : IsBuilt f) :
      IsBuilt (Expression.ifElse c t f)
  | formatted {parts : List Expression} (formatter : String) (hparts : ∀ e ∈ parts, IsBuilt e) :
      IsBuilt (.formatted parts formatter)
  | ofBinding (text : String) : IsBuilt (Expression.ofBinding text)

namespace IsNormal

variable {a b c e f t : Expression} {es : List Expression}

theorem root (h : e.IsNormal) : e.IsReduced := by
  cases h with
  | node root rest => exact root

theorem rest (h : e.IsNormal) : ∀ d ∈ e.subtrees, IsNormal d := by
  cases h with
  | node root rest => exact rest

/-- A tree with nothing below it is normal. -/
theorem leaf (root : e.IsReduced) (h : e.subtrees = []) : e.IsNormal := by
  refine .node root ?_
  rw [h]
  intro d hd
  cases hd

theorem constant (value : Value) : IsNormal (.constant value) := .leaf trivial rfl

theorem ofBool (b : Bool) : IsNormal (.ofBool b) := .constant _

theorem path (model : Option String) (p : String) : IsNormal (.path model p) := .leaf trivial rfl

theorem formatted (formatter : String) (h : ∀ e ∈ es, e.IsNormal) :
    IsNormal (.formatted es formatter) := .node trivial h

theorem comparison (op : Comparison) (ha : a.IsNormal) (hb : b.IsNormal) :
    IsNormal (.comparison op a b) := by
  refine .node trivial fun d hd => ?_
  rcases List.mem_pair.1 hd with rfl | rfl
  · exact ha
  · exact hb

theorem negation (root : (Expression.negation e).IsReduced) (he : e.IsNormal) :
    IsNormal (.negation e) := by
  refine .node root fun d hd => ?_
  obtain rfl := List.mem_singleton.1 hd
  exact he

theorem choice (root : (Expression.choice c t f).IsReduced) (hc : c.IsNormal) (ht : t.IsNormal)
    (hf : f.IsNormal) : IsNormal (.choice c t f) := by
  refine .node root fun d hd => ?_
  rcases List.mem_cons.1 hd with rfl | hd
  · exact hc
  · rcases List.mem_pair.1 hd with rfl | rfl
    · exact ht
    · exact hf

/-! ### Negations -/

/-- The negation of a normal tree is normal: what stood under a negation before is no truth value,
no negation and no comparison. -/
theorem not (h : e.IsNormal) : e.not.IsNormal := by
  cases e with
  | constant value =>
    cases value with
    | bool b => exact .ofBool (!b)
    | text s => exact .negation ⟨rfl, rfl, rfl⟩ h
    | number x => exact .negation ⟨rfl, rfl, rfl⟩ h
  | negation d => exact h.rest d (List.mem_singleton_self d)
  | comparison op a b => exact .node trivial h.rest
  | path model p => exact .negation ⟨rfl, rfl, rfl⟩ h
  | conjunction es => exact .negation ⟨rfl, rfl, rfl⟩ h
  | disjunction es => exact .negation ⟨rfl, rfl, rfl⟩ h
  | choice c t f => exact .negation ⟨rfl, rfl, rfl⟩ h
  | formatted parts formatter => exact .negation ⟨rfl, rfl, rfl⟩ h
  | embedded body => exact .negation ⟨rfl, rfl, rfl⟩ h

end IsNormal

/-! ### Connectives -/

/-- What is left of a list has no repetitions, nor does it repeat what was seen before. -/
theorem pairwise_distinct {seen es : List Expression}
    (h : seen.Pairwise fun a b => (a == b) = false) :
    (seen ++ distinct seen es).Pairwise fun a b => (a == b) = false := by
  induction es generalizing seen with
  | nil =>
    rw [distinct, List.append_nil]
    exact h
  | cons e es ih =>
    rw [distinct]
    split
    · exact ih h
    · rename_i hnew
      have hnext : (seen ++ [e]).Pairwise fun a b => (a == b) = false := by
        refine List.pairwise_append.2 ⟨h, List.pairwise_singleton _ _, fun a ha b hb => ?_⟩
        obtain rfl := List.mem_singleton.1 hb
        exact Bool.eq_false_iff.2 fun heq => hnew (List.any_eq_true.2 ⟨a, ha, heq⟩)
      have hrun := ih hnext
      rwa [List.append_assoc, List.singleton_append] at hrun

/-- A tree is open if it is neither of the truth values. -/
theorem asBool?_eq_none {e : Expression} (hfalse : e.isFalse = false) (htrue : e.isTrue = false) :
    e.asBool? = none := by
  rw [isFalse, beq_eq_false_iff_ne] at hfalse
  rw [isTrue, beq_eq_false_iff_ne] at htrue
  cases h : e.asBool? with
  | none => rfl
  | some value =>
    cases value with
    | true => exact (htrue h).elim
    | false => exact (hfalse h).elim

namespace IsNormal

variable {es : List Expression}

/-- A list of normal operands makes a normal tree, however many there are. -/
theorem assemble {ofKind : Expression → Bool} {node : List Expression → Expression}
    (hnode : ∀ es, AreOperands ofKind es → (∀ e ∈ es, e.IsNormal) → (node es).IsNormal)
    (neutral : Bool) (hnormal : ∀ e ∈ es, e.IsNormal)
    (hdistinct : es.Pairwise fun a b => (a == b) = false) (hopen : ∀ e ∈ es, e.asBool? = none)
    (hflat : ∀ e ∈ es, ofKind e = false) : (Expression.assemble neutral node es).IsNormal := by
  match es with
  | [] => exact .ofBool neutral
  | [e] => exact hnormal e (List.mem_singleton_self e)
  | d :: e :: es =>
    refine hnode _ ⟨?_, hdistinct, hopen, hflat⟩ hnormal
    rw [List.length_cons, List.length_cons]
    omega

/-- The operands of normal trees are normal, and none is of the kind of the node they stood in. -/
theorem of_mem_conjuncts {d e : Expression} (h : e.IsNormal) (hd : d ∈ e.conjuncts) :
    d.IsNormal ∧ d.isConjunction = false := by
  cases e with
  | conjunction es => exact ⟨h.rest d hd, h.root.flat d hd⟩
  | _ => exact (List.mem_singleton.1 hd) ▸ ⟨h, rfl⟩

theorem of_mem_disjuncts {d e : Expression} (h : e.IsNormal) (hd : d ∈ e.disjuncts) :
    d.IsNormal ∧ d.isDisjunction = false := by
  cases e with
  | disjunction es => exact ⟨h.rest d hd, h.root.flat d hd⟩
  | _ => exact (List.mem_singleton.1 hd) ▸ ⟨h, rfl⟩

/-- Flattening normal operands, dropping truth values and repetitions and putting the rest together
gives a normal tree. -/
theorem folded {ofKind : Expression → Bool} {node : List Expression → Expression}
    {flatten : Expression → List Expression} {drops : Expression → Bool}
    (hnode : ∀ es, AreOperands ofKind es → (∀ e ∈ es, e.IsNormal) → (node es).IsNormal)
    (hflatten : ∀ {d e : Expression}, e.IsNormal → d ∈ flatten e → d.IsNormal ∧ ofKind d = false)
    (hundecided : ∀ d ∈ es.flatMap flatten, drops d = false → d.asBool? = none)
    (neutral : Bool) (h : ∀ e ∈ es, e.IsNormal) :
    (Expression.assemble neutral node
      (distinct [] ((es.flatMap flatten).filter fun e => !drops e))).IsNormal := by
  have hfrom : ∀ d ∈ distinct [] ((es.flatMap flatten).filter fun e => !drops e),
      (d.IsNormal ∧ ofKind d = false) ∧ d.asBool? = none := by
    intro d hd
    obtain ⟨hmem, hkept⟩ := List.mem_filter.1 (mem_of_mem_distinct hd)
    obtain ⟨e, he, hde⟩ := List.mem_flatMap.1 hmem
    rw [Bool.not_eq_true'] at hkept
    exact ⟨hflatten (h e he) hde, hundecided d hmem hkept⟩
  exact .assemble hnode neutral (fun d hd => (hfrom d hd).1.1) (pairwise_distinct .nil)
    (fun d hd => (hfrom d hd).2) fun d hd => (hfrom d hd).1.2

/-- A conjunction of normal trees is normal. -/
theorem and (h : ∀ e ∈ es, e.IsNormal) : (Expression.and es).IsNormal := by
  rw [Expression.and]
  split
  · exact .ofBool false
  · rename_i hnone
    refine .folded (fun _ hes hnormal => ?_) of_mem_conjuncts (fun d hd htrue => ?_) true h
    · exact .node (e := .conjunction _) hes hnormal
    · refine asBool?_eq_none (Bool.eq_false_iff.2 fun hfalse => ?_) htrue
      exact hnone (List.any_eq_true.2 ⟨d, hd, hfalse⟩)

/-- A disjunction of normal trees is normal. -/
theorem or (h : ∀ e ∈ es, e.IsNormal) : (Expression.or es).IsNormal := by
  rw [Expression.or]
  split
  · exact .ofBool true
  · rename_i hnone
    refine .folded (fun _ hes hnormal => ?_) of_mem_disjuncts (fun d hd hfalse => ?_) false h
    · exact .node (e := .disjunction _) hes hnormal
    · refine asBool?_eq_none hfalse (Bool.eq_false_iff.2 fun htrue => ?_)
      exact hnone (List.any_eq_true.2 ⟨d, hd, htrue⟩)

/-! ### Comparisons and choices -/

variable {a b c f t : Expression}

/-- A comparison of normal trees is normal. -/
theorem compare (op : Comparison) (ha : a.IsNormal) (hb : b.IsNormal) :
    (Expression.compare op a b).IsNormal := by
  unfold Expression.compare
  split
  · split
    · exact .ofBool _
    · exact .comparison op ha hb
  · exact .comparison op ha hb

/-- An equality of normal trees is normal, also if it collapses to one of them. -/
theorem equal (ha : a.IsNormal) (hb : b.IsNormal) : (Expression.equal a b).IsNormal := by
  have hflagged : ∀ {e : Expression} (flag : Bool), e.IsNormal →
      (if flag then e else e.not).IsNormal := by
    intro e flag he
    cases flag with
    | true => exact he
    | false => exact he.not
  unfold Expression.equal
  split
  · split
    · exact hflagged _ ha
    · exact ha.compare .equal hb
  · split
    · exact hflagged _ hb
    · exact ha.compare .equal hb
  · exact ha.compare .equal hb

/-- A choice between normal trees is normal, also if its branches are exchanged. -/
theorem ifElse (hc : c.IsNormal) (ht : t.IsNormal) (hf : f.IsNormal) :
    (Expression.ifElse c t f).IsNormal := by
  unfold Expression.ifElse
  split
  · split
    · exact ht
    · exact hf
  · rename_i hopen
    split
    · exact ht
    · rename_i hdiffer
      rw [Bool.not_eq_true] at hdiffer
      split
      · rename_i e
        obtain ⟨hbool, hnegation, -⟩ : (Expression.negation e).IsReduced := hc.root
        have hswapped : (f == t) = false := (beq_comm f t).trans hdiffer
        exact .choice ⟨hbool, hnegation, hswapped⟩ (hc.rest e (List.mem_singleton_self e)) hf ht
      · rename_i hnot
        have hnegation : c.isNegation = false := by
          cases c with
          | negation e => exact (hnot e rfl).elim
          | _ => rfl
        exact .choice ⟨hopen, hnegation, hdiffer⟩ hc ht hf

/-! ### Reading -/

/-- What a text is read as is normal. -/
theorem ofBinding (text : String) : (Expression.ofBinding text).IsNormal := by
  simp only [Expression.ofBinding]
  split
  · exact .ofBool true
  · split
    · exact .ofBool false
    · split
      · exact .constant _
      · exact .leaf trivial rfl
      · split
        · exact .constant _
        · rw [ofBindingPath]
          split
          · exact .path _ _
          · exact .path _ _

end IsNormal

theorem IsBuilt.isNormal {e : Expression} (h : e.IsBuilt) : e.IsNormal := by
  induction h with
  | constant value => exact .constant value
  | path model p => exact .path model p
  | not he ih => exact ih.not
  | and hes ih => exact .and ih
  | or hes ih => exact .or ih
  | compare op ha hb iha ihb => exact iha.compare op ihb
  | equal ha hb iha ihb => exact iha.equal ihb
  | notEqual ha hb iha ihb => exact (iha.equal ihb).not
  | ifElse hc ht hf ihc iht ihf => exact ihc.ifElse iht ihf
  | formatted formatter hparts ih => exact .formatted formatter ih
  | ofBinding text => exact .ofBinding text

/-- **Folded trees are normal.**  In a tree that the folding constructors have built, every
connective has at least two operands, no two of them equal, none a truth value and none of its own
kind; no negation stands over a truth value, a negation or a comparison; and no choice has a truth
value or a negation for its condition, or equal branches. -/
theorem built_normal {e : Expression} (h : e.IsBuilt) : e.IsNormal := h.isNormal

/-- A row can be locked and may be shared or not; whoever may not edit it sees a text. -/
def lockedText : Expression :=
  .ifElse
    (.not (.and [.ofBinding "{Open}", .ofBool true, .or [.ofPath "Own", .not (.ofPath "Shared")]]))
    (.formatted [.ofPath "Lock", .notEqual (.ofPath "Owner") (.ofText "")] "lockText")
    (.ofText "")

theorem built_normal_lockedText : lockedText.IsBuilt ∧ lockedText.IsNormal := by
  have hor : IsBuilt (.or [.ofPath "Own", .not (.ofPath "Shared")]) := by
    refine .or fun e he => ?_
    rcases List.mem_pair.1 he with rfl | rfl
    · exact .path _ _
    · exact .not (.path _ _)
  have hand : IsBuilt (.and [.ofBinding "{Open}", .ofBool true,
      .or [.ofPath "Own", .not (.ofPath "Shared")]]) := by
    refine .and fun e he => ?_
    rcases List.mem_cons.1 he with rfl | he
    · exact .ofBinding _
    · rcases List.mem_pair.1 he with rfl | rfl
      · exact .constant _
      · exact hor
  have hparts : ∀ e ∈ [Expression.ofPath "Lock", .notEqual (.ofPath "Owner") (.ofText "")],
      e.IsBuilt := by
    intro e he
    rcases List.mem_pair.1 he with rfl | rfl
    · exact .path _ _
    · exact .notEqual (.path _ _) (.constant _)
  have hbuilt : lockedText.IsBuilt :=
    .ifElse (.not hand) (.formatted "lockText" hparts) (.constant _)
  exact ⟨hbuilt, built_normal hbuilt⟩

end Expression

end TableCompiler
