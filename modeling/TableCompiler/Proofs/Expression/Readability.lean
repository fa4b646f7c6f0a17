import TableCompiler.Proofs.Expression.Leaf

/-!
# Reading expression bindings in one way

The text of a tree inside an expression binding tells the tree.  Every operand can be told from what
follows it: a leaf ends with itself, and what has operators of its own stands in parentheses.
Inside the parentheses, the sign that follows the first operand says what kind of tree it is.

* `Expression.isLegible` — trees of constants, paths and operators whose leaves can be delimited;
* `Expression.IsRecognized` — the text of an operand belongs to it alone, whatever follows;
* `Expression.Begins` — the first operand of a tree, its sign and the rest;
* `Expression.isRecognized` — every legible tree is recognized;
* `Expression.compile_injective` — trees with one binding are one tree.
-/

namespace TableCompiler

namespace Expression

/-! ### Legible trees -/

mutual

/-- Whether a tree is made of truth values, texts, delimited paths and operators, where connectives
have at least two operands. -/
def isLegible : Expression → Bool
  | .constant (.number _) => false
  | .constant _ => true
  | .path model p => isDelimited model p
  | .negation e => isLegible e
  | .conjunction es | .disjunction es => decide (2 ≤ es.length) && areLegible es
  | .comparison _ a b => isLegible a && isLegible b
  | .choice c t f => isLegible c && isLegible t && isLegible f
  | .formatted _ _ | .embedded _ => false

/-- Whether every tree of a list is legible. -/
def areLegible : List Expression → Bool
  | [] => true
  | e :: es => isLegible e && areLegible es

end

/-- Whether a tree is written in an expression binding, and not as a plain text or path. -/
def isWritten : Expression → Bool
  | .constant _ | .path _ _ => false
  | _ => true

/-- The characters of a tree as an operand. -/
def chars (e : Expression) : List Char := (operandText e e.body).toList

/-- The text of an operand belongs to one legible tree, whatever follows it. -/
def IsRecognized (a : Expression) : Prop :=
  ∀ b : Expression, b.isLegible = true → ∀ r s : List Char,
    a.chars ++ r = b.chars ++ s → a = b ∧ r = s

/-! ### Operands -/

/-- The character with which an operand starts. -/
def lead : Expression → Char
  | .constant (.bool b) => if b then 't' else 'f'
  | .constant (.text _) => '\x27'
  | .path _ _ => '%'
  | .negation _ => '!'
  | _ => '('

theorem chars_eq_of_simple {e : Expression} (h : e.needsParentheses = false) :
    e.chars = e.body.toList := by
  rw [chars, operandText, h]
  rfl

theorem chars_eq_of_compound {e : Expression} (h : e.needsParentheses = true) :
    e.chars = '(' :: (e.body.toList ++ [')']) := by
  rw [chars, operandText, if_pos h, String.toList_append, String.toList_append, List.append_assoc]
  rfl

theorem chars_text (s : String) : (constant (.text s)).chars = (quote s).toList := by
  rw [chars_eq_of_simple rfl, body]
  rfl

theorem chars_path (model : Option String) (p : String) :
    (Expression.path model p).chars =
      '%' :: '\x7b' :: ((bindingPath model p).toList ++ ['\x7d']) := by
  rw [chars_eq_of_simple rfl, body, braced, String.toList_append, String.toList_append,
    String.toList_append, List.append_assoc]
  rfl

theorem chars_negation (e : Expression) : (negation e).chars = '!' :: e.chars := by
  rw [chars_eq_of_simple rfl, body, String.toList_append]
  rfl

/-- An operand starts with the character of its kind. -/
theorem exists_chars_eq {e : Expression} (h : e.isLegible = true) :
    ∃ rest, e.chars = e.lead :: rest := by
  cases e with
  | constant value =>
    cases value with
    | bool b => cases b <;> exact ⟨_, rfl⟩
    | text s => exact ⟨_, (chars_text s).trans (toList_quote s)⟩
    | number x => cases h
  | path model p => exact ⟨_, chars_path model p⟩
  | negation e => exact ⟨_, chars_negation e⟩
  | conjunction es => exact ⟨_, chars_eq_of_compound rfl⟩
  | disjunction es => exact ⟨_, chars_eq_of_compound rfl⟩
  | comparison op a b => exact ⟨_, chars_eq_of_compound rfl⟩
  | choice c t f => exact ⟨_, chars_eq_of_compound rfl⟩
  | formatted parts f => cases h
  | embedded s => cases h

/-- Operands that start one text are of one kind. -/
theorem lead_eq {a b : Expression} (ha : a.isLegible = true) (hb : b.isLegible = true)
    {r s : List Char} (h : a.chars ++ r = b.chars ++ s) : a.lead = b.lead := by
  obtain ⟨as, ha'⟩ := exists_chars_eq ha
  obtain ⟨bs, hb'⟩ := exists_chars_eq hb
  rw [ha', hb'] at h
  exact (List.cons.inj h).1

/-! ### Trees in parentheses -/

/-- The texts of operands, each behind a separator. -/
def joined (separator : String) (es : List Expression) : List Char :=
  es.flatMap fun e => separator.toList ++ e.chars

theorem toList_intercalate_operands (separator : String) (e : Expression) (es : List Expression) :
    (separator.intercalate (operands (e :: es))).toList = e.chars ++ joined separator es := by
  induction es generalizing e with
  | nil =>
    rw [operands, operands, String.intercalate_singleton, joined, List.flatMap_nil,
      List.append_nil]
    rfl
  | cons f es ih =>
    rw [operands, operands, String.intercalate_cons_cons, String.toList_append,
      String.toList_append]
    have hrest := ih f
    rw [operands] at hrest
    rw [hrest, joined, joined, List.flatMap_cons, List.append_assoc, List.append_assoc]
    rfl

/-- What stands between the first two operands of a tree in parentheses. -/
inductive Sign where
  | conjunction
  | disjunction
  | comparison (op : Comparison)
  | choice

namespace Sign

/-- The text of a sign. -/
def text : Sign → String
  | conjunction => "&&"
  | disjunction => "||"
  | comparison op => op.symbol
  | choice => "?"

theorem text_injective {a b : Sign} (h : a.text = b.text) : a = b := by
  revert h
  cases a with
  | comparison o =>
    cases b with
    | comparison u => cases o <;> cases u <;> simp [text, Comparison.symbol]
    | _ => cases o <;> simp [text, Comparison.symbol]
  | _ =>
    cases b with
    | comparison u => cases u <;> simp [text, Comparison.symbol]
    | _ => simp [text]

/-- Signs end at a blank. -/
theorem blank_not_mem_text (sign : Sign) : ' ' ∉ sign.text.toList := by
  cases sign with
  | comparison op => cases op <;> decide
  | _ => decide

end Sign

/-- How the body of a tree in parentheses begins: an operand, a sign and the rest. -/
inductive Begins : Expression → Expression → Sign → List Char → Prop where
  | conjunction (e f : Expression) (es : List Expression) :
    Begins (.conjunction (e :: f :: es)) e .conjunction (f.chars ++ joined " && " es)
  | disjunction (e f : Expression) (es : List Expression) :
    Begins (.disjunction (e :: f :: es)) e .disjunction (f.chars ++ joined " || " es)
  | comparison (op : Comparison) (l r : Expression) :
    Begins (.comparison op l r) l (.comparison op) r.chars
  | choice (c t f : Expression) :
    Begins (.choice c t f) c .choice (t.chars ++ " : ".toList ++ f.chars)

theorem exists_begins {e : Expression} (h : e.isLegible = true)
    (hcompound : e.needsParentheses = true) :
    ∃ first sign rest, Begins e first sign rest := by
  cases e with
  | conjunction es =>
    match es, h with
    | e :: f :: es, _ => exact ⟨_, _, _, .conjunction e f es⟩
  | disjunction es =>
    match es, h with
    | e :: f :: es, _ => exact ⟨_, _, _, .disjunction e f es⟩
  | comparison op l r => exact ⟨_, _, _, .comparison op l r⟩
  | choice c t f => exact ⟨_, _, _, .choice c t f⟩
  | embedded s => cases h
  | constant value => cases hcompound
  | path model p => cases hcompound
  | negation e => cases hcompound
  | formatted parts f => cases hcompound

/-- The operands of a tree. -/
def children : Expression → List Expression
  | .negation e => [e]
  | .conjunction es | .disjunction es => es
  | .comparison _ a b => [a, b]
  | .choice c t f => [c, t, f]
  | _ => []

theorem areLegible_iff {es : List Expression} :
    areLegible es = true ↔ ∀ e ∈ es, e.isLegible = true := by
  induction es with
  | nil => simp [areLegible]
  | cons e es ih => simp [areLegible, ih]

theorem isLegible_of_mem_children {e child : Expression} (h : e.isLegible = true)
    (hchild : child ∈ e.children) : child.isLegible = true := by
  cases e with
  | negation e =>
    obtain rfl := List.mem_singleton.1 hchild
    exact h
  | conjunction es =>
    rw [isLegible, Bool.and_eq_true] at h
    exact areLegible_iff.1 h.2 child hchild
  | disjunction es =>
    rw [isLegible, Bool.and_eq_true] at h
    exact areLegible_iff.1 h.2 child hchild
  | comparison op a b =>
    rw [isLegible, Bool.and_eq_true] at h
    simp only [children, List.mem_cons, List.not_mem_nil, or_false] at hchild
    rcases hchild with rfl | rfl
    · exact h.1
    · exact h.2
  | choice c t f =>
    rw [isLegible, Bool.and_eq_true, Bool.and_eq_true] at h
    simp only [children, List.mem_cons, List.not_mem_nil, or_false] at hchild
    rcases hchild with rfl | rfl | rfl
    · exact h.1.1
    · exact h.1.2
    · exact h.2
  | constant value => cases hchild
  | path model p => cases hchild
  | formatted parts f => cases hchild
  | embedded s => cases hchild

namespace Begins

variable {e first : Expression} {sign : Sign} {rest : List Char}

theorem first_mem_children (h : Begins e first sign rest) : first ∈ e.children := by
  cases h <;> exact List.mem_cons_self

theorem body_eq (h : Begins e first sign rest) :
    e.body.toList = first.chars ++ ' ' :: (sign.text.toList ++ ' ' :: rest) := by
  cases h with
  | conjunction e f es =>
    rw [body, toList_intercalate_operands, joined, List.flatMap_cons, List.append_assoc]
    rfl
  | disjunction e f es =>
    rw [body, toList_intercalate_operands, joined, List.flatMap_cons, List.append_assoc]
    rfl
  | comparison op l r =>
    rw [body]
    simp only [String.toList_append, List.append_assoc]
    rfl
  | choice c t f =>
    rw [body]
    simp only [String.toList_append, List.append_assoc]
    rfl

end Begins

/-- More operands of one connective end at the closing parenthesis. -/
theorem joined_append_inj {separator : String} {start : List Char}
    (hseparator : separator.toList = ' ' :: start) {es fs : List Expression} {r s : List Char}
    (hes : ∀ e ∈ es, e.IsRecognized) (hfs : ∀ f ∈ fs, f.isLegible = true)
    (h : joined separator es ++ ')' :: r = joined separator fs ++ ')' :: s) :
    es = fs ∧ r = s := by
  have hcons : ∀ (e : Expression) (es : List Expression) (r : List Char),
      joined separator (e :: es) ++ r =
        separator.toList ++ (e.chars ++ (joined separator es ++ r)) := by
    intro e es r
    rw [joined, List.flatMap_cons, List.append_assoc, List.append_assoc]
    rfl
  -- a separator starts with a blank, so it is not taken for the parenthesis
  have hends : ∀ (e : Expression) (es : List Expression) (r s : List Char),
      joined separator (e :: es) ++ r ≠ ')' :: s := by
    intro e es r s h
    rw [hcons, hseparator] at h
    exact absurd (List.cons.inj h).1 (by decide)
  induction es generalizing fs with
  | nil =>
    cases fs with
    | nil => exact ⟨rfl, (List.cons.inj h).2⟩
    | cons f fs => exact (hends f fs _ _ h.symm).elim
  | cons e es ih =>
    cases fs with
    | nil => exact (hends e es _ _ h).elim
    | cons f fs =>
      rw [hcons, hcons] at h
      obtain ⟨rfl, hrest⟩ := hes e List.mem_cons_self f (hfs f List.mem_cons_self) _ _
        (List.append_cancel_left h)
      obtain ⟨rfl, htail⟩ := ih (fun e he => hes e (List.mem_cons_of_mem _ he))
        (fun f hf => hfs f (List.mem_cons_of_mem _ hf)) hrest
      exact ⟨rfl, htail⟩

/-- The sign after the first operand tells the kind of the tree, and then the rest tells its other
operands. -/
theorem Begins.inj {a b first : Expression} {sign : Sign} {as bs r s : List Char}
    (ha : Begins a first sign as) (hb : Begins b first sign bs)
    (hknown : ∀ e ∈ a.children, e.IsRecognized) (hlegible : ∀ e ∈ b.children, e.isLegible = true)
    (h : as ++ ')' :: r = bs ++ ')' :: s) : a = b ∧ r = s := by
  -- the operand after the first sign, whatever follows it
  have hsecond : ∀ {e f : Expression} {r s : List Char}, e ∈ a.children → f ∈ b.children →
      e.chars ++ r = f.chars ++ s → e = f ∧ r = s :=
    fun he hf heq => hknown _ he _ (hlegible _ hf) _ _ heq
  cases ha with
  | conjunction e f es =>
    cases hb with
    | conjunction _ g fs =>
      rw [List.append_assoc, List.append_assoc] at h
      obtain ⟨rfl, hrest⟩ := hsecond (by simp [children]) (by simp [children]) h
      obtain ⟨rfl, htail⟩ := joined_append_inj rfl (fun e he => hknown e (by simp [children, he]))
        (fun f hf => hlegible f (by simp [children, hf])) hrest
      exact ⟨rfl, htail⟩
  | disjunction e f es =>
    cases hb with
    | disjunction _ g fs =>
      rw [List.append_assoc, List.append_assoc] at h
      obtain ⟨rfl, hrest⟩ := hsecond (by simp [children]) (by simp [children]) h
      obtain ⟨rfl, htail⟩ := joined_append_inj rfl (fun e he => hknown e (by simp [children, he]))
        (fun f hf => hlegible f (by simp [children, hf])) hrest
      exact ⟨rfl, htail⟩
  | comparison op l p =>
    cases hb with
    | comparison _ _ q =>
      obtain ⟨rfl, hrest⟩ := hsecond (by simp [children]) (by simp [children]) h
      exact ⟨rfl, (List.cons.inj hrest).2⟩
  | choice c t f =>
    cases hb with
    | choice _ u g =>
      simp only [List.append_assoc] at h
      obtain ⟨rfl, hrest⟩ := hsecond (by simp [children]) (by simp [children]) h
      obtain ⟨rfl, hends⟩ := hsecond (by simp [children]) (by simp [children])
        (List.append_cancel_left hrest)
      exact ⟨rfl, (List.cons.inj hends).2⟩

/-! ### Every legible tree -/

theorem lead_constant {value : Value} (h : (constant value).isLegible = true) :
    (constant value).lead ∈ ['t', 'f', '\x27'] := by
  cases value with
  | bool b => cases b <;> simp [lead]
  | text s => simp [lead]
  | number x => cases h

theorem needsParentheses_iff_lead {e : Expression} (h : e.isLegible = true) :
    e.needsParentheses = true ↔ e.lead = '(' := by
  cases e with
  | constant value =>
    refine ⟨fun hcompound => absurd hcompound Bool.false_ne_true, fun hlead => ?_⟩
    exact absurd (hlead ▸ lead_constant h) (by decide)
  | path model p => simp [needsParentheses, lead]
  | negation e => simp [needsParentheses, lead]
  | formatted parts f => cases h
  | _ => simp [needsParentheses, lead]

theorem isRecognized_constant {value : Value} (h : (constant value).isLegible = true) :
    (constant value).IsRecognized := by
  intro b hb r s heq
  have hlead := lead_eq h hb heq
  cases b with
  | constant other =>
    cases value with
    | bool x =>
      cases other with
      | bool y =>
        have hxy : x = y := by
          revert hlead
          cases x <;> cases y <;> simp [lead]
        subst hxy
        exact ⟨rfl, List.append_cancel_left heq⟩
      | text u => cases x <;> simp [lead] at hlead
      | number n => cases hb
    | text t =>
      cases other with
      | bool y => cases y <;> simp [lead] at hlead
      | text u =>
        rw [chars_text, chars_text] at heq
        obtain ⟨rfl, hrest⟩ := quote_append_inj heq
        exact ⟨rfl, hrest⟩
      | number n => cases hb
    | number n => cases h
  | _ => exact absurd (hlead ▸ lead_constant h) (by simp [lead])

theorem isRecognized_path {model : Option String} {p : String}
    (h : (Expression.path model p).isLegible = true) : (Expression.path model p).IsRecognized := by
  intro b hb r s heq
  have hlead := lead_eq h hb heq
  cases b with
  | path n q =>
    rw [chars_path, chars_path, List.cons_append, List.cons_append, List.cons_append,
      List.cons_append, List.append_assoc, List.append_assoc] at heq
    obtain ⟨htext, hrest⟩ := Text.append_cons_inj (brace_not_mem_bindingPath h)
      (brace_not_mem_bindingPath hb) (List.cons.inj (List.cons.inj heq).2).2
    obtain ⟨rfl, rfl⟩ := bindingPath_inj h hb (String.toList_injective htext)
    exact ⟨rfl, hrest⟩
  | constant value => exact absurd (hlead ▸ lead_constant hb) (by simp [lead])
  | _ => simp [lead] at hlead

theorem isRecognized_negation {e : Expression} (he : e.isLegible = true) (h : e.IsRecognized) :
    (negation e).IsRecognized := by
  intro b hb r s heq
  have hlead := lead_eq (a := negation e) he hb heq
  cases b with
  | negation f =>
    rw [chars_negation, chars_negation] at heq
    obtain ⟨rfl, hrest⟩ := h f hb r s (List.cons.inj heq).2
    exact ⟨rfl, hrest⟩
  | constant value => exact absurd (hlead ▸ lead_constant hb) (by simp [lead])
  | _ => simp [lead] at hlead

/-- A tree in parentheses is recognized if its operands are. -/
theorem isRecognized_of_compound {a : Expression} (ha : a.isLegible = true)
    (hcompound : a.needsParentheses = true) (hchildren : ∀ e ∈ a.children, e.IsRecognized) :
    a.IsRecognized := by
  intro b hb r s h
  have hcompound' : b.needsParentheses = true := by
    rw [needsParentheses_iff_lead hb, ← lead_eq ha hb h, ← needsParentheses_iff_lead ha]
    exact hcompound
  obtain ⟨first, sign, as, hbegins⟩ := exists_begins ha hcompound
  obtain ⟨first', sign', bs, hbegins'⟩ := exists_begins hb hcompound'
  rw [chars_eq_of_compound hcompound, chars_eq_of_compound hcompound', hbegins.body_eq,
    hbegins'.body_eq] at h
  simp only [List.cons_append, List.append_assoc, List.nil_append, List.cons.injEq,
    true_and] at h
  have hlegible : ∀ e ∈ b.children, e.isLegible = true :=
    fun e he => isLegible_of_mem_children hb he
  obtain ⟨rfl, hrest⟩ := hchildren first hbegins.first_mem_children first'
    (hlegible first' hbegins'.first_mem_children) _ _ h
  obtain ⟨hsign, htail⟩ := Text.append_cons_inj sign.blank_not_mem_text sign'.blank_not_mem_text
    (List.cons.inj hrest).2
  obtain rfl := Sign.text_injective (String.toList_injective hsign)
  exact hbegins.inj hbegins' hchildren hlegible htail

mutual

/-- **Every legible tree is recognized**, by induction over the tree. -/
theorem isRecognized : ∀ {a : Expression}, a.isLegible = true → a.IsRecognized
  | .constant _, h => isRecognized_constant h
  | .path _ _, h => isRecognized_path h
  | .negation e, h => isRecognized_negation h (isRecognized (a := e) h)
  | .conjunction es, h => by
    have hes : areLegible es = true := by
      rw [isLegible, Bool.and_eq_true] at h
      exact h.2
    exact isRecognized_of_compound h rfl (areRecognized hes)
  | .disjunction es, h => by
    have hes : areLegible es = true := by
      rw [isLegible, Bool.and_eq_true] at h
      exact h.2
    exact isRecognized_of_compound h rfl (areRecognized hes)
  | .comparison op a b, h => by
    refine isRecognized_of_compound h rfl ?_
    rw [isLegible, Bool.and_eq_true] at h
    exact List.forall_mem_cons.2 ⟨isRecognized h.1,
      List.forall_mem_singleton.2 (isRecognized h.2)⟩
  | .choice c t f, h => by
    refine isRecognized_of_compound h rfl ?_
    rw [isLegible, Bool.and_eq_true, Bool.and_eq_true] at h
    exact List.forall_mem_cons.2 ⟨isRecognized h.1.1, List.forall_mem_cons.2
      ⟨isRecognized h.1.2, List.forall_mem_singleton.2 (isRecognized h.2)⟩⟩
  | .formatted _ _, h => absurd h Bool.false_ne_true
  | .embedded _, h => absurd h Bool.false_ne_true

/-- So is every tree of a list. -/
theorem areRecognized : ∀ {es : List Expression}, areLegible es = true →
    ∀ e ∈ es, e.IsRecognized
  | [], _ => fun _ he => absurd he List.not_mem_nil
  | e :: es, h => by
    rw [areLegible, Bool.and_eq_true] at h
    intro f hf
    rcases List.mem_cons.1 hf with heq | hf
    · exact heq ▸ isRecognized h.1
    · exact areRecognized h.2 f hf

end

/-! ### Bindings -/

theorem compile_eq {e : Expression} (hwritten : e.isWritten = true)
    (h : e.isLegible = true) : e.compile = braced ("= " ++ e.body) := by
  cases e with
  | constant value => cases hwritten
  | path model p => cases hwritten
  | formatted parts f => cases h
  | _ => rfl

/-- A tree with an operator after its first operand is not taken for that operand alone. -/
theorem body_ne_of_simple {a b : Expression} (ha : a.isLegible = true) (hb : b.isLegible = true)
    (hsimple : a.needsParentheses = false) (hcompound : b.needsParentheses = true) :
    a.body ≠ b.body := by
  intro h
  obtain ⟨first, sign, rest, hbegins⟩ := exists_begins hb hcompound
  have hchars : a.chars ++ [] = first.chars ++ ' ' :: (sign.text.toList ++ ' ' :: rest) := by
    rw [List.append_nil, chars_eq_of_simple hsimple, h, hbegins.body_eq]
  obtain ⟨-, hrest⟩ := isRecognized ha first
    (isLegible_of_mem_children hb hbegins.first_mem_children) _ _ hchars
  cases hrest

/-- **One binding, one tree.**  If the bindings of two legible trees, neither of them a mere
constant or path, are the same text, the trees are the same. -/
theorem compile_injective {a b : Expression} (ha : a.isLegible = true) (hb : b.isLegible = true)
    (hwa : a.isWritten = true) (hwb : b.isWritten = true) (h : a.compile = b.compile) : a = b := by
  have hbody : a.body = b.body := by
    have hlist := congrArg String.toList h
    rw [compile_eq hwa ha, compile_eq hwb hb, braced, braced] at hlist
    simp only [String.toList_append] at hlist
    exact String.toList_injective
      (List.append_cancel_left (List.append_cancel_left (List.append_cancel_right hlist)))
  have hsame : a.needsParentheses = b.needsParentheses := by
    cases hpa : a.needsParentheses <;> cases hpb : b.needsParentheses
    · rfl
    · exact (body_ne_of_simple ha hb hpa hpb hbody).elim
    · exact (body_ne_of_simple hb ha hpb hpa hbody.symm).elim
    · rfl
  have hchars : a.chars ++ [] = b.chars ++ [] := by
    rw [chars, chars, operandText, operandText, hsame, hbody]
  exact (isRecognized ha b hb [] [] hchars).1

/-- The tree of a discount: a negated condition, and texts with quotes, braces and operators. -/
def discount : Expression :=
  .ifElse (.negation (.path (some "ui") "/isEditable"))
    (.comparison .equal (.ofPath "Status") (.ofText "it's ('new' && \x7bopen\x7d) \\"))
    (.disjunction [.negation (.negation (.ofPath "Hidden")),
      .conjunction [.ofText "' || '", .comparison .less (.ofPath "Price") (.ofPath "Limit")]])

/-- The branches of a negated condition are exchanged, and no other tree has that binding. -/
theorem compile_injective_discount :
    let exchanged := Expression.choice (.path (some "ui") "/isEditable")
      (.disjunction [.negation (.negation (.ofPath "Hidden")),
        .conjunction [.ofText "' || '", .comparison .less (.ofPath "Price") (.ofPath "Limit")]])
      (.comparison .equal (.ofPath "Status") (.ofText "it's ('new' && \x7bopen\x7d) \\"))
    discount.isLegible = true ∧ exchanged.isLegible = true ∧ discount.isWritten = true ∧
      exchanged.isWritten = true ∧ discount.compile = exchanged.compile ∧
      discount = exchanged := by
  intro exchanged
  have hlegible : discount.isLegible = true := by decide +kernel
  have hlegible' : exchanged.isLegible = true := by decide +kernel
  have hcompile : discount.compile = exchanged.compile := by decide +kernel
  exact ⟨hlegible, hlegible', rfl, rfl, hcompile,
    compile_injective hlegible hlegible' rfl rfl hcompile⟩

-- a connective of one operand is written like the operand, so it is not legible
example : (conjunction [.negation (.ofPath "A")]).compile = (negation (.ofPath "A")).compile := by
  decide +kernel

end Expression

end TableCompiler
