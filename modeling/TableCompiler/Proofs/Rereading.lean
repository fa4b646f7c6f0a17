import TableCompiler.Proofs.Expression.Readability
import TableCompiler.Proofs.HiddenActions

/-!
# Reading compiled bindings again

The visibility of an action is a text, and it is read back to tell whether rows are needed.  A text
that was compiled can be read and compiled again without any change, although reading trims it: the
bindings of paths and expressions are firm at both ends, and so is every operand inside them, be it
the text of a number.

* `Number.isFirm_text`, `Expression.isFirm_chars`, `Expression.trim_body` — firm ends;
* `Expression.compile_ofBinding_cases` — what is read from a text and compiled is the trimmed text,
  but for expressions, whose bodies are trimmed too;
* `IsStable`, `Expression.isStable_compile_ofBinding`, `Expression.isStable_compile` — texts that
  do not change, and the bindings that are such texts;
* `Scope.GivesVisible`, `Scope.isStable_of_mem_mergeActions` — so is the visibility of an action,
  unless it is a binding that the manifest gives;
* `Expression.rereading_stable` — all of them together.
-/

namespace TableCompiler

open Text (IsFirm isBlank)

/-! ### Texts of numbers -/

namespace Number

theorem isBlank_of_isDigit {c : Char} (h : c.isDigit = true) : isBlank c = false := by
  have hrange : 48 ≤ c.toNat ∧ c.toNat ≤ 57 := by
    rw [Char.isDigit, Bool.and_eq_true, decide_eq_true_iff, decide_eq_true_iff] at h
    exact h
  simp only [isBlank, Bool.or_eq_false_iff, Bool.and_eq_false_iff, decide_eq_false_iff_not,
    beq_eq_false_iff_ne]
  omega

/-- The digits of a decimal are padded with zeros, and there is a point at most. -/
theorem isBlank_of_mem_positional {d : Decimal} {c : Char} (h : c ∈ (positional d).toList) :
    isBlank c = false := by
  have hdigits : ∀ c ∈ Nat.toDigits 10 d.digits, isBlank c = false := fun c hc =>
    isBlank_of_isDigit (Nat.isDigit_of_mem_toDigits (by decide) (by decide) hc)
  have hzeros : ∀ {n : Nat}, ∀ c ∈ List.replicate n '0', isBlank c = false := fun c hc =>
    isBlank_of_isDigit ((List.mem_replicate.1 hc).2 ▸ rfl)
  rw [positional] at h
  cases hexponent : d.exponent with
  | ofNat e =>
    simp only [hexponent, String.toList_ofList] at h
    split at h
    · exact hzeros c (n := 1) h
    · exact (List.mem_append.1 h).elim (hdigits c) (hzeros c)
  | negSucc e =>
    simp only [hexponent, String.toList_ofList] at h
    have hpadded : ∀ {n : Nat}, ∀ c ∈ List.replicate n '0' ++ Nat.toDigits 10 d.digits,
        isBlank c = false :=
      fun c hc => (List.mem_append.1 hc).elim (hzeros c) (hdigits c)
    split at h
    · exact hpadded c (List.mem_of_mem_take h)
    · rcases List.mem_append.1 h with h | h
      · exact hpadded c (List.mem_of_mem_take h)
      · rcases List.mem_cons.1 h with rfl | h
        · decide
        · exact hpadded c (List.mem_of_mem_drop (Text.mem_of_mem_dropEndWhile h))

theorem positional_ne_nil (d : Decimal) : (positional d).toList ≠ [] := by
  rw [positional]
  cases hexponent : d.exponent with
  | ofNat e =>
    simp only [String.toList_ofList]
    split
    · exact List.cons_ne_nil _ _
    · exact List.append_ne_nil_of_left_ne_nil Nat.toDigits_ne_nil _
  | negSucc e =>
    simp only [String.toList_ofList]
    -- there is a digit more than places behind the point
    have hwhole : ∀ {padded : List Char}, e + 1 < padded.length →
        padded.take (padded.length - (e + 1)) ≠ [] := by
      intro padded hlength hnil
      have hzero := congrArg List.length hnil
      rw [List.length_take, List.length_nil] at hzero
      omega
    have hlength : e + 1 < (List.replicate (e + 1 + 1 - (Nat.toDigits 10 d.digits).length) '0' ++
        Nat.toDigits 10 d.digits).length := by
      rw [List.length_append, List.length_replicate]
      omega
    split
    · exact hwhole hlength
    · exact List.append_ne_nil_of_left_ne_nil (hwhole hlength) _

/-- The text of a number has no white space. -/
theorem isFirm_text (x : Number) : IsFirm x.text.toList := by
  cases x with
  | nan => exact .of_all (by decide) (by decide)
  | infinite negative => cases negative <;> exact .of_all (by decide) (by decide)
  | finite negative units =>
    have hmagnitude : IsFirm
        (if units = 0 then "0" else positional (shortest units)).toList := by
      split
      · exact .of_all (by decide) (by decide)
      · exact .of_forall (positional_ne_nil _) fun c hc => isBlank_of_mem_positional hc
    rw [text]
    split
    · rw [String.toList_append]
      exact .cons (by decide) hmagnitude
    · exact hmagnitude

end Number

/-! ### Operands and bodies -/

namespace Expression

theorem toList_braced (inner : String) :
    (braced inner).toList = '\x7b' :: (inner.toList ++ ['\x7d']) := by
  rw [braced, String.toList_append, String.toList_append, List.append_assoc]
  rfl

theorem toList_expression (body : String) :
    (braced ("=" ++ body)).toList = '\x7b' :: ('=' :: body.toList ++ ['\x7d']) := by
  rw [toList_braced, String.toList_append]
  rfl

theorem isFirm_braced (inner : String) : IsFirm (braced inner).toList := by
  rw [toList_braced]
  exact .enclosed (by decide) (by decide) _

theorem isFirm_quote (text : String) : IsFirm (quote text).toList := by
  rw [toList_quote]
  exact .enclosed (by decide) (by decide) _

theorem isFirm_operand (value : Value) : IsFirm value.operand.toList := by
  cases value with
  | bool b => cases b <;> exact .of_all (by decide) (by decide)
  | text s => exact isFirm_quote s
  | number x => exact x.isFirm_text

theorem isFirm_of_compound {e : Expression} (h : e.needsParentheses = true) : IsFirm e.chars := by
  rw [chars_eq_of_compound h]
  exact .enclosed (by decide) (by decide) _

/-- An operand begins and ends with a sign, a quote, a brace or a character of a number. -/
theorem isFirm_chars : ∀ e : Expression, IsFirm e.chars
  | .constant value => by
    rw [chars_eq_of_simple rfl]
    exact isFirm_operand value
  | .path model p => by
    rw [chars_eq_of_simple rfl, body, String.toList_append]
    exact .cons (by decide) (isFirm_braced _)
  | .negation e => by
    rw [chars_negation]
    exact .cons (by decide) (isFirm_chars e)
  | .formatted ps formatter => by
    rw [chars_eq_of_simple rfl, body, String.toList_append]
    exact .cons (by decide) (isFirm_braced _)
  | .conjunction _ => isFirm_of_compound rfl
  | .disjunction _ => isFirm_of_compound rfl
  | .comparison _ _ _ => isFirm_of_compound rfl
  | .choice _ _ _ => isFirm_of_compound rfl
  | .embedded _ => isFirm_of_compound rfl

theorem isFirm_append_joined (separator : String) (es : List Expression) {start : List Char}
    (h : IsFirm start) : IsFirm (start ++ joined separator es) := by
  induction es generalizing start with
  | nil =>
    rw [joined, List.flatMap_nil, List.append_nil]
    exact h
  | cons e es ih =>
    have hnext := ih (h.append separator.toList e.isFirm_chars)
    rw [joined, List.flatMap_cons, ← List.append_assoc, ← List.append_assoc]
    exact hnext

/-- The operands of a connective have firm ends, if there are any. -/
theorem trim_operands (separator : String) (es : List Expression) :
    Text.trim (separator.intercalate (operands es)) = separator.intercalate (operands es) := by
  cases es with
  | nil => rfl
  | cons e es =>
    refine Text.trim_eq_self ?_
    rw [toList_intercalate_operands]
    exact isFirm_append_joined separator es e.isFirm_chars

theorem Begins.isFirm_body {e first : Expression} {sign : Sign} {rest : List Char}
    (h : Begins e first sign rest) (hrest : IsFirm rest) : IsFirm e.body.toList := by
  have hparts : e.body.toList = first.chars ++ (' ' :: (sign.text.toList ++ [' '])) ++ rest := by
    rw [h.body_eq, List.append_assoc, List.cons_append, List.append_assoc, List.singleton_append]
  rw [hparts]
  exact first.isFirm_chars.append _ hrest

/-- The body of an expression binding has firm ends, unless it was written by hand. -/
theorem trim_body {e : Expression} (h : ∀ body, e ≠ .embedded body) :
    Text.trim e.body = e.body := by
  have hsimple : e.needsParentheses = false → Text.trim e.body = e.body := by
    intro hsimple
    refine Text.trim_eq_self ?_
    rw [← chars_eq_of_simple hsimple]
    exact e.isFirm_chars
  cases e with
  | conjunction es => exact trim_operands " && " es
  | disjunction es => exact trim_operands " || " es
  | comparison op a b =>
    exact Text.trim_eq_self ((Begins.comparison op a b).isFirm_body b.isFirm_chars)
  | choice c t f =>
    refine Text.trim_eq_self ((Begins.choice c t f).isFirm_body ?_)
    exact t.isFirm_chars.append _ f.isFirm_chars
  | embedded body => exact absurd rfl (h body)
  | _ => exact hsimple rfl

/-! ### Reading -/

theorem unbraced?_eq_some_iff {chars inner : List Char} :
    unbraced? chars = some inner ↔ chars = '\x7b' :: (inner ++ ['\x7d']) := by
  constructor
  · intro h
    unfold unbraced? at h
    split at h
    · rename_i rest
      split at h
      · rename_i more hrest
        obtain rfl := Option.some.inj h
        rw [← List.reverse_cons, ← hrest, List.reverse_reverse]
      · cases h
    · cases h
  · rintro rfl
    rw [unbraced?, List.reverse_append, List.reverse_singleton]
    show some inner.reverse.reverse = some inner
    rw [List.reverse_reverse]

/-- A text in braces that is no expression binding, with its path. -/
theorem compile_ofBindingPath (inner : String) : (ofBindingPath inner).compile = braced inner := by
  rw [ofBindingPath]
  split
  · rename_i model p hcut
    obtain ⟨⟨before, after⟩, hchars, heq⟩ := Option.map_eq_some_iff.1 hcut
    obtain ⟨rfl, rfl⟩ := Prod.mk.inj heq
    obtain ⟨-, hinner⟩ := Text.cutChars?_eq_some_iff.1 hchars
    have htext : bindingPath (some (String.ofList before)) (String.ofList after) = inner := by
      refine String.toList_injective ?_
      rw [toList_bindingPath_some, String.toList_ofList, String.toList_ofList, hinner]
    rw [compile, htext]
  · rfl

/-- Reading trims a text. -/
theorem ofBinding_trim (text : String) : ofBinding (Text.trim text) = ofBinding text := by
  rw [ofBinding, ofBinding, Text.trim_trim]

/-- What is read from a text and compiled is the trimmed text, or it is an expression binding and
its body is trimmed too. -/
theorem compile_ofBinding_cases (text : String) :
    (ofBinding text).compile = Text.trim text ∨
      ∃ body, Text.trim text = braced ("=" ++ body) ∧
        ofBinding text = .embedded (Text.trim body) := by
  rw [ofBinding]
  split
  · rename_i htrue
    exact .inl htrue.symm
  · split
    · rename_i hfalse
      exact .inl hfalse.symm
    · split
      · exact .inl rfl
      · rename_i body hinner
        rw [unbraced?_eq_some_iff] at hinner
        refine .inr ⟨String.ofList body, String.toList_injective ?_, rfl⟩
        rw [hinner, toList_expression, String.toList_ofList]
      · rename_i inner _ hinner
        rw [unbraced?_eq_some_iff] at hinner
        split
        · exact .inl rfl
        · refine .inl ?_
          rw [compile_ofBindingPath]
          refine String.toList_injective ?_
          rw [hinner, toList_braced, String.toList_ofList]

/-- An expression binding, with its body trimmed. -/
theorem ofBinding_expression (body : String) :
    ofBinding (braced ("=" ++ body)) = .embedded (Text.trim body) := by
  have hne : ∀ word : String, word.toList.head? ≠ some '\x7b' →
      braced ("=" ++ body) ≠ word := by
    rintro _ hword rfl
    rw [toList_expression] at hword
    exact hword rfl
  have hinner : unbraced? (braced ("=" ++ body)).toList = some ('=' :: body.toList) :=
    unbraced?_eq_some_iff.2 (toList_expression body)
  rw [ofBinding, Text.trim_eq_self (isFirm_braced _)]
  simp only [if_neg (hne "true" (by decide)), if_neg (hne "false" (by decide)), hinner,
    String.ofList_toList]

/-! ### Texts that do not change -/

/-- Reading a text and compiling what was read gives the text again. -/
def IsStable (text : String) : Prop :=
  (ofBinding text).compile = text

theorem isStable_expression {body : String} (h : Text.trim body = body) :
    IsStable (braced ("= " ++ body)) := by
  have hread : ofBinding (braced ("= " ++ body)) = .embedded body := by
    rw [show "= " = "=" ++ " " from rfl, String.append_assoc, ofBinding_expression,
      Text.trim_blank_append, h]
  rw [IsStable, hread]
  rfl

theorem isStable_braced {inner : String} (h : inner.toList.head? ≠ some '=') :
    IsStable (braced inner) := by
  rcases compile_ofBinding_cases (braced inner) with hsame | ⟨body, hbody, -⟩
  · rwa [Text.trim_eq_self (isFirm_braced inner)] at hsame
  · rw [Text.trim_eq_self (isFirm_braced inner)] at hbody
    have hchars := congrArg String.toList hbody
    rw [toList_braced, toList_braced] at hchars
    have hinner := List.append_cancel_right (List.cons.inj hchars).2
    rw [hinner, String.toList_append] at h
    exact absurd rfl h

/-- A text that was read and compiled once does not change any more. -/
theorem isStable_compile_ofBinding (text : String) : IsStable (ofBinding text).compile := by
  rcases compile_ofBinding_cases text with hsame | ⟨body, -, hread⟩
  · rw [IsStable, hsame, ofBinding_trim, hsame]
  · rw [hread]
    exact isStable_expression (Text.trim_trim body)

/-- The trees whose bindings do not change: all of them but texts, numbers, expressions written by
hand, and paths that read as such an expression. -/
def IsReread : Expression → Prop
  | .constant (.bool _) => True
  | .constant _ | .embedded _ => False
  | .path model p => (bindingPath model p).toList.head? ≠ some '='
  | _ => True

theorem isStable_compile {e : Expression} (h : e.IsReread) : IsStable e.compile := by
  cases e with
  | constant value =>
    cases value with
    | bool b => cases b <;> rfl
    | text s => exact h.elim
    | number x => exact h.elim
  | path model p => exact isStable_braced h
  | embedded body => exact h.elim
  | formatted ps formatter =>
    refine isStable_braced ?_
    have hstart : ("parts:[".toList : List Char).head? = some 'p' := rfl
    rw [String.append_assoc, String.append_assoc, String.toList_append, List.head?_append, hstart]
    exact fun h => absurd (Option.some.inj h) (by decide)
  | _ => exact isStable_expression (trim_body fun _ => nofun)

end Expression

/-! ### Visibility of actions -/

open Expression (IsStable isStable_compile)

theorem isReread_shown (hidden : Option (Dynamic Bool)) (navigation : String) :
    (shown hidden navigation).IsReread := by
  cases hidden with
  | none => trivial
  | some value =>
    cases value with
    | literal b => cases b <;> trivial
    | path p => trivial

namespace Scope

/-- What a record adds to the toolbar: nothing, or an action that is visible as annotations say. -/
def AddsShown (t u : Toolbar) : Prop :=
  u.actions = t.actions ∨ ∃ action, ∃ annotations : FieldAnnotations,
    action.visible = annotations.actionVisible ∧ u.actions = t.actions ++ [action]

theorem visible_operationAction (s : Scope) (field : ActionField) (key path : String) :
    (s.operationAction field key path).value.visible = field.annotations.actionVisible := by
  rw [operationAction]
  dsimp only
  split <;> rfl

theorem addOperation_addsShown (s : Scope) (t : Toolbar) (field : ActionField)
    (key path : String) : AddsShown t (s.addOperation t field key path).value := by
  rw [addOperation]
  split
  · by_cases hcan : t.canCopy = true
    · rw [if_pos hcan]
      exact .inl rfl
    · rw [if_neg hcan]
      exact .inr ⟨_, field.annotations, rfl, rfl⟩
  · split
    · exact .inl rfl
    · split
      · exact .inl rfl
      · exact .inr ⟨_, field.annotations, s.visible_operationAction field key path, rfl⟩

theorem addIntent_addsShown (t : Toolbar) (field : IntentField) (key path : String) :
    AddsShown t (addIntent t field key path) := by
  rw [addIntent]
  split
  · exact .inl rfl
  · split
    · exact .inl rfl
    · exact .inr ⟨_, field.annotations, rfl, rfl⟩

theorem addAction_addsShown (s : Scope) (t : Toolbar) (record : DataField × Nat) :
    AddsShown t (s.addAction t record).value := by
  simp only [addAction]
  split
  · split
    · exact .inl rfl
    · exact s.addOperation_addsShown t _ _ _
  · split
    · exact .inl rfl
    · exact addIntent_addsShown t _ _ _
  · exact .inl rfl

/-- The visibility of an action of the toolbar does not change. -/
theorem isStable_of_mem_toolbar (s : Scope) :
    ∀ action ∈ s.toolbar.value.actions, IsStable action.visible := by
  rw [toolbar, Reported.value_foldlM]
  refine List.foldlRecOn (motive := fun t : Toolbar => ∀ action ∈ t.actions,
    IsStable action.visible) _ _ (fun action h => (List.not_mem_nil h).elim) ?_
  rintro t ht record - action haction
  rcases s.addAction_addsShown t record with hsame | ⟨own, annotations, hvisible, hadded⟩
  · rw [hsame] at haction
    exact ht action haction
  · rw [hadded, List.mem_append, List.mem_singleton] at haction
    rcases haction with hold | rfl
    · exact ht action hold
    · rw [hvisible]
      exact isStable_compile (isReread_shown annotations.hidden "")

theorem visibleText?_eq {s : Scope} {control : ControlConfiguration} {key : String}
    {entry : ManifestAction} (hcontrol : s.control = some control)
    (hentry : control.actions.get? key = some entry) :
    s.visibleText? key = entry.visible.map (·.text) := by
  rw [visibleText?, hcontrol]
  cases hvisible : entry.visible <;> simp [hentry, hvisible]

/-- An entry of the manifest gives a binding as the visibility of the action of a key. -/
def GivesVisible (s : Scope) (key text : String) : Prop :=
  ∃ control entry, s.control = some control ∧ control.actions.get? key = some entry ∧
    entry.visible = some (.binding text)

theorem GivesVisible.visibleText? {s : Scope} {key text : String} (h : s.GivesVisible key text) :
    s.visibleText? key = some text := by
  obtain ⟨control, entry, hcontrol, hentry, hvisible⟩ := h
  rw [visibleText?_eq hcontrol hentry, hvisible]
  rfl

/-- What the manifest says about a visibility is a truth value, or a binding that it gives. -/
theorem isStable_or_givesVisible {s : Scope} {key text : String}
    (h : s.visibleText? key = some text) : IsStable text ∨ s.GivesVisible key text := by
  simp only [visibleText?, Option.bind_eq_bind, Option.bind_eq_some_iff] at h
  obtain ⟨control, hcontrol, entry, hentry, value, hvalue, heq⟩ := h
  obtain rfl := Option.some.inj heq
  cases value with
  | flag b => exact .inl (by cases b <;> rfl)
  | binding text => exact .inr ⟨control, entry, hcontrol, hentry, hvalue⟩

theorem isStable_or_givesVisible_getD (s : Scope) (key : String) {otherwise : String}
    (h : IsStable otherwise) :
    IsStable ((s.visibleText? key).getD otherwise) ∨
      s.GivesVisible key ((s.visibleText? key).getD otherwise) := by
  cases htext : s.visibleText? key with
  | none => exact .inl h
  | some text => exact isStable_or_givesVisible htext

/-- Neither does that of any other action, unless it is a binding of the manifest. -/
theorem isStable_of_mem_mergeActions {s : Scope} {action : Action}
    (h : action ∈ (s.mergeActions s.toolbar.value).value) :
    IsStable action.visible ∨ s.GivesVisible action.key action.visible := by
  rw [mergeActions] at h
  split at h
  · rename_i control hcontrol
    have hmem := (s.toolbar.value.merge_isArrangement control.actions).perm.mem_iff.1 h
    rcases List.mem_append.1 hmem with hrevised | hcustom
    · obtain ⟨before, hbefore, hrevised⟩ := exists_isRevised_of_override hcontrol hrevised
      have hstable := s.isStable_of_mem_toolbar before hbefore
      have hkey : action.key = before.key := (congrArg Action.key hrevised.settled :)
      by_cases hhidden : before.key ∈ s.toolbar.value.hidden
      · rw [hrevised.kept hhidden]
        exact .inl hstable
      · rw [hrevised.set hhidden, ← hkey]
        exact s.isStable_or_givesVisible_getD action.key hstable
    · obtain ⟨custom, hmember, rfl⟩ := List.mem_map.1 hcustom
      obtain ⟨⟨key, entry⟩, hentry, hcase⟩ := List.mem_filterMap.1 hmember
      dsimp only at hcase
      split at hcase
      · cases hcase
      · obtain rfl := Option.some.inj hcase
        -- a custom action is always visible, unless the manifest says when it is
        have hvisible : (entry.toAction key).visible = (s.visibleText? key).getD "true" := by
          rw [visibleText?_eq hcontrol (Dictionary.get?_eq_some_of_mem hentry)]
          rfl
        show IsStable (entry.toAction key).visible ∨
          s.GivesVisible key (entry.toAction key).visible
        rw [hvisible]
        exact s.isStable_or_givesVisible_getD key (isStable_compile (e := .ofBool true) trivial)
  · exact .inl (s.isStable_of_mem_toolbar action h)

end Scope

/-- **Reading compiled bindings again.**  What is read from any text compiles to a text that does
not change; so does every tree that is a truth value, a node over other trees, or a path whose text
does not begin as an expression binding; and so the visibility of an action of a table does not
change either, unless it is a binding of the manifest. -/
theorem Expression.rereading_stable :
    (∀ text : String, IsStable (ofBinding text).compile) ∧
    (∀ e : Expression, e.IsReread → IsStable e.compile) ∧
    ∀ (c : Context) (r : TableRequest) (scope : Reported Scope) (t : Table),
      c.resolve r = .ok scope → (c.compile r).value = .ok t → ∀ action ∈ t.actions,
        IsStable action.visible ∨ scope.value.GivesVisible action.key action.visible := by
  refine ⟨isStable_compile_ofBinding, fun _ => isStable_compile, ?_⟩
  intro c r scope t hscope hcompile action haction
  obtain ⟨scope', hscope', hyields⟩ := Context.exists_yields hcompile
  obtain rfl : scope' = scope := Except.ok.inj (hscope'.symm.trans hscope)
  rw [hyields.actions] at haction
  exact Scope.isStable_of_mem_mergeActions haction

/-- A record for an action that is hidden while a request is closed. -/
def DataField.rejection : DataField :=
  .action ⟨none, "hr.reject", false, false, none, { hidden := some (.path "Closed") }⟩

/-- The visibility of a rejection does not change, and neither does the binding of a path in a
named model, whatever the braces in its text. -/
theorem Expression.rereading_stable_rejection :
    IsStable (path (some "ui") "\x7b=Open\x7d").compile ∧
    ∃ scope t, (Context.approvals [.rejection]).resolve { entitySet := "Requests" } = .ok scope ∧
      ((Context.approvals [.rejection]).compile { entitySet := "Requests" }).value = .ok t ∧
      ∃ action ∈ t.actions, action.visible = "\x7b= %\x7bClosed\x7d !== true\x7d" ∧
        IsStable action.visible := by
  have hpath : (path (some "ui") "\x7b=Open\x7d").IsReread := by
    show _ ≠ _
    decide
  refine ⟨rereading_stable.2.1 _ hpath, ?_⟩
  have hrun : (match (Context.approvals [.rejection]).resolve { entitySet := "Requests" },
      ((Context.approvals [.rejection]).compile { entitySet := "Requests" }).value with
    | .ok scope, .ok t => t.actions.any fun action =>
        decide (action.visible = "\x7b= %\x7bClosed\x7d !== true\x7d") &&
        decide (scope.value.visibleText? action.key = none)
    | _, _ => false) = true := by
    decide +kernel
  split at hrun
  · rename_i scope t hscope hcompile
    obtain ⟨action, haction, hentry⟩ := List.any_eq_true.1 hrun
    rw [Bool.and_eq_true, decide_eq_true_iff, decide_eq_true_iff] at hentry
    refine ⟨scope, t, hscope, hcompile, action, haction, hentry.1, ?_⟩
    rcases rereading_stable.2.2 _ _ scope t hscope hcompile action haction with hstable | hgiven
    · exact hstable
    · cases hentry.2.symm.trans hgiven.visibleText?
  · cases hrun

/-- Requests with a custom action that the manifest shows while they are open. -/
def Context.reminders : Context where
  service := (Context.approvals []).service
  manifest := { controls := .ofList [("@UI.LineItem",
    { actions := .ofList [("Remind", { visible := some (.binding "\x7b=%\x7bOpen\x7d\x7d") })] })] }

/-- The binding that the manifest gives is the visibility of the custom action as it stands, and
gets a space when it is read and compiled again. -/
theorem Expression.reminder_respaced :
    ∃ t, (Context.reminders.compile { entitySet := "Requests" }).value = .ok t ∧
      ∃ action ∈ t.actions, action.visible = "\x7b=%\x7bOpen\x7d\x7d" ∧
        (ofBinding action.visible).compile = "\x7b= %\x7bOpen\x7d\x7d" ∧
        ¬ IsStable action.visible := by
  have hread : (ofBinding "\x7b=%\x7bOpen\x7d\x7d").compile = "\x7b= %\x7bOpen\x7d\x7d" := by
    decide +kernel
  have hrun : (match (Context.reminders.compile { entitySet := "Requests" }).value with
    | .ok t => t.actions.any fun action => decide (action.visible = "\x7b=%\x7bOpen\x7d\x7d")
    | .error _ => false) = true := by
    decide +kernel
  split at hrun
  · rename_i t hcompile
    obtain ⟨action, haction, hvisible⟩ := List.any_eq_true.1 hrun
    rw [decide_eq_true_iff] at hvisible
    refine ⟨t, hcompile, action, haction, hvisible, by rw [hvisible, hread], ?_⟩
    rw [hvisible, IsStable, hread]
    decide
  · cases hrun

end TableCompiler
