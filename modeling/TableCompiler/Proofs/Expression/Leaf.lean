import TableCompiler.Expression.Binding
import TableCompiler.Proofs.Text

/-!
# The leaves of expression bindings

Texts and paths in an expression binding end with themselves: a quoted text at the first apostrophe
that is not escaped, and a path at its closing brace.

* `quote_append_inj` — a quoted text can be told from what follows it;
* `isDelimited` — the models and paths that hold no character that ends them;
* `bindingPath_inj` — a delimited path is known by its text, and so is its model.
-/

namespace TableCompiler

/-! ### Quoted texts -/

/-- A character of a quoted text. -/
def quoteChar (c : Char) : List Char :=
  if c = '\\' ∨ c = '\x27' then ['\\', c] else [c]

theorem toList_quote (text : String) :
    (quote text).toList = '\x27' :: (text.toList.flatMap quoteChar ++ ['\x27']) := by
  have hinner : (String.ofList (text.toList.flatMap quoteChar)).toList =
      text.toList.flatMap quoteChar := String.toList_ofList
  show ("\x27" ++ String.ofList (text.toList.flatMap quoteChar) ++ "\x27").toList = _
  rw [String.toList_append, String.toList_append, hinner, List.append_assoc]
  rfl

/-- A character of a quoted text is escaped, or neither a backslash nor an apostrophe. -/
theorem quoteChar_cases (c : Char) :
    quoteChar c = ['\\', c] ∧ (c = '\\' ∨ c = '\x27') ∨
      quoteChar c = [c] ∧ c ≠ '\\' ∧ c ≠ '\x27' := by
  by_cases h : c = '\\' ∨ c = '\x27'
  · exact .inl ⟨if_pos h, h⟩
  · exact .inr ⟨if_neg h, not_or.1 h⟩

/-- One character of a quoted text can be told from the next. -/
theorem quoteChar_append_inj {c d : Char} {r s : List Char}
    (h : quoteChar c ++ r = quoteChar d ++ s) : c = d ∧ r = s := by
  rcases quoteChar_cases c with ⟨hc, -⟩ | ⟨hc, hc', -⟩ <;>
    rcases quoteChar_cases d with ⟨hd, -⟩ | ⟨hd, hd', -⟩ <;> rw [hc, hd] at h
  · obtain ⟨rfl, hrest⟩ := List.cons.inj (List.cons.inj h).2
    exact ⟨rfl, hrest⟩
  · exact absurd (List.cons.inj h).1.symm hd'
  · exact absurd (List.cons.inj h).1 hc'
  · obtain ⟨rfl, hrest⟩ := List.cons.inj h
    exact ⟨rfl, hrest⟩

/-- The apostrophe that ends a quoted text starts no character of it. -/
theorem quoteChar_append_ne {c : Char} {r s : List Char} : quoteChar c ++ r ≠ '\x27' :: s := by
  intro h
  rcases quoteChar_cases c with ⟨hc, -⟩ | ⟨hc, -, hc'⟩ <;> rw [hc] at h
  · exact absurd (List.cons.inj h).1 (by decide)
  · exact hc' (List.cons.inj h).1

/-- **Quoted texts end with themselves.** -/
theorem quote_append_inj {a b : String} {r s : List Char}
    (h : (quote a).toList ++ r = (quote b).toList ++ s) : a = b ∧ r = s := by
  have hchars : ∀ (cs ds : List Char), cs.flatMap quoteChar ++ '\x27' :: r =
      ds.flatMap quoteChar ++ '\x27' :: s → cs = ds ∧ r = s := by
    intro cs
    induction cs with
    | nil =>
      intro ds h
      cases ds with
      | nil => exact ⟨rfl, (List.cons.inj h).2⟩
      | cons d ds =>
        rw [List.flatMap_cons, List.append_assoc] at h
        exact (quoteChar_append_ne h.symm).elim
    | cons c cs ih =>
      intro ds h
      rw [List.flatMap_cons, List.append_assoc] at h
      cases ds with
      | nil => exact (quoteChar_append_ne h).elim
      | cons d ds =>
        rw [List.flatMap_cons, List.append_assoc] at h
        obtain ⟨rfl, hrest⟩ := quoteChar_append_inj h
        obtain ⟨rfl, htail⟩ := ih ds hrest
        exact ⟨rfl, htail⟩
  rw [toList_quote, toList_quote, List.cons_append, List.cons_append, List.append_assoc,
    List.append_assoc] at h
  obtain ⟨htext, hrest⟩ := hchars _ _ (List.cons.inj h).2
  exact ⟨String.toList_injective htext, hrest⟩

/-! ### Paths -/

/-- Whether a model and a path hold no closing brace, and no `>` but the one written after the
model. -/
def isDelimited (model : Option String) (path : String) : Bool :=
  match model with
  | some model => !model.toList.contains '\x7d' && !model.toList.contains '>' &&
      !path.toList.contains '\x7d'
  | none => !path.toList.contains '\x7d' && !path.toList.contains '>'

theorem isDelimited_none_iff {path : String} :
    isDelimited none path = true ↔ '\x7d' ∉ path.toList ∧ '>' ∉ path.toList := by
  simp only [isDelimited, Bool.and_eq_true, Bool.not_eq_true', List.contains_eq_mem,
    decide_eq_false_iff_not]

theorem isDelimited_some_iff {model path : String} :
    isDelimited (some model) path = true ↔
      ('\x7d' ∉ model.toList ∧ '>' ∉ model.toList) ∧ '\x7d' ∉ path.toList := by
  simp only [isDelimited, Bool.and_eq_true, Bool.not_eq_true', List.contains_eq_mem,
    decide_eq_false_iff_not]

theorem toList_bindingPath_some (model path : String) :
    (bindingPath (some model) path).toList = model.toList ++ '>' :: path.toList := by
  rw [bindingPath, String.toList_append, String.toList_append, List.append_assoc]
  rfl

theorem brace_not_mem_bindingPath {model : Option String} {path : String}
    (h : isDelimited model path = true) : '\x7d' ∉ (bindingPath model path).toList := by
  cases model with
  | none => exact (isDelimited_none_iff.1 h).1
  | some model =>
    obtain ⟨⟨hmodel, -⟩, hpath⟩ := isDelimited_some_iff.1 h
    rw [toList_bindingPath_some, List.mem_append, List.mem_cons]
    rintro (hmem | heq | hmem)
    · exact hmodel hmem
    · exact absurd heq (by decide)
    · exact hpath hmem

/-- **A delimited path is known by its text**, and so is its model. -/
theorem bindingPath_inj {m n : Option String} {p q : String} (hp : isDelimited m p = true)
    (hq : isDelimited n q = true) (h : bindingPath m p = bindingPath n q) : m = n ∧ p = q := by
  -- only a path with a model has a `>`
  have hmixed : ∀ {model path other : String}, isDelimited none other = true →
      bindingPath (some model) path ≠ other := by
    rintro model path other hother rfl
    refine (isDelimited_none_iff.1 hother).2 ?_
    rw [toList_bindingPath_some]
    exact List.mem_append_right _ List.mem_cons_self
  cases m with
  | none =>
    cases n with
    | none => exact ⟨rfl, h⟩
    | some n => exact (hmixed hp h.symm).elim
  | some m =>
    cases n with
    | none => exact (hmixed hq h).elim
    | some n =>
      have hlist := congrArg String.toList h
      rw [toList_bindingPath_some, toList_bindingPath_some] at hlist
      obtain ⟨hmodel, hpath⟩ := Text.append_cons_inj (isDelimited_some_iff.1 hp).1.2
        (isDelimited_some_iff.1 hq).1.2 hlist
      rw [String.toList_injective hmodel, String.toList_injective hpath]
      exact ⟨rfl, rfl⟩

end TableCompiler
