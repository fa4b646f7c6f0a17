import TableCompiler.Text

/-!
# Texts and their pieces

* `Text.eq_or_mem_split` — a character of a text is the separator or stands in a piece;
* `Text.of_mem_segments`, `Text.segments_intercalate` — segments, and those of joined texts;
* `Text.cutChars?_eq_some_iff`, `Text.append_cons_inj` — the two sides of the first separator;
* `Text.append_cons_inj_last` — those of the last one;
* `Text.stripStart?_eq_some_iff` — the rest of a text after a given one;
* `Text.dropEndWhile_append` — dropping at the end of two texts in a row;
* `Text.mem_of_mem_trimChars` — nothing is brought in at the ends;
* `Text.IsFirm`, `Text.trimChars_cases`, `Text.trim_trim` — what is trimmed has firm ends.
-/

namespace TableCompiler

namespace Text

/-! ### Pieces -/

theorem splitChars_ne_nil (separator : Char) (chars : List Char) :
    splitChars separator chars ≠ [] := by
  induction chars with
  | nil => exact List.cons_ne_nil _ _
  | cons c rest ih =>
    rw [splitChars]
    split
    · exact List.cons_ne_nil _ _
    · split <;> exact List.cons_ne_nil _ _

theorem splitChars_cons_self (separator : Char) (rest : List Char) :
    splitChars separator (separator :: rest) = [] :: splitChars separator rest := by
  rw [splitChars, if_pos rfl]

/-- Another character joins the first piece. -/
theorem splitChars_cons_of_ne {separator c : Char} (h : c ≠ separator) (rest : List Char) :
    ∃ piece pieces, splitChars separator rest = piece :: pieces ∧
      splitChars separator (c :: rest) = (c :: piece) :: pieces := by
  cases hrest : splitChars separator rest with
  | nil => exact (splitChars_ne_nil separator rest hrest).elim
  | cons piece pieces =>
    refine ⟨piece, pieces, rfl, ?_⟩
    rw [splitChars, if_neg h, hrest]

/-- The pieces on both sides of a separator. -/
theorem splitChars_append_cons (separator : Char) (start rest : List Char) :
    splitChars separator (start ++ separator :: rest) =
      splitChars separator start ++ splitChars separator rest := by
  induction start with
  | nil => exact splitChars_cons_self separator rest
  | cons c start ih =>
    by_cases hc : c = separator
    · rw [hc, List.cons_append, splitChars_cons_self, splitChars_cons_self, ih, List.cons_append]
    · obtain ⟨piece, pieces, hstart, hcons⟩ := splitChars_cons_of_ne hc start
      rw [hcons, List.cons_append, splitChars, if_neg hc, ih, hstart]
      rfl

theorem splitChars_of_not_mem {separator : Char} {chars : List Char} (h : separator ∉ chars) :
    splitChars separator chars = [chars] := by
  induction chars with
  | nil => rfl
  | cons c rest ih =>
    rw [List.mem_cons, not_or] at h
    have hc : c ≠ separator := fun heq => h.1 heq.symm
    rw [splitChars, if_neg hc, ih h.2]

/-- What stands before the first separator is the first piece. -/
theorem splitChars_append {separator : Char} {start : List Char} (h : separator ∉ start)
    (rest : List Char) :
    splitChars separator (start ++ separator :: rest) = start :: splitChars separator rest := by
  rw [splitChars_append_cons, splitChars_of_not_mem h, List.singleton_append]

/-- A text without separators is one piece. -/
theorem split_of_not_mem {separator : Char} {text : String} (h : separator ∉ text.toList) :
    split separator text = [text] := by
  rw [split, splitChars_of_not_mem h, List.map_singleton, String.ofList_toList]

/-- No character is lost but the separators. -/
theorem eq_or_mem_splitChars (separator : Char) {c : Char} {chars : List Char} (h : c ∈ chars) :
    c = separator ∨ ∃ piece ∈ splitChars separator chars, c ∈ piece := by
  induction chars with
  | nil => cases h
  | cons first rest ih =>
    by_cases hfirst : first = separator
    · subst hfirst
      rw [splitChars_cons_self]
      rcases List.mem_cons.1 h with rfl | hrest
      · exact .inl rfl
      · refine (ih hrest).imp_right ?_
        rintro ⟨piece, hpiece, hc⟩
        exact ⟨piece, List.mem_cons_of_mem _ hpiece, hc⟩
    · obtain ⟨piece, pieces, hrest, hcons⟩ := splitChars_cons_of_ne hfirst rest
      rw [hcons]
      rcases List.mem_cons.1 h with rfl | hmem
      · exact .inr ⟨c :: piece, List.mem_cons_self, List.mem_cons_self⟩
      · refine (ih hmem).imp_right ?_
        rintro ⟨other, hother, hc⟩
        rw [hrest] at hother
        rcases List.mem_cons.1 hother with rfl | hother
        · exact ⟨first :: other, List.mem_cons_self, List.mem_cons_of_mem _ hc⟩
        · exact ⟨other, List.mem_cons_of_mem _ hother, hc⟩

theorem eq_or_mem_split (separator : Char) {c : Char} {text : String} (h : c ∈ text.toList) :
    c = separator ∨ ∃ piece ∈ split separator text, c ∈ piece.toList := by
  refine (eq_or_mem_splitChars separator h).imp_right ?_
  rintro ⟨piece, hpiece, hc⟩
  exact ⟨String.ofList piece, List.mem_map_of_mem hpiece, by rwa [String.toList_ofList]⟩

theorem not_mem_of_mem_splitChars (separator : Char) {chars piece : List Char}
    (h : piece ∈ splitChars separator chars) : separator ∉ piece := by
  induction chars generalizing piece with
  | nil =>
    rw [List.mem_singleton.1 h]
    exact List.not_mem_nil
  | cons c rest ih =>
    by_cases hc : c = separator
    · rw [hc, splitChars_cons_self] at h
      rcases List.mem_cons.1 h with rfl | h
      · exact List.not_mem_nil
      · exact ih h
    · obtain ⟨first, pieces, hrest, hsplit⟩ := splitChars_cons_of_ne hc rest
      rw [hsplit] at h
      rw [hrest] at ih
      rcases List.mem_cons.1 h with rfl | h
      · rw [List.mem_cons, not_or]
        exact ⟨fun heq => hc heq.symm, ih List.mem_cons_self⟩
      · exact ih (List.mem_cons_of_mem first h)

/-- No piece has the separator in it. -/
theorem not_mem_of_mem_split {separator : Char} {text piece : String}
    (h : piece ∈ split separator text) : separator ∉ piece.toList := by
  obtain ⟨chars, hchars, rfl⟩ := List.mem_map.1 h
  rw [String.toList_ofList]
  exact not_mem_of_mem_splitChars separator hchars

/-- The pieces on both sides of a slash. -/
theorem split_append_slash (start rest : String) :
    split '/' (start ++ "/" ++ rest) = split '/' start ++ split '/' rest := by
  have hchars : (start ++ "/" ++ rest).toList = start.toList ++ '/' :: rest.toList := by
    rw [String.toList_append, String.toList_append, List.append_assoc]
    rfl
  rw [split, hchars, splitChars_append_cons, List.map_append, split, split]

theorem split_ne_nil (separator : Char) (text : String) : split separator text ≠ [] := by
  rw [split, Ne, List.map_eq_nil_iff]
  exact splitChars_ne_nil separator text.toList

/-! ### Segments -/

theorem of_mem_segments {separator : Char} {text segment : String}
    (h : segment ∈ segments separator text) : segment ≠ "" ∧ separator ∉ segment.toList := by
  obtain ⟨hpiece, hne⟩ := List.mem_filter.1 h
  exact ⟨of_decide_eq_true hne, not_mem_of_mem_split hpiece⟩

/-- The segments on both sides of a slash. -/
theorem segments_append_slash (start rest : String) :
    segments '/' (start ++ "/" ++ rest) = segments '/' start ++ segments '/' rest := by
  rw [segments, split_append_slash, List.filter_append, segments, segments]

/-- Names that are segments themselves are not cut any further. -/
theorem flatMap_segments {names : List String}
    (h : ∀ name ∈ names, name ≠ "" ∧ '/' ∉ name.toList) :
    names.flatMap (segments '/') = names := by
  induction names with
  | nil => rfl
  | cons name names ih =>
    obtain ⟨⟨hne, hslash⟩, hrest⟩ := List.forall_mem_cons.1 h
    have hkept : [name].filter (· ≠ "") = [name] :=
      List.filter_eq_self.2 fun other hother => decide_eq_true (List.mem_singleton.1 hother ▸ hne)
    rw [List.flatMap_cons, ih hrest, segments, split_of_not_mem hslash, hkept,
      List.singleton_append]

/-- The segments of names with slashes between them. -/
theorem segments_intercalate (names : List String) :
    segments '/' ("/".intercalate names) = names.flatMap (segments '/') := by
  induction names with
  | nil => rfl
  | cons name names ih =>
    cases names with
    | nil => rw [String.intercalate_singleton, List.flatMap_singleton]
    | cons next names =>
      show _ = segments '/' name ++ (next :: names).flatMap (segments '/')
      rw [String.intercalate_cons_cons, segments_append_slash, ih]

/-! ### The first separator -/

theorem cutChars?_eq_some_iff {separator : Char} {chars before after : List Char} :
    cutChars? separator chars = some (before, after) ↔
      separator ∉ before ∧ chars = before ++ separator :: after := by
  induction chars generalizing before with
  | nil =>
    constructor
    · intro h
      cases h
    rintro ⟨-, h⟩
    exact (List.append_ne_nil_of_right_ne_nil before (List.cons_ne_nil _ _) h.symm).elim
  | cons c rest ih =>
    rw [cutChars?]
    by_cases hc : c = separator
    · subst hc
      rw [if_pos rfl]
      constructor
      · intro h
        obtain ⟨rfl, rfl⟩ := Prod.mk.inj (Option.some.inj h)
        exact ⟨List.not_mem_nil, rfl⟩
      · rintro ⟨hnot, h⟩
        cases before with
        | nil =>
          obtain ⟨-, rfl⟩ := List.cons.inj h
          rfl
        | cons first before =>
          obtain ⟨rfl, -⟩ := List.cons.inj h
          exact (hnot List.mem_cons_self).elim
    · rw [if_neg hc]
      constructor
      · intro h
        obtain ⟨⟨start, stop⟩, hrest, heq⟩ := Option.map_eq_some_iff.1 h
        obtain ⟨rfl, rfl⟩ := Prod.mk.inj heq
        obtain ⟨hnot, rfl⟩ := ih.1 hrest
        refine ⟨?_, rfl⟩
        rw [List.mem_cons, not_or]
        exact ⟨fun heq => hc heq.symm, hnot⟩
      · rintro ⟨hnot, h⟩
        cases before with
        | nil => exact (hc (List.cons.inj h).1).elim
        | cons first before =>
          obtain ⟨rfl, rfl⟩ := List.cons.inj h
          rw [ih.2 ⟨fun hmem => hnot (List.mem_cons_of_mem _ hmem), rfl⟩]
          rfl

/-- A text without the separator moves to what stands before the first one. -/
theorem cutChars?_append {separator : Char} {start : List Char} (h : separator ∉ start)
    (rest : List Char) :
    cutChars? separator (start ++ rest) =
      (cutChars? separator rest).map fun (before, after) => (start ++ before, after) := by
  induction start with
  | nil => exact Option.map_id'.symm
  | cons c start ih =>
    rw [List.mem_cons, not_or] at h
    rw [List.cons_append, cutChars?, if_neg fun heq => h.1 heq.symm, ih h.2, Option.map_map]
    rfl

/-- A text without the separator belongs to what stands before the first one. -/
theorem prefix_of_cutChars? {separator : Char} {start rest before after : List Char}
    (hstart : separator ∉ start)
    (h : cutChars? separator (start ++ rest) = some (before, after)) : start <+: before := by
  obtain ⟨-, heq⟩ := cutChars?_eq_some_iff.1 h
  rcases List.append_eq_append_iff.1 heq with ⟨more, rfl, -⟩ | ⟨more, rfl, hmore⟩
  · exact List.prefix_append _ _
  · cases more with
    | nil => exact ⟨[], by simp⟩
    | cons first more =>
      obtain ⟨rfl, -⟩ := List.cons.inj hmore
      exact (hstart (List.mem_append_right _ List.mem_cons_self)).elim

/-- What stands before the first separator is known, and so is what follows. -/
theorem append_cons_inj {separator : Char} {a b r s : List Char} (ha : separator ∉ a)
    (hb : separator ∉ b) (h : a ++ separator :: r = b ++ separator :: s) : a = b ∧ r = s := by
  have ha' : cutChars? separator (a ++ separator :: r) = some (a, r) :=
    cutChars?_eq_some_iff.2 ⟨ha, rfl⟩
  have hb' : cutChars? separator (a ++ separator :: r) = some (b, s) :=
    cutChars?_eq_some_iff.2 ⟨hb, h⟩
  exact Prod.mk.inj (Option.some.inj (ha'.symm.trans hb'))

/-! ### The last separator -/

/-- What stands behind the last separator is known, and so is what precedes. -/
theorem append_cons_inj_last {separator : Char} {a b r s : List Char} (hr : separator ∉ r)
    (hs : separator ∉ s) (h : a ++ separator :: r = b ++ separator :: s) : a = b ∧ r = s := by
  have hreverse := congrArg List.reverse h
  simp only [List.reverse_append, List.reverse_cons, List.append_assoc,
    List.singleton_append] at hreverse
  obtain ⟨hafter, hbefore⟩ := append_cons_inj (fun hmem => hr (List.mem_reverse.1 hmem))
    (fun hmem => hs (List.mem_reverse.1 hmem)) hreverse
  exact ⟨List.reverse_inj.1 hbefore, List.reverse_inj.1 hafter⟩

/-! ### Ends -/

theorem stripStartChars?_eq_some_iff {start chars rest : List Char} :
    stripStartChars? start chars = some rest ↔ chars = start ++ rest := by
  induction start generalizing chars with
  | nil => simp only [stripStartChars?, Option.some.injEq, List.nil_append]
  | cons s start ih =>
    cases chars with
    | nil => simp [stripStartChars?]
    | cons c chars =>
      rw [stripStartChars?, List.cons_append, List.cons.injEq]
      by_cases hc : s = c
      · rw [if_pos hc, ih]
        exact ⟨fun h => ⟨hc.symm, h⟩, fun h => h.2⟩
      · rw [if_neg hc]
        exact ⟨nofun, fun h => absurd h.1.symm hc⟩

theorem stripStart?_eq_some_iff {start text rest : String} :
    stripStart? start text = some rest ↔ text = start ++ rest := by
  rw [stripStart?, Option.map_eq_some_iff]
  constructor
  · rintro ⟨chars, hchars, rfl⟩
    refine String.toList_injective ?_
    rw [String.toList_append, String.toList_ofList]
    exact stripStartChars?_eq_some_iff.1 hchars
  · rintro rfl
    refine ⟨rest.toList, ?_, String.ofList_toList⟩
    exact stripStartChars?_eq_some_iff.2 String.toList_append

/-- What ends in a character that is not dropped keeps its end. -/
theorem dropEndWhile_append {p : Char → Bool} {start : List Char}
    (hstart : dropEndWhile p start = start) (rest : List Char) :
    dropEndWhile p (start ++ rest) = start ++ dropEndWhile p rest := by
  rw [dropEndWhile] at hstart
  rw [dropEndWhile, dropEndWhile, List.reverse_append, List.dropWhile_append]
  cases hrest : rest.reverse.dropWhile p with
  | nil =>
    rw [List.isEmpty_nil, if_pos rfl, hstart, List.reverse_nil, List.append_nil]
  | cons c cs =>
    rw [List.isEmpty_cons, if_neg Bool.false_ne_true, List.reverse_append, List.reverse_reverse]

theorem mem_of_mem_dropEndWhile {p : Char → Bool} {c : Char} {chars : List Char}
    (h : c ∈ dropEndWhile p chars) : c ∈ chars := by
  rw [dropEndWhile, List.mem_reverse] at h
  exact List.mem_reverse.1 ((List.dropWhile_sublist _).subset h)

theorem mem_of_mem_trimChars {c : Char} {chars : List Char} (h : c ∈ trimChars chars) :
    c ∈ chars :=
  (List.dropWhile_sublist _).subset (mem_of_mem_dropEndWhile h)

/-! ### Firm ends -/

/-- A list that begins and ends with a character other than white space. -/
structure IsFirm (chars : List Char) : Prop where
  head : ∃ c ∈ chars.head?, isBlank c = false
  last : ∃ c ∈ chars.getLast?, isBlank c = false

namespace IsFirm

variable {c d : Char} {chars start rest : List Char}

/-- A list without any white space is firm, unless it is empty. -/
theorem of_forall (hne : chars ≠ []) (h : ∀ c ∈ chars, isBlank c = false) : IsFirm chars :=
  ⟨⟨chars.head hne, List.head?_eq_some_head hne, h _ (List.head_mem hne)⟩,
    ⟨chars.getLast hne, List.getLast?_eq_some_getLast hne, h _ (List.getLast_mem hne)⟩⟩

/-- The same with a test of the characters that are there. -/
theorem of_all (hne : chars ≠ []) (h : chars.all (!isBlank ·) = true) : IsFirm chars :=
  of_forall hne fun c hc => by simpa using List.all_eq_true.1 h c hc

theorem singleton (h : isBlank c = false) : IsFirm [c] :=
  of_forall (List.cons_ne_nil _ _) (by simpa using h)

/-- What stands between two firm lists does not matter. -/
theorem append (hstart : IsFirm start) (between : List Char) (hrest : IsFirm rest) :
    IsFirm (start ++ between ++ rest) := by
  obtain ⟨c, hc, hfirst⟩ := hstart.head
  obtain ⟨d, hd, hlast⟩ := hrest.last
  refine ⟨⟨c, ?_, hfirst⟩, ⟨d, ?_, hlast⟩⟩
  · rw [List.append_assoc, List.head?_append, Option.mem_def.1 hc]
    rfl
  · rw [List.getLast?_append, Option.mem_def.1 hd]
    rfl

theorem cons (h : isBlank c = false) (hrest : IsFirm rest) : IsFirm (c :: rest) :=
  append (.singleton h) [] hrest

theorem enclosed (hc : isBlank c = false) (hd : isBlank d = false) (between : List Char) :
    IsFirm (c :: (between ++ [d])) :=
  append (.singleton hc) between (.singleton hd)

/-- A firm list has nothing to trim. -/
theorem trimChars_eq (h : IsFirm chars) : trimChars chars = chars := by
  obtain ⟨c, hc, hfirst⟩ := h.head
  obtain ⟨d, hd, hlast⟩ := h.last
  obtain ⟨rest, hstart⟩ := List.head?_eq_some_iff.1 hc
  obtain ⟨front, hend⟩ := List.getLast?_eq_some_iff.1 hd
  have hkept : chars.dropWhile isBlank = chars := by
    rw [hstart, List.dropWhile_cons_of_neg (Bool.eq_false_iff.1 hfirst)]
  rw [trimChars, hkept, dropEndWhile, hend, List.reverse_append, List.reverse_singleton,
    List.singleton_append, List.dropWhile_cons_of_neg (Bool.eq_false_iff.1 hlast),
    List.reverse_cons, List.reverse_reverse]

/-- What stands in front of a character other than white space is not trimmed, if it is firm. -/
theorem trimChars_append (hstart : IsFirm start) (hc : isBlank c = false) (rest : List Char) :
    trimChars (start ++ c :: rest) = start ++ trimChars (c :: rest) := by
  obtain ⟨d, hd, hfirst⟩ := hstart.head
  obtain ⟨more, hmore⟩ := List.head?_eq_some_iff.1 hd
  have hkept : start.dropWhile isBlank = start := by
    rw [hmore, List.dropWhile_cons_of_neg (Bool.eq_false_iff.1 hfirst)]
  have hend : dropEndWhile isBlank start = start := by
    have htrim := hstart.trimChars_eq
    rwa [trimChars, hkept] at htrim
  have hall : (start ++ c :: rest).dropWhile isBlank = start ++ c :: rest := by
    rw [hmore, List.cons_append, List.dropWhile_cons_of_neg (Bool.eq_false_iff.1 hfirst)]
  rw [trimChars, hall, dropEndWhile_append hend, trimChars,
    List.dropWhile_cons_of_neg (Bool.eq_false_iff.1 hc)]

end IsFirm

/-- Trimming leaves nothing, or a firm list. -/
theorem trimChars_cases (chars : List Char) :
    trimChars chars = [] ∨ IsFirm (trimChars chars) := by
  cases hstart : chars.dropWhile isBlank with
  | nil =>
    rw [trimChars, hstart]
    exact .inl rfl
  | cons c rest =>
    have hfirst : isBlank c = false := by
      have hhead := List.head?_dropWhile_not isBlank chars
      rwa [hstart] at hhead
    -- what is dropped at the end stands behind the first character
    have hkept : (c :: rest).reverse.dropWhile isBlank =
        rest.reverse.dropWhile isBlank ++ [c] := by
      rw [List.reverse_cons, List.dropWhile_append,
        List.dropWhile_cons_of_neg (Bool.eq_false_iff.1 hfirst)]
      split
      · rename_i hempty
        rw [List.isEmpty_iff.1 hempty, List.nil_append]
      · rfl
    have hlast := List.head?_dropWhile_not isBlank (c :: rest).reverse
    rw [trimChars, hstart, dropEndWhile]
    refine .inr ⟨⟨c, ?_, hfirst⟩, ?_⟩
    · rw [hkept, List.reverse_append, List.reverse_singleton]
      rfl
    · rw [List.getLast?_reverse]
      cases hhead : ((c :: rest).reverse.dropWhile isBlank).head? with
      | none =>
        rw [hkept, List.head?_eq_none_iff] at hhead
        exact absurd hhead (List.append_ne_nil_of_right_ne_nil _ (List.cons_ne_nil _ _))
      | some d =>
        rw [hhead] at hlast
        exact ⟨d, rfl, hlast⟩

theorem trim_eq_self {text : String} (h : IsFirm text.toList) : trim text = text := by
  rw [trim, h.trimChars_eq, String.ofList_toList]

/-- What is trimmed has nothing to trim. -/
theorem trim_trim (text : String) : trim (trim text) = trim text := by
  rcases trimChars_cases text.toList with hempty | hfirm
  · have hnone : trim text = "" := by rw [trim, hempty, String.ofList_nil]
    rw [hnone]
    rfl
  · refine trim_eq_self ?_
    rwa [trim, String.toList_ofList]

/-- White space at the start is trimmed. -/
theorem trim_blank_append (text : String) : trim (" " ++ text) = trim text := by
  have hlist : (" " ++ text).toList = ' ' :: text.toList := String.toList_append
  rw [trim, hlist, trimChars, List.dropWhile_cons_of_pos (by decide)]
  rfl

end Text

end TableCompiler
