import TableCompiler.Json.Codec
import TableCompiler.Json.Printing
import TableCompiler.Json.Reading

/-!
# Objects of texts read back

An object whose values are texts or unset is read from its compact text as it was written.  The
text is followed through both machines: the escapes of a string give its characters back, each
member gives a name, a colon and a value, and the members are put together in their order.

* `Json.decode?_toNat` — the codes of characters;
* `Json.run_quote` — the token of a string;
* `Json.textObject`, `Json.run_member`, `Json.run_members` — the tokens of the members of an object;
* `Json.ofText?_textObject`, `Json.ofTokens?_textObject` — what each machine makes of an object;
* `Json.ofText?_compact` — the object that is read.
-/

namespace TableCompiler

namespace Json

open Token

/-! ### Codes of characters -/

theorem not_surrogate (c : Char) : isLeading c.toNat = false ∧ isTrailing c.toNat = false := by
  have hvalid := c.valid
  simp only [UInt32.isValidChar, Nat.isValidChar] at hvalid
  have hcode : c.toNat = c.val.toNat := rfl
  simp only [isLeading, isTrailing, Bool.and_eq_false_iff, decide_eq_false_iff_not]
  omega

/-- The characters of a list of codes, none of which is half a pair. -/
theorem decodeBefore?_toNat (before chars : List Char) :
    decodeBefore? chars (before.map Char.toNat) = some (before.reverse ++ chars) := by
  induction before generalizing chars with
  | nil => rfl
  | cons c before ih =>
    obtain ⟨hleading, htrailing⟩ := not_surrogate c
    have hcons := ih (c :: chars)
    rw [List.reverse_cons, List.append_assoc, List.singleton_append, ← hcons]
    cases before with
    | nil =>
      rw [List.map_singleton, decodeBefore?, hleading, htrailing, if_neg (by decide),
        Char.ofNat_toNat]
      rfl
    | cons next before =>
      rw [List.map_cons, List.map_cons, decodeBefore?, hleading, htrailing, Bool.and_false,
        if_neg (by decide), if_neg (by decide), Char.ofNat_toNat]

theorem decode?_toNat (s : String) : decode? (s.toList.reverse.map Char.toNat) = some s := by
  rw [decode?, decodeBefore?_toNat, List.reverse_reverse, List.append_nil, Option.map_some,
    String.ofList_toList]

/-! ### Tokens of strings -/

/-- The machine after some characters. -/
def run (scan : Scan) (chars : List Char) : Option Scan :=
  chars.foldlM Scan.next scan

theorem run_append {scan next : Scan} {chars : List Char} (h : run scan chars = some next)
    (rest : List Char) : run scan (chars ++ rest) = run next rest := by
  rw [run, List.foldlM_append]
  rw [run] at h
  rw [h]
  rfl

variable (tokens : List Token)

theorem hexDigit?_hexDigit : ∀ d < 16, hexDigit? (hexDigit d) = some d := by
  decide

/-- A hexadecimal digit of a code. -/
theorem next_hexDigit (codes : List Nat) (value left : Nat) {d : Nat} (hd : d < 16) :
    Scan.next ⟨tokens, .code codes value left⟩ (hexDigit d) =
      if left ≤ 1 then some ⟨tokens, .text ((value * 16 + d) :: codes)⟩
      else some ⟨tokens, .code codes (value * 16 + d) (left - 1)⟩ := by
  rw [Scan.next, step, hexDigit?_hexDigit d hd]
  dsimp only [Option.bind_eq_bind, Option.bind_some]
  split <;> rfl

/-- What stands for a character in a string is read as the character. -/
theorem run_quoteChar (codes : List Nat) (c : Char) :
    run ⟨tokens, .text codes⟩ (quoteChar c) = some ⟨tokens, .text (c.toNat :: codes)⟩ := by
  unfold quoteChar
  -- the seven characters that have an escape of their own
  iterate 7
    split
    · rename_i h
      rw [h]
      rfl
  split
  · rename_i hcontrol
    have hvalue : c.toNat / 16 * 16 + c.toNat % 16 = c.toNat := by omega
    have hstart : run ⟨tokens, .text codes⟩ ['\\', 'u', '0', '0'] =
        some ⟨tokens, .code codes 0 2⟩ := rfl
    refine (run_append hstart _).trans ?_
    rw [run, List.foldlM_cons, next_hexDigit tokens codes 0 2 (by omega), if_neg (by decide)]
    rw [Option.bind_eq_bind, Option.bind_some, List.foldlM_cons,
      next_hexDigit tokens codes _ 1 (by omega), if_pos (by decide), Nat.zero_mul, Nat.zero_add,
      hvalue]
    rfl
  · rename_i hquote hslash _ _ _ _ _ hplain
    rw [run, List.foldlM_cons, Scan.next, step, if_neg hslash, if_neg hquote, if_neg hplain]
    rfl

/-- The characters of a string are read one after the other. -/
theorem run_quoteChars (codes : List Nat) (chars : List Char) :
    run ⟨tokens, .text codes⟩ (chars.flatMap quoteChar) =
      some ⟨tokens, .text (chars.reverse.map Char.toNat ++ codes)⟩ := by
  induction chars generalizing codes with
  | nil => rfl
  | cons c chars ih =>
    rw [List.flatMap_cons, run_append (run_quoteChar tokens codes c), ih, List.reverse_cons,
      List.map_append, List.append_assoc]
    rfl

/-- **A string** is read as one token. -/
theorem run_quote (s : String) (rest : List Char) :
    run ⟨tokens, .between⟩ ((quote s).toList ++ rest) =
      run ⟨.text (some s) :: tokens, .between⟩ rest := by
  have hchars : (quote s).toList ++ rest =
      '\x22' :: (s.toList.flatMap quoteChar ++ '\x22' :: rest) := by
    simp only [quote, String.toList_append, String.toList_ofList, List.append_assoc]
    rfl
  have hopen : ∀ more, run ⟨tokens, .between⟩ ('\x22' :: more) = run ⟨tokens, .text []⟩ more :=
    fun _ => rfl
  have hclose : run ⟨tokens, .text (s.toList.reverse.map Char.toNat ++ [])⟩ ['\x22'] =
      some ⟨.text (some s) :: tokens, .between⟩ := by
    rw [List.append_nil, run, List.foldlM_cons, Scan.next, step, if_neg (by decide), if_pos rfl,
      decode?_toNat]
    rfl
  rw [hchars, hopen, run_append (run_quoteChars tokens [] s.toList)]
  exact run_append hclose rest

/-! ### Tokens of members -/

/-- A text that may be unset, as a value. -/
def nullableText (value : Option String) : Json :=
  (Codec.nullable .text).write value

/-- The object of texts that may be unset. -/
def textObject (members : List (String × Option String)) : Json :=
  .obj (members.map fun member => (member.1, nullableText member.2))

/-- The token of a text that may be unset. -/
def textToken : Option String → Token
  | some s => .text (some s)
  | none => .scalar .null

/-- The characters of a member. -/
def memberChars (member : String × Option String) : List Char :=
  (quote member.1).toList ++ ':' :: (compact (nullableText member.2)).toList

/-- The tokens of a member. -/
def memberTokens (member : String × Option String) : List Token :=
  [.text (some member.1), .colon, textToken member.2]

/-- A member is followed by another one or by the end of the object. -/
def IsAfterMember (rest : List Char) : Prop :=
  ∃ c more, rest = c :: more ∧ (c = ',' ∨ c = '\x7d')

theorem run_member (member : String × Option String) {rest : List Char}
    (hrest : IsAfterMember rest) :
    run ⟨tokens, .between⟩ (memberChars member ++ rest) =
      run ⟨(memberTokens member).reverse ++ tokens, .between⟩ rest := by
  obtain ⟨name, value⟩ := member
  rw [memberChars, List.append_assoc, run_quote]
  have hcolon : ∀ more, run ⟨.text (some name) :: tokens, .between⟩ (':' :: more) =
      run ⟨.colon :: .text (some name) :: tokens, .between⟩ more := fun _ => rfl
  rw [List.cons_append, hcolon]
  cases value with
  | some s => exact run_quote _ s rest
  | none =>
    obtain ⟨c, more, rfl, hc⟩ := hrest
    have hword : run ⟨.colon :: .text (some name) :: tokens, .between⟩
        (compact (nullableText none)).toList =
          some ⟨.colon :: .text (some name) :: tokens, .word ['l', 'l', 'u', 'n']⟩ := rfl
    -- the word ends with the character that follows
    rw [run_append hword, run, run, List.foldlM_cons, List.foldlM_cons]
    rcases hc with rfl | rfl <;> rfl

theorem isAfterMember_members (members : List (String × Option String)) (rest : List Char) :
    IsAfterMember
      (members.flatMap (fun member => ',' :: memberChars member) ++ '\x7d' :: rest) := by
  cases members with
  | nil => exact ⟨_, _, rfl, .inr rfl⟩
  | cons member members => exact ⟨_, _, rfl, .inl rfl⟩

/-- Further members are read one after the other. -/
theorem run_members (members : List (String × Option String)) (rest : List Char) :
    run ⟨tokens, .between⟩
        (members.flatMap (fun member => ',' :: memberChars member) ++ '\x7d' :: rest) =
      run ⟨(members.flatMap fun member => .comma :: memberTokens member).reverse ++ tokens,
        .between⟩ ('\x7d' :: rest) := by
  induction members generalizing tokens with
  | nil => rfl
  | cons member members ih =>
    have hcomma : ∀ more, run ⟨tokens, .between⟩ (',' :: more) =
        run ⟨.comma :: tokens, .between⟩ more := fun _ => rfl
    rw [List.flatMap_cons, List.cons_append, List.cons_append, List.append_assoc, hcomma,
      run_member _ _ (isAfterMember_members members rest), ih, List.flatMap_cons,
      List.cons_append, List.reverse_cons, List.reverse_append, List.append_assoc,
      List.append_assoc]
    rfl

/-! ### The text of an object -/

theorem compactMembers_eq (members : List (String × Option String)) :
    compactMembers (members.map fun member => (member.1, nullableText member.2)) =
      members.map fun member => quote member.1 ++ ":" ++ compact (nullableText member.2) := by
  induction members with
  | nil => rfl
  | cons member members ih => rw [List.map_cons, compactMembers, ih, List.map_cons]

theorem toList_member (member : String × Option String) :
    (quote member.1 ++ ":" ++ compact (nullableText member.2)).toList = memberChars member := by
  rw [String.toList_append, String.toList_append, List.append_assoc]
  rfl

theorem toList_intercalate_members (member : String × Option String)
    (members : List (String × Option String)) :
    (",".intercalate ((member :: members).map fun member =>
        quote member.1 ++ ":" ++ compact (nullableText member.2))).toList =
      memberChars member ++ members.flatMap fun member => ',' :: memberChars member := by
  induction members generalizing member with
  | nil =>
    rw [List.map_singleton, String.intercalate_singleton, toList_member, List.flatMap_nil,
      List.append_nil]
  | cons next members ih =>
    have hrest := ih next
    rw [List.map_cons] at hrest
    rw [List.map_cons, List.map_cons, String.intercalate_cons_cons, String.toList_append,
      String.toList_append, hrest, toList_member, List.flatMap_cons, List.append_assoc]
    rfl

/-- The characters of an object after its opening brace. -/
def objectChars : List (String × Option String) → List Char
  | [] => ['\x7d']
  | member :: members =>
    memberChars member ++ (members.flatMap (fun member => ',' :: memberChars member) ++ ['\x7d'])

/-- The tokens of the members of an object. -/
def objectTokens : List (String × Option String) → List Token
  | [] => []
  | member :: members =>
    memberTokens member ++ members.flatMap fun member => .comma :: memberTokens member

theorem toList_textObject (members : List (String × Option String)) :
    (compact (textObject members)).toList = '\x7b' :: objectChars members := by
  have hbraces : "\x7b".toList = ['\x7b'] ∧ "\x7d".toList = ['\x7d'] := ⟨rfl, rfl⟩
  rw [textObject, compact, compactMembers_eq, String.toList_append, String.toList_append,
    hbraces.1, hbraces.2, List.append_assoc]
  cases members with
  | nil => rfl
  | cons member members =>
    rw [toList_intercalate_members, objectChars, List.append_assoc, List.singleton_append]

/-- The tokens of an object stand in the order of its members. -/
theorem ofText?_textObject (members : List (String × Option String)) :
    Token.ofText? (compact (textObject members)) =
      some (.openObject :: (objectTokens members ++ [.closeObject])) := by
  have hopen : ∀ more, run {} ('\x7b' :: more) = run ⟨[.openObject], .between⟩ more :=
    fun _ => rfl
  have hclose : ∀ tokens, run ⟨tokens, .between⟩ ['\x7d'] =
      some ⟨.closeObject :: tokens, .between⟩ := fun _ => rfl
  have hrun : run {} ('\x7b' :: objectChars members) =
      some ⟨.closeObject :: ((objectTokens members).reverse ++ [.openObject]), .between⟩ := by
    rw [hopen]
    cases members with
    | nil => rfl
    | cons member members =>
      rw [objectChars, run_member _ _ (isAfterMember_members members []), run_members, hclose,
        objectTokens, List.reverse_append, List.append_assoc]
  rw [run] at hrun
  rw [Token.ofText?, toList_textObject, hrun]
  simp [finish]

/-! ### Putting members together -/

/-- A member is added to those that were read, whether it is the first one or not. -/
theorem steps_member (before : List (String × Json)) (first : Bool)
    (member : String × Option String) (rest : List Token) :
    (memberTokens member ++ rest).foldlM State.step (.awaitName [] (some before) first) =
      rest.foldlM State.step
        (.afterMember [] (some ((member.1, nullableText member.2) :: before))) := by
  obtain ⟨name, value⟩ := member
  cases value <;> cases first <;> rfl

/-- Further members are added in their order. -/
theorem steps_members (before : List (String × Json)) (members : List (String × Option String)) :
    (members.flatMap (fun member => Token.comma :: memberTokens member) ++
        [Token.closeObject]).foldlM State.step (.afterMember [] (some before)) =
      some (.done (.obj (before.reverse ++
        members.map fun member => (member.1, nullableText member.2)))) := by
  induction members generalizing before with
  | nil =>
    rw [List.map_nil, List.append_nil]
    rfl
  | cons member members ih =>
    have hcomma : ∀ more : List Token,
        (Token.comma :: more).foldlM State.step (.afterMember [] (some before)) =
          more.foldlM State.step (.awaitName [] (some before) false) := fun _ => rfl
    rw [List.flatMap_cons, List.cons_append, List.cons_append, hcomma, List.append_assoc,
      steps_member, ih, List.reverse_cons, List.append_assoc, List.map_cons]
    rfl

theorem ofTokens?_textObject (members : List (String × Option String)) :
    ofTokens? (.openObject :: (objectTokens members ++ [.closeObject])) =
      some (textObject members) := by
  have hopen : ∀ more : List Token,
      (Token.openObject :: more).foldlM State.step (.awaitValue [] false) =
        more.foldlM State.step (.awaitName [] (some []) true) := fun _ => rfl
  have hrun : (Token.openObject :: (objectTokens members ++ [.closeObject])).foldlM State.step
      (.awaitValue [] false) = some (.done (textObject members)) := by
    rw [hopen]
    cases members with
    | nil => rfl
    | cons member members =>
      rw [objectTokens, List.append_assoc, steps_member, steps_members]
      rfl
  rw [ofTokens?, hrun]

/-- **Objects of texts read back** as they were written. -/
theorem ofText?_compact (members : List (String × Option String)) :
    ofText? (compact (textObject members)) = some (textObject members) := by
  rw [ofText?, ofText?_textObject, Option.bind_some, ofTokens?_textObject]

end Json

end TableCompiler
