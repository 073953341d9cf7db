/-
  LayeredConfig.Proofs.Toml.StringLiteral

  String literals read back.

  Of the quotes in a row inside of a string over lines up to two are held back
  until it is clear that they are content (`pending`).  The writer counts the
  same quotes, and escapes the one that would end the string.  So the automaton
  gives back what was written, character by character, in every form
  (`run_escapedChars`, `run_raw`), for all texts without control characters
  (`readString_stringLiteral`).
-/
import LayeredConfig.Proofs.Toml.Blank
import LayeredConfig.Toml.Literal

namespace LayeredConfig.Toml

/-! ## Plain characters -/

theorem isControl_of_isPlain {c : Char} (h : isPlain c = true) : isControl c = false := by
  simp only [isPlain, isControl, Bool.or_eq_true, Bool.and_eq_true, beq_iff_eq, bne_iff_ne,
    decide_eq_true_eq] at h ⊢
  rcases h with rfl | ⟨hleast, hdelete⟩
  · decide
  · simp [Nat.not_lt_of_le hleast, hdelete]

namespace StringForm

variable {form : StringForm}

/-! ## Steps -/

/-- The state of the automaton while `n` quotes are held back. -/
def pending : (n : Nat) → State
  | 0 => .content
  | 1 => .afterQuotes false
  | _ => .afterQuotes true

/-- How many quotes in a row are content at most. -/
def allowed (form : StringForm) : Nat :=
  if form.multiline then 2 else 0

theorem allowed_le (form : StringForm) : form.allowed ≤ 2 := by
  rw [allowed]
  split <;> omega

theorem run_of_next {c : Char} {s output content rest : List Char} {state next : State}
    (hstep : form.step c state = .next output next)
    (hrun : form.run next s = some (content, rest)) :
    form.run state (c :: s) = some (output ++ content, rest) := by
  rw [run, hstep]
  simp only [hrun, Option.map_some]

/-- Behind quotes that were held back every other character is content, or
    begins an escape, and the quotes are content too. -/
theorem step_pending {c : Char} (hc : c ≠ form.quote) {k : Nat} (hk : k ≤ 2) :
    form.step c (pending k) = form.contentStep (List.replicate k form.quote) c := by
  match k, hk with
  | 0, _ => rfl
  | 1, _ => simp [pending, step, hc]
  | 2, _ => simp [pending, step, hc, List.replicate]

theorem step_pending_quote {k : Nat} (hk : k < form.allowed) :
    form.step form.quote (pending k) = .next [] (pending (k + 1)) := by
  have hmultiline : form.multiline = true := by
    by_contra hline
    simp [allowed, hline] at hk
  have hle := form.allowed_le
  match k, hk with
  | 0, _ => simp [pending, step, contentStep, hmultiline]
  | 1, _ => simp [pending, step]
  | k + 2, _ => omega

theorem contentStep_of_isPlain {before : List Char} {c : Char} (hquote : c ≠ form.quote)
    (hescape : form.escapes = true → c ≠ '\\') (hplain : isPlain c = true) :
    form.contentStep before c = .next (before ++ [c]) .content := by
  have hnot : ¬(form.escapes && c == '\\') = true := by
    simpa using hescape
  rw [contentStep, if_neg (by simpa using hquote), if_neg hnot, if_pos hplain]

/-! ## The end of a string -/

theorem run_closed {rest : List Char}
    (hrest : form.multiline = true → rest.head? ≠ some form.quote) (extra : Nat) :
    form.run (.closed extra) rest
      = some (if form.multiline then List.replicate extra form.quote else [], rest) := by
  cases rest with
  | nil => rfl
  | cons c s =>
    have hstep : form.step c (.closed extra)
        = .stop (if form.multiline then List.replicate extra form.quote else []) := by
      rw [step, if_neg]
      intro h
      simp only [Bool.and_eq_true, beq_iff_eq, decide_eq_true_eq] at h
      exact hrest h.1.1 (congrArg some h.1.2)
    rw [run, hstep]

/-- The quotes that end a string. -/
def closing (form : StringForm) : List Char :=
  List.replicate (form.allowed + 1) form.quote

/-- Quotes that are held back at the end of a string are content. -/
theorem run_closing {rest : List Char} (hrest : rest.head? ≠ some form.quote) {k : Nat}
    (hk : k ≤ form.allowed) :
    form.run (pending k) (form.closing ++ rest) = some (List.replicate k form.quote, rest) := by
  cases hmultiline : form.multiline with
  | false =>
    have hclosing : form.closing = [form.quote] := by simp [closing, allowed, hmultiline]
    obtain rfl : k = 0 := by simpa [allowed, hmultiline] using hk
    have hstep : form.step form.quote (pending 0) = .next [] (.closed 2) := by
      simp [pending, step, contentStep, hmultiline]
    have hclosed := run_closed (fun _ => hrest) 2
    rw [hmultiline] at hclosed
    rw [hclosing]
    exact run_of_next hstep hclosed
  | true =>
    have hallowed : form.allowed = 2 := by simp [allowed, hmultiline]
    have hclosing : form.closing = [form.quote, form.quote, form.quote] := by
      simp [closing, hallowed, List.replicate]
    have hlast : form.step form.quote (pending 2) = .next [] (.closed 0) := by
      simp [pending, step]
    have hextra (extra : Nat) (h : extra < 2) :
        form.step form.quote (.closed extra) = .next [] (.closed (extra + 1)) := by
      simp [step, hmultiline, h]
    have hquote (n : Nat) (h : n < 2) := step_pending_quote (hallowed ▸ h : n < form.allowed)
    have hclosed (extra : Nat) := run_closed (fun _ => hrest) extra
    rw [hmultiline] at hclosed
    rw [hclosing]
    -- with k quotes held back, the last k of the three are beyond the end
    match k, hallowed ▸ hk with
    | 0, _ =>
      exact run_of_next (hquote 0 (by decide)) (run_of_next (hquote 1 (by decide))
        (run_of_next hlast (hclosed 0)))
    | 1, _ =>
      exact run_of_next (hquote 1 (by decide)) (run_of_next hlast
        (run_of_next (hextra 0 (by decide)) (hclosed 1)))
    | 2, _ =>
      exact run_of_next hlast (run_of_next (hextra 0 (by decide))
        (run_of_next (hextra 1 (by decide)) (hclosed 2)))

/-! ## Content -/

theorem escapedChar_of_isPlain {c : Char} (hplain : isPlain c = true) (multiline : Bool) :
    Toml.escapedChar multiline c
      = if c = '\t' then ['\\', 't'] else if c = '\\' then ['\\', '\\'] else [c] := by
  have hne (d : Char) (hd : isPlain d = false) : c ≠ d := Text.ne_of_class hplain hd
  simp [Toml.escapedChar, hne '\x08' (by decide), hne '\n' (by decide), hne '\x0c' (by decide),
    hne '\r' (by decide), isControl_of_isPlain hplain]

/-- A character that is no quote gives itself back, and the quotes before it. -/
theorem run_escapedChar {multiline : Bool} {c : Char} {s content rest : List Char} {k : Nat}
    (hk : k ≤ 2) (hquote : c ≠ '"') (hplain : isPlain c = true)
    (hrun : (basic multiline).run (pending 0) s = some (content, rest)) :
    (basic multiline).run (pending k) (Toml.escapedChar multiline c ++ s)
      = some (List.replicate k '"' ++ c :: content, rest) := by
  have hescape :
      (basic multiline).step '\\' (pending k) = .next (List.replicate k '"') .escape := by
    rw [step_pending (by decide : '\\' ≠ '"') hk]
    rfl
  have hletter (d e : Char) (hd : escapedChar? d = some e) :
      (basic multiline).step d .escape = .next [e] (pending 0) := by
    rw [step, hd]
    rfl
  rw [escapedChar_of_isPlain hplain]
  split
  · rename_i htab
    subst htab
    exact run_of_next hescape (run_of_next (hletter 't' '\t' rfl) hrun)
  · split
    · rename_i hbackslash
      subst hbackslash
      exact run_of_next hescape (run_of_next (hletter '\\' '\\' rfl) hrun)
    · rename_i hbackslash
      have hstep : (basic multiline).step c (pending k)
          = .next (List.replicate k '"' ++ [c]) (pending 0) := by
        rw [step_pending hquote hk]
        exact contentStep_of_isPlain hquote (fun _ => hbackslash) hplain
      have happend : List.replicate k '"' ++ c :: content
          = (List.replicate k '"' ++ [c]) ++ content := by simp
      rw [happend]
      exact run_of_next hstep hrun

/-- A text with escapes reads back.  The induction is on the text, for every
    number of quotes that are held back before it. -/
theorem run_escapedChars {multiline : Bool} {s rest : List Char} (hs : Plain s)
    (hrest : rest.head? ≠ some '"') {k : Nat} (hk : k ≤ (basic multiline).allowed) :
    (basic multiline).run (pending k)
        (escapedChars multiline (basic multiline).allowed k s
          ++ ((basic multiline).closing ++ rest))
      = some (List.replicate k '"' ++ s, rest) := by
  induction s generalizing k with
  | nil =>
    rw [escapedChars, List.append_nil]
    exact run_closing hrest hk
  | cons c s ih =>
    obtain ⟨hc, htail⟩ := plain_cons_iff.mp hs
    have hk2 : k ≤ 2 := hk.trans (allowed_le _)
    rw [escapedChars]
    by_cases hquote : c = '"'
    · subst hquote
      rw [if_pos (by decide)]
      split
      · -- the quote is escaped
        have hescape : (basic multiline).step '\\' (pending k)
            = .next (List.replicate k '"') .escape := by
          rw [step_pending (by decide : '\\' ≠ '"') hk2]
          rfl
        have hletter : (basic multiline).step '"' .escape = .next ['"'] (pending 0) := rfl
        exact run_of_next hescape (run_of_next hletter (ih htail (Nat.zero_le _)))
      · -- the quote stands as it is, and is one more in a row
        rename_i hlt
        have hstep := step_pending_quote (Nat.lt_of_not_le hlt)
        have hquotes : List.replicate k '"' ++ '"' :: s = List.replicate (k + 1) '"' ++ s := by
          rw [List.replicate_succ', List.append_assoc]
          rfl
        have hnext := run_of_next hstep (ih htail (Nat.lt_of_not_le hlt))
        rw [hquotes]
        exact hnext
    · rw [if_neg (by simpa using hquote), List.append_assoc]
      exact run_escapedChar hk2 hquote hc (ih htail (Nat.zero_le _))

/-- A text without escapes reads back if its quotes do not end it. -/
theorem run_raw {multiline : Bool} {s rest : List Char} (hs : Plain s)
    (hrest : rest.head? ≠ some '\'') {k : Nat} (hk : k ≤ (literal multiline).allowed)
    (hfree : ¬(literal multiline).closing <:+: List.replicate k '\'' ++ s) :
    (literal multiline).run (pending k) (s ++ ((literal multiline).closing ++ rest))
      = some (List.replicate k '\'' ++ s, rest) := by
  induction s generalizing k with
  | nil =>
    rw [List.append_nil]
    exact run_closing hrest hk
  | cons c s ih =>
    obtain ⟨hc, htail⟩ := plain_cons_iff.mp hs
    by_cases hquote : c = '\''
    · subst hquote
      have hquotes : List.replicate k '\'' ++ '\'' :: s = List.replicate (k + 1) '\'' ++ s := by
        rw [List.replicate_succ', List.append_assoc]
        rfl
      -- as many quotes as end the string would be found in it
      have hlt : k < (literal multiline).allowed := by
        refine Nat.lt_of_le_of_ne hk fun heq => hfree ?_
        rw [hquotes, closing, ← heq]
        exact (List.prefix_append _ _).isInfix
      have hstep := step_pending_quote hlt
      rw [hquotes] at hfree ⊢
      have hnext := run_of_next hstep (ih htail hlt hfree)
      exact hnext
    · have hstep : (literal multiline).step c (pending k)
          = .next (List.replicate k '\'' ++ [c]) (pending 0) := by
        rw [step_pending hquote (hk.trans (allowed_le _))]
        exact contentStep_of_isPlain hquote (fun h => absurd h (by simp [literal])) hc
      have happend : List.replicate k '\'' ++ c :: s
          = (List.replicate k '\'' ++ [c]) ++ s := by simp
      have hsuffix : s <:+: List.replicate k '\'' ++ c :: s :=
        happend ▸ (List.suffix_append _ s).isInfix
      rw [happend]
      exact run_of_next hstep (ih htail (Nat.zero_le _) fun h => hfree (h.trans hsuffix))

end StringForm

/-! ## Strings -/

theorem occursIn_iff {word s : List Char} : occursIn word s = true ↔ word <:+: s := by
  induction s with
  | nil => simp [occursIn]
  | cons c s ih =>
    rw [occursIn, Bool.or_eq_true, ih, List.isPrefixOf_iff_prefix, List.infix_cons_iff]

/-- Only three double quotes open a string over lines. -/
theorem readString_cons_cons {q c : Char} (s : List Char) (h : c ≠ q ∨ s.head? ≠ some q) :
    readString (q :: c :: s) = readLineString (q :: c :: s) := by
  unfold readString
  split
  · rename_i heq
    simp only [List.cons.injEq] at heq
    obtain ⟨rfl, rfl, rfl⟩ := heq
    simp at h
  · rename_i heq
    simp only [List.cons.injEq] at heq
    obtain ⟨rfl, rfl, rfl⟩ := heq
    simp at h
  · rfl

/-- A text that begins with a plain character begins with no line end. -/
theorem skipNewline_append {body closing : List Char} (hbody : Plain body)
    (hclosing : Plain closing) (hne : closing ≠ []) (rest : List Char) :
    skipNewline (body ++ (closing ++ rest)) = body ++ (closing ++ rest) := by
  have hnone : newline? (body ++ (closing ++ rest)) = none := by
    rw [← List.append_assoc]
    cases hstart : body ++ closing with
    | nil => exact absurd (List.append_eq_nil_iff.mp hstart).2 hne
    | cons c start =>
      have hc : isPlain c = true :=
        (plain_append_iff.mpr ⟨hbody, hclosing⟩) c (hstart ▸ List.mem_cons_self)
      rw [List.cons_append]
      unfold newline?
      split
      · rename_i heq
        obtain ⟨rfl, -⟩ := List.cons.inj heq
        exact absurd hc (by decide)
      · rename_i heq
        obtain ⟨rfl, -⟩ := List.cons.inj heq
        exact absurd hc (by decide)
      · rfl
  rw [skipNewline, hnone]
  rfl

theorem plain_escapedChars {s : List Char} (hs : Plain s) (multiline : Bool) (allowed run : Nat) :
    Plain (escapedChars multiline allowed run s) := by
  induction s generalizing run with
  | nil => exact plain_nil
  | cons c s ih =>
    obtain ⟨hc, htail⟩ := plain_cons_iff.mp hs
    have hletters : isPlain '\\' = true ∧ isPlain 't' = true ∧ isPlain '"' = true := by decide
    rw [escapedChars]
    split
    · split <;> simp [ih htail, hletters]
    · rw [StringForm.escapedChar_of_isPlain hc]
      split
      · simp [ih htail, hletters]
      · split <;> simp [ih htail, hletters, hc]

variable {s rest : List Char}

theorem openingNewline_of_plain (hs : Plain s) : openingNewline s = [] := by
  rw [openingNewline, if_neg]
  simpa using hs.newline_notMem

/-- No text between double quotes on one line begins with one. -/
theorem head?_escapedChars (hs : Plain s) :
    (escapedChars false 0 0 s).head? ≠ some '"' := by
  cases s with
  | nil => simp [escapedChars]
  | cons c s =>
    rw [escapedChars]
    split
    · simp
    · rename_i hquote
      rw [StringForm.escapedChar_of_isPlain (plain_cons_iff.mp hs).1]
      split
      · simp
      · split
        · simp
        · simpa using hquote

theorem readString_lineLiteral (hs : Plain s) (hrest : rest.head? ≠ some '"') :
    readString (lineLiteral s ++ rest) = some (String.ofList s, rest) := by
  have hrun := StringForm.run_escapedChars hs hrest (Nat.zero_le (StringForm.basic false).allowed)
  have htext : lineLiteral s ++ rest = '"' :: (escapedChars false 0 0 s ++ '"' :: rest) := by
    simp [lineLiteral]
  have hline : readLineString (lineLiteral s ++ rest) = some (String.ofList s, rest) := by
    rw [htext]
    exact congrArg (Option.map _) hrun
  rw [← hline, htext]
  cases hbody : escapedChars false 0 0 s with
  | nil => exact readString_cons_cons rest (Or.inr hrest)
  | cons c body =>
    have hhead := head?_escapedChars hs
    rw [hbody] at hhead
    exact readString_cons_cons _ (Or.inl fun hc => hhead (congrArg some hc))

theorem readString_rawLineLiteral (hs : Plain s) (hquote : '\'' ∉ s)
    (hrest : rest.head? ≠ some '\'') :
    readString (rawLineLiteral s ++ rest) = some (String.ofList s, rest) := by
  have hfree : ¬(StringForm.literal false).closing <:+: s := fun h =>
    hquote (h.subset (List.mem_singleton_self '\''))
  have hrun := StringForm.run_raw hs hrest (Nat.zero_le (StringForm.literal false).allowed) hfree
  have htext : rawLineLiteral s ++ rest = '\'' :: (s ++ '\'' :: rest) := by
    simp [rawLineLiteral]
  have hline : readLineString (rawLineLiteral s ++ rest) = some (String.ofList s, rest) := by
    rw [htext]
    exact congrArg (Option.map _) hrun
  rw [← hline, htext]
  cases s with
  | nil => exact readString_cons_cons rest (Or.inr hrest)
  | cons c s => exact readString_cons_cons _ (Or.inl fun hc => hquote (by simp [hc]))

theorem readString_blockLiteral (hs : Plain s) (hrest : rest.head? ≠ some '"') :
    readString (blockLiteral s ++ rest) = some (String.ofList s, rest) := by
  have hrun := StringForm.run_escapedChars hs hrest (Nat.zero_le (StringForm.basic true).allowed)
  have htext : blockLiteral s ++ rest
      = '"' :: '"' :: '"' ::
        (escapedChars true 2 0 s ++ ((StringForm.basic true).closing ++ rest)) := by
    rw [blockLiteral, openingNewline_of_plain hs]
    simp [StringForm.closing, StringForm.allowed, StringForm.basic, List.replicate]
  have hskip : skipNewline (escapedChars true 2 0 s ++ ((StringForm.basic true).closing ++ rest))
      = escapedChars true 2 0 s ++ ((StringForm.basic true).closing ++ rest) :=
    skipNewline_append (plain_escapedChars hs true 2 0)
      (by decide : Plain (StringForm.basic true).closing) (by decide) rest
  rw [htext, readString, hskip]
  exact congrArg (Option.map _) hrun

theorem readString_rawBlockLiteral (hs : Plain s) (hquotes : ¬['\'', '\'', '\''] <:+: s)
    (hrest : rest.head? ≠ some '\'') :
    readString (rawBlockLiteral s ++ rest) = some (String.ofList s, rest) := by
  have hrun := StringForm.run_raw hs hrest (Nat.zero_le (StringForm.literal true).allowed) hquotes
  have htext : rawBlockLiteral s ++ rest
      = '\'' :: '\'' :: '\'' :: (s ++ ((StringForm.literal true).closing ++ rest)) := by
    rw [rawBlockLiteral, openingNewline_of_plain hs]
    simp [StringForm.closing, StringForm.allowed, StringForm.literal, List.replicate]
  have hskip : skipNewline (s ++ ((StringForm.literal true).closing ++ rest))
      = s ++ ((StringForm.literal true).closing ++ rest) :=
    skipNewline_append hs (by decide : Plain (StringForm.literal true).closing) (by decide) rest
  rw [htext, readString, hskip]
  exact congrArg (Option.map _) hrun

/-- The form that is chosen for a text without control characters, and why it
    may be. -/
theorem stringLiteral_cases {text : String} (hs : Plain text.toList) :
    stringLiteral text = lineLiteral text.toList
      ∨ stringLiteral text = rawLineLiteral text.toList ∧ '\'' ∉ text.toList
      ∨ stringLiteral text = blockLiteral text.toList
      ∨ stringLiteral text = rawBlockLiteral text.toList
        ∧ ¬['\'', '\'', '\''] <:+: text.toList := by
  have hcontrol : text.toList.any isControl = false := by
    rw [List.any_eq_false]
    intro c hc
    simp [isControl_of_isPlain (hs c hc)]
  have hnewline : text.toList.contains '\n' = false := by simpa using hs.newline_notMem
  simp only [stringLiteral, hcontrol, hnewline, Bool.not_false, Bool.true_and, Bool.false_eq_true,
    if_false]
  split
  · exact Or.inl rfl
  · split
    · rename_i hquote
      exact Or.inr (Or.inl ⟨rfl, by simpa using hquote⟩)
    · split
      · exact Or.inr (Or.inr (Or.inl rfl))
      · split
        · rename_i hquotes
          refine Or.inr (Or.inr (Or.inr ⟨rfl, fun h => ?_⟩))
          have hoccurs := occursIn_iff.mpr h
          simp [hoccurs] at hquotes
        · exact Or.inl rfl

/-- A text without control characters is written on one line. -/
theorem plain_stringLiteral {text : String} (hs : Plain text.toList) :
    Plain (stringLiteral text) := by
  have hdouble : isPlain '"' = true := by decide
  have hsingle : isPlain '\'' = true := by decide
  have hescaped := plain_escapedChars hs
  rcases stringLiteral_cases hs with h | ⟨h, -⟩ | h | ⟨h, -⟩
  · simp [h, lineLiteral, hescaped, hdouble]
  · simp [h, rawLineLiteral, hs, hsingle]
  · simp [h, blockLiteral, openingNewline_of_plain hs, hescaped, hdouble]
  · simp [h, rawBlockLiteral, openingNewline_of_plain hs, hs, hsingle]

/-- The literal of a text without control characters reads back, whatever
    follows it but for another quote. -/
theorem readString_stringLiteral {text : String} (hs : Plain text.toList) {rest : List Char}
    (hdouble : rest.head? ≠ some '"') (hsingle : rest.head? ≠ some '\'') :
    readString (stringLiteral text ++ rest) = some (text, rest) := by
  have hback : some (String.ofList text.toList, rest) = some (text, rest) := by
    rw [String.ofList_toList]
  rw [← hback]
  rcases stringLiteral_cases hs with h | ⟨h, hquote⟩ | h | ⟨h, hquotes⟩
  · rw [h, readString_lineLiteral hs hdouble]
  · rw [h, readString_rawLineLiteral hs hquote hsingle]
  · rw [h, readString_blockLiteral hs hdouble]
  · rw [h, readString_rawBlockLiteral hs hquotes hsingle]

end LayeredConfig.Toml
