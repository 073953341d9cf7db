/-
  LayeredConfig.Proofs.TypeName.Brackets

  Brackets and commas in type names.

  A text is balanced if as many brackets close as open in it, and in no start of
  it more close than open.  A comma stands outside brackets if as many close as
  open before it.  The two scans that names are taken apart with keep count of a
  depth; they find out just that: the one whether a text is balanced
  (`balanced_iff`), the other the one comma of a balanced text that stands
  outside brackets (`splitPair?_eq_some_iff`).
-/
import LayeredConfig.Proofs.Text.Trim
import LayeredConfig.TypeDesc.Grammar

namespace LayeredConfig.TypeDesc

open LayeredConfig.Text

/-! ## Balanced texts -/

/-- As many brackets close as open, and no start closes more than it opens. -/
structure Balanced (s : List Char) : Prop where
  closes_le : ∀ start, start <+: s → start.count ']' ≤ start.count '['
  closes_eq : s.count ']' = s.count '['

/-- There is a comma before which as many brackets close as open. -/
def HasOuterComma (s : List Char) : Prop :=
  ∃ before after, s = before ++ ',' :: after ∧ before.count ']' = before.count '['

/-- A text that can stand before or behind the comma of a union. -/
structure IsUnionPart (s : List Char) : Prop where
  balanced : Balanced s
  inner : ¬HasOuterComma s

/-! ## Texts inside of brackets -/

/-- A text behind `depth` open brackets never closes more than these and those
    that it opens. -/
def StaysOpen (depth : Nat) (s : List Char) : Prop :=
  ∀ start, start <+: s → start.count ']' ≤ depth + start.count '['

/-- A text behind `depth` open brackets has a comma behind which none is
    open. -/
def HasCommaAt (depth : Nat) (s : List Char) : Prop :=
  ∃ before after, s = before ++ ',' :: after ∧ before.count ']' = depth + before.count '['

theorem hasCommaAt_zero {s : List Char} : HasCommaAt 0 s ↔ HasOuterComma s := by
  simp only [HasCommaAt, HasOuterComma, Nat.zero_add]

theorem balanced_iff_staysOpen {s : List Char} :
    Balanced s ↔ StaysOpen 0 s ∧ s.count ']' = s.count '[' := by
  simp only [StaysOpen, Nat.zero_add]
  exact ⟨fun h => ⟨h.closes_le, h.closes_eq⟩, fun h => ⟨h.1, h.2⟩⟩

/-- The depth behind a character. -/
def depthBehind (depth : Nat) (c : Char) : Nat :=
  if c = '[' then depth + 1 else if c = ']' then depth - 1 else depth

/-- Behind a character that does not close too much the count goes on from the
    depth behind it. -/
theorem count_cons_balance {depth : Nat} {c : Char} (h : c = ']' → 0 < depth) (s : List Char) :
    depth + (c :: s).count '[' + s.count ']'
      = depthBehind depth c + s.count '[' + (c :: s).count ']' := by
  rw [List.count_cons, List.count_cons, depthBehind]
  by_cases hopen : c = '['
  · subst hopen
    simp
    omega
  · by_cases hclose : c = ']'
    · have hdepth := h hclose
      subst hclose
      simp
      omega
    · simp [hopen, hclose]

theorem staysOpen_nil (depth : Nat) : StaysOpen depth [] := by
  intro start hstart
  rw [List.prefix_nil.mp hstart]
  simp

theorem staysOpen_cons {depth : Nat} {c : Char} {s : List Char} :
    StaysOpen depth (c :: s) ↔ (c = ']' → 0 < depth) ∧ StaysOpen (depthBehind depth c) s := by
  constructor
  · intro h
    have hc : c = ']' → 0 < depth := by
      rintro rfl
      have hone : 1 ≤ depth := by simpa using h [']'] (List.prefix_append [']'] s)
      exact hone
    refine ⟨hc, fun start hstart => ?_⟩
    have hcount := count_cons_balance hc start
    have hbound := h (c :: start) ((List.prefix_cons_inj c).mpr hstart)
    omega
  · rintro ⟨hc, h⟩ start hstart
    rcases List.prefix_cons_iff.mp hstart with rfl | ⟨rest, rfl, hrest⟩
    · simp
    · have hcount := count_cons_balance hc rest
      have hbound := h rest hrest
      omega

/-- A comma that is not the first character is one of the rest. -/
theorem hasCommaAt_cons {depth : Nat} {c : Char} {s : List Char} (h : c = ']' → 0 < depth)
    (hcomma : ¬(c = ',' ∧ depth = 0)) :
    HasCommaAt depth (c :: s) ↔ HasCommaAt (depthBehind depth c) s := by
  constructor
  · rintro ⟨before, after, heq, hbefore⟩
    cases before with
    | nil =>
      obtain ⟨rfl, -⟩ := List.cons.inj heq
      exact absurd ⟨rfl, by simpa using hbefore.symm⟩ hcomma
    | cons d before =>
      obtain ⟨rfl, rfl⟩ := List.cons.inj heq
      have hcount := count_cons_balance h before
      exact ⟨before, after, rfl, by omega⟩
  · rintro ⟨before, after, rfl, hbefore⟩
    have hcount := count_cons_balance h before
    exact ⟨c :: before, after, rfl, by omega⟩

/-! ## The depth of brackets -/

theorem depthAfter_cons (depth : Nat) (c : Char) (s : List Char) :
    depthAfter depth (c :: s)
      = if c = ']' ∧ depth = 0 then none else depthAfter (depthBehind depth c) s := by
  by_cases hopen : c = '['
  · subst hopen
    simp [depthAfter, depthBehind]
  · by_cases hclose : c = ']'
    · subst hclose
      cases depth with
      | zero => simp [depthAfter]
      | succ depth => simp [depthAfter, depthBehind]
    · simp [depthAfter, depthBehind, hopen, hclose]

/-- The depth behind a text that never closes too much is what opens and does
    not close. -/
theorem depthAfter_eq_some_iff {depth final : Nat} {s : List Char} :
    depthAfter depth s = some final ↔
      StaysOpen depth s ∧ final + s.count ']' = depth + s.count '[' := by
  -- the depth at the start is what the characters before have left open
  induction s generalizing depth with
  | nil => simp [depthAfter, staysOpen_nil, eq_comm]
  | cons c s ih =>
    rw [depthAfter_cons, staysOpen_cons]
    by_cases hc : c = ']' ∧ depth = 0
    · simp [hc]
    · have hdepth : c = ']' → 0 < depth := fun hclose =>
        Nat.pos_of_ne_zero fun hzero => hc ⟨hclose, hzero⟩
      have hcount := count_cons_balance hdepth s
      rw [if_neg hc, ih]
      constructor
      · rintro ⟨hstays, hfinal⟩
        exact ⟨⟨hdepth, hstays⟩, by omega⟩
      · rintro ⟨⟨-, hstays⟩, hfinal⟩
        exact ⟨hstays, by omega⟩

/-- The scan for balanced brackets finds just the balanced texts. -/
theorem balanced_iff {s : List Char} : balanced s = true ↔ Balanced s := by
  rw [balanced, beq_iff_eq, depthAfter_eq_some_iff, balanced_iff_staysOpen]
  simp only [Nat.zero_add]

/-! ## Parts of balanced texts -/

/-- What stands before a comma outside brackets is balanced, and so is what
    stands behind it. -/
theorem Balanced.of_append {before after : List Char} (h : Balanced (before ++ ',' :: after))
    (hbefore : before.count ']' = before.count '[') : Balanced before ∧ Balanced after := by
  refine ⟨⟨fun start hstart => ?_, hbefore⟩, ⟨fun start hstart => ?_, ?_⟩⟩
  · exact h.closes_le start (hstart.trans (List.prefix_append before _))
  · have hle := h.closes_le (before ++ ',' :: start)
      ((List.prefix_append_right_inj before).mpr ((List.prefix_cons_inj ',').mpr hstart))
    simp at hle
    omega
  · have heq := h.closes_eq
    simp at heq
    omega

/-- A balanced text behind a balanced text leaves a balanced text. -/
theorem Balanced.append {first second : List Char} (hfirst : Balanced first)
    (hsecond : Balanced second) : Balanced (first ++ second) := by
  refine ⟨fun start hstart => ?_, ?_⟩
  · rcases List.prefix_or_prefix_of_prefix hstart (List.prefix_append first second) with h | h
    · exact hfirst.closes_le start h
    · obtain ⟨rest, rfl⟩ := h
      have hle := hsecond.closes_le rest ((List.prefix_append_right_inj first).mp hstart)
      have heq := hfirst.closes_eq
      rw [List.count_append, List.count_append]
      omega
  · rw [List.count_append, List.count_append, hfirst.closes_eq, hsecond.closes_eq]

/-- A text without brackets is balanced. -/
theorem Balanced.of_notMem {s : List Char} (hopen : '[' ∉ s) (hclose : ']' ∉ s) : Balanced s := by
  refine ⟨fun start hstart => ?_, ?_⟩
  · rw [List.count_eq_zero_of_not_mem fun hmem => hclose (hstart.subset hmem)]
    exact Nat.zero_le _
  · rw [List.count_eq_zero_of_not_mem hopen, List.count_eq_zero_of_not_mem hclose]

theorem IsUnionPart.balanced_comma {x y : List Char} (hx : IsUnionPart x) (hy : IsUnionPart y) :
    Balanced (x ++ ',' :: y) := by
  have hcomma : Balanced [','] := Balanced.of_notMem (by decide) (by decide)
  exact hx.balanced.append (hcomma.append hy.balanced)

/-- Brackets around a balanced text leave it balanced. -/
theorem Balanced.bracket {s : List Char} (h : Balanced s) : Balanced ('[' :: s ++ [']']) := by
  refine ⟨fun start hstart => ?_, ?_⟩
  · rw [List.cons_append] at hstart
    rcases List.prefix_cons_iff.mp hstart with rfl | ⟨inner, rfl, hinner⟩
    · simp
    · rcases List.prefix_concat_iff.mp hinner with rfl | hinner
      · have heq := h.closes_eq
        simp
        omega
      · have hle := h.closes_le inner hinner
        simp
        omega
  · have heq := h.closes_eq
    simp
    omega

/-! ## A word in front of brackets -/

/-- `name` is a word, optional white space, and `inner` in square brackets. -/
def Encloses (word inner name : List Char) : Prop :=
  ∃ blank, (∀ c ∈ blank, isBlank c = true) ∧ name = word ++ (blank ++ '[' :: (inner ++ [']']))

theorem Encloses.word_isPrefix {word inner name : List Char} (h : Encloses word inner name) :
    word <+: name := by
  obtain ⟨blank, -, rfl⟩ := h
  exact List.prefix_append word _

theorem Encloses.inner_isInfix {word inner name : List Char} (h : Encloses word inner name) :
    inner <:+: name := by
  obtain ⟨blank, -, rfl⟩ := h
  exact ⟨word ++ blank ++ ['['], [']'], by simp⟩

theorem Encloses.length_lt {word inner name : List Char} (h : Encloses word inner name) :
    inner.length < name.length := by
  obtain ⟨blank, -, rfl⟩ := h
  simp only [List.length_append, List.length_cons, List.length_nil]
  omega

theorem Encloses.parts_isInfix {word x y name : List Char}
    (h : Encloses word (x ++ ',' :: y) name) : x <:+: name ∧ y <:+: name := by
  have hsuffix : y <:+ x ++ ',' :: y := (List.suffix_cons ',' y).trans (List.suffix_append x _)
  exact ⟨(List.prefix_append x _).isInfix.trans h.inner_isInfix,
    hsuffix.isInfix.trans h.inner_isInfix⟩

theorem bracketed?_eq_some_iff {word name inner : List Char} :
    bracketed? word name = some inner ↔ Encloses word inner name ∧ Balanced inner := by
  have hopen : isBlank '[' = false := by decide
  simp only [bracketed?, Option.bind_eq_bind, Option.bind_eq_some_iff, stripStart?_eq_some_iff,
    stripEnd?_eq_some_iff, List.singleton_append, trimStart_eq_cons_iff hopen,
    Option.ite_none_right_eq_some, balanced_iff, Option.some.injEq]
  constructor
  · rintro ⟨_, rfl, _, ⟨blank, hblank, rfl⟩, _, rfl, hbalanced, rfl⟩
    exact ⟨⟨blank, hblank, rfl⟩, hbalanced⟩
  · rintro ⟨⟨blank, hblank, rfl⟩, hbalanced⟩
    exact ⟨_, rfl, _, ⟨blank, hblank, rfl⟩, _, rfl, hbalanced, rfl⟩

/-! ## The comma between two parts -/

/-- A cut of a text at a comma outside brackets, the first one. -/
theorem splitComma?_eq_some_iff {depth : Nat} {s before after : List Char}
    (h : StaysOpen depth s) :
    splitComma? depth s = some (before, after) ↔
      s = before ++ ',' :: after ∧ before.count ']' = depth + before.count '['
        ∧ ¬HasCommaAt depth before := by
  induction s generalizing depth before after with
  | nil => simp [splitComma?]
  | cons c s ih =>
    obtain ⟨hc, hs⟩ := staysOpen_cons.mp h
    rw [splitComma?]
    by_cases hcomma : c = ',' ∧ depth = 0
    · rw [if_pos hcomma]
      obtain ⟨rfl, rfl⟩ := hcomma
      constructor
      · intro heq
        obtain ⟨rfl, rfl⟩ := Prod.mk.inj (Option.some.inj heq)
        refine ⟨rfl, rfl, ?_⟩
        rintro ⟨_, _, heq, -⟩
        simp at heq
      · rintro ⟨heq, -, hfirst⟩
        cases before with
        | nil =>
          obtain ⟨-, rfl⟩ := List.cons.inj heq
          rfl
        | cons d before =>
          -- the comma at the head would come before the one of the cut
          obtain ⟨rfl, -⟩ := List.cons.inj heq
          exact absurd ⟨[], before, rfl, rfl⟩ hfirst
    · rw [if_neg hcomma]
      show (splitComma? (depthBehind depth c) s).map _ = _ ↔ _
      simp only [Option.map_eq_some_iff, Prod.exists, Prod.mk.injEq, ih hs]
      constructor
      · rintro ⟨start, _, ⟨rfl, hcount, hfirst⟩, rfl, rfl⟩
        have hbalance := count_cons_balance hc start
        exact ⟨rfl, by omega, fun hat => hfirst ((hasCommaAt_cons hc hcomma).mp hat)⟩
      · rintro ⟨heq, hcount, hfirst⟩
        cases before with
        | nil =>
          obtain ⟨rfl, -⟩ := List.cons.inj heq
          exact absurd ⟨rfl, by simpa using hcount.symm⟩ hcomma
        | cons d start =>
          obtain ⟨rfl, rfl⟩ := List.cons.inj heq
          have hbalance := count_cons_balance hc start
          exact ⟨start, after, ⟨rfl, by omega,
            fun hat => hfirst ((hasCommaAt_cons hc hcomma).mpr hat)⟩, rfl, rfl⟩

theorem splitComma?_eq_none_iff {depth : Nat} {s : List Char} (h : StaysOpen depth s) :
    splitComma? depth s = none ↔ ¬HasCommaAt depth s := by
  induction s generalizing depth with
  | nil =>
    refine iff_of_true rfl ?_
    rintro ⟨before, after, heq, -⟩
    simp at heq
  | cons c s ih =>
    obtain ⟨hc, hs⟩ := staysOpen_cons.mp h
    rw [splitComma?]
    by_cases hcomma : c = ',' ∧ depth = 0
    · rw [if_pos hcomma]
      obtain ⟨rfl, rfl⟩ := hcomma
      exact iff_of_false (by simp) fun hnone => hnone ⟨[], s, rfl, rfl⟩
    · rw [if_neg hcomma, hasCommaAt_cons hc hcomma, ← ih hs]
      exact Option.map_eq_none_iff

/-- A balanced text is taken apart at its one comma outside brackets. -/
theorem splitPair?_eq_some_iff {s first second : List Char} (h : Balanced s) :
    splitPair? s = some (first, second) ↔
      ∃ x y, s = x ++ ',' :: y ∧ IsUnionPart x ∧ IsUnionPart y
        ∧ first = trim x ∧ second = trim y := by
  have hopen := (balanced_iff_staysOpen.mp h).1
  rw [splitPair?]
  constructor
  · intro hpair
    split at hpair
    · cases hpair
    · rename_i x y hcut
      obtain ⟨rfl, hcount, hfirst⟩ := (splitComma?_eq_some_iff hopen).mp hcut
      rw [Nat.zero_add] at hcount
      obtain ⟨hx, hy⟩ := h.of_append hcount
      split at hpair
      · cases hpair
      · rename_i hnone
        rw [splitComma?_eq_none_iff (balanced_iff_staysOpen.mp hy).1] at hnone
        obtain ⟨rfl, rfl⟩ := Prod.mk.inj (Option.some.inj hpair)
        rw [hasCommaAt_zero] at hfirst hnone
        exact ⟨x, y, rfl, ⟨hx, hfirst⟩, ⟨hy, hnone⟩, rfl, rfl⟩
  · -- the cut is at the first comma outside, and there is no second
    rintro ⟨x, y, rfl, ⟨hx, hfirst⟩, ⟨hy, hsecond⟩, rfl, rfl⟩
    have hcut : splitComma? 0 (x ++ ',' :: y) = some (x, y) := by
      refine (splitComma?_eq_some_iff hopen).mpr
        ⟨rfl, ?_, fun hat => hfirst (hasCommaAt_zero.mp hat)⟩
      rw [Nat.zero_add, hx.closes_eq]
    have hnone : splitComma? 0 y = none :=
      (splitComma?_eq_none_iff (balanced_iff_staysOpen.mp hy).1).mpr
        fun hat => hsecond (hasCommaAt_zero.mp hat)
    rw [hcut]
    simp only [hnone]

end LayeredConfig.TypeDesc
