/-
  LayeredConfig.Proofs.Text.Pieces

  Texts cut at a word, and at the last occurrence of a character.

  The pieces that cutting at a word gives are the only ones between which the
  word stands where it can be found first (`splitOn_eq_iff`).  With a word such
  as two underscores this decides what becomes of three in a row.
-/
import LayeredConfig.Text.Split
import Mathlib.Data.List.Infix

namespace LayeredConfig.Text

/-! ## Pieces between words -/

section Word

variable {sep : List Char}

/-- What stands in a text between the occurrences of a word that are found from
    left to right.  Behind a piece the word stands for the first time, which is
    that it does not end before the last of its characters is added; behind the
    last piece it does not stand at all. -/
inductive Separates (sep : List Char) : (pieces : List (List Char)) → (s : List Char) → Prop where
  | last {s : List Char} (h : ¬sep <:+: s) : Separates sep [s] s
  | cons {piece rest : List Char} {pieces : List (List Char)}
      (h : ¬sep <:+: piece ++ sep.dropLast) (hrest : Separates sep pieces rest) :
      Separates sep (piece :: pieces) (piece ++ sep ++ rest)

theorem append_dropLast_isPrefix (piece rest : List Char) :
    piece ++ sep.dropLast <+: piece ++ sep ++ rest := by
  rw [List.append_assoc, List.prefix_append_right_inj]
  exact (List.dropLast_prefix sep).trans (List.prefix_append sep rest)

/-- Where a word begins before its place it is found before it has ended there. -/
theorem not_isPrefix_of_not_isInfix {c : Char} {piece rest : List Char}
    (h : ¬sep <:+: c :: piece ++ sep.dropLast) : ¬sep <+: c :: piece ++ sep ++ rest := by
  intro hstart
  have hshort : c :: piece ++ sep.dropLast <+: c :: piece ++ sep ++ rest :=
    append_dropLast_isPrefix (c :: piece) rest
  have hlength : sep.length ≤ (c :: piece ++ sep.dropLast).length := by
    simp only [List.cons_append, List.length_cons, List.length_append, List.length_dropLast]
    omega
  exact h (List.prefix_of_prefix_length_le hstart hshort hlength).isInfix

/-- A character at which the word does not begin becomes a part of the piece
    behind it. -/
theorem Separates.cons_char {c : Char} {piece s : List Char} {pieces : List (List Char)}
    (h : Separates sep (piece :: pieces) s) (hc : ¬sep <+: c :: s) :
    Separates sep ((c :: piece) :: pieces) (c :: s) := by
  cases h with
  | last hlast =>
    refine .last fun hinfix => ?_
    exact (List.infix_cons_iff.mp hinfix).elim hc hlast
  | @cons _ rest _ hpiece hrest =>
    have hlonger : ¬sep <:+: c :: piece ++ sep.dropLast := fun hinfix => by
      rcases List.infix_cons_iff.mp hinfix with hstart | hinside
      · exact hc (hstart.trans (append_dropLast_isPrefix (c :: piece) rest))
      · exact hpiece hinside
    exact .cons hlonger hrest

theorem Separates.ne_nil {pieces : List (List Char)} {s : List Char}
    (h : Separates sep pieces s) : pieces ≠ [] := by
  cases h <;> simp

/-- Every text falls into pieces. -/
theorem exists_separates (hsep : sep ≠ []) (s : List Char) : ∃ pieces, Separates sep pieces s := by
  -- on the length: an occurrence is passed over at once
  induction hn : s.length using Nat.strong_induction_on generalizing s with
  | _ n ih =>
    subst hn
    by_cases hstart : sep <+: s
    · obtain ⟨rest, rfl⟩ := hstart
      have hpos := List.length_pos_of_ne_nil hsep
      obtain ⟨pieces, hpieces⟩ := ih rest.length (by rw [List.length_append]; omega) rest rfl
      have hempty : ¬sep <:+: [] ++ sep.dropLast := fun hinfix => by
        have hlength := hinfix.length_le
        rw [List.nil_append, List.length_dropLast] at hlength
        omega
      exact ⟨[] :: pieces, .cons hempty hpieces⟩
    · cases s with
      | nil => exact ⟨[[]], .last fun hinfix => hsep (List.infix_nil.mp hinfix)⟩
      | cons c s =>
        obtain ⟨pieces, hpieces⟩ := ih s.length (Nat.lt_succ_self _) s rfl
        obtain ⟨piece, others, rfl⟩ := List.exists_cons_of_ne_nil hpieces.ne_nil
        exact ⟨_, hpieces.cons_char hstart⟩

/-! ## The scan -/

theorem go_splitOn_skip (skip : Nat) (before s : List Char) :
    splitOn.go sep skip before s = splitOn.go sep 0 before (s.drop skip) := by
  induction skip generalizing s with
  | zero => rfl
  | succ skip ih =>
    cases s with
    | nil => simp [splitOn.go]
    | cons c s => rw [splitOn.go, ih, List.drop_succ_cons]

/-- A character at which the word does not begin is taken into the piece. -/
theorem go_splitOn_cons {c : Char} {s : List Char} (h : ¬sep <+: c :: s) (before : List Char) :
    splitOn.go sep 0 before (c :: s) = splitOn.go sep 0 (c :: before) s := by
  rw [splitOn.go, if_neg (by rwa [List.isPrefixOf_iff_prefix])]

/-- The word itself ends the piece. -/
theorem go_splitOn_append (hsep : sep ≠ []) (before rest : List Char) :
    splitOn.go sep 0 before (sep ++ rest) = before.reverse :: splitOn.go sep 0 [] rest := by
  obtain ⟨c, tail, rfl⟩ := List.exists_cons_of_ne_nil hsep
  have hstart : List.isPrefixOf (c :: tail) (c :: (tail ++ rest)) = true :=
    List.isPrefixOf_iff_prefix.mpr (List.prefix_append (c :: tail) rest)
  rw [List.cons_append, splitOn.go, if_pos hstart, go_splitOn_skip, List.length_cons,
    Nat.add_sub_cancel, List.drop_left]

/-- The scan takes up a piece that the word ends. -/
theorem go_splitOn_piece (hsep : sep ≠ []) {piece : List Char}
    (h : ¬sep <:+: piece ++ sep.dropLast) (before rest : List Char) :
    splitOn.go sep 0 before (piece ++ sep ++ rest)
      = (before.reverse ++ piece) :: splitOn.go sep 0 [] rest := by
  induction piece generalizing before with
  | nil => rw [List.nil_append, go_splitOn_append hsep, List.append_nil]
  | cons c piece ih =>
    have htail : ¬sep <:+: piece ++ sep.dropLast :=
      fun hinfix => h (List.infix_cons hinfix)
    have hstart : ¬sep <+: c :: (piece ++ sep ++ rest) := not_isPrefix_of_not_isInfix h
    rw [List.cons_append, List.cons_append, go_splitOn_cons hstart, ih htail, List.reverse_cons,
      List.append_assoc, List.singleton_append]

/-- The scan takes up the last piece. -/
theorem go_splitOn_last {s : List Char} (h : ¬sep <:+: s) (before : List Char) :
    splitOn.go sep 0 before s = [before.reverse ++ s] := by
  induction s generalizing before with
  | nil => simp [splitOn.go]
  | cons c s ih =>
    have htail : ¬sep <:+: s := fun hinfix => h (List.infix_cons hinfix)
    have hstart : ¬sep <+: c :: s := fun hprefix => h hprefix.isInfix
    rw [go_splitOn_cons hstart, ih htail, List.reverse_cons, List.append_assoc,
      List.singleton_append]

theorem splitOn_of_separates (hsep : sep ≠ []) {pieces : List (List Char)} {s : List Char}
    (h : Separates sep pieces s) : splitOn sep s = pieces := by
  have hword : sep.isEmpty = false := by simpa using hsep
  rw [splitOn, hword, if_neg Bool.false_ne_true]
  induction h with
  | last hlast => simpa using go_splitOn_last hlast []
  | cons hpiece _ ih => rw [go_splitOn_piece hsep hpiece, ih, List.reverse_nil, List.nil_append]

/-- Cutting a text at a word gives the pieces between its occurrences. -/
theorem splitOn_eq_iff (hsep : sep ≠ []) {s : List Char} {pieces : List (List Char)} :
    splitOn sep s = pieces ↔ Separates sep pieces s := by
  refine ⟨?_, splitOn_of_separates hsep⟩
  rintro rfl
  obtain ⟨pieces, hpieces⟩ := exists_separates hsep s
  rwa [splitOn_of_separates hsep hpieces]

end Word

/-! ## The last occurrence -/

variable {sep : Char} {s : List Char}

theorem splitLast?_eq_none_iff : splitLast? sep s = none ↔ sep ∉ s := by
  induction s with
  | nil => simp [splitLast?]
  | cons c s ih =>
    rw [splitLast?, List.mem_cons, not_or, ← ih]
    cases splitLast? sep s with
    | none => simp [eq_comm]
    | some parts => simp

theorem splitLast?_append {after : List Char} (h : sep ∉ after) (before : List Char) :
    splitLast? sep (before ++ sep :: after) = some (before, after) := by
  induction before with
  | nil => rw [List.nil_append, splitLast?, splitLast?_eq_none_iff.mpr h, if_pos rfl]
  | cons c before ih => rw [List.cons_append, splitLast?, ih]

/-- Behind the last occurrence the character does not stand any more. -/
theorem splitLast?_eq_some_iff {before after : List Char} :
    splitLast? sep s = some (before, after) ↔ s = before ++ sep :: after ∧ sep ∉ after := by
  refine ⟨fun h => ?_, fun ⟨hs, hafter⟩ => hs ▸ splitLast?_append hafter before⟩
  have hmem : sep ∈ s := by
    by_contra hnotMem
    rw [splitLast?_eq_none_iff.mpr hnotMem] at h
    exact absurd h (by simp)
  -- the last occurrence is the first one from behind
  obtain ⟨behind, ahead, hs, hbehind⟩ := List.eq_append_cons_of_mem (List.mem_reverse.mpr hmem)
  have hcut : s = ahead.reverse ++ sep :: behind.reverse := by
    rw [← List.reverse_reverse s, hs]
    simp
  rw [hcut, splitLast?_append (by simpa using hbehind), Option.some.injEq, Prod.mk.injEq] at h
  obtain ⟨rfl, rfl⟩ := h
  exact ⟨hcut, by simpa using hbehind⟩

end LayeredConfig.Text
