/-
  LayeredConfig.Proofs.Text.Lines

  Texts and the pieces they are cut into.

  Cutting at a character loses nothing: every piece with the character behind it
  gives the text back (`flatMap_splitAt`).  So a text that ends in a line feed is
  the same as the list of its lines.
-/
import LayeredConfig.Text.Split

namespace LayeredConfig.Text

variable {sep : Char} {s : List Char}

/-! ## Pieces -/

theorem splitAt_cons_self (sep : Char) (s : List Char) :
    splitAt sep (sep :: s) = [] :: splitAt sep s := by
  simp [splitAt]

theorem splitAt_ne_nil (sep : Char) (s : List Char) : splitAt sep s ≠ [] := by
  cases s with
  | nil => simp [splitAt]
  | cons c s =>
    rw [splitAt]
    split
    · simp
    · split <;> simp

theorem splitAt_cons_of_ne {c : Char} (h : c ≠ sep) {piece : List Char}
    {pieces : List (List Char)} (hs : splitAt sep s = piece :: pieces) :
    splitAt sep (c :: s) = (c :: piece) :: pieces := by
  rw [splitAt, if_neg h, hs]

/-- The separator behind every piece gives the text back. -/
theorem flatMap_splitAt (sep : Char) (s : List Char) :
    (splitAt sep s).flatMap (· ++ [sep]) = s ++ [sep] := by
  induction s with
  | nil => simp [splitAt]
  | cons c s ih =>
    by_cases hc : c = sep
    · subst hc
      rw [splitAt_cons_self, List.flatMap_cons, ih]
      simp
    · cases hs : splitAt sep s with
      | nil => exact absurd hs (splitAt_ne_nil sep s)
      | cons piece pieces =>
        rw [hs, List.flatMap_cons] at ih
        rw [splitAt_cons_of_ne hc hs, List.flatMap_cons, List.cons_append, List.cons_append, ih,
          List.cons_append]

theorem notMem_of_mem_splitAt {piece : List Char} (h : piece ∈ splitAt sep s) : sep ∉ piece := by
  induction s generalizing piece with
  | nil =>
    obtain rfl := List.mem_singleton.mp h
    simp
  | cons c s ih =>
    by_cases hc : c = sep
    · subst hc
      rw [splitAt_cons_self] at h
      rcases List.mem_cons.mp h with rfl | h
      · simp
      · exact ih h
    · cases hs : splitAt sep s with
      | nil => exact absurd hs (splitAt_ne_nil sep s)
      | cons first pieces =>
        rw [splitAt_cons_of_ne hc hs] at h
        rcases List.mem_cons.mp h with rfl | h
        · have hfirst : sep ∉ first := ih (by simp [hs])
          simp [Ne.symm hc, hfirst]
        · exact ih (by simp [hs, h])

/-- What has no separator becomes a part of the piece behind it. -/
theorem splitAt_append_of_notMem {start piece : List Char} {pieces : List (List Char)}
    (h : sep ∉ start) (hs : splitAt sep s = piece :: pieces) :
    splitAt sep (start ++ s) = (start ++ piece) :: pieces := by
  induction start with
  | nil => exact hs
  | cons c start ih =>
    rw [List.mem_cons, not_or] at h
    exact splitAt_cons_of_ne (Ne.symm h.1) (ih h.2)

theorem splitAt_of_notMem (h : sep ∉ s) : splitAt sep s = [s] := by
  have hnil : splitAt sep [] = [[]] := rfl
  have happend := splitAt_append_of_notMem h hnil
  rwa [List.append_nil] at happend

/-- Cutting where two texts were joined. -/
theorem splitAt_append (s t : List Char) :
    splitAt sep (s ++ sep :: t) = splitAt sep s ++ splitAt sep t := by
  induction s with
  | nil => exact splitAt_cons_self sep t
  | cons c s ih =>
    by_cases hc : c = sep
    · subst hc
      rw [List.cons_append, splitAt_cons_self, splitAt_cons_self, ih, List.cons_append]
    · cases hs : splitAt sep s with
      | nil => exact absurd hs (splitAt_ne_nil sep s)
      | cons piece pieces =>
        rw [hs, List.cons_append] at ih
        rw [List.cons_append, splitAt_cons_of_ne hc ih, splitAt_cons_of_ne hc hs,
          List.cons_append]

theorem splitAt_intercalate {pieces : List (List Char)} (hne : pieces ≠ [])
    (h : ∀ piece ∈ pieces, sep ∉ piece) : splitAt sep ([sep].intercalate pieces) = pieces := by
  induction pieces with
  | nil => exact absurd rfl hne
  | cons piece pieces ih =>
    obtain ⟨hpiece, hpieces⟩ := List.forall_mem_cons.mp h
    cases pieces with
    | nil => rw [List.intercalate_singleton, splitAt_of_notMem hpiece]
    | cons next pieces =>
      rw [List.intercalate_cons_cons, List.append_assoc, List.singleton_append, splitAt_append,
        splitAt_of_notMem hpiece, ih (by simp) hpieces, List.singleton_append]

theorem intercalate_splitAt (sep : Char) (s : List Char) :
    [sep].intercalate (splitAt sep s) = s := by
  induction s with
  | nil => rfl
  | cons c s ih =>
    cases hs : splitAt sep s with
    | nil => exact absurd hs (splitAt_ne_nil sep s)
    | cons piece pieces =>
      rw [hs] at ih
      by_cases hc : c = sep
      · subst hc
        rw [splitAt_cons_self, hs, List.intercalate_cons_cons, ih]
        rfl
      · rw [splitAt_cons_of_ne hc hs]
        cases pieces with
        | nil =>
          rw [List.intercalate_singleton] at ih ⊢
          rw [ih]
        | cons next pieces =>
          rw [List.intercalate_cons_cons, List.append_assoc] at ih ⊢
          rw [List.cons_append, ih]

/-- The pieces of a text are the only ones without the separator that give it back
    when the separator is put between them. -/
theorem splitAt_eq_iff {pieces : List (List Char)} : splitAt sep s = pieces ↔
    pieces ≠ [] ∧ (∀ piece ∈ pieces, sep ∉ piece) ∧ [sep].intercalate pieces = s := by
  constructor
  · rintro rfl
    exact ⟨splitAt_ne_nil sep s, fun _ => notMem_of_mem_splitAt, intercalate_splitAt sep s⟩
  · rintro ⟨hne, hpieces, rfl⟩
    exact splitAt_intercalate hne hpieces

/-! ## Lines -/

theorem splitAt_flatMap {pieces : List (List Char)} (h : ∀ piece ∈ pieces, sep ∉ piece) :
    splitAt sep (pieces.flatMap (· ++ [sep])) = pieces ++ [[]] := by
  induction pieces with
  | nil => rfl
  | cons piece pieces ih =>
    obtain ⟨hpiece, hpieces⟩ := List.forall_mem_cons.mp h
    have htext : (piece :: pieces).flatMap (· ++ [sep])
        = piece ++ sep :: pieces.flatMap (· ++ [sep]) := by simp
    rw [htext, splitAt_append, splitAt_of_notMem hpiece, ih hpieces]
    rfl

theorem go_lines_append_nil (pieces : List (List Char)) :
    lines.go (pieces ++ [[]]) = pieces.map chopReturn := by
  induction pieces with
  | nil => rfl
  | cons piece pieces ih =>
    have hne : pieces ++ [[]] = [] → False := by simp
    rw [List.cons_append, lines.go, ih, List.map_cons]
    exact hne

/-- The lines of a text that ends in a line feed. -/
theorem lines_flatMap_newline {pieces : List (List Char)} (h : ∀ piece ∈ pieces, '\n' ∉ piece) :
    lines (pieces.flatMap (· ++ ['\n'])) = pieces.map chopReturn := by
  rw [lines, splitAt_flatMap h, go_lines_append_nil]

theorem mem_of_mem_chopReturn {c : Char} {line : List Char} (h : c ∈ chopReturn line) :
    c ∈ line := by
  rw [chopReturn] at h
  split at h
  · rename_i chopped hchopped
    rw [stripEnd?_eq_some_iff.mp hchopped]
    exact List.mem_append_left _ h
  · exact h

theorem chopReturn_of_notMem {line : List Char} (h : '\r' ∉ line) : chopReturn line = line := by
  rw [chopReturn]
  split
  · rename_i chopped hchopped
    rw [stripEnd?_eq_some_iff.mp hchopped] at h
    exact absurd (List.mem_append_right _ List.mem_cons_self) h
  · rfl

theorem notMem_of_mem_lines {line : List Char} (h : line ∈ lines s) : '\n' ∉ line := by
  have hgo : ∀ pieces : List (List Char), (∀ piece ∈ pieces, '\n' ∉ piece) →
      ∀ line ∈ lines.go pieces, '\n' ∉ line := by
    intro pieces hpieces
    fun_induction lines.go pieces with
    | case1 => simp
    | case2 => simp
    | case3 last => simpa using hpieces
    | case4 first rest hrest ih =>
      obtain ⟨hfirst, hrest⟩ := List.forall_mem_cons.mp hpieces
      exact List.forall_mem_cons.mpr
        ⟨fun hmem => hfirst (mem_of_mem_chopReturn hmem), ih hrest⟩
  exact hgo _ (fun piece hpiece => notMem_of_mem_splitAt hpiece) line h

end LayeredConfig.Text
