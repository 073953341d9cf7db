/-
  LayeredConfig.Proofs.Toml.Blank

  Texts that denote the empty document.

  Reading passes over a line that only holds white space and a comment, and every
  other line either stops it or adds a key to the tables, from which nothing is
  ever taken out.  So the empty document is what the texts of such lines denote,
  and no others (`read_eq_nil_iff`).
-/
import LayeredConfig.Proofs.Text.Lines
import LayeredConfig.Proofs.Text.Trim
import LayeredConfig.Toml.Reader
import Mathlib.Algebra.BigOperators.Group.List.Basic

namespace LayeredConfig.Toml

/-! ## Plain texts -/

/-- A text without control characters but tabs. -/
def Plain (s : List Char) : Prop :=
  ∀ c ∈ s, isPlain c = true

instance (s : List Char) : Decidable (Plain s) :=
  List.decidableBAll _ s

@[simp] theorem plain_nil : Plain [] := by simp [Plain]

@[simp] theorem plain_cons_iff {c : Char} {s : List Char} :
    Plain (c :: s) ↔ isPlain c = true ∧ Plain s :=
  List.forall_mem_cons

@[simp] theorem plain_append_iff {s t : List Char} : Plain (s ++ t) ↔ Plain s ∧ Plain t :=
  List.forall_mem_append

theorem Plain.newline_notMem {s : List Char} (h : Plain s) : '\n' ∉ s := fun hmem =>
  absurd (h _ hmem) (by decide)

/-! ## Lines -/

/-- Whether a line only holds white space and a comment.  A carriage return may
    come last. -/
def isQuietLine (line : List Char) : Bool :=
  match skipComment (skipSpaces line) with
  | [] => true
  | ['\r'] => true
  | _ => false

/-- A class without the line feed ends before it. -/
theorem dropWhile_append_newline {p : Char → Bool} (hp : p '\n' = false) (s rest : List Char) :
    (s ++ '\n' :: rest).dropWhile p = s.dropWhile p ++ '\n' :: rest := by
  induction s with
  | nil => simp [hp]
  | cons c s ih =>
    by_cases hc : p c = true
    · rw [List.cons_append, List.dropWhile_cons_of_pos hc, List.dropWhile_cons_of_pos hc, ih]
    · rw [List.cons_append, List.dropWhile_cons_of_neg hc, List.dropWhile_cons_of_neg hc,
        List.cons_append]

theorem skipSpaces_append_newline (s rest : List Char) :
    skipSpaces (s ++ '\n' :: rest) = skipSpaces s ++ '\n' :: rest :=
  dropWhile_append_newline (by decide) s rest

theorem skipComment_append_newline (s rest : List Char) :
    skipComment (s ++ '\n' :: rest) = skipComment s ++ '\n' :: rest := by
  cases s with
  | nil => rfl
  | cons c s =>
    by_cases hc : c = '#'
    · subst hc
      exact dropWhile_append_newline (by decide) s rest
    · rw [List.cons_append, skipComment, skipComment]
      · rfl
      · simp [hc]
      · simp [hc]

theorem skipSpaces_skipSpaces (s : List Char) : skipSpaces (skipSpaces s) = skipSpaces s :=
  Text.dropWhile_eq_self_iff.mpr fun _ hc => Text.not_of_mem_head?_dropWhile hc

theorem mem_of_mem_skipSpaces {c : Char} {s : List Char} (h : c ∈ skipSpaces s) : c ∈ s :=
  (List.dropWhile_suffix isSpace).subset h

theorem mem_of_mem_skipComment {c : Char} {s : List Char} (h : c ∈ skipComment s) : c ∈ s := by
  unfold skipComment at h
  split at h
  · exact List.mem_cons_of_mem _ ((List.dropWhile_suffix isPlain).subset h)
  · exact h

/-- A line ends where nothing is left of it but a carriage return. -/
theorem newline?_append {s : List Char} (h : '\n' ∉ s) (rest : List Char) :
    newline? (s ++ '\n' :: rest) = if s = [] ∨ s = ['\r'] then some rest else none := by
  cases s with
  | nil => rfl
  | cons c s =>
    obtain ⟨hc, hs⟩ := List.ne_and_not_mem_of_not_mem_cons h
    by_cases hr : c = '\r'
    · subst hr
      cases s with
      | nil => rfl
      | cons d s =>
        have hd : d ≠ '\n' := (List.ne_and_not_mem_of_not_mem_cons hs).1.symm
        simp [newline?, hd]
    · simp [newline?, hc.symm, hr]

/-- Whether a line ends after what is read of it is a matter of the line alone. -/
theorem endLine?_append {line : List Char} (h : '\n' ∉ line) (rest : List Char) :
    endLine? (line ++ '\n' :: rest) = if isQuietLine line then some rest else none := by
  have hleft : '\n' ∉ skipComment (skipSpaces line) := fun hmem =>
    h (mem_of_mem_skipSpaces (mem_of_mem_skipComment hmem))
  have hquiet : isQuietLine line = true
      ↔ skipComment (skipSpaces line) = [] ∨ skipComment (skipSpaces line) = ['\r'] := by
    rw [isQuietLine]
    split <;> simp_all
  have hend : endLine? (line ++ '\n' :: rest)
      = newline? (skipComment (skipSpaces line) ++ '\n' :: rest) := by
    rw [endLine?, skipSpaces_append_newline, skipComment_append_newline]
    split
    · simp_all
    · rfl
  rw [hend, newline?_append hleft]
  simp only [hquiet]

theorem isQuietLine_skipSpaces (line : List Char) :
    isQuietLine (skipSpaces line) = isQuietLine line := by
  rw [isQuietLine, isQuietLine, skipSpaces_skipSpaces]

/-- A quiet line is taken for a blank one. -/
theorem isBlankLine_of_isQuietLine {line : List Char} (h : isQuietLine line = true)
    (rest : List Char) : isBlankLine (skipSpaces line ++ '\n' :: rest) = true := by
  rw [isQuietLine] at h
  cases hline : skipSpaces line with
  | nil => rfl
  | cons c s =>
    by_cases hc : c = '#'
    · subst hc
      rfl
    · -- without a comment nothing can be left but the carriage return
      have hkept : skipComment (c :: s) = c :: s := by simp [skipComment, hc]
      rw [hline, hkept] at h
      split at h
      · simp_all
      · rename_i heq
        obtain ⟨rfl, -⟩ := List.cons.inj heq
        rfl
      · simp at h

/-! ## What lines add -/

namespace Entries

/-- A change that leaves something in the table. -/
def Change.Fills (change : Change) : Prop :=
  ∀ origin entries changed, change origin entries = some changed → changed ≠ []

theorem insert_ne_nil (key : String) (node : Node) (entries : Entries) :
    insert key node entries ≠ [] := by
  cases entries with
  | nil => simp [insert]
  | cons entry rest =>
    rw [insert]
    split <;> simp

theorem Change.Fills.changeAt {change : Change} (h : change.Fills) (isDotted : Bool)
    (path : List String) : (changeAt isDotted change path).Fills := by
  intro origin entries changed hchange
  cases path with
  | nil => exact h origin entries changed hchange
  | cons key path =>
    -- every way to the table that is changed binds the key again
    rw [Entries.changeAt] at hchange
    split at hchange
    · obtain ⟨children, -, heq⟩ := Option.bind_eq_some_iff.mp hchange
      obtain rfl := Option.some.inj heq
      exact insert_ne_nil _ _ _
    · simp at hchange
    · simp at hchange
    · simp at hchange
    · split at hchange
      · simp at hchange
      · obtain ⟨children, -, heq⟩ := Option.bind_eq_some_iff.mp hchange
        obtain rfl := Option.some.inj heq
        exact insert_ne_nil _ _ _
    · obtain ⟨children, -, heq⟩ := Option.bind_eq_some_iff.mp hchange
      obtain rfl := Option.some.inj heq
      exact insert_ne_nil _ _ _

theorem fills_bindKey (isDotted : Bool) (key : String) (node : Node) :
    Change.Fills (bindKey isDotted key node) := by
  intro origin entries changed hchange
  rw [bindKey] at hchange
  split at hchange
  · simp at hchange
  · split at hchange
    · simp at hchange
    · obtain rfl := Option.some.inj hchange
      simp

theorem fills_defineTable (key : String) : Change.Fills (defineTable key) := by
  intro origin entries changed hchange
  rw [defineTable] at hchange
  split at hchange
  · obtain rfl := Option.some.inj hchange
    simp
  · obtain rfl := Option.some.inj hchange
    simp
  · simp at hchange

theorem fills_appendTable (key : String) : Change.Fills (appendTable key) := by
  intro origin entries changed hchange
  rw [appendTable] at hchange
  split at hchange
  · obtain rfl := Option.some.inj hchange
    simp
  · obtain rfl := Option.some.inj hchange
    exact insert_ne_nil _ _ _
  · simp at hchange

theorem toDocument?_eq_nil_iff {entries : Entries} :
    toDocument? entries = some [] ↔ entries = [] := by
  cases entries with
  | nil => simp [toDocument?]
  | cons entry rest =>
    obtain ⟨key, node⟩ := entry
    refine iff_of_false (fun h => ?_) (by simp)
    rw [toDocument?] at h
    obtain ⟨v, -, h⟩ := Option.bind_eq_some_iff.mp h
    obtain ⟨rest', -, heq⟩ := Option.bind_eq_some_iff.mp h
    simp at heq

end Entries

/-- A line that is not blank leaves a document that is not empty. -/
theorem root_ne_nil_of_apply {progress progress' : Progress} {line : Line}
    (h : progress.apply line = some progress') : progress'.root ≠ [] := by
  cases line with
  | binding path key node =>
    obtain ⟨root, hroot, heq⟩ := Option.bind_eq_some_iff.mp h
    obtain rfl := Option.some.inj heq
    have hbind : (Entries.bindDotted path key node).Fills :=
      (Entries.fills_bindKey _ key node).changeAt _ path
    exact hbind.changeAt _ _ _ _ _ hroot
  | tableHeader path key =>
    obtain ⟨root, hroot, heq⟩ := Option.bind_eq_some_iff.mp h
    obtain rfl := Option.some.inj heq
    exact (Entries.fills_defineTable key).changeAt _ _ _ _ _ hroot
  | arrayHeader path key =>
    obtain ⟨root, hroot, heq⟩ := Option.bind_eq_some_iff.mp h
    obtain rfl := Option.some.inj heq
    exact (Entries.fills_appendTable key).changeAt _ _ _ _ _ hroot

/-- Nothing is ever taken out again. -/
theorem root_ne_nil_of_readLines {fuel : Nat} {progress progress' : Progress} {s : List Char}
    (hroot : progress.root ≠ []) (h : readLines fuel progress s = some progress') :
    progress'.root ≠ [] := by
  induction fuel generalizing progress s with
  | zero =>
    cases s with
    | nil =>
      obtain rfl : progress = progress' := by simpa [readLines] using h
      exact hroot
    | cons c s => simp [readLines] at h
  | succ fuel ih =>
    cases s with
    | nil =>
      obtain rfl : progress = progress' := by simpa [readLines] using h
      exact hroot
    | cons c s =>
      simp only [readLines] at h
      split at h
      · obtain ⟨s', -, h⟩ := Option.bind_eq_some_iff.mp h
        exact ih hroot h
      · obtain ⟨⟨line, s₁⟩, -, h⟩ := Option.bind_eq_some_iff.mp h
        obtain ⟨next, hnext, h⟩ := Option.bind_eq_some_iff.mp h
        obtain ⟨s', -, h⟩ := Option.bind_eq_some_iff.mp h
        exact ih (root_ne_nil_of_apply hnext) h

/-- Every line takes at least its line feed. -/
theorem length_le_flatMap_newline (lines : List (List Char)) :
    lines.length ≤ (lines.flatMap (· ++ ['\n'])).length := by
  calc lines.length = (lines.map fun line => (line ++ ['\n']).length).length := by simp
    _ ≤ (lines.map fun line => (line ++ ['\n']).length).sum :=
      List.length_le_sum_of_one_le _ (by simp)
    _ = (lines.flatMap (· ++ ['\n'])).length := List.length_flatMap.symm

/-! ## Quiet texts -/

/-- What is read of a line, with what follows its line feed left over. -/
theorem readLines_append {fuel : Nat} {progress : Progress} (line rest : List Char) :
    readLines (fuel + 1) progress (line ++ '\n' :: rest)
      = (if isBlankLine (skipSpaces line ++ '\n' :: rest) then do
          readLines fuel progress (← endLine? (skipSpaces line ++ '\n' :: rest))
        else do
          let (line, s) ← readLine (skipSpaces line ++ '\n' :: rest)
          let progress ← progress.apply line
          readLines fuel progress (← endLine? s)) := by
  rw [← skipSpaces_append_newline]
  cases hs : line ++ '\n' :: rest with
  | nil => simp at hs
  | cons c s => rfl

theorem readLines_of_isQuietLine {line : List Char} (hline : '\n' ∉ line)
    (h : isQuietLine line = true) (fuel : Nat) (progress : Progress) (rest : List Char) :
    readLines (fuel + 1) progress (line ++ '\n' :: rest) = readLines fuel progress rest := by
  have hspaces : '\n' ∉ skipSpaces line := fun hmem => hline (mem_of_mem_skipSpaces hmem)
  rw [readLines_append, if_pos (isBlankLine_of_isQuietLine h rest), endLine?_append hspaces,
    isQuietLine_skipSpaces, if_pos h]
  rfl

/-- A line that is not quiet cannot be passed over. -/
theorem root_ne_nil_of_not_isQuietLine {line : List Char} (hline : '\n' ∉ line)
    (hquiet : ¬isQuietLine line = true) {fuel : Nat} {progress progress' : Progress}
    {rest : List Char} (h : readLines fuel progress (line ++ '\n' :: rest) = some progress') :
    progress'.root ≠ [] := by
  cases fuel with
  | zero => cases line <;> simp [readLines] at h
  | succ fuel =>
    rw [readLines_append] at h
    split at h
    · have hspaces : '\n' ∉ skipSpaces line := fun hmem => hline (mem_of_mem_skipSpaces hmem)
      rw [endLine?_append hspaces, isQuietLine_skipSpaces, if_neg hquiet] at h
      simp at h
    · obtain ⟨⟨read, s₁⟩, -, h⟩ := Option.bind_eq_some_iff.mp h
      obtain ⟨next, hnext, h⟩ := Option.bind_eq_some_iff.mp h
      obtain ⟨s', -, h⟩ := Option.bind_eq_some_iff.mp h
      exact root_ne_nil_of_readLines (root_ne_nil_of_apply hnext) h

/-- Lines leave the empty document empty exactly if all of them are quiet. -/
theorem readLines_flatMap_iff {lines : List (List Char)} (hlines : ∀ line ∈ lines, '\n' ∉ line)
    {fuel : Nat} (hfuel : lines.length ≤ fuel) {header : List String} :
    (∃ progress, readLines fuel ⟨[], header⟩ (lines.flatMap (· ++ ['\n'])) = some progress
        ∧ progress.root = [])
      ↔ ∀ line ∈ lines, isQuietLine line = true := by
  induction lines generalizing fuel with
  | nil => simp [readLines]
  | cons line lines ih =>
    obtain ⟨hline, hlines⟩ := List.forall_mem_cons.mp hlines
    have htext : (line :: lines).flatMap (· ++ ['\n'])
        = line ++ '\n' :: lines.flatMap (· ++ ['\n']) := by simp
    obtain ⟨fuel, rfl⟩ : ∃ n, fuel = n + 1 := Nat.exists_eq_add_one.mpr (by simp at hfuel; omega)
    rw [htext, List.forall_mem_cons]
    by_cases hquiet : isQuietLine line = true
    · rw [readLines_of_isQuietLine hline hquiet,
        ih hlines (Nat.le_of_succ_le_succ hfuel)]
      simp [hquiet]
    · refine iff_of_false ?_ (fun h => hquiet h.1)
      rintro ⟨progress, hprogress, hroot⟩
      exact root_ne_nil_of_not_isQuietLine hline hquiet hprogress hroot

/-- Whether every line of a text only holds white space and a comment. -/
def IsQuiet (text : List Char) : Prop :=
  ∀ line ∈ Text.splitAt '\n' text, isQuietLine line = true

instance (text : List Char) : Decidable (IsQuiet text) :=
  List.decidableBAll _ _

/-- The empty document is what a text of quiet parts denotes, and no other.  The
    parts may go over lines; a line feed follows each of them. -/
theorem read_eq_nil_iff {parts : List (List Char)}
    (hmark : skipByteOrderMark (parts.flatMap (· ++ ['\n'])) = parts.flatMap (· ++ ['\n'])) :
    read (parts.flatMap (· ++ ['\n'])) = some [] ↔ ∀ part ∈ parts, IsQuiet part := by
  have htext : (parts.flatMap (Text.splitAt '\n')).flatMap (· ++ ['\n'])
      = parts.flatMap (· ++ ['\n']) := by
    rw [List.flatMap_assoc]
    exact List.flatMap_congr fun part _ => Text.flatMap_splitAt '\n' part
  have hlines : ∀ line ∈ parts.flatMap (Text.splitAt '\n'), '\n' ∉ line := by
    intro line hline
    obtain ⟨part, -, hmem⟩ := List.mem_flatMap.mp hline
    exact Text.notMem_of_mem_splitAt hmem
  have hfuel : (parts.flatMap (Text.splitAt '\n')).length
      ≤ (parts.flatMap (· ++ ['\n'])).length := htext ▸ length_le_flatMap_newline _
  calc read (parts.flatMap (· ++ ['\n'])) = some []
      ↔ ∃ progress, readLines (parts.flatMap (· ++ ['\n'])).length ⟨[], []⟩
            (parts.flatMap (· ++ ['\n'])) = some progress ∧ progress.root = [] := by
        rw [read, hmark]
        simp only [Option.bind_eq_bind, Option.bind_eq_some_iff, Entries.toDocument?_eq_nil_iff]
    _ ↔ ∀ line ∈ parts.flatMap (Text.splitAt '\n'), isQuietLine line = true := by
        rw [← htext] at hfuel ⊢
        exact readLines_flatMap_iff hlines hfuel
    _ ↔ ∀ part ∈ parts, IsQuiet part := by
        simp only [List.mem_flatMap, IsQuiet]
        exact ⟨fun h part hpart line hline => h line ⟨part, hpart, hline⟩,
          fun h line ⟨part, hpart, hline⟩ => h part hpart line hline⟩

end LayeredConfig.Toml
