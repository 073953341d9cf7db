/-
  LayeredConfig.Proofs.Text.Trim

  Trimmed text.

  A text is trimmed if neither of its ends lies in the class that is taken off
  (`trimBy_eq_self_iff`).  What trimming gives is trimmed, and is a connected
  part of the text.
-/
import LayeredConfig.Text.Split
import Mathlib.Data.List.DropRight

namespace LayeredConfig.Text

variable {p : Char → Bool} {s : List Char}

/-- A character of a class is not one that lies outside of it. -/
theorem ne_of_class {c d : Char} (hc : p c = true) (hd : p d = false) : c ≠ d := by
  rintro rfl
  rw [hd] at hc
  exact absurd hc (by decide)

/-- The letters and digits of ASCII lie between the first digit and the last
    letter. -/
theorem toNat_of_isAlphanum {c : Char} (h : c.isAlphanum = true) :
    '0'.toNat ≤ c.toNat ∧ c.toNat ≤ 'z'.toNat := by
  have hupper (h : c.isUpper = true) : 'A'.toNat ≤ c.toNat ∧ c.toNat ≤ 'Z'.toNat :=
    (of_decide_eq_true h).imp UInt32.le_iff_toNat_le.mp UInt32.le_iff_toNat_le.mp
  have hlower (h : c.isLower = true) : 'a'.toNat ≤ c.toNat ∧ c.toNat ≤ 'z'.toNat := by
    obtain ⟨hleast, hmost⟩ := Bool.and_eq_true_iff.mp h
    exact ⟨UInt32.le_iff_toNat_le.mp (of_decide_eq_true hleast),
      UInt32.le_iff_toNat_le.mp (of_decide_eq_true hmost)⟩
  have hinside {least most : Nat} (hleast : '0'.toNat ≤ least) (hmost : most ≤ 'z'.toNat)
      (h : least ≤ c.toNat ∧ c.toNat ≤ most) : '0'.toNat ≤ c.toNat ∧ c.toNat ≤ 'z'.toNat :=
    ⟨hleast.trans h.1, h.2.trans hmost⟩
  rcases Bool.or_eq_true_iff.mp h with hletter | hdigit
  · rcases Bool.or_eq_true_iff.mp hletter with h | h
    · exact hinside (by decide) (by decide) (hupper h)
    · exact hinside (by decide) (by decide) (hlower h)
  · exact hinside (by decide) (by decide) (Char.isDigit_iff_toNat.mp hdigit)

/-! ## Ends -/

theorem dropWhile_eq_self_iff : s.dropWhile p = s ↔ ∀ c ∈ s.head?, p c = false := by
  cases s with
  | nil => simp
  | cons c s =>
    cases hc : p c with
    | false => simp [hc]
    | true =>
      -- taking the head off makes the text shorter
      have hlt : (s.dropWhile p).length < (c :: s).length :=
        Nat.lt_succ_of_le (length_dropWhile_le p s)
      have hne : s.dropWhile p ≠ c :: s := fun heq => absurd (congrArg List.length heq) hlt.ne
      simp [hc, hne]

theorem dropWhileEnd_eq_self_iff : dropWhileEnd p s = s ↔ ∀ c ∈ s.getLast?, p c = false := by
  rw [dropWhileEnd, List.reverse_eq_iff, dropWhile_eq_self_iff, List.head?_reverse]

theorem not_of_mem_head?_dropWhile {c : Char} (h : c ∈ (s.dropWhile p).head?) : p c = false := by
  have hhead := List.head?_dropWhile_not p s
  rw [Option.mem_def] at h
  rw [h] at hhead
  exact hhead

theorem not_of_mem_getLast?_dropWhileEnd {c : Char} (h : c ∈ (dropWhileEnd p s).getLast?) :
    p c = false := by
  rw [dropWhileEnd, List.getLast?_reverse] at h
  exact not_of_mem_head?_dropWhile h

/-- A start that stays has the same head. -/
theorem mem_head?_of_isPrefix {start : List Char} (h : start <+: s) {c : Char}
    (hc : c ∈ start.head?) : c ∈ s.head? := by
  obtain ⟨rest, rfl⟩ := h
  cases start with
  | nil => simp at hc
  | cons d start => simpa using hc

/-! ## Trimming -/

theorem trimBy_eq_self_iff :
    trimBy p s = s ↔ (∀ c ∈ s.head?, p c = false) ∧ ∀ c ∈ s.getLast?, p c = false := by
  constructor
  · intro h
    -- each of the two ends is taken off after the other, so neither loses anything
    have hlength : (s.dropWhile p).length = s.length :=
      Nat.le_antisymm (length_dropWhile_le p s)
        (calc s.length = (trimBy p s).length := by rw [h]
          _ ≤ (s.dropWhile p).length := length_dropWhileEnd_le p _)
    have hhead : s.dropWhile p = s := (List.dropWhile_suffix p).eq_of_length hlength
    rw [trimBy, hhead] at h
    exact ⟨dropWhile_eq_self_iff.mp hhead, dropWhileEnd_eq_self_iff.mp h⟩
  · rintro ⟨hhead, hlast⟩
    rw [trimBy, dropWhile_eq_self_iff.mpr hhead, dropWhileEnd_eq_self_iff.mpr hlast]

/-- A text without characters of the class is trimmed. -/
theorem trimBy_eq_self (h : ∀ c ∈ s, p c = false) : trimBy p s = s :=
  trimBy_eq_self_iff.mpr ⟨fun c hc => h c (List.mem_of_mem_head? hc),
    fun c hc => h c (List.mem_of_getLast? hc)⟩

theorem trimBy_trimBy (p : Char → Bool) (s : List Char) : trimBy p (trimBy p s) = trimBy p s := by
  refine trimBy_eq_self_iff.mpr ⟨fun c hc => ?_, fun c hc => ?_⟩
  · exact not_of_mem_head?_dropWhile (mem_head?_of_isPrefix (List.rdropWhile_prefix p _) hc)
  · exact not_of_mem_getLast?_dropWhileEnd hc

/-- What trimming takes off at the two ends lies in the class. -/
theorem exists_eq_append_trimBy (p : Char → Bool) (s : List Char) :
    ∃ front back, (∀ c ∈ front, p c = true) ∧ (∀ c ∈ back, p c = true)
      ∧ s = front ++ trimBy p s ++ back := by
  refine ⟨s.takeWhile p, ((s.dropWhile p).reverse.takeWhile p).reverse,
    fun c hc => List.mem_takeWhile_imp hc, fun c hc => ?_, ?_⟩
  · exact List.mem_takeWhile_imp (List.mem_reverse.mp hc)
  · rw [trimBy, dropWhileEnd, List.append_assoc, ← List.reverse_append,
      List.takeWhile_append_dropWhile, List.reverse_reverse, List.takeWhile_append_dropWhile]

theorem trimBy_eq_nil (h : ∀ c ∈ s, p c = true) : trimBy p s = [] := by
  rw [trimBy, List.dropWhile_eq_nil_iff.mpr h]
  rfl

/-- A trimmed text comes out of everything that has only characters of the class
    around it. -/
theorem trimBy_append {front back : List Char} (hfront : ∀ c ∈ front, p c = true)
    (hback : ∀ c ∈ back, p c = true) (hs : trimBy p s = s) :
    trimBy p (front ++ s ++ back) = s := by
  obtain ⟨hhead, hlast⟩ := trimBy_eq_self_iff.mp hs
  cases s with
  | nil =>
    rw [List.append_nil]
    exact trimBy_eq_nil (List.forall_mem_append.mpr ⟨hfront, hback⟩)
  | cons c s =>
    have hstart : (front ++ (c :: s) ++ back).dropWhile p = c :: s ++ back := by
      rw [List.append_assoc, List.dropWhile_append_of_pos hfront, List.cons_append,
        List.dropWhile_cons_of_neg (by simp [hhead c rfl])]
    rw [trimBy, hstart, dropWhileEnd, List.reverse_append,
      List.dropWhile_append_of_pos (fun d hd => hback d (List.mem_reverse.mp hd))]
    exact dropWhileEnd_eq_self_iff.mpr hlast

theorem isInfix_trimBy (p : Char → Bool) (s : List Char) : trimBy p s <:+: s :=
  (List.rdropWhile_prefix p _).isInfix.trans (List.dropWhile_suffix p).isInfix

/-! ## White space -/

@[simp] theorem trim_trim (s : List Char) : trim (trim s) = trim s :=
  trimBy_trimBy isBlank s

theorem isInfix_trim (s : List Char) : trim s <:+: s :=
  isInfix_trimBy isBlank s

/-- A character that is not blank comes first after the white space of the
    start. -/
theorem trimStart_eq_cons_iff {c : Char} (hc : isBlank c = false) {rest : List Char} :
    trimStart s = c :: rest ↔
      ∃ blank, (∀ b ∈ blank, isBlank b = true) ∧ s = blank ++ c :: rest := by
  constructor
  · intro h
    refine ⟨s.takeWhile isBlank, fun b hb => List.mem_takeWhile_imp hb, ?_⟩
    rw [← h, trimStart, List.takeWhile_append_dropWhile]
  · rintro ⟨blank, hblank, rfl⟩
    rw [trimStart, List.dropWhile_append_of_pos hblank, List.dropWhile_cons_of_neg (by simp [hc])]

end LayeredConfig.Text
