/-
  LayeredConfig.Proofs.Toml.Scalar

  Truth values and numbers that read back.

  The literal of a truth value or a number is a word of its own, and none of the
  readers that are tried before the right one takes it: what has a point is no
  integer, and what has no letters is neither a truth value nor the name of a
  number.  So the word is read as the value that was written
  (`wordValue?_intChars`, `wordValue?_float`), up to the end of the line, the
  item or the array that it stands in (`readScalar_append`).
-/
import LayeredConfig.Proofs.Number.Layout
import LayeredConfig.Proofs.Text.Trim
import LayeredConfig.Toml.Literal
import LayeredConfig.Toml.Scalar
import Mathlib.Data.List.TakeWhile

namespace LayeredConfig.Toml

/-! ## Digits -/

/-- Digits without underscores stay as they are. -/
theorem ungroup_of_digits {isDigit : Char → Bool} (hunderscore : isDigit '_' = false)
    {s : List Char} (hs : s ≠ []) (h : ∀ c ∈ s, isDigit c = true) :
    ungroup isDigit s = some s := by
  fun_induction ungroup isDigit s with
  | case1 => exact absurd rfl hs
  | case2 => rfl
  | case3 c hc => exact absurd (h c (List.mem_singleton.mpr rfl)) hc
  | case4 c s hc ih =>
    have hdigit := h '_' (by simp)
    rw [hunderscore] at hdigit
    exact absurd hdigit (by decide)
  | case5 c s hc => exact absurd (h c List.mem_cons_self) hc
  | case6 c s hsingle hgroup hc ih =>
    have hne : s ≠ [] := fun hnil => hsingle hnil
    rw [ih hne fun d hd => h d (List.mem_cons_of_mem c hd)]
    rfl
  | case7 c s hsingle hgroup hc => exact absurd (h c List.mem_cons_self) hc

/-- What holds another character than digits and underscores is no run of
    digits. -/
theorem ungroup_eq_none {isDigit : Char → Bool} {c : Char} (hdigit : isDigit c = false)
    (hunderscore : c ≠ '_') {s : List Char} (h : c ∈ s) : ungroup isDigit s = none := by
  fun_induction ungroup isDigit s with
  | case1 => rfl
  | case2 d hd => exact absurd (List.mem_singleton.mp h) (Text.ne_of_class hd hdigit).symm
  | case3 => rfl
  | case4 d s hd ih =>
    have hne : c ≠ d := (Text.ne_of_class hd hdigit).symm
    have hmem : c ∈ s := by simpa [hne, hunderscore] using h
    rw [ih hmem]
    rfl
  | case5 => rfl
  | case6 d s hsingle hgroup hd ih =>
    have hne : c ≠ d := (Text.ne_of_class hd hdigit).symm
    have hmem : c ∈ s := (List.mem_cons.mp h).resolve_left hne
    rw [ih hmem]
    rfl
  | case7 => rfl

theorem wholeDigits?_of_isWhole {s : List Char} (h : IsWhole s) : wholeDigits? s = some s := by
  rw [wholeDigits?, ungroup_of_digits (by decide) h.ne_nil h.isDigit]
  split
  · rename_i d t heq
    -- a zero leads others only in what is no whole number
    obtain rfl := Option.some.inj heq
    exact absurd (h.lead rfl) (by simp)
  · rfl

/-! ## Numbers as texts -/

/-- The characters of the numbers that are written. -/
def isNumberChar (c : Char) : Bool :=
  c.isDigit || c == '-' || c == '.'

/-- The sign of a number as it is written. -/
def signChars (negative : Bool) : List Char :=
  if negative then ['-'] else []

theorem isNumberChar_of_isDigit {c : Char} (h : c.isDigit = true) : isNumberChar c = true := by
  simp [isNumberChar, h]

theorem isNumberChar_of_mem_signChars {negative : Bool} {c : Char}
    (h : c ∈ signChars negative) : isNumberChar c = true := by
  cases negative with
  | false => simp [signChars] at h
  | true =>
    obtain rfl : c = '-' := by simpa [signChars] using h
    rfl

theorem intChars_eq (n : Int) :
    Number.intChars n = signChars (decide (n < 0)) ++ Nat.toDigits 10 n.natAbs := by
  rw [Number.intChars, signChars]
  by_cases hn : n < 0 <;> simp [hn]

theorem isNumberChar_of_mem_intChars {n : Int} {c : Char} (h : c ∈ Number.intChars n) :
    isNumberChar c = true := by
  rw [intChars_eq, List.mem_append] at h
  rcases h with hsign | hdigit
  · exact isNumberChar_of_mem_signChars hsign
  · exact isNumberChar_of_isDigit (isDigit_of_mem_toDigits hdigit)

theorem exists_render_eq (x : Double) : ∃ whole fraction, x.Spells whole fraction
    ∧ x.render floatLayout = signChars x.negative ++ (whole ++ '.' :: fraction) :=
  Double.exists_render rfl rfl x

theorem isNumberChar_of_mem_render {x : Double} {c : Char} (h : c ∈ x.render floatLayout) :
    isNumberChar c = true := by
  obtain ⟨whole, fraction, hspells, htext⟩ := exists_render_eq x
  rw [htext, List.mem_append, List.mem_append, List.mem_cons] at h
  rcases h with hsign | hwhole | rfl | hfraction
  · exact isNumberChar_of_mem_signChars hsign
  · exact isNumberChar_of_isDigit (hspells.isWhole.isDigit c hwhole)
  · decide
  · exact isNumberChar_of_isDigit (hspells.isDigit c hfraction)

/-- No digit is taken for a sign. -/
theorem takeSign_signChars (negative : Bool) {c : Char} (hc : c.isDigit = true)
    (s : List Char) : takeSign (signChars negative ++ c :: s) = (negative, c :: s) := by
  cases negative with
  | true => rfl
  | false =>
    have hplus : c ≠ '+' := Text.ne_of_class hc (by decide)
    have hminus : c ≠ '-' := Text.ne_of_class hc (by decide)
    rw [signChars, if_neg (by decide), List.nil_append, takeSign]
    · simp [hplus]
    · simp [hminus]

theorem takeSign_of_isWhole (negative : Bool) {whole : List Char} (h : IsWhole whole)
    (s : List Char) :
    takeSign (signChars negative ++ (whole ++ s)) = (negative, whole ++ s) := by
  cases whole with
  | nil => exact absurd rfl h.ne_nil
  | cons c whole => exact takeSign_signChars negative (h.isDigit c List.mem_cons_self) (whole ++ s)

/-- What is written as a number is no number to another base. -/
theorem not_radix_of_isNumberChar {s : List Char} (h : ∀ c ∈ s, isNumberChar c = true) {c : Char}
    (hc : isNumberChar c = false) (t : List Char) : s ≠ '0' :: c :: t := by
  intro heq
  exact Text.ne_of_class (h c (by simp [heq])) hc rfl

section Integer

variable {s body digits : List Char} {negative : Bool}

theorem integer?_eq_some (h : ∀ c ∈ s, isNumberChar c = true)
    (hsign : takeSign s = (negative, body)) (hwhole : wholeDigits? body = some digits) {n : Int}
    (hextend : extendInteger negative 0 digits = .ok n) : integer? s = some n := by
  rw [integer?]
  · simp only [hsign, hwhole, hextend, Option.bind_eq_bind, Option.bind_some]
  · exact not_radix_of_isNumberChar h (by decide)
  · exact not_radix_of_isNumberChar h (by decide)
  · exact not_radix_of_isNumberChar h (by decide)

theorem integer?_eq_none (h : ∀ c ∈ s, isNumberChar c = true)
    (hsign : takeSign s = (negative, body)) (hwhole : wholeDigits? body = none) :
    integer? s = none := by
  rw [integer?]
  · simp only [hsign, hwhole, Option.bind_eq_bind, Option.bind_none]
  · exact not_radix_of_isNumberChar h (by decide)
  · exact not_radix_of_isNumberChar h (by decide)
  · exact not_radix_of_isNumberChar h (by decide)

end Integer

/-- A word with a letter is not made of the characters of numbers. -/
theorem ne_of_isNumberChar {s word : List Char} (h : ∀ c ∈ s, isNumberChar c = true) {c : Char}
    (hmem : c ∈ word) (hc : isNumberChar c = false) : s ≠ word := by
  rintro rfl
  exact Text.ne_of_class (h c hmem) hc rfl

theorem ne_truth_of_isNumberChar {s : List Char} (h : ∀ c ∈ s, isNumberChar c = true) :
    s ≠ "true".toList ∧ s ≠ "false".toList :=
  ⟨ne_of_isNumberChar h (by simp : 't' ∈ "true".toList) (by decide),
    ne_of_isNumberChar h (by simp : 'f' ∈ "false".toList) (by decide)⟩

theorem isWordChar_of_isNumberChar {c : Char} (h : isNumberChar c = true) :
    isWordChar c = true := by
  rw [isNumberChar, Bool.or_eq_true, Bool.or_eq_true, beq_iff_eq, beq_iff_eq] at h
  rcases h with (hdigit | rfl) | rfl
  · simp [isWordChar, Char.isAlphanum, hdigit]
  · decide
  · decide

/-! ## Words -/

/-- An integer of 64 bits is read from its text. -/
theorem wordValue?_intChars {n : Int} (h : isInt64 n = true) :
    wordValue? (Number.intChars n) = some (.int n) := by
  have hdigits := isWhole_toDigits n.natAbs
  have hchars : ∀ c ∈ Number.intChars n, isNumberChar c = true := fun c hc =>
    isNumberChar_of_mem_intChars hc
  have hsign : takeSign (Number.intChars n) = (decide (n < 0), Nat.toDigits 10 n.natAbs) := by
    have hread := takeSign_of_isWhole (decide (n < 0)) hdigits []
    rwa [List.append_nil, ← intChars_eq] at hread
  have hinteger : integer? (Number.intChars n) = some n :=
    integer?_eq_some hchars hsign (wholeDigits?_of_isWhole hdigits) (extendInteger_toDigits h)
  obtain ⟨htrue, hfalse⟩ := ne_truth_of_isNumberChar hchars
  rw [wordValue?, if_neg htrue, if_neg hfalse, hinteger]

/-- Digits around a point are a decimal. -/
theorem decimal?_of_point {negative : Bool} {whole fraction : List Char} (hwhole : IsWhole whole)
    (hne : fraction ≠ []) (hfraction : ∀ c ∈ fraction, c.isDigit = true) :
    decimal? (signChars negative ++ (whole ++ '.' :: fraction))
      = some (.ofParts negative whole fraction 0) := by
  have hgrouped {s : List Char} (hs : ∀ c ∈ s, c.isDigit = true) (c : Char) (hc : c ∈ s) :
      isGroupedDigit c = true := by
    rw [isGroupedDigit, hs c hc, Bool.true_or]
  have htake : (whole ++ '.' :: fraction).takeWhile isGroupedDigit = whole := by
    rw [List.takeWhile_append_of_pos (hgrouped hwhole.isDigit),
      List.takeWhile_cons_of_neg (by decide), List.append_nil]
  have hdrop : (whole ++ '.' :: fraction).dropWhile isGroupedDigit = '.' :: fraction := by
    rw [List.dropWhile_append_of_pos (hgrouped hwhole.isDigit),
      List.dropWhile_cons_of_neg (by decide)]
  have htakeFraction : fraction.takeWhile isGroupedDigit = fraction :=
    List.takeWhile_eq_self_iff.mpr (hgrouped hfraction)
  have hdropFraction : fraction.dropWhile isGroupedDigit = [] :=
    List.dropWhile_eq_nil_iff.mpr (hgrouped hfraction)
  rw [decimal?, takeSign_of_isWhole negative hwhole]
  simp only [htake, hdrop, wholeDigits?_of_isWhole hwhole, htakeFraction, hdropFraction,
    ungroup_of_digits (by decide : Char.isDigit '_' = false) hne hfraction, exponent?]
  rfl

/-- A floating-point number is read from its text. -/
theorem wordValue?_float (x : Double) : wordValue? (x.render floatLayout) = some (.float x) := by
  obtain ⟨whole, fraction, hspells, htext⟩ := exists_render_eq x
  have hchars : ∀ c ∈ x.render floatLayout, isNumberChar c = true := fun c hc =>
    isNumberChar_of_mem_render hc
  have hsign : takeSign (x.render floatLayout) = (x.negative, whole ++ '.' :: fraction) := by
    rw [htext, takeSign_of_isWhole x.negative hspells.isWhole]
  have hbody : ∀ c ∈ whole ++ '.' :: fraction, isNumberChar c = true := fun c hc =>
    hchars c (htext ▸ List.mem_append_right _ hc)
  -- the point is no digit
  have hinteger : integer? (x.render floatLayout) = none := by
    have hgroups : ungroup Char.isDigit (whole ++ '.' :: fraction) = none :=
      ungroup_eq_none (c := '.') (by decide) (by decide) (by simp)
    refine integer?_eq_none hchars hsign ?_
    rw [wholeDigits?, hgroups]
  have hfloat : float? (x.render floatLayout) = some (.float x) := by
    rw [float?, hsign]
    simp only
    rw [if_neg (ne_of_isNumberChar hbody (by simp : 'n' ∈ "inf".toList) (by decide)),
      if_neg (ne_of_isNumberChar hbody (by simp : 'n' ∈ "nan".toList) (by decide)), htext,
      decimal?_of_point hspells.isWhole hspells.ne_nil hspells.isDigit, Option.map_some,
      hspells.toDouble]
  obtain ⟨htrue, hfalse⟩ := ne_truth_of_isNumberChar hchars
  rw [wordValue?, if_neg htrue, if_neg hfalse, hinteger, hfloat]

theorem wordValue?_nil : wordValue? [] = none := rfl

/-! ## Scalars -/

/-- Whether a line, an item or an array ends here. -/
def EndsValue (rest : List Char) : Prop :=
  ∀ c ∈ rest.head?, c = '\n' ∨ c = ',' ∨ c = ']'

theorem endsValue_cons {c : Char} (h : c = '\n' ∨ c = ',' ∨ c = ']') (s : List Char) :
    EndsValue (c :: s) := by
  intro d hd
  obtain rfl : c = d := Option.some.inj hd
  exact h

/-- A word is read up to the end of the value. -/
theorem readScalar_append {word rest : List Char} {v : Value} (hword : wordValue? word = some v)
    (hchars : ∀ c ∈ word, isWordChar c = true) (hrest : EndsValue rest) :
    readScalar (word ++ rest) = some (v, rest) := by
  have hends : rest.takeWhile isWordChar = [] ∧ rest.dropWhile isWordChar = rest
      ∧ continuesAfterSpace rest = false := by
    cases rest with
    | nil => exact ⟨rfl, rfl, rfl⟩
    | cons c s =>
      rcases hrest c rfl with rfl | rfl | rfl <;>
        exact ⟨List.takeWhile_cons_of_neg (by decide), List.dropWhile_cons_of_neg (by decide), rfl⟩
  obtain ⟨htake, hdrop, hspace⟩ := hends
  rw [readScalar, List.takeWhile_append_of_pos hchars, List.dropWhile_append_of_pos hchars, htake,
    hdrop, hspace, List.append_nil]
  simp only [Bool.false_eq_true, if_false, hword, Option.map_some]

end LayeredConfig.Toml
