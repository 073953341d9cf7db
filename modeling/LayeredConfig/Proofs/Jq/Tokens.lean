/-
  LayeredConfig.Proofs.Jq.Tokens

  The tokens of a program.

  A token is a piece of the text that it stands in, so a variable among the tokens
  is one whose name is written there (`isInfix_of_mem_scanAll`).  The binding of
  the input to a variable is four tokens in front of those of the source in
  parentheses (`ofSource_binding`).
-/
import LayeredConfig.Expression

namespace LayeredConfig.Jq.Token

variable {s : List Char}

/-! ## What is left behind a token -/

theorem isSuffix_skipComment (odd : Bool) (s : List Char) : skipComment odd s <:+ s := by
  fun_induction skipComment odd s with
  | case1 odd => exact List.suffix_rfl
  | case2 s ih => exact ih.trans (List.suffix_cons _ _)
  | case3 odd s hodd => exact List.suffix_cons _ _
  | case4 s ih => exact ih.trans ((List.suffix_cons _ _).trans (List.suffix_cons _ _))
  | case5 odd s hodd => exact (List.suffix_cons _ _).trans (List.suffix_cons _ _)
  | case6 odd c s hnewline hreturn ih => exact ih.trans (List.suffix_cons _ _)

theorem isSuffix_skipSpace (s : List Char) : skipSpace s <:+ s := by
  fun_induction skipSpace s with
  | case1 => exact List.suffix_rfl
  | case2 c rest hblank ih => exact ih.trans (List.suffix_cons c rest)
  | case3 c rest hblank hcomment hle ih =>
    exact ih.trans ((isSuffix_skipComment false rest).trans (List.suffix_cons c rest))
  | case4 c rest hblank hcomment => exact List.suffix_rfl

theorem isSuffix_of_scanText {before : List Char} {read : String × Bool × List Char}
    (h : scanText before s = some read) : read.2.2 <:+ s := by
  fun_induction scanText before s with
  | case1 before => cases h
  | case2 before a b c d s ih =>
    obtain ⟨n, -, h⟩ := Option.bind_eq_some_iff.mp h
    cases hc : Text.ofCodePoint? n with
    | none => rw [hc] at h; cases h
    | some e =>
      rw [hc] at h
      exact (ih e h).trans ⟨['\\', 'u', a, b, c, d], rfl⟩
  | case3 before c s hquad hinsert => cases h; exact ⟨['\\', c], rfl⟩
  | case4 before c s hquad hinsert e he ih => exact (ih h).trans ⟨['\\', c], rfl⟩
  | case5 before c s hquad hinsert he => cases h
  | case6 before c s hquad hescape hslash => cases h
  | case7 before c s hquad hescape hslash hquote => cases h; exact List.suffix_cons c s
  | case8 before c s hquad hescape hslash hquote ih => exact (ih h).trans (List.suffix_cons c s)

theorem isSuffix_takeDigits? {read : List Char × List Char} (h : takeDigits? s = some read) :
    read.2 <:+ s := by
  simp only [takeDigits?, Option.ite_none_left_eq_some, Option.some.injEq] at h
  exact h.2 ▸ List.dropWhile_suffix _

theorem isSuffix_takeFraction? {read : List Char × List Char} (h : takeFraction? s = some read) :
    read.2 <:+ s := by
  fun_cases takeFraction? s with
  | case1 s =>
    obtain ⟨digits, hdigits, rfl⟩ := Option.map_eq_some_iff.mp h
    exact (isSuffix_takeDigits? hdigits).trans (List.suffix_cons _ _)
  | case2 s hpoint =>
    rw [takeFraction?.eq_2 s hpoint] at h
    cases h
    exact List.suffix_rfl

theorem isSuffix_takeExponent? {read : List Char × List Char} (h : takeExponent? s = some read) :
    read.2 <:+ s := by
  cases s with
  | nil => cases h; exact List.suffix_rfl
  | cons letter s =>
    simp only [takeExponent?] at h
    split at h
    · split at h
      · obtain ⟨digits, hdigits, rfl⟩ := Option.map_eq_some_iff.mp h
        exact ((isSuffix_takeDigits? hdigits).trans (List.drop_suffix _ _)).trans
          (List.suffix_cons _ _)
      · cases h
    · cases h
      exact List.suffix_rfl

theorem isSuffix_scanNumeral {read : String × List Char} (h : scanNumeral s = some read) :
    read.2 <:+ s := by
  obtain ⟨whole, hwhole, h⟩ := Option.bind_eq_some_iff.mp h
  obtain ⟨fraction, hfraction, h⟩ := Option.bind_eq_some_iff.mp h
  obtain ⟨exponent, hexponent, h⟩ := Option.bind_eq_some_iff.mp h
  cases h
  exact (isSuffix_takeExponent? hexponent).trans
    ((isSuffix_takeFraction? hfraction).trans (isSuffix_takeDigits? hwhole))

/-! ## Single tokens -/

/-- A token is told by its first character. -/
theorem scan_cases (c : Char) :
    c = '"' ∨ c = '(' ∨ c = ')'
      ∨ (∀ around s, scan around (c :: s)
        = (scanNumeral (c :: s)).map fun (digits, s) => (.numeral digits, around, s))
      ∨ (∀ around s, scan around (c :: s)
        = some (.word (String.ofList (takeName (c :: s)).1), around, (takeName (c :: s)).2))
      ∨ (∀ around s, scan around (c :: s)
        = some (.symbol (String.ofList (c :: (takeOperator s).1)), around, (takeOperator s).2))
      ∨ ∀ around s, scan around (c :: s) = scanSign around c s := by
  by_cases hbracket : c = '"' ∨ c = '(' ∨ c = ')'
  · rcases hbracket with hc | hc | hc <;> simp only [hc, true_or, or_true]
  · simp only [not_or, ← beq_eq_false_iff_ne] at hbracket
    obtain ⟨hquote, hopen, hclose⟩ := hbracket
    refine Or.inr (Or.inr (Or.inr ?_))
    by_cases hdigit : c.isDigit = true
    · refine Or.inl fun around s => ?_
      simp only [scan, hquote, hopen, hclose, hdigit, if_true, Bool.false_eq_true, if_false]
    by_cases hname : startsName c = true
    · refine Or.inr (Or.inl fun around s => ?_)
      simp only [scan, hquote, hopen, hclose, hdigit, hname, if_true, Bool.false_eq_true, if_false]
    by_cases hoperator : startsOperator c = true
    · refine Or.inr (Or.inr (Or.inl fun around s => ?_))
      simp only [scan, hquote, hopen, hclose, hdigit, hname, hoperator, if_true,
        Bool.false_eq_true, if_false]
    · refine Or.inr (Or.inr (Or.inr fun around s => ?_))
      simp only [scan, hquote, hopen, hclose, hdigit, hname, hoperator, Bool.false_eq_true,
        if_false]

theorem scanSign_of_ne (around : Insertions) {c : Char} (hvariable : c ≠ '$') (hpoint : c ≠ '.')
    (s : List Char) : scanSign around c s
      = if isSingleSign c then some (.symbol (String.singleton c), around, s) else none :=
  scanSign.eq_4 around c s (fun _ _ h => absurd h hvariable) (fun _ h => absurd h hpoint)
    (fun _ _ h => absurd h hpoint)

theorem scanSign_spec {around inner : Insertions} {c : Char} {token : Token} {after : List Char}
    (h : scanSign around c s = some (token, inner, after)) :
    after <:+ s ∧ ∀ name, token = .variable name → name.toList <:+: s := by
  -- only behind this sign stands the name of a variable
  by_cases hvariable : c = '$'
  · subst hvariable
    cases s with
    | nil => cases h
    | cons d s =>
      rw [scanSign] at h
      split at h
      · cases h
        refine ⟨List.dropWhile_suffix _, fun name hname => ?_⟩
        rw [← Token.variable.inj hname, String.toList_ofList]
        exact (List.takeWhile_prefix _).isInfix
      · cases h
  by_cases hpoint : c = '.'
  · subst hpoint
    cases s with
    | nil => cases h; exact ⟨List.suffix_rfl, by simp⟩
    | cons d s =>
      by_cases hd : d = '.'
      · subst hd
        cases h
        exact ⟨List.suffix_cons _ _, by simp⟩
      · rw [scanSign.eq_3 _ _ _ hd] at h
        split at h
        · cases h
          exact ⟨List.dropWhile_suffix _, by simp⟩
        · cases h
          exact ⟨List.suffix_rfl, by simp⟩
  · rw [scanSign_of_ne around hvariable hpoint] at h
    split at h
    · cases h
      exact ⟨List.suffix_rfl, by simp⟩
    · cases h

/-- A variable is a name that stands in the source. -/
theorem scan_spec {around inner : Insertions} {token : Token} {after : List Char}
    (h : scan around s = some (token, inner, after)) :
    after <:+ s ∧ ∀ name, token = .variable name → name.toList <:+: s := by
  cases s with
  | nil => cases h
  | cons c s =>
    rcases scan_cases c with rfl | rfl | rfl | heq | heq | heq | heq
    · -- a text
      obtain ⟨read, hread, hout⟩ := Option.map_eq_some_iff.mp h
      have hsuffix := (isSuffix_of_scanText hread).trans (List.suffix_cons '"' s)
      obtain ⟨part, inserted, rest⟩ := read
      cases inserted <;> cases hout <;> exact ⟨hsuffix, by simp⟩
    · cases around <;> cases h <;> exact ⟨List.suffix_cons _ _, by simp⟩
    · -- a closing parenthesis, which ends an insertion or one inside of it
      match around with
      | [] | (n + 1) :: outer => cases h; exact ⟨List.suffix_cons _ _, by simp⟩
      | 0 :: outer =>
        obtain ⟨read, hread, hout⟩ := Option.map_eq_some_iff.mp h
        have hsuffix := (isSuffix_of_scanText hread).trans (List.suffix_cons ')' s)
        obtain ⟨part, inserted, rest⟩ := read
        cases inserted <;> cases hout <;> exact ⟨hsuffix, by simp⟩
    · -- a number
      rw [heq] at h
      obtain ⟨read, hread, hout⟩ := Option.map_eq_some_iff.mp h
      cases hout
      exact ⟨isSuffix_scanNumeral hread, by simp⟩
    · -- a word
      rw [heq] at h
      cases h
      exact ⟨List.dropWhile_suffix _, by simp⟩
    · rw [heq] at h
      cases h
      exact ⟨(List.dropWhile_suffix _).trans (List.suffix_cons c s), by simp⟩
    · rw [heq] at h
      obtain ⟨hafter, hvariable⟩ := scanSign_spec h
      exact ⟨hafter.trans (List.suffix_cons c s), fun name hname =>
        (hvariable name hname).trans (List.suffix_cons c s).isInfix⟩

/-- Every variable among the tokens of a source stands in it. -/
theorem isInfix_of_mem_scanAll {around : Insertions} {ts : List Token} {name : String}
    (h : scanAll around s = some ts) (hname : .variable name ∈ ts) : name.toList <:+: s := by
  fun_induction scanAll around s generalizing ts with
  | case1 around s hskip hempty => cases h; cases hname
  | case2 around s hskip hempty => cases h
  | case3 around s c rest hskip hscan => cases h
  | case4 around s c rest hskip token inner after hscan hlt ih =>
    have hsuffix : c :: rest <:+ s := hskip ▸ isSuffix_skipSpace s
    obtain ⟨hafter, hvariable⟩ := scan_spec hscan
    obtain ⟨later, hlater, rfl⟩ := Option.map_eq_some_iff.mp h
    rcases List.mem_cons.mp hname with htoken | hmem
    · exact (hvariable name htoken.symm).trans hsuffix.isInfix
    · exact (ih hlater hmem).trans (hafter.trans hsuffix).isInfix
  | case5 around s c rest hskip token inner after hscan hlt => cases h

/-! ## The binding of a variable -/

section Binding

variable {around inner : Insertions} {c : Char} {rest after : List Char} {token : Token}

theorem scanAll_of_scan (hskip : skipSpace s = c :: rest)
    (hscan : scan around (c :: rest) = some (token, inner, after)) :
    scanAll around s
      = if after.length < s.length then (scanAll inner after).map (token :: ·) else none := by
  rw [scanAll, hskip]
  simp only [hscan]

/-- A token in front of others, with a space in front of it or without. -/
theorem scanAll_token (hblank : Text.isBlank c = false) (hcomment : (c == '#') = false)
    (hscan : scan around (c :: rest) = some (token, inner, after))
    (hlength : after.length ≤ rest.length) :
    scanAll around (c :: rest) = (scanAll inner after).map (token :: ·)
      ∧ scanAll around (' ' :: c :: rest) = (scanAll inner after).map (token :: ·) := by
  have hskip : skipSpace (c :: rest) = c :: rest := by
    rw [skipSpace, hblank, hcomment]
    rfl
  have hspace : skipSpace (' ' :: c :: rest) = c :: rest := by
    rw [skipSpace, if_pos (by decide), hskip]
  constructor
  · rw [scanAll_of_scan hskip hscan, if_pos (by simp only [List.length_cons]; omega)]
  · rw [scanAll_of_scan hspace hscan, if_pos (by simp only [List.length_cons]; omega)]

/-- What begins a name can go on in it. -/
theorem continuesName_of_startsName {c : Char} (hc : startsName c = true) :
    continuesName c = true := by
  simp only [startsName, continuesName, Char.isAlphanum, Bool.or_eq_true] at hc ⊢
  exact hc.imp_left Or.inl

theorem takeName_space {word : List Char} (hword : ∀ c ∈ word, continuesName c = true)
    (rest : List Char) : takeName (word ++ ' ' :: rest) = (word, ' ' :: rest) := by
  rw [takeName, List.takeWhile_append_of_pos hword, List.dropWhile_append_of_pos hword]
  simp [show continuesName ' ' = false from rfl]

/-- The tokens of a source with its input bound to a variable. -/
theorem ofSource_binding {first : Char} {others : List Char} (hfirst : startsName first = true)
    (hothers : ∀ c ∈ others, continuesName c = true) (source : String) :
    ofSource (Expression.binding (String.ofList (first :: others)) source).toList
      = (ofSource (Expression.parenthesized source).toList).map ([.symbol ".", .word "as",
        .variable (String.ofList (first :: others)), .symbol "|"] ++ ·) := by
  obtain ⟨inside, hinside⟩ :
      ∃ inside, (Expression.parenthesized source).toList = '(' :: inside :=
    ⟨source.toList ++ "\n)".toList, by simp [Expression.parenthesized]⟩
  have htext : (Expression.binding (String.ofList (first :: others)) source).toList
      = '.' :: ' ' :: 'a' :: 's' :: ' ' :: '$' ::
        (first :: others ++ ' ' :: '|' :: ' ' :: '(' :: inside) := by
    simp [Expression.binding, hinside]
  have hcontinues : ∀ c ∈ first :: others, continuesName c = true :=
    List.forall_mem_cons.mpr ⟨continuesName_of_startsName hfirst, hothers⟩
  have hpoint (t : List Char) : scan [] ('.' :: ' ' :: t) = some (.symbol ".", [], ' ' :: t) := rfl
  have has (t : List Char) :
      scan [] ('a' :: 's' :: ' ' :: t) = some (.word "as", [], ' ' :: t) := rfl
  have hvariable (t : List Char) : scan [] ('$' :: (first :: others ++ ' ' :: t))
      = some (.variable (String.ofList (first :: others)), [], ' ' :: t) := by
    have hsign (s : List Char) : scan [] ('$' :: s) = scanSign [] '$' s := rfl
    have hname := takeName_space hcontinues t
    rw [List.cons_append] at hname ⊢
    rw [hsign, scanSign, if_pos hfirst, hname]
  have hpipe (t : List Char) : scan [] ('|' :: ' ' :: t) = some (.symbol "|", [], ' ' :: t) := rfl
  have hopen : scan [] ('(' :: inside) = some (.symbol "(", [], inside) := rfl
  rw [ofSource, ofSource, htext, hinside, (scanAll_token rfl rfl (hpoint _) (by simp)).1,
    (scanAll_token rfl rfl (has _) (by simp)).2,
    (scanAll_token rfl rfl (hvariable _) (by simp; omega)).2,
    (scanAll_token rfl rfl (hpipe _) (by simp)).2,
    (scanAll_token rfl rfl hopen (Nat.le_refl _)).2,
    (scanAll_token rfl rfl hopen (Nat.le_refl _)).1]
  simp only [Option.map_map]
  rfl

end Binding

end LayeredConfig.Jq.Token
