/-
  LayeredConfig.Proofs.Jq.Bindings

  Reading the binding of a variable.

  As the grammar is local, what stands behind the binding of a variable is the
  filter that it is by itself (`ofTokens_binding`), and a filter uses no variable
  that is not among its tokens (`avoids_of_ofTokens`).
-/
import LayeredConfig.Proofs.Jq.Reading.Terms

namespace LayeredConfig.Jq

namespace Grammar

variable {name : String} {ts rest : List Token} {fuel : Nat} {f : Filter}

/-! ## Filters in front of an end -/

theorem ofTokens_eq_some_iff :
    Filter.ofTokens ts = some f ↔ pipe? (32 * (ts.length + 1)) true ts = some (f, []) := by
  unfold Filter.ofTokens
  split <;> simp_all

theorem pipe?_of_ofTokens (h : Filter.ofTokens ts = some f) (hrest : Ends rest)
    (hfuel : 32 * ts.length + 13 ≤ fuel) : pipe? fuel true (ts ++ rest) = some (f, rest) := by
  obtain ⟨used, hts, -, hagain⟩ := (readsLocally "" _).pipe (ofTokens_eq_some_iff.mp h)
  rw [List.append_nil] at hts
  subst hts
  exact hagain rest (.ends .nil hrest) fuel hfuel

theorem ofTokens_of_pipe? (h : pipe? fuel true (ts ++ rest) = some (f, rest)) (hrest : Ends rest) :
    Filter.ofTokens ts = some f := by
  obtain ⟨used, hts, -, hagain⟩ := (readsLocally "" fuel).pipe h
  obtain rfl := List.append_cancel_right hts
  have hwhole := hagain [] (.ends hrest .nil) (32 * (ts.length + 1)) (by omega)
  rw [List.append_nil] at hwhole
  exact ofTokens_eq_some_iff.mpr hwhole

/-- A filter uses no variable that is not among its tokens. -/
theorem avoids_of_ofTokens (h : Filter.ofTokens ts = some f) (hname : .variable name ∉ ts) :
    f.avoids name = true := by
  obtain ⟨used, hts, havoids, -⟩ := (readsLocally name _).pipe (ofTokens_eq_some_iff.mp h)
  rw [List.append_nil] at hts
  exact havoids (hts ▸ hname)

/-! ## Terms that stand alone -/

/-- Nothing behind a term goes on with it. -/
structure EndsTerm (rest : List Token) : Prop where
  lenient : takeLenient rest = (false, rest)
  steps (fuel : Nat) : steps? (fuel + 1) rest = some ([], rest)
  operator (commas : Bool) (level : Nat) : ∀ t ∈ rest.head?, operator? commas level t = none

theorem endsTerm_word (word : String) (hor : word ≠ "or") (hand : word ≠ "and")
    (ts : List Token) : EndsTerm (.word word :: ts) where
  lenient := rfl
  steps _ := rfl
  operator commas level t ht := by
    obtain rfl := Option.some.inj ht
    simp [operator?, hor, hand]

theorem term?_of_atom? {enough : Nat}
    (hatom : ∀ fuel, enough ≤ fuel → atom? fuel ts = some (f, rest)) (hrest : EndsTerm rest)
    (hfuel : enough + 2 ≤ fuel) : term? fuel ts = some (f, rest) := by
  obtain ⟨fuel, rfl⟩ : ∃ k, fuel = k + 2 := ⟨fuel - 2, by omega⟩
  simp [term?, hatom (fuel + 1) (by omega), hrest.lenient, hrest.steps fuel]

theorem operands?_of_endsTerm {commas : Bool} {level : Nat} (hrest : EndsTerm rest) :
    operands? (fuel + 1) commas level f rest = some (f, rest) := by
  cases rest with
  | nil => rfl
  | cons t rest => simp [operands?, hrest.operator commas level t rfl]

/-- A term that stands alone is all of the filter at each level. -/
theorem level?_of_atom? {enough : Nat} {commas : Bool}
    (hatom : ∀ fuel, enough ≤ fuel → atom? fuel ts = some (f, rest)) (hrest : EndsTerm rest)
    {above : Nat} (habove : above ≤ tightest) (hfuel : enough + 3 + above ≤ fuel) :
    level? fuel commas (tightest - above) ts = some (f, rest) := by
  induction above generalizing fuel with
  | zero =>
    obtain ⟨fuel, rfl⟩ : ∃ k, fuel = k + 1 := ⟨fuel - 1, by omega⟩
    rw [level?, Nat.sub_zero, if_pos rfl, term?_of_atom? hatom hrest (by omega)]
  | succ above ih =>
    obtain ⟨fuel, rfl⟩ : ∃ k, fuel = k + 2 := ⟨fuel - 2, by omega⟩
    have hne : ¬tightest - (above + 1) = tightest := by
      simp only [tightest] at habove ⊢
      omega
    have hnext : tightest - (above + 1) + 1 = tightest - above := by omega
    rw [level?, if_neg hne, hnext, ih (by omega) (by omega)]
    exact operands?_of_endsTerm hrest

/-! ## The binding of a variable -/

/-- Behind the binding of a variable to the input stands any filter. -/
theorem ofTokens_binding (name : String) (ts : List Token) :
    Filter.ofTokens (.symbol "." :: .word "as" :: .variable name :: .symbol "|" :: ts)
      = (Filter.ofTokens ts).map (.bind .identity name) := by
  have hatom (fuel : Nat) (hfuel : 1 ≤ fuel) (ts : List Token) :
      atom? fuel (.symbol "." :: .word "as" :: ts) = some (.identity, .word "as" :: ts) := by
    obtain ⟨fuel, rfl⟩ : ∃ k, fuel = k + 1 := ⟨fuel - 1, by omega⟩
    rfl
  obtain ⟨fuel, hfuel⟩ : ∃ k, 32 * ((Token.symbol "." :: .word "as" :: .variable name ::
      .symbol "|" :: ts).length + 1) = k + 1 :=
    ⟨_, (Nat.succ_pred_eq_of_pos (by omega)).symm⟩
  have hlevel : level? fuel true 0
        (.symbol "." :: .word "as" :: .variable name :: .symbol "|" :: ts)
      = some (.identity, .word "as" :: .variable name :: .symbol "|" :: ts) := by
    refine level?_of_atom? (hatom · · _) (endsTerm_word "as" (by decide) (by decide) _)
      (Nat.le_refl tightest) ?_
    simp only [List.length_cons, tightest] at hfuel ⊢
    omega
  have hpipe : pipe? (fuel + 1) true
        (.symbol "." :: .word "as" :: .variable name :: .symbol "|" :: ts)
      = (pipe? fuel true ts).map fun read => (.bind .identity name read.1, read.2) := by
    rw [pipe?, hlevel]
    exact Option.map_eq_bind.symm
  -- the fuel for the whole is more than enough for what is behind the binding
  cases h : Filter.ofTokens ts with
  | some f =>
    have hsource := pipe?_of_ofTokens h .nil
      (show 32 * ts.length + 13 ≤ fuel by simp only [List.length_cons] at hfuel; omega)
    rw [List.append_nil] at hsource
    unfold Filter.ofTokens
    rw [hfuel, hpipe, hsource]
    rfl
  | none =>
    unfold Filter.ofTokens
    rw [hfuel, hpipe]
    cases hsource : pipe? fuel true ts with
    | none => rfl
    | some read =>
      obtain ⟨f, rest⟩ := read
      cases rest with
      | nil =>
        rw [← List.append_nil ts] at hsource
        rw [ofTokens_of_pipe? hsource .nil] at h
        cases h
      | cons t rest => rfl

end Grammar

end LayeredConfig.Jq
