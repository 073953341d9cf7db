/-
  LayeredConfig.Proofs.Results

  Results that may be errors.

  A computation is taken apart by what its steps are ok with.  Results that are
  ok with the same count as the same where it does not matter which error is
  reported.
-/
import Mathlib.Data.List.Forall2

namespace LayeredConfig

theorem bind_eq_ok_iff {ε α β : Type} {x : Except ε α} {f : α → Except ε β} {b : β} :
    (x >>= f) = .ok b ↔ ∃ a, x = .ok a ∧ f a = .ok b := by
  cases x with
  | error e => simp [bind, Except.bind]
  | ok a => simp [bind, Except.bind]

theorem bind_eq_error_iff {ε α β : Type} {x : Except ε α} {f : α → Except ε β} {e : ε} :
    (x >>= f) = .error e ↔ x = .error e ∨ ∃ a, x = .ok a ∧ f a = .error e := by
  cases x with
  | error e => simp [bind, Except.bind]
  | ok a => simp [bind, Except.bind]

theorem mapError_ok {ε ε' α : Type} (f : ε → ε') (a : α) :
    (Except.ok a).mapError f = .ok a := rfl

theorem mapError_error {ε ε' α : Type} (f : ε → ε') (e : ε) :
    (Except.error e : Except ε α).mapError f = .error (f e) := rfl

theorem mapError_eq_ok_iff {ε ε' α : Type} {f : ε → ε'} {x : Except ε α} {a : α} :
    x.mapError f = .ok a ↔ x = .ok a := by
  cases x with
  | error e => simp [mapError_error]
  | ok b => simp [mapError_ok]

theorem mapError_eq_error_iff {ε ε' α : Type} {f : ε → ε'} {x : Except ε α} {e' : ε'} :
    x.mapError f = .error e' ↔ ∃ e, x = .error e ∧ f e = e' := by
  cases x with
  | error e => simp [mapError_error]
  | ok b => simp [mapError_ok]

theorem toOption_eq_some_iff {ε α : Type} {x : Except ε α} {a : α} :
    x.toOption = some a ↔ x = .ok a := by
  cases x <;> simp [Except.toOption]

theorem isSome_toOption_iff {ε α : Type} {x : Except ε α} :
    x.toOption.isSome = true ↔ ∃ a, x = .ok a := by
  cases x <;> simp [Except.toOption]

/-- What is ok with nothing is an error. -/
theorem exists_error_iff {ε α : Type} {x : Except ε α} :
    (∃ e, x = .error e) ↔ ¬∃ a, x = .ok a := by
  cases x with
  | error e => simp
  | ok a => simp

/-- Results are the same as options if either is ok only with what the other is
    ok with. -/
theorem toOption_eq_of_imp {ε α : Type} {x y : Except ε α}
    (hx : ∀ a, x = .ok a → y = .ok a) (hy : ∀ a, y = .ok a → x = .ok a) :
    x.toOption = y.toOption := by
  refine Option.ext fun a => ?_
  rw [toOption_eq_some_iff, toOption_eq_some_iff]
  exact ⟨hx a, hy a⟩

/-! ## Errors -/

/-- The error that a result reports. -/
def reported {ε α : Type} : Except ε α → Option ε
  | .error e => some e
  | .ok _ => none

theorem reported_eq_some_iff {ε α : Type} {x : Except ε α} {e : ε} :
    reported x = some e ↔ x = .error e := by
  cases x <;> simp [reported]

theorem reported_eq_none_iff {ε α : Type} {x : Except ε α} :
    reported x = none ↔ ∃ a, x = .ok a := by
  cases x <;> simp [reported]

/-- The first step is reported before the second, which does not report something
    else for each result of the first. -/
theorem reported_bind {ε α β : Type} {x : Except ε α} {f : α → Except ε β} {later : Option ε}
    (h : ∀ a, x = .ok a → reported (f a) = later) :
    reported (x >>= f) = (reported x).or later := by
  cases x with
  | error e => rfl
  | ok a => exact h a rfl

theorem reported_bind_of_none {ε α β : Type} {x : Except ε α} {f : α → Except ε β}
    (h : ∀ a, reported (f a) = none) : reported (x >>= f) = reported x := by
  rw [reported_bind fun a _ => h a, Option.or_none]

theorem reported_mapError {ε ε' α : Type} (f : ε → ε') (x : Except ε α) :
    reported (x.mapError f) = (reported x).map f := by
  cases x <;> rfl

/-! ## One result after the other -/

section Each

variable {ε α β : Type} {f : α → Except ε β} {items : List α}

theorem mapM_eq_ok_iff {results : List β} :
    items.mapM f = .ok results ↔
      List.Forall₂ (fun item result => f item = .ok result) items results := by
  induction items generalizing results with
  | nil => simp [pure, Except.pure, eq_comm]
  | cons item items ih =>
    rw [List.mapM_cons, bind_eq_ok_iff, List.forall₂_cons_left_iff]
    constructor
    · rintro ⟨first, hfirst, h⟩
      obtain ⟨rest, hrest, heq⟩ := bind_eq_ok_iff.mp h
      exact ⟨first, rest, hfirst, ih.mp hrest, (Except.ok.inj heq).symm⟩
    · rintro ⟨first, rest, hfirst, hrest, rfl⟩
      exact ⟨first, hfirst, bind_eq_ok_iff.mpr ⟨rest, ih.mpr hrest, rfl⟩⟩

/-- The error is that of the first item with one, whatever comes behind it. -/
theorem mapM_eq_error_iff {e : ε} :
    items.mapM f = .error e ↔ ∃ before item after, items = before ++ item :: after
      ∧ (∀ earlier ∈ before, ∃ result, f earlier = .ok result) ∧ f item = .error e := by
  induction items with
  | nil => simp [pure, Except.pure]
  | cons first items ih =>
    rw [List.mapM_cons, bind_eq_error_iff]
    constructor
    · rintro (hfirst | ⟨result, hfirst, h⟩)
      · exact ⟨[], first, items, rfl, by simp, hfirst⟩
      · rcases bind_eq_error_iff.mp h with hrest | ⟨rest, -, h⟩
        · obtain ⟨before, item, after, rfl, hbefore, hitem⟩ := ih.mp hrest
          exact ⟨first :: before, item, after, rfl,
            List.forall_mem_cons.mpr ⟨⟨result, hfirst⟩, hbefore⟩, hitem⟩
        · exact absurd h (by simp [pure, Except.pure])
    · rintro ⟨before, item, after, heq, hbefore, hitem⟩
      cases before with
      | nil =>
        obtain ⟨rfl, rfl⟩ := List.cons.inj heq
        exact Or.inl hitem
      | cons earlier before =>
        obtain ⟨rfl, rfl⟩ := List.cons.inj heq
        obtain ⟨⟨result, hfirst⟩, hrest⟩ := List.forall_mem_cons.mp hbefore
        have herror := ih.mpr ⟨before, item, after, rfl, hrest, hitem⟩
        exact Or.inr ⟨result, hfirst, bind_eq_error_iff.mpr (Or.inl herror)⟩

theorem exists_mem_of_forall₂ {r : α → β → Prop} {results : List β}
    (h : List.Forall₂ r items results) {item : α} (hitem : item ∈ items) :
    ∃ result ∈ results, r item result := by
  obtain ⟨i, hi, rfl⟩ := List.mem_iff_getElem.mp hitem
  exact ⟨_, List.getElem_mem (h.length_eq ▸ hi), h.get hi (h.length_eq ▸ hi)⟩

end Each

end LayeredConfig
