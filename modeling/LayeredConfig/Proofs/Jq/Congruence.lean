/-
  LayeredConfig.Proofs.Jq.Congruence

  What is made of filters depends on how the filters in it run, and on nothing
  else about the run.
-/
import LayeredConfig.Jq.Eval

namespace LayeredConfig.Jq

/-- The filters that a step takes its key or its bounds from. -/
def Step.filters : Step Filter → List Filter
  | .iterate => []
  | .index key => [key]
  | .slice low high => low.toList ++ high.toList

variable {run run' : Filter → Computation}

theorem insertTexts_congr {inserts : List (Filter × String)}
    (h : ∀ insert ∈ inserts, run' insert.1 = run insert.1) (before : Computation) :
    insertTexts run' before inserts = insertTexts run before inserts := by
  induction inserts generalizing before with
  | nil => rfl
  | cons insert rest ih =>
    obtain ⟨hinsert, hrest⟩ := List.forall_mem_cons.mp h
    simp only [insertTexts, hinsert, ih hrest]

theorem addFields_congr {entries : List (Filter × Filter)}
    (h : ∀ entry ∈ entries, run' entry.1 = run entry.1 ∧ run' entry.2 = run entry.2)
    (before : Computation) : addFields run' before entries = addFields run before entries := by
  induction entries generalizing before with
  | nil => rfl
  | cons entry rest ih =>
    obtain ⟨hentry, hrest⟩ := List.forall_mem_cons.mp h
    simp only [addFields, hentry.1, hentry.2, ih hrest]

theorem runOption_congr {f : Option Filter} (h : ∀ g ∈ f.toList, run' g = run g)
    (body : Except Fault (Option Datum) → Computation) :
    runOption run' f body = runOption run f body := by
  cases f with
  | none => rfl
  | some f => simp only [runOption, h f (by simp)]

theorem runSteps_congr {steps : List (Step Filter × Bool)}
    (h : ∀ step ∈ steps, ∀ f ∈ step.1.filters, run' f = run f)
    (body : List (Step Datum × Bool) → Computation)
    (before : Except Fault (List (Step Datum × Bool))) :
    runSteps run' body before steps = runSteps run body before steps := by
  induction steps generalizing before with
  | nil => rfl
  | cons first rest ih =>
    obtain ⟨hfirst, hrest⟩ := List.forall_mem_cons.mp h
    obtain ⟨step, lenient⟩ := first
    cases step with
    | iterate => simp only [runSteps, ih hrest]
    | index key => simp only [runSteps, hfirst key (by simp [Step.filters]), ih hrest]
    | slice low high =>
      have hlow := runOption_congr fun g hg => hfirst g (List.mem_append_left _ hg)
      have hhigh := runOption_congr fun g hg => hfirst g (List.mem_append_right _ hg)
      simp only [runSteps, hlow, hhigh, ih hrest]

end LayeredConfig.Jq
