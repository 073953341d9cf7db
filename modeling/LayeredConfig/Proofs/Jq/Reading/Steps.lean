/-
  LayeredConfig.Proofs.Jq.Reading.Steps

  Terms with steps into them take their tokens off locally.

  A term goes on as long as steps and question marks follow, so the tokens behind
  it are looked at; but no step begins where tokens end or a parenthesis closes.
-/
import LayeredConfig.Proofs.Jq.Reading

namespace LayeredConfig.Jq.Grammar

variable {name : String} {ts rest : List Token} {fuel : Nat}

/-! ## Steps -/

theorem term_local (ih : ReadsLocally name fuel) {f : Filter}
    (h : term? (fuel + 1) ts = some (f, rest)) :
    Finds name term? 2 (·.avoids name = true) ts f rest := by
  simp only [term?, Option.bind_eq_bind, Option.bind_eq_some_iff, Prod.exists] at h
  obtain ⟨g, after, hatom, steps, behind, hsteps, h⟩ := h
  cases h
  cases htake : takeLenient after with
  | mk lenient between =>
    rw [htake] at hsteps
    obtain ⟨used, rfl, hg, hagain⟩ := ih.atom hatom
    obtain ⟨marks, rfl, hmarks, hmarked⟩ := exists_of_takeLenient name htake
    obtain ⟨later, rfl, havoids, hstepped⟩ := ih.steps hsteps
    refine .intro (used ++ (marks ++ later)) (by simp) (fun hname => ?_) fun rest' halike m hm => ?_
    · simp only [List.mem_append, not_or] at hname
      have hg := hg hname.1
      have havoids := havoids hname.2.2
      split <;> cases lenient <;> simp [Filter.avoids, Filter.avoidsOption, hg, havoids]
    · simp only [List.length_append] at hm
      have hatom := hagain _ ((halike.append later).append marks) m (by omega)
      have htake' := hmarked _ (halike.append later)
      have hsteps := hstepped rest' halike m (by omega)
      simp [term?, hatom, htake', hsteps]

/-- A step to a name is read up to the last question mark behind it. -/
theorem exists_of_namedStep (name : String) {key : Filter} {step : Step Filter × Bool}
    (h : namedStep key ts = (step, rest)) :
    ∃ marks, ts = marks ++ rest ∧ .variable name ∉ marks ∧ step.1 = .index key
      ∧ ∀ rest', Alike rest rest' → namedStep key (marks ++ rest') = (step, rest') := by
  cases htake : takeLenient ts with
  | mk lenient between =>
    simp only [namedStep, htake, Prod.mk.injEq] at h
    obtain ⟨rfl, rfl⟩ := h
    obtain ⟨marks, rfl, hmarks, hmarked⟩ := exists_of_takeLenient name htake
    exact ⟨marks, rfl, hmarks, rfl, fun rest' halike => by
      simp only [namedStep, hmarked rest' halike]⟩

/-- The step to a key and the steps behind it. -/
def keyedSteps? (fuel : Nat) (key : Filter) (ts : List Token) :
    Option (List (Step Filter × Bool) × List Token) := do
  let (steps, rest) ← steps? fuel (namedStep key ts).2
  some ((namedStep key ts).1 :: steps, rest)

theorem keyedSteps_local (ih : ReadsLocally name fuel) {key : Filter}
    {steps : List (Step Filter × Bool)} (h : keyedSteps? fuel key ts = some (steps, rest)) :
    Finds name (keyedSteps? · key) 1
      (key.avoids name = true → Filter.avoidsSteps name · = true) ts steps rest := by
  simp only [keyedSteps?, Option.bind_eq_bind, Option.bind_eq_some_iff, Prod.exists] at h
  obtain ⟨later, behind, hsteps, h⟩ := h
  cases h
  cases hnamed : namedStep key ts with
  | mk step between =>
    rw [hnamed] at hsteps
    obtain ⟨marks, rfl, -, hkey, hmarked⟩ := exists_of_namedStep name hnamed
    obtain ⟨used, rfl, havoids, hagain⟩ := ih.steps hsteps
    refine ⟨marks ++ used, by simp, fun hname havoidsKey => ?_, fun rest' halike m hm => ?_⟩
    · simp only [List.mem_append, not_or] at hname
      simp [Filter.avoidsSteps, hkey, Filter.avoidsStep, havoidsKey, havoids hname.2]
    · simp only [List.length_append] at hm
      have hnamed' := hmarked _ (halike.append used)
      have hsteps := hagain rest' halike m (by omega)
      simp [keyedSteps?, hnamed', hsteps]

theorem steps_local (ih : ReadsLocally name fuel) {steps : List (Step Filter × Bool)}
    (h : steps? (fuel + 1) ts = some (steps, rest)) :
    Finds name steps? 1 (Filter.avoidsSteps name · = true) ts steps rest := by
  simp only [steps?] at h
  split at h
  · -- a name behind a point
    rename_i field ts
    have hkeyed : keyedSteps? fuel (constant field) ts = some (steps, rest) := h
    obtain ⟨used, rfl, havoids, hagain⟩ := keyedSteps_local ih hkeyed
    refine .intro (.field field :: used) rfl (fun hname => ?_) fun rest' halike m hm => ?_
    · exact havoids (fun hmem => hname (by simp [hmem])) rfl
    · simp only [List.length_cons] at hm
      exact hagain rest' halike m (by omega)
  · -- a text behind a point
    rename_i part ts
    have hkeyed : keyedSteps? fuel (constant part) ts = some (steps, rest) := h
    obtain ⟨used, rfl, havoids, hagain⟩ := keyedSteps_local ih hkeyed
    refine .intro (.symbol "." :: .text part :: used) rfl (fun hname => ?_)
      fun rest' halike m hm => ?_
    · exact havoids (fun hmem => hname (by simp [hmem])) rfl
    · simp only [List.length_cons] at hm
      exact hagain rest' halike m (by omega)
  · -- a text with insertions behind a point
    rename_i part ts
    obtain ⟨⟨inserts, between⟩, hinserts, hkeyed⟩ := Option.bind_eq_some_iff.mp h
    replace hkeyed : keyedSteps? fuel (.text part inserts) between = some (steps, rest) := hkeyed
    clear h
    obtain ⟨used, rfl, hi, hinserted⟩ := ih.inserts hinserts
    obtain ⟨later, rfl, havoids, hagain⟩ := keyedSteps_local ih hkeyed
    refine .intro (.symbol "." :: .textStart part :: (used ++ later)) (by simp) (fun hname => ?_)
      fun rest' halike m hm => ?_
    · simp only [List.mem_cons, List.mem_append, not_or] at hname
      exact havoids hname.2.2.2 (hi hname.2.2.1)
    · simp only [List.length_cons, List.length_append] at hm
      have hinserts := hinserted _ (halike.append later) m (by omega)
      have hkeyed := hagain rest' halike m (by omega)
      simp only [List.cons_append, List.append_assoc, steps?, hinserts, Option.bind_eq_bind,
        Option.bind_some]
      exact hkeyed
  · -- brackets
    rename_i ts
    simp only [Option.bind_eq_bind, Option.bind_eq_some_iff, Prod.exists] at h
    obtain ⟨step, between, hbracket, steps, behind, hsteps, h⟩ := h
    cases h
    cases htake : takeLenient between with
    | mk lenient after =>
      rw [htake] at hsteps
      obtain ⟨used, rfl, hstep, hagain⟩ := ih.bracket hbracket
      obtain ⟨marks, rfl, hmarks, hmarked⟩ := exists_of_takeLenient name htake
      obtain ⟨later, rfl, havoids, hstepped⟩ := ih.steps hsteps
      refine .intro (.symbol "[" :: (used ++ (marks ++ later))) (by simp) (fun hname => ?_)
        fun rest' halike m hm => ?_
      · simp only [List.mem_cons, List.mem_append, not_or] at hname
        simp [Filter.avoidsSteps, hstep hname.2.1, havoids hname.2.2.2]
      · simp only [List.length_cons, List.length_append] at hm
        have hbracket := hagain _ ((halike.append later).append marks) m (by omega)
        have htake' := hmarked _ (halike.append later)
        have hsteps := hstepped rest' halike m (by omega)
        simp [steps?, hbracket, htake', hsteps]
  · -- the steps end, and what follows begins none of the four
    rename_i hfield htext hinsert hbracket
    cases h
    refine .intro [] rfl (fun _ => rfl) fun rest' halike m hm => ?_
    simp only [List.nil_append, steps?]
    split
    · obtain ⟨r, rfl, -⟩ := halike.of_append [.field _] (by simp)
      exact (hfield _ r rfl).elim
    · obtain ⟨r, rfl, -⟩ := halike.of_append [.symbol ".", .text _] (by simp)
      exact (htext _ r rfl).elim
    · obtain ⟨r, rfl, -⟩ := halike.of_append [.symbol ".", .textStart _] (by simp)
      exact (hinsert _ r rfl).elim
    · obtain ⟨r, rfl, -⟩ := halike.of_append [.symbol "["] (by simp)
      exact (hbracket r rfl).elim
    · rfl

/-! ## Brackets -/

theorem bracket_local (ih : ReadsLocally name fuel) {step : Step Filter}
    (h : bracket? (fuel + 1) ts = some (step, rest)) :
    Finds name bracket? 14 (Filter.avoidsStep name · = true) ts step rest := by
  simp only [bracket?] at h
  split at h
  · -- all items
    cases h
    exact .intro [.symbol "]"] rfl (fun _ => rfl) fun rest' halike m hm => rfl
  · -- an upper bound alone
    rename_i ts
    simp only [Option.bind_eq_bind, Option.bind_eq_some_iff, Prod.exists] at h
    obtain ⟨high, between, hpipe, after, hclose, h⟩ := h
    cases h
    rw [expect?_eq_some_iff] at hclose
    subst hclose
    obtain ⟨used, rfl, hhigh, hagain⟩ := ih.pipe hpipe
    refine .intro (.symbol ":" :: (used ++ [Token.symbol "]"])) (by simp) (fun hname => ?_)
      fun rest' halike m hm => ?_
    · simp only [List.mem_cons, List.mem_append, not_or] at hname
      exact hhigh hname.2.1
    · simp only [List.length_cons, List.length_append] at hm
      have hpipe := hagain _ (halike.cons (.symbol "]")) m (by omega)
      simp [bracket?, hpipe, expect?]
  · rename_i hclosing hcolon
    simp only [Option.bind_eq_bind, Option.bind_eq_some_iff, Prod.exists] at h
    obtain ⟨key, between, hpipe, h⟩ := h
    obtain ⟨used, rfl, hkey, hagain⟩ := ih.pipe hpipe
    -- the key has a token of its own, since what stands behind it cannot begin it
    cases used with
    | nil => split at h <;> simp_all
    | cons t used =>
      have hclosing' : t ≠ .symbol "]" := by rintro rfl; exact hclosing _ rfl
      have hcolon' : t ≠ .symbol ":" := by rintro rfl; exact hcolon _ rfl
      split at h
      · -- a key
        cases h
        refine .intro (t :: used ++ [Token.symbol "]"]) (by simp) (fun hname => ?_)
          fun rest' halike m hm => ?_
        · exact hkey fun hmem => hname (List.mem_append_left _ hmem)
        · simp only [List.length_cons, List.length_append] at hm
          have hpipe := hagain _ (halike.cons (.symbol "]")) m
            (by simp only [List.length_cons]; omega)
          simp_all [bracket?]
      · -- a lower bound alone
        cases h
        refine .intro (t :: used ++ [Token.symbol ":", .symbol "]"]) (by simp) (fun hname => ?_)
          fun rest' halike m hm => ?_
        · simp only [Filter.avoidsStep, Filter.avoidsOption, Bool.and_true]
          exact hkey fun hmem => hname (List.mem_append_left _ hmem)
        · simp only [List.length_cons, List.length_append] at hm
          have hpipe := hagain _ ((halike.cons (.symbol "]")).cons (.symbol ":")) m
            (by simp only [List.length_cons]; omega)
          simp_all [bracket?]
      · -- both bounds
        rename_i hwhole
        simp only [Option.bind_eq_some_iff, Prod.exists] at h
        obtain ⟨high, between, hpipe', after, hclose, h⟩ := h
        cases h
        rw [expect?_eq_some_iff] at hclose
        subst hclose
        obtain ⟨later, rfl, hhigh, hlater⟩ := ih.pipe hpipe'
        cases later with
        | nil => exact (hwhole rest rfl).elim
        | cons u later =>
          have hwhole' : u ≠ .symbol "]" := by rintro rfl; exact hwhole _ rfl
          refine .intro (t :: used ++ Token.symbol ":" :: (u :: later ++ [Token.symbol "]"]))
            (by simp only [List.cons_append, List.append_assoc, List.nil_append])
            (fun hname => ?_) fun rest' halike m hm => ?_
          · have hkey := hkey fun hmem => hname (List.mem_append_left _ hmem)
            have hhigh := hhigh fun hmem => hname (List.mem_append_right _
              (List.mem_cons_of_mem _ (List.mem_append_left _ hmem)))
            simp only [Filter.avoidsStep, Filter.avoidsOption, hkey, hhigh, Bool.and_self]
          · simp only [List.length_cons, List.length_append] at hm
            have hkey := hagain _ (((halike.cons (.symbol "]")).append (u :: later)).cons
              (.symbol ":")) m (by simp only [List.length_cons]; omega)
            have hhigh := hlater _ (halike.cons (.symbol "]")) m
              (by simp only [List.length_cons]; omega)
            simp_all [bracket?, expect?]
      · cases h

end LayeredConfig.Jq.Grammar
