/-
  LayeredConfig.Proofs.Jq.Reading

  What the grammar takes off a list of tokens.

  A filter is read from the tokens that it takes off and from nothing else: in
  front of other tokens it is read alike, as long as these begin in the same way
  up to a place where either list ends or closes a parenthesis (`Alike`).  Fuel
  matters no more once there is enough for the tokens that are taken off.  Both
  hold of all functions of the grammar at once (`ReadsLocally`), by induction on
  the fuel, with one lemma for each function.
-/
import LayeredConfig.Proofs.Jq.Unused
import LayeredConfig.Jq.Grammar

namespace LayeredConfig.Jq.Grammar

variable {α : Type} {name : String} {ts rest rest' : List Token}

/-! ## Tokens behind a filter -/

/-- No filter goes on here: there are no tokens, or a parenthesis closes. -/
inductive Ends : List Token → Prop
  | nil : Ends []
  | close (ts : List Token) : Ends (.symbol ")" :: ts)

/-- The same tokens up to a place where both lists end or close a parenthesis. -/
inductive Alike : List Token → List Token → Prop
  | ends {ts ts' : List Token} (h : Ends ts) (h' : Ends ts') : Alike ts ts'
  | cons (t : Token) {ts ts' : List Token} (h : Alike ts ts') : Alike (t :: ts) (t :: ts')

namespace Alike

theorem append (h : Alike rest rest') (used : List Token) :
    Alike (used ++ rest) (used ++ rest') := by
  induction used with
  | nil => exact h
  | cons t used ih => exact ih.cons t

theorem symm (h : Alike rest rest') : Alike rest' rest := by
  induction h with
  | ends h h' => exact .ends h' h
  | cons t h ih => exact ih.cons t

/-- Tokens that do not close a parenthesis stand in front of both lists. -/
theorem of_append (start : List Token) (hstart : .symbol ")" ∉ start)
    (h : Alike rest (start ++ rest')) : ∃ ts, rest = start ++ ts ∧ Alike ts rest' := by
  induction start generalizing rest with
  | nil => exact ⟨rest, rfl, h⟩
  | cons t start ih =>
    rw [List.mem_cons, not_or] at hstart
    cases h with
    | ends hrest hend =>
      cases hend
      exact absurd rfl hstart.1
    | cons t h =>
      obtain ⟨ts, rfl, hts⟩ := ih hstart.2 h
      exact ⟨ts, rfl, hts⟩

end Alike

/-! ## Functions of the grammar -/

/-- A function finds something in the tokens that it takes off, for which so many
    units of fuel are enough: it finds the same in front of other tokens that are
    alike.  What it finds does not use a variable that is not among the tokens. -/
def Finds (name : String) (read : Nat → List Token → Option (α × List Token)) (rank : Nat)
    (avoids : α → Prop) (ts : List Token) (found : α) (rest : List Token) : Prop :=
  ∃ used, ts = used ++ rest ∧ (.variable name ∉ used → avoids found)
    ∧ ∀ rest', Alike rest rest' → ∀ fuel, 32 * used.length + rank ≤ fuel →
      read fuel (used ++ rest') = some (found, rest')

/-- All functions of the grammar take tokens off in this way with a given fuel. -/
structure ReadsLocally (name : String) (fuel : Nat) : Prop where
  pipe {commas : Bool} {ts rest : List Token} {f : Filter}
    (h : pipe? fuel commas ts = some (f, rest)) :
    Finds name (pipe? · commas) 13 (·.avoids name = true) ts f rest
  level {commas : Bool} {level : Nat} {ts rest : List Token} {f : Filter}
    (hlevel : level ≤ tightest) (h : level? fuel commas level ts = some (f, rest)) :
    Finds name (level? · commas level) (12 - level) (·.avoids name = true) ts f rest
  operands {commas : Bool} {level : Nat} {ts rest : List Token} {f g : Filter}
    (hlevel : level < tightest) (h : operands? fuel commas level f ts = some (g, rest)) :
    Finds name (operands? · commas level f) 1 (f.avoids name = true → ·.avoids name = true)
      ts g rest
  term {ts rest : List Token} {f : Filter} (h : term? fuel ts = some (f, rest)) :
    Finds name term? 2 (·.avoids name = true) ts f rest
  steps {ts rest : List Token} {steps : List (Step Filter × Bool)}
    (h : steps? fuel ts = some (steps, rest)) :
    Finds name steps? 1 (Filter.avoidsSteps name · = true) ts steps rest
  bracket {ts rest : List Token} {step : Step Filter} (h : bracket? fuel ts = some (step, rest)) :
    Finds name bracket? 14 (Filter.avoidsStep name · = true) ts step rest
  atom {ts rest : List Token} {f : Filter} (h : atom? fuel ts = some (f, rest)) :
    Finds name atom? 1 (·.avoids name = true) ts f rest
  array {ts rest : List Token} {f : Filter} (h : array? fuel ts = some (f, rest)) :
    Finds name array? 14 (·.avoids name = true) ts f rest
  object {ts rest : List Token} {f : Filter} (h : object? fuel ts = some (f, rest)) :
    Finds name object? 3 (·.avoids name = true) ts f rest
  attempt {ts rest : List Token} {f : Filter} (h : attempt? fuel ts = some (f, rest)) :
    Finds name attempt? 3 (·.avoids name = true) ts f rest
  reduce {ts rest : List Token} {f : Filter} (h : reduce? fuel ts = some (f, rest)) :
    Finds name reduce? 3 (·.avoids name = true) ts f rest
  foreach {ts rest : List Token} {f : Filter} (h : foreach? fuel ts = some (f, rest)) :
    Finds name foreach? 3 (·.avoids name = true) ts f rest
  define {called : String} {parameters : List Parameter} {ts rest : List Token} {f : Filter}
    (h : define? fuel called parameters ts = some (f, rest)) :
    Finds name (define? · called parameters) 1 (·.avoids name = true) ts f rest
  call {called : String} {ts rest : List Token} {f : Filter}
    (h : call? fuel called ts = some (f, rest)) :
    Finds name (call? · called) 1 (·.avoids name = true) ts f rest
  inserts {ts rest : List Token} {inserts : List (Filter × String)}
    (h : inserts? fuel ts = some (inserts, rest)) :
    Finds name inserts? 14 (Filter.avoidsInserts name · = true) ts inserts rest
  arguments {ts rest : List Token} {arguments : List Filter}
    (h : arguments? fuel ts = some (arguments, rest)) :
    Finds name arguments? 14 (Filter.avoidsArguments name · = true) ts arguments rest
  condition {ts rest : List Token} {f : Filter} (h : condition? fuel ts = some (f, rest)) :
    Finds name condition? 14 (·.avoids name = true) ts f rest
  entries {ts rest : List Token} {entries : List (Filter × Filter)}
    (h : entries? fuel ts = some (entries, rest)) :
    Finds name entries? 2 (Filter.avoidsEntries name · = true) ts entries rest
  entry {ts rest : List Token} {entry : Filter × Filter}
    (h : entry? fuel ts = some (entry, rest)) :
    Finds name entry? 1 (fun entry => entry.1.avoids name = true ∧ entry.2.avoids name = true)
      ts entry rest
  entryValue {ts rest : List Token} {key : Filter} {entry : Filter × Filter}
    (h : entryValue? fuel key ts = some (entry, rest)) :
    Finds name (entryValue? · key) 1 (fun entry => key.avoids name = true →
      entry.1.avoids name = true ∧ entry.2.avoids name = true) ts entry rest

variable {fuel : Nat}

/-- It is enough to look at fuel of which a unit can be taken off. -/
theorem Finds.intro {read : Nat → List Token → Option (α × List Token)} {rank : Nat}
    {avoids : α → Prop} {found : α} (used : List Token) (hts : ts = used ++ rest)
    (havoids : .variable name ∉ used → avoids found)
    (hread : ∀ rest', Alike rest rest' → ∀ fuel, 32 * used.length + rank ≤ fuel →
      read (fuel + 1) (used ++ rest') = some (found, rest')) :
    Finds name read (rank + 1) avoids ts found rest := by
  refine ⟨used, hts, havoids, fun rest' halike fuel hfuel => ?_⟩
  cases fuel with
  | zero => omega
  | succ fuel => exact hread rest' halike fuel (by omega)

/-! ## Operators -/

theorem pipe_local (ih : ReadsLocally name fuel) {commas : Bool} {f : Filter}
    (h : pipe? (fuel + 1) commas ts = some (f, rest)) :
    Finds name (pipe? · commas) 13 (·.avoids name = true) ts f rest := by
  simp only [pipe?, Option.bind_eq_bind, Option.bind_eq_some_iff, Prod.exists] at h
  obtain ⟨g, after, hlevel, h⟩ := h
  obtain ⟨used, rfl, hg, hagain⟩ := ih.level (Nat.zero_le _) hlevel
  split at h
  · -- a pipe
    simp only [Option.bind_eq_some_iff, Prod.exists] at h
    obtain ⟨k, after, hpipe, h⟩ := h
    cases h
    obtain ⟨later, rfl, hk, hlater⟩ := ih.pipe hpipe
    refine .intro (used ++ Token.symbol "|" :: later) (by simp) (by simp_all [Filter.avoids])
      fun rest' halike m hm => ?_
    simp only [List.length_append, List.length_cons] at hm
    have hfirst := hagain _ ((halike.append later).cons (.symbol "|")) m (by omega)
    have hsecond := hlater rest' halike m (by omega)
    simp [pipe?, hfirst, hsecond]
  · -- a binding
    rename_i bound _
    simp only [Option.bind_eq_some_iff, Prod.exists] at h
    obtain ⟨k, after, hpipe, h⟩ := h
    cases h
    obtain ⟨later, rfl, hk, hlater⟩ := ih.pipe hpipe
    refine .intro (used ++ Token.word "as" :: .variable bound :: .symbol "|" :: later) (by simp)
      (by simp_all [Filter.avoids]) fun rest' halike m hm => ?_
    simp only [List.length_append, List.length_cons] at hm
    have hfirst := hagain _ ((((halike.append later).cons (.symbol "|")).cons
      (.variable bound)).cons (.word "as")) m (by omega)
    have hsecond := hlater rest' halike m (by omega)
    simp [pipe?, hfirst, hsecond]
  · -- the filter ends, and what follows is neither
    rename_i hpipe hbind
    cases h
    refine .intro used rfl hg fun rest' halike m hm => ?_
    simp only [pipe?, hagain rest' halike m (by omega), Option.bind_eq_bind, Option.bind_some]
    split
    · obtain ⟨r, rfl, -⟩ := halike.of_append [.symbol "|"] (by simp)
      exact (hpipe r rfl).elim
    · obtain ⟨r, rfl, -⟩ := halike.of_append [.word "as", .variable _, .symbol "|"] (by simp)
      exact (hbind _ r rfl).elim
    · rfl

theorem level_local (ih : ReadsLocally name fuel) {commas : Bool} {level : Nat} {f : Filter}
    (hlevel : level ≤ tightest) (h : level? (fuel + 1) commas level ts = some (f, rest)) :
    Finds name (level? · commas level) (12 - level) (·.avoids name = true) ts f rest := by
  have hrank : 12 - level = (11 - level) + 1 := by
    simp only [tightest] at hlevel
    omega
  rw [hrank]
  rw [level?] at h
  split at h
  · obtain ⟨used, rfl, hf, hagain⟩ := ih.term h
    refine .intro used rfl hf fun rest' halike m hm => ?_
    simp only [tightest] at hlevel
    rw [level?, if_pos ‹_›, hagain rest' halike m (by omega)]
  · rename_i hne
    have hlt : level < tightest := Nat.lt_of_le_of_ne hlevel hne
    have hlt' : level < 9 := hlt
    simp only [Option.bind_eq_bind, Option.bind_eq_some_iff, Prod.exists] at h
    obtain ⟨g, after, hfirst, h⟩ := h
    obtain ⟨used, rfl, hg, hagain⟩ := ih.level hlt hfirst
    obtain ⟨later, rfl, hf, hlater⟩ := ih.operands hlt h
    refine .intro (used ++ later) (by simp) (by simp_all) fun rest' halike m hm => ?_
    simp only [List.length_append] at hm
    have hoperand := hagain _ (halike.append later) m (by omega)
    have hoperands := hlater rest' halike m (by omega)
    simp [level?, hne, hoperand, hoperands]

/-- An operator uses only what its operands use. -/
theorem avoids_of_operator? {commas : Bool} {level : Nat} {t : Token}
    {op : Filter → Filter → Filter} (h : operator? commas level t = some op) (f g : Filter) :
    (op f g).avoids name = (f.avoids name && g.avoids name) := by
  simp only [operator?] at h
  split at h <;> try split at h
  all_goals cases h
  all_goals rfl

theorem operands_local (ih : ReadsLocally name fuel) {commas : Bool} {level : Nat} {f g : Filter}
    (hlevel : level < tightest) (h : operands? (fuel + 1) commas level f ts = some (g, rest)) :
    Finds name (operands? · commas level f) 1 (f.avoids name = true → ·.avoids name = true)
      ts g rest := by
  simp only [operands?] at h
  split at h
  · cases h
    refine .intro [] rfl (fun _ => id) fun rest' halike m hm => ?_
    cases halike with
    | ends _ hend => cases hend <;> simp [operands?, operator?]
  · rename_i t later
    split at h
    · rename_i hnone
      cases h
      refine .intro [] rfl (fun _ => id) fun rest' halike m hm => ?_
      cases halike with
      | ends _ hend => cases hend <;> simp [operands?, operator?]
      | cons t h => simp [operands?, hnone]
    · rename_i op hop
      simp only [Option.bind_eq_bind, Option.bind_eq_some_iff, Prod.exists] at h
      obtain ⟨k, after, hfirst, h⟩ := h
      have hle : (if groupsRight level then level else level + 1) ≤ tightest := by
        split <;> omega
      obtain ⟨used, rfl, hk, hagain⟩ := ih.level hle hfirst
      obtain ⟨rest', rfl, hg, hlater⟩ := ih.operands hlevel h
      refine .intro (t :: used ++ rest') (by simp) ?_ fun rest' halike m hm => ?_
      · intro hname hf
        simp only [List.mem_append, List.mem_cons, not_or] at hname
        exact hg hname.2 (by rw [avoids_of_operator? hop, hf, hk hname.1.2]; rfl)
      · simp only [List.length_append, List.length_cons] at hm
        have hoperand := hagain _ (halike.append _) m (by omega)
        have hoperands := hlater rest' halike m (by omega)
        simp [operands?, hop, hoperand, hoperands]

/-! ## Small parts -/

/-- Question marks are taken off as long as there are any. -/
theorem exists_of_takeLenient (name : String) {lenient : Bool}
    (h : takeLenient ts = (lenient, rest)) :
    ∃ marks, ts = marks ++ rest ∧ .variable name ∉ marks
      ∧ ∀ rest', Alike rest rest' → takeLenient (marks ++ rest') = (lenient, rest') := by
  fun_induction takeLenient ts generalizing lenient with
  | case1 ts ih =>
    obtain ⟨rfl, rfl⟩ := Prod.mk.inj h
    obtain ⟨marks, hts, hname, hagain⟩ := ih rfl
    exact ⟨.symbol "?" :: marks, by rw [List.cons_append, ← hts], by simp [hname],
      fun rest' halike => by simp only [List.cons_append, takeLenient, hagain rest' halike]⟩
  | case2 ts hmark =>
    obtain ⟨rfl, rfl⟩ := Prod.mk.inj h
    refine ⟨[], rfl, List.not_mem_nil, fun rest' halike => ?_⟩
    rw [List.nil_append, takeLenient.eq_2]
    rintro r rfl
    obtain ⟨r, rfl, -⟩ := halike.of_append [.symbol "?"] (by simp)
    exact hmark r rfl

theorem expect?_eq_some_iff {symbol : String} :
    expect? symbol ts = some rest ↔ ts = .symbol symbol :: rest := by
  fun_cases expect? symbol ts with
  | case1 ts => simp
  | case2 s ts hne => simp [hne]
  | case3 ts hnone => simpa using fun h => hnone _ _ h

end LayeredConfig.Jq.Grammar
