/-
  LayeredConfig.Proofs.Jq.Reading.Lists

  Insertions, arguments, conditions and objects take their tokens off locally.

  Each of them is filters with tokens between them that no filter can go on with,
  up to a token that ends all.
-/
import LayeredConfig.Proofs.Jq.Reading

namespace LayeredConfig.Jq.Grammar

variable {name : String} {ts rest : List Token} {fuel : Nat}

/-! ## Insertions and arguments -/

theorem inserts_local (ih : ReadsLocally name fuel) {inserts : List (Filter × String)}
    (h : inserts? (fuel + 1) ts = some (inserts, rest)) :
    Finds name inserts? 14 (Filter.avoidsInserts name · = true) ts inserts rest := by
  simp only [inserts?, Option.bind_eq_bind, Option.bind_eq_some_iff, Prod.exists] at h
  obtain ⟨f, between, hpipe, h⟩ := h
  obtain ⟨used, rfl, hf, hagain⟩ := ih.pipe hpipe
  split at h
  · rename_i part ts
    cases h
    refine .intro (used ++ [Token.textEnd part]) (by simp) (fun hname => ?_)
      fun rest' halike m hm => ?_
    · have hf := hf fun hmem => hname (List.mem_append_left _ hmem)
      simp [Filter.avoidsInserts, hf]
    · simp only [List.length_cons, List.length_append] at hm
      have hpipe := hagain _ (halike.cons (.textEnd part)) m (by omega)
      simp [inserts?, hpipe]
  · rename_i part ts
    simp only [Option.bind_eq_some_iff, Prod.exists] at h
    obtain ⟨inserts, after, hinserts, h⟩ := h
    cases h
    obtain ⟨later, rfl, hrest, hlater⟩ := ih.inserts hinserts
    refine .intro (used ++ Token.textMiddle part :: later) (by simp) (fun hname => ?_)
      fun rest' halike m hm => ?_
    · simp only [List.mem_cons, List.mem_append, not_or] at hname
      simp [Filter.avoidsInserts, hf hname.1, hrest hname.2.2]
    · simp only [List.length_cons, List.length_append] at hm
      have hpipe := hagain _ ((halike.append later).cons (.textMiddle part)) m (by omega)
      have hinserts := hlater rest' halike m (by omega)
      simp [inserts?, hpipe, hinserts]
  · cases h

theorem arguments_local (ih : ReadsLocally name fuel) {arguments : List Filter}
    (h : arguments? (fuel + 1) ts = some (arguments, rest)) :
    Finds name arguments? 14 (Filter.avoidsArguments name · = true) ts arguments rest := by
  simp only [arguments?, Option.bind_eq_bind, Option.bind_eq_some_iff, Prod.exists] at h
  obtain ⟨f, between, hpipe, h⟩ := h
  obtain ⟨used, rfl, hf, hagain⟩ := ih.pipe hpipe
  split at h
  · cases h
    refine .intro (used ++ [Token.symbol ")"]) (by simp) (fun hname => ?_)
      fun rest' halike m hm => ?_
    · have hf := hf fun hmem => hname (List.mem_append_left _ hmem)
      simp [Filter.avoidsArguments, hf]
    · simp only [List.length_cons, List.length_append] at hm
      have hpipe := hagain _ (halike.cons (.symbol ")")) m (by omega)
      simp [arguments?, hpipe]
  · simp only [Option.bind_eq_some_iff, Prod.exists] at h
    obtain ⟨arguments, after, harguments, h⟩ := h
    cases h
    obtain ⟨later, rfl, hrest, hlater⟩ := ih.arguments harguments
    refine .intro (used ++ Token.symbol ";" :: later) (by simp) (fun hname => ?_)
      fun rest' halike m hm => ?_
    · simp only [List.mem_cons, List.mem_append, not_or] at hname
      simp [Filter.avoidsArguments, hf hname.1, hrest hname.2.2]
    · simp only [List.length_cons, List.length_append] at hm
      have hpipe := hagain _ ((halike.append later).cons (.symbol ";")) m (by omega)
      have harguments := hlater rest' halike m (by omega)
      simp [arguments?, hpipe, harguments]
  · cases h

/-! ## Conditions -/

theorem condition_local (ih : ReadsLocally name fuel) {f : Filter}
    (h : condition? (fuel + 1) ts = some (f, rest)) :
    Finds name condition? 14 (·.avoids name = true) ts f rest := by
  simp only [condition?, Option.bind_eq_bind, Option.bind_eq_some_iff, Prod.exists] at h
  obtain ⟨test, between, htest, h⟩ := h
  obtain ⟨used, rfl, havoidsTest, hagain⟩ := ih.pipe htest
  split at h
  · -- behind the first filter: the end, another filter, or a condition of its own
    simp only [Option.bind_eq_some_iff, Prod.exists] at h
    obtain ⟨whenTrue, between, htrue, h⟩ := h
    obtain ⟨usedTrue, rfl, havoidsTrue, hagainTrue⟩ := ih.pipe htrue
    split at h
    · cases h
      refine .intro (used ++ Token.word "then" :: (usedTrue ++ [Token.word "end"]))
        (by simp only [List.cons_append, List.append_assoc, List.nil_append])
        (fun hname => ?_) fun rest' halike m hm => ?_
      · simp only [List.mem_cons, List.mem_append, not_or] at hname
        simp [Filter.avoids, havoidsTest hname.1, havoidsTrue hname.2.2.1]
      · simp only [List.length_cons, List.length_append] at hm
        have htrue := hagainTrue _ (halike.cons (.word "end")) m (by omega)
        have htest := hagain _ (((halike.cons (.word "end")).append usedTrue).cons (.word "then")) m
          (by omega)
        simp [condition?, htest, htrue]
    · simp only [Option.bind_eq_some_iff, Prod.exists] at h
      obtain ⟨whenFalse, between, hfalse, h⟩ := h
      obtain ⟨usedFalse, rfl, havoidsFalse, hagainFalse⟩ := ih.pipe hfalse
      split at h
      · cases h
        refine .intro (used ++ Token.word "then" :: (usedTrue ++ Token.word "else" ::
          (usedFalse ++ [Token.word "end"])))
          (by simp only [List.cons_append, List.append_assoc, List.nil_append])
          (fun hname => ?_) fun rest' halike m hm => ?_
        · simp only [List.mem_cons, List.mem_append, not_or] at hname
          simp [Filter.avoids, havoidsTest hname.1, havoidsTrue hname.2.2.1,
            havoidsFalse hname.2.2.2.2.1]
        · simp only [List.length_cons, List.length_append] at hm
          have halikeFalse := ((halike.cons (.word "end")).append usedFalse).cons (.word "else")
          have hfalse := hagainFalse _ (halike.cons (.word "end")) m (by omega)
          have htrue := hagainTrue _ halikeFalse m (by omega)
          have htest := hagain _ ((halikeFalse.append usedTrue).cons (.word "then")) m (by omega)
          simp [condition?, htest, htrue, hfalse]
      · cases h
    · simp only [Option.bind_eq_some_iff, Prod.exists] at h
      obtain ⟨whenFalse, after, hfalse, h⟩ := h
      cases h
      obtain ⟨usedFalse, rfl, havoidsFalse, hagainFalse⟩ := ih.condition hfalse
      refine .intro (used ++ Token.word "then" :: (usedTrue ++ Token.word "elif" :: usedFalse))
        (by simp only [List.cons_append, List.append_assoc])
        (fun hname => ?_) fun rest' halike m hm => ?_
      · simp only [List.mem_cons, List.mem_append, not_or] at hname
        simp [Filter.avoids, havoidsTest hname.1, havoidsTrue hname.2.2.1,
          havoidsFalse hname.2.2.2.2]
      · simp only [List.length_cons, List.length_append] at hm
        have halikeFalse := (halike.append usedFalse).cons (.word "elif")
        have hfalse := hagainFalse _ halike m (by omega)
        have htrue := hagainTrue _ halikeFalse m (by omega)
        have htest := hagain _ ((halikeFalse.append usedTrue).cons (.word "then")) m (by omega)
        simp [condition?, htest, htrue, hfalse]
    · cases h
  · cases h

/-! ## Objects -/

theorem entryValue_local (ih : ReadsLocally name fuel) {key : Filter} {entry : Filter × Filter}
    (h : entryValue? (fuel + 1) key ts = some (entry, rest)) :
    Finds name (entryValue? · key) 1 (fun entry => key.avoids name = true →
      entry.1.avoids name = true ∧ entry.2.avoids name = true) ts entry rest := by
  simp only [entryValue?] at h
  split at h
  · simp only [Option.bind_eq_bind, Option.bind_eq_some_iff, Prod.exists] at h
    obtain ⟨f, after, hpipe, h⟩ := h
    cases h
    obtain ⟨used, rfl, hf, hagain⟩ := ih.pipe hpipe
    refine .intro (.symbol ":" :: used) (by simp) (fun hname hkey => ?_)
      fun rest' halike m hm => ?_
    · exact ⟨hkey, hf fun hmem => hname (List.mem_cons_of_mem _ hmem)⟩
    · simp only [List.length_cons] at hm
      have hpipe := hagain rest' halike m (by omega)
      simp [entryValue?, hpipe]
  · rename_i hcolon
    cases h
    refine .intro [] rfl (fun _ hkey => ⟨hkey, ?_⟩) fun rest' halike m hm => ?_
    · simp [Filter.avoids, Filter.avoidsSteps, Filter.avoidsStep, hkey]
    · simp only [List.nil_append, entryValue?]
      split
      · obtain ⟨r, rfl, -⟩ := halike.of_append [.symbol ":"] (by simp)
        exact (hcolon r rfl).elim
      · rfl

theorem entry_local (ih : ReadsLocally name fuel) {entry : Filter × Filter}
    (h : entry? (fuel + 1) ts = some (entry, rest)) :
    Finds name entry? 1 (fun entry => entry.1.avoids name = true ∧ entry.2.avoids name = true)
      ts entry rest := by
  simp only [ entry?] at h
  split at h
  · -- the key is a word
    rename_i key ts
    obtain ⟨used, rfl, havoids, hagain⟩ := ih.entryValue h
    refine .intro (.word key :: used) rfl
      (fun hname => havoids (fun hmem => hname (List.mem_cons_of_mem _ hmem)) rfl)
      fun rest' halike m hm => ?_
    simp only [List.length_cons] at hm
    exact hagain rest' halike m (by omega)
  · -- the key is a text
    rename_i part ts
    obtain ⟨used, rfl, havoids, hagain⟩ := ih.entryValue h
    refine .intro (.text part :: used) rfl
      (fun hname => havoids (fun hmem => hname (List.mem_cons_of_mem _ hmem)) rfl)
      fun rest' halike m hm => ?_
    simp only [List.length_cons] at hm
    exact hagain rest' halike m (by omega)
  · -- the key is a text with insertions
    rename_i part ts
    simp only [Option.bind_eq_bind, Option.bind_eq_some_iff, Prod.exists] at h
    obtain ⟨inserts, between, hinserts, h⟩ := h
    obtain ⟨used, rfl, hi, hinserted⟩ := ih.inserts hinserts
    obtain ⟨later, rfl, havoids, hagain⟩ := ih.entryValue h
    refine .intro (.textStart part :: (used ++ later)) (by simp) (fun hname => ?_)
      fun rest' halike m hm => ?_
    · simp only [List.mem_cons, List.mem_append, not_or] at hname
      exact havoids hname.2.2 (hi hname.2.1)
    · simp only [List.length_cons, List.length_append] at hm
      have hinserts := hinserted _ (halike.append later) m (by omega)
      have hvalue := hagain rest' halike m (by omega)
      simp [ entry?, hinserts, hvalue]
  · -- the key is that of a variable, with a value of its own
    rename_i key ts
    obtain ⟨used, hts, havoids, hagain⟩ := ih.entryValue h
    refine .intro (.variable key :: used) (by rw [hts, List.cons_append]) (fun hname => ?_)
      fun rest' halike m hm => ?_
    · simp only [List.mem_cons, Token.variable.injEq, not_or] at hname
      exact havoids hname.2 (by simpa [Filter.avoids] using Ne.symm hname.1)
    · simp only [List.length_cons] at hm
      have hvalue := hagain rest' halike m (by omega)
      have hsame := halike.append used
      rw [← hts] at hsame
      obtain ⟨r, hr, -⟩ := hsame.symm.of_append [.symbol ":"] (by simp)
      simp only [hr] at hvalue
      simp only [List.cons_append, hr, entry?]
      exact hvalue
  · -- a variable that is the value as well: no colon may follow
    rename_i key ts hcolon
    cases h
    refine .intro [.variable key] rfl (fun hname => ?_) fun rest' halike m hm => ?_
    · simp only [List.mem_singleton, Token.variable.injEq] at hname
      exact ⟨rfl, by simpa [Filter.avoids] using Ne.symm hname⟩
    · cases halike with
      | ends _ hend => cases hend <;> rfl
      | cons t h =>
        have ht : t ≠ .symbol ":" := by rintro rfl; exact hcolon _ rfl
        simp [ entry?, ht]
  · -- the key is a filter in parentheses
    simp only [Option.bind_eq_bind, Option.bind_eq_some_iff, Prod.exists] at h
    obtain ⟨key, between, hpipe, after, hclose, h⟩ := h
    rw [expect?_eq_some_iff] at hclose
    subst hclose
    obtain ⟨used, rfl, hkey, hagain⟩ := ih.pipe hpipe
    split at h
    · rename_i ts
      obtain ⟨later, hts, havoids, hlater⟩ := ih.entryValue h
      refine .intro (.symbol "(" :: (used ++ Token.symbol ")" :: later)) (by simp [hts])
        (fun hname => ?_) fun rest' halike m hm => ?_
      · simp only [List.mem_cons, List.mem_append, not_or] at hname
        exact havoids hname.2.2.2 (hkey hname.2.1)
      · simp only [List.length_cons, List.length_append] at hm
        have hsame := halike.append later
        rw [← hts] at hsame
        have hkey := hagain _ (hsame.cons (.symbol ")")) m (by omega)
        have hvalue := hlater rest' halike m (by omega)
        obtain ⟨r, hr, -⟩ := hsame.symm.of_append [.symbol ":"] (by simp)
        simp only [hr, List.cons_append, List.nil_append] at hkey hvalue
        simp [hr, entry?, hkey, expect?, hvalue]
    · cases h
  · cases h

/-- There is no entry where an object ends. -/
theorem entries?_close (fuel : Nat) (ts : List Token) :
    entries? fuel (.symbol "\x7d" :: ts) = none := by
  match fuel with
  | 0 | 1 | _ + 2 => rfl

theorem entries_local (ih : ReadsLocally name fuel) {entries : List (Filter × Filter)}
    (h : entries? (fuel + 1) ts = some (entries, rest)) :
    Finds name entries? 2 (Filter.avoidsEntries name · = true) ts entries rest := by
  simp only [entries?, Option.bind_eq_bind, Option.bind_eq_some_iff, Prod.exists] at h
  obtain ⟨key, value, between, hentry, h⟩ := h
  obtain ⟨used, rfl, hvalue, hagain⟩ := ih.entry hentry
  split at h
  · -- the last entry
    cases h
    refine .intro (used ++ [Token.symbol "\x7d"]) (by simp) (fun hname => ?_)
      fun rest' halike m hm => ?_
    · have hvalue := hvalue fun hmem => hname (List.mem_append_left _ hmem)
      simp [Filter.avoidsEntries, hvalue]
    · simp only [List.length_cons, List.length_append] at hm
      have hentry := hagain _ (halike.cons (.symbol "\x7d")) m (by omega)
      simp [entries?, hentry]
  · -- the last entry, with a comma behind it
    cases h
    refine .intro (used ++ [Token.symbol ",", .symbol "\x7d"]) (by simp) (fun hname => ?_)
      fun rest' halike m hm => ?_
    · have hvalue := hvalue fun hmem => hname (List.mem_append_left _ hmem)
      simp [Filter.avoidsEntries, hvalue]
    · simp only [List.length_cons, List.length_append] at hm
      have hentry := hagain _ ((halike.cons (.symbol "\x7d")).cons (.symbol ",")) m (by omega)
      simp [entries?, hentry]
  · simp only [Option.bind_eq_some_iff, Prod.exists] at h
    obtain ⟨entries, after, hentries, h⟩ := h
    cases h
    obtain ⟨later, rfl, hrest, hlater⟩ := ih.entries hentries
    refine .intro (used ++ Token.symbol "," :: later) (by simp) (fun hname => ?_)
      fun rest' halike m hm => ?_
    · simp only [List.mem_cons, List.mem_append, not_or] at hname
      simp [Filter.avoidsEntries, hvalue hname.1, hrest hname.2.2]
    · simp only [List.length_cons, List.length_append] at hm
      have hentry := hagain _ ((halike.append later).cons (.symbol ",")) m (by omega)
      have hentries := hlater rest' halike m (by omega)
      have hopen (r : List Token) : later ++ rest' = .symbol "\x7d" :: r → False := by
        intro hr
        rw [hr, entries?_close] at hentries
        cases hentries
      simp [entries?, hentry, hentries]
  · cases h

end LayeredConfig.Jq.Grammar
