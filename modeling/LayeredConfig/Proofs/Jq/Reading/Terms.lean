/-
  LayeredConfig.Proofs.Jq.Reading.Terms

  Terms take their tokens off locally, and so does the whole grammar.

  A term is told by its first token, with one lemma for each word and bracket that
  begins something of its own.
-/
import LayeredConfig.Proofs.Jq.Reading.Lists
import LayeredConfig.Proofs.Jq.Reading.Steps

namespace LayeredConfig.Jq.Grammar

variable {name : String} {ts rest : List Token} {fuel : Nat}

/-! ## Parameters -/

theorem exists_of_parameters? {parameters : List Parameter}
    (h : parameters? ts = some (parameters, rest)) :
    ∃ used, ts = used ++ rest
      ∧ ∀ rest', parameters? (used ++ rest') = some (parameters, rest') := by
  fun_induction parameters? ts generalizing parameters with
  | case1 parameter ts => cases h; exact ⟨[.word parameter, .symbol ")"], rfl, fun _ => rfl⟩
  | case2 parameter ts => cases h; exact ⟨[.variable parameter, .symbol ")"], rfl, fun _ => rfl⟩
  | case3 parameter ts ih =>
    obtain ⟨⟨later, behind⟩, hlater, h⟩ := Option.map_eq_some_iff.mp h
    cases h
    obtain ⟨used, rfl, hagain⟩ := ih hlater
    exact ⟨.word parameter :: .symbol ";" :: used, rfl, fun rest' => by
      simp [parameters?, hagain rest']⟩
  | case4 parameter ts ih =>
    obtain ⟨⟨later, behind⟩, hlater, h⟩ := Option.map_eq_some_iff.mp h
    cases h
    obtain ⟨used, rfl, hagain⟩ := ih hlater
    exact ⟨.variable parameter :: .symbol ";" :: used, rfl, fun rest' => by
      simp [parameters?, hagain rest']⟩
  | case5 ts => cases h

/-! ## Terms behind the token that begins them -/

theorem array_local (ih : ReadsLocally name fuel) {f : Filter}
    (h : array? (fuel + 1) ts = some (f, rest)) :
    Finds name array? 14 (·.avoids name = true) ts f rest := by
  simp only [array?, Option.bind_eq_bind] at h
  split at h
  · cases h
    exact .intro [.symbol "]"] rfl (fun _ => rfl) fun _ _ _ _ => rfl
  · rename_i hempty
    simp only [Option.bind_eq_some_iff, Prod.exists] at h
    obtain ⟨g, between, hpipe, behind, hclose, h⟩ := h
    cases h
    rw [expect?_eq_some_iff] at hclose
    subst hclose
    obtain ⟨used, rfl, hg, hagain⟩ := ih.pipe hpipe
    cases used with
    | nil => exact (hempty rest rfl).elim
    | cons t used =>
      have ht : t ≠ .symbol "]" := by rintro rfl; exact hempty _ rfl
      refine .intro (t :: used ++ [Token.symbol "]"]) (by simp) (fun hname => ?_)
        fun rest' halike m hm => ?_
      · exact hg fun hmem => hname (List.mem_append_left _ hmem)
      · simp only [List.length_cons, List.length_append] at hm
        have hpipe := hagain _ (halike.cons (.symbol "]")) m
          (by simp only [List.length_cons]; omega)
        simp_all [array?, expect?]

theorem object_local (ih : ReadsLocally name fuel) {f : Filter}
    (h : object? (fuel + 1) ts = some (f, rest)) :
    Finds name object? 3 (·.avoids name = true) ts f rest := by
  simp only [object?, Option.bind_eq_bind] at h
  split at h
  · cases h
    exact .intro [.symbol "\x7d"] rfl (fun _ => rfl) fun _ _ _ _ => rfl
  · simp only [Option.bind_eq_some_iff, Prod.exists] at h
    obtain ⟨entries, behind, hentries, h⟩ := h
    cases h
    obtain ⟨used, rfl, havoids, hagain⟩ := ih.entries hentries
    refine .intro used rfl havoids fun rest' halike m hm => ?_
    have hentries := hagain rest' halike m (by omega)
    have hopen (r : List Token) : used ++ rest' = .symbol "\x7d" :: r → False := by
      intro hr
      rw [hr, entries?_close] at hentries
      cases hentries
    simp [object?, hentries]

theorem attempt_local (ih : ReadsLocally name fuel) {f : Filter}
    (h : attempt? (fuel + 1) ts = some (f, rest)) :
    Finds name attempt? 3 (·.avoids name = true) ts f rest := by
  simp only [attempt?, Option.bind_eq_bind, Option.bind_eq_some_iff, Prod.exists] at h
  obtain ⟨g, between, hterm, h⟩ := h
  obtain ⟨used, rfl, hg, hagain⟩ := ih.term hterm
  split at h
  · simp only [Option.bind_eq_some_iff, Prod.exists] at h
    obtain ⟨handler, behind, hhandler, h⟩ := h
    cases h
    obtain ⟨later, rfl, havoids, hlater⟩ := ih.term hhandler
    refine .intro (used ++ Token.word "catch" :: later) (by simp) (fun hname => ?_)
      fun rest' halike m hm => ?_
    · simp only [List.mem_cons, List.mem_append, not_or] at hname
      simp [Filter.avoids, Filter.avoidsOption, hg hname.1, havoids hname.2.2]
    · simp only [List.length_cons, List.length_append] at hm
      have hterm := hagain _ ((halike.append later).cons (.word "catch")) m (by omega)
      have hhandler := hlater rest' halike m (by omega)
      simp [attempt?, hterm, hhandler]
  · rename_i hcatch
    cases h
    refine .intro used rfl (fun hname => ?_) fun rest' halike m hm => ?_
    · simp [Filter.avoids, Filter.avoidsOption, hg hname]
    · have hterm := hagain rest' halike m (by omega)
      simp only [attempt?, hterm, Option.bind_eq_bind, Option.bind_some]
      split
      · obtain ⟨r, rfl, -⟩ := halike.of_append [.word "catch"] (by simp)
        exact (hcatch r rfl).elim
      · rfl

theorem reduce_local (ih : ReadsLocally name fuel) {f : Filter}
    (h : reduce? (fuel + 1) ts = some (f, rest)) :
    Finds name reduce? 3 (·.avoids name = true) ts f rest := by
  simp only [reduce?, Option.bind_eq_bind, Option.bind_eq_some_iff, Prod.exists] at h
  obtain ⟨source, between, hsource, h⟩ := h
  obtain ⟨used, rfl, hs, hagain⟩ := ih.term hsource
  split at h
  · rename_i bound ts
    simp only [Option.bind_eq_some_iff, Prod.exists] at h
    obtain ⟨start, between, hstart, between', hsemicolon, update, behind, hupdate, behind', hclose,
      h⟩ := h
    cases h
    rw [expect?_eq_some_iff] at hsemicolon hclose
    subst hsemicolon hclose
    obtain ⟨usedStart, rfl, havoidsStart, hagainStart⟩ := ih.pipe hstart
    obtain ⟨usedUpdate, rfl, havoidsUpdate, hagainUpdate⟩ := ih.pipe hupdate
    refine .intro (used ++ Token.word "as" :: .variable bound :: .symbol "(" ::
      (usedStart ++ Token.symbol ";" :: (usedUpdate ++ [Token.symbol ")"])))
      (by simp only [List.cons_append, List.append_assoc, List.nil_append]) (fun hname => ?_)
      fun rest' halike m hm => ?_
    · simp only [List.mem_cons, List.mem_append, not_or] at hname
      simp [Filter.avoids, hs hname.1, havoidsStart hname.2.2.2.2.1,
        havoidsUpdate hname.2.2.2.2.2.2.1]
    · simp only [List.length_cons, List.length_append] at hm
      have halikeUpdate := ((halike.cons (.symbol ")")).append usedUpdate).cons (.symbol ";")
      have halikeStart := (((halikeUpdate.append usedStart).cons (.symbol "(")).cons
        (.variable bound)).cons (.word "as")
      have hsource := hagain _ halikeStart m (by omega)
      have hstart := hagainStart _ halikeUpdate m (by omega)
      have hupdate := hagainUpdate _ (halike.cons (.symbol ")")) m (by omega)
      simp [reduce?, hsource, hstart, hupdate, expect?]
  · cases h

theorem foreach_local (ih : ReadsLocally name fuel) {f : Filter}
    (h : foreach? (fuel + 1) ts = some (f, rest)) :
    Finds name foreach? 3 (·.avoids name = true) ts f rest := by
  simp only [foreach?, Option.bind_eq_bind, Option.bind_eq_some_iff, Prod.exists] at h
  obtain ⟨source, between, hsource, h⟩ := h
  obtain ⟨used, rfl, hs, hagain⟩ := ih.term hsource
  split at h
  · rename_i bound ts
    simp only [Option.bind_eq_some_iff, Prod.exists] at h
    obtain ⟨start, between, hstart, between', hsemicolon, update, behind, hupdate, h⟩ := h
    rw [expect?_eq_some_iff] at hsemicolon
    subst hsemicolon
    obtain ⟨usedStart, rfl, havoidsStart, hagainStart⟩ := ih.pipe hstart
    obtain ⟨usedUpdate, rfl, havoidsUpdate, hagainUpdate⟩ := ih.pipe hupdate
    split at h
    · -- two filters in the parentheses
      cases h
      refine .intro (used ++ Token.word "as" :: .variable bound :: .symbol "(" ::
        (usedStart ++ Token.symbol ";" :: (usedUpdate ++ [Token.symbol ")"])))
        (by simp only [List.cons_append, List.append_assoc, List.nil_append]) (fun hname => ?_)
        fun rest' halike m hm => ?_
      · simp only [List.mem_cons, List.mem_append, not_or] at hname
        simp [Filter.avoids, Filter.avoidsOption, hs hname.1, havoidsStart hname.2.2.2.2.1,
          havoidsUpdate hname.2.2.2.2.2.2.1]
      · simp only [List.length_cons, List.length_append] at hm
        have halikeUpdate := ((halike.cons (.symbol ")")).append usedUpdate).cons (.symbol ";")
        have halikeStart := (((halikeUpdate.append usedStart).cons (.symbol "(")).cons
          (.variable bound)).cons (.word "as")
        have hsource := hagain _ halikeStart m (by omega)
        have hstart := hagainStart _ halikeUpdate m (by omega)
        have hupdate := hagainUpdate _ (halike.cons (.symbol ")")) m (by omega)
        simp [foreach?, hsource, hstart, hupdate, expect?]
    · -- three filters in the parentheses
      simp only [Option.bind_eq_some_iff, Prod.exists] at h
      obtain ⟨project, between, hproject, behind, hclose, h⟩ := h
      cases h
      rw [expect?_eq_some_iff] at hclose
      subst hclose
      obtain ⟨usedProject, rfl, havoidsProject, hagainProject⟩ := ih.pipe hproject
      refine .intro (used ++ Token.word "as" :: .variable bound :: .symbol "(" ::
        (usedStart ++ Token.symbol ";" :: (usedUpdate ++ Token.symbol ";" ::
          (usedProject ++ [Token.symbol ")"]))))
        (by simp only [List.cons_append, List.append_assoc, List.nil_append]) (fun hname => ?_)
        fun rest' halike m hm => ?_
      · simp only [List.mem_cons, List.mem_append, not_or] at hname
        simp [Filter.avoids, Filter.avoidsOption, hs hname.1, havoidsStart hname.2.2.2.2.1,
          havoidsUpdate hname.2.2.2.2.2.2.1, havoidsProject hname.2.2.2.2.2.2.2.2.1]
      · simp only [List.length_cons, List.length_append] at hm
        have halikeProject := ((halike.cons (.symbol ")")).append usedProject).cons (.symbol ";")
        have halikeUpdate := (halikeProject.append usedUpdate).cons (.symbol ";")
        have halikeStart := (((halikeUpdate.append usedStart).cons (.symbol "(")).cons
          (.variable bound)).cons (.word "as")
        have hsource := hagain _ halikeStart m (by omega)
        have hstart := hagainStart _ halikeUpdate m (by omega)
        have hupdate := hagainUpdate _ halikeProject m (by omega)
        have hproject := hagainProject _ (halike.cons (.symbol ")")) m (by omega)
        simp [foreach?, hsource, hstart, hupdate, hproject, expect?]
    · cases h
  · cases h

theorem define_local (ih : ReadsLocally name fuel) {called : String}
    {parameters : List Parameter} {f : Filter}
    (h : define? (fuel + 1) called parameters ts = some (f, rest)) :
    Finds name (define? · called parameters) 1 (·.avoids name = true) ts f rest := by
  simp only [define?, Option.bind_eq_bind, Option.bind_eq_some_iff, Prod.exists] at h
  obtain ⟨between, hcolon, body, between', hbody, between'', hsemicolon, later, behind, hrest,
    h⟩ := h
  cases h
  rw [expect?_eq_some_iff] at hcolon hsemicolon
  subst hcolon hsemicolon
  obtain ⟨used, rfl, havoidsBody, hagain⟩ := ih.pipe hbody
  obtain ⟨usedRest, rfl, havoidsRest, hagainRest⟩ := ih.pipe hrest
  refine .intro (.symbol ":" :: (used ++ Token.symbol ";" :: usedRest)) (by simp) (fun hname => ?_)
    fun rest' halike m hm => ?_
  · simp only [List.mem_cons, List.mem_append, not_or] at hname
    simp [Filter.avoids, havoidsBody hname.2.1, havoidsRest hname.2.2.2]
  · simp only [List.length_cons, List.length_append] at hm
    have hbody := hagain _ ((halike.append usedRest).cons (.symbol ";")) m (by omega)
    have hrest := hagainRest rest' halike m (by omega)
    simp [define?, expect?, hbody, hrest]

/-- A colon stands in front of the body of a definition. -/
theorem exists_of_define? {called : String} {parameters : List Parameter}
    {read : Filter × List Token} (h : define? fuel called parameters ts = some read) :
    ∃ behind, ts = .symbol ":" :: behind := by
  cases fuel with
  | zero => cases h
  | succ fuel =>
    obtain ⟨behind, hcolon, -⟩ := Option.bind_eq_some_iff.mp h
    exact ⟨behind, expect?_eq_some_iff.mp hcolon⟩

theorem call_local (ih : ReadsLocally name fuel) {called : String} {f : Filter}
    (h : call? (fuel + 1) called ts = some (f, rest)) :
    Finds name (call? · called) 1 (·.avoids name = true) ts f rest := by
  simp only [call?, Option.bind_eq_bind] at h
  split at h
  · simp only [Option.bind_eq_some_iff, Prod.exists] at h
    obtain ⟨arguments, behind, harguments, h⟩ := h
    cases h
    obtain ⟨used, rfl, havoids, hagain⟩ := ih.arguments harguments
    refine .intro (.symbol "(" :: used) rfl (fun hname => ?_) fun rest' halike m hm => ?_
    · exact havoids fun hmem => hname (List.mem_cons_of_mem _ hmem)
    · simp only [List.length_cons] at hm
      simp [call?, hagain rest' halike m (by omega)]
  · rename_i hopen
    cases h
    refine .intro [] rfl (fun _ => rfl) fun rest' halike m hm => ?_
    simp only [List.nil_append, call?]
    split
    · obtain ⟨r, rfl, -⟩ := halike.of_append [.symbol "("] (by simp)
      exact (hopen r rfl).elim
    · rfl

/-! ## Terms without steps -/

/-- A token in front of what is found elsewhere. -/
theorem Finds.behind {α : Type} {read inner : Nat → List Token → Option (α × List Token)}
    {rank : Nat} {avoids : α → Prop} {found : α} (h : Finds name inner rank avoids ts found rest)
    (t : Token) (hrank : rank ≤ 31)
    (hread : ∀ fuel ts, read (fuel + 1) (t :: ts) = inner fuel ts) :
    Finds name read 1 avoids (t :: ts) found rest := by
  obtain ⟨used, rfl, havoids, hagain⟩ := h
  refine .intro (t :: used) rfl (fun hname => ?_) fun rest' halike m hm => ?_
  · exact havoids fun hmem => hname (List.mem_cons_of_mem _ hmem)
  · simp only [List.length_cons] at hm
    rw [List.cons_append, hread, hagain rest' halike m (by omega)]

/-- What something is made of is found where the latter is. -/
theorem Finds.map {α β : Type} {inner : Nat → List Token → Option (α × List Token)} {rank : Nat}
    {avoids : α → Prop} {avoids' : β → Prop} {found : α} {make : α → β}
    (h : Finds name inner rank avoids ts found rest) (hmake : avoids found → avoids' (make found)) :
    Finds name (fun fuel ts => (inner fuel ts).map (Prod.map make id)) rank avoids' ts
      (make found) rest := by
  obtain ⟨used, rfl, havoids, hagain⟩ := h
  refine ⟨used, rfl, fun hname => hmake (havoids hname), fun rest' halike m hm => ?_⟩
  simp only [hagain rest' halike m hm, Option.map_some, Prod.map_apply, id_eq]

/-- A path that begins with one of its steps is one into the input, and nothing is
    taken off. -/
theorem path_local (start : List Token) (hstart : .symbol ")" ∉ start)
    (hread : ∀ fuel ts, atom? (fuel + 1) (start ++ ts) = some (.identity, start ++ ts)) :
    Finds name atom? 1 (·.avoids name = true) (start ++ ts) .identity (start ++ ts) := by
  refine .intro [] rfl (fun _ => rfl) fun rest' halike m hm => ?_
  obtain ⟨r, rfl, -⟩ := halike.symm.of_append start hstart
  exact hread m r

/-- A name that is not reserved begins a call. -/
theorem atom?_call {called : String} (hcalled : called ∉ reserved) (fuel : Nat)
    (ts : List Token) : atom? (fuel + 1) (.word called :: ts) = call? fuel called ts := by
  have hwords := hcalled
  simp only [reserved, List.mem_cons, List.not_mem_nil, or_false, not_or] at hwords
  simp [atom?, hwords, hcalled]

theorem atom_local (ih : ReadsLocally name fuel) {f : Filter}
    (h : atom? (fuel + 1) ts = some (f, rest)) :
    Finds name atom? 1 (·.avoids name = true) ts f rest := by
  simp only [atom?, Option.bind_eq_bind] at h
  split at h
  · cases h
    exact .intro [.numeral _] rfl (fun _ => rfl) fun _ _ _ _ => rfl
  · cases h
    exact .intro [.text _] rfl (fun _ => rfl) fun _ _ _ _ => rfl
  · simp only [Option.bind_eq_some_iff, Prod.exists] at h
    obtain ⟨inserts, behind, hinserts, h⟩ := h
    cases h
    exact ((ih.inserts hinserts).map fun havoids => havoids).behind _ (by decide) fun fuel ts => by
      simp only [atom?]
      cases inserts? fuel ts <;> rfl
  · -- a variable
    rename_i used ts
    cases h
    refine .intro [.variable used] rfl (fun hname => ?_) fun _ _ _ _ => rfl
    simp only [List.mem_singleton, Token.variable.injEq] at hname
    simpa [Filter.avoids] using Ne.symm hname
  · cases h
    exact .intro [.symbol ".."] rfl (fun _ => rfl) fun _ _ _ _ => rfl
  · rename_i field ts
    cases h
    exact path_local [.field field] (by simp) fun _ _ => rfl
  · rename_i part ts
    cases h
    exact path_local [.symbol ".", .text part] (by simp) fun _ _ => rfl
  · rename_i part ts
    cases h
    exact path_local [.symbol ".", .textStart part] (by simp) fun _ _ => rfl
  · -- a point by itself: no text may follow
    rename_i ts htext hinsert
    cases h
    refine .intro [.symbol "."] rfl (fun _ => rfl) fun rest' halike m hm => ?_
    cases halike with
    | ends _ hend => cases hend <;> simp [atom?]
    | cons t h =>
      have htext' (part : String) : t ≠ .text part := by rintro rfl; exact htext _ _ rfl
      have hinsert' (part : String) : t ≠ .textStart part := by rintro rfl; exact hinsert _ _ rfl
      cases t <;> simp_all [atom?]
  · -- a sign
    simp only [Option.bind_eq_some_iff, Prod.exists] at h
    obtain ⟨g, behind, hterm, h⟩ := h
    cases h
    exact ((ih.term hterm).map fun havoids => havoids).behind _ (by decide) fun fuel ts => by
      simp only [atom?]
      cases term? fuel ts <;> rfl
  · -- parentheses
    rename_i ts
    simp only [Option.bind_eq_some_iff, Prod.exists] at h
    obtain ⟨g, between, hpipe, behind, hclose, h⟩ := h
    cases h
    rw [expect?_eq_some_iff] at hclose
    subst hclose
    obtain ⟨used, rfl, hg, hagain⟩ := ih.pipe hpipe
    refine .intro (.symbol "(" :: (used ++ [Token.symbol ")"])) (by simp) (fun hname => ?_)
      fun rest' halike m hm => ?_
    · exact hg fun hmem => hname (List.mem_cons_of_mem _ (List.mem_append_left _ hmem))
    · simp only [List.length_cons, List.length_append] at hm
      have hpipe := hagain _ (halike.cons (.symbol ")")) m (by omega)
      simp [atom?, hpipe, expect?]
  · exact (ih.array h).behind _ (by decide) fun _ _ => by simp only [atom?]
  · exact (ih.object h).behind _ (by decide) fun _ _ => by simp only [atom?]
  · exact (ih.condition h).behind _ (by decide) fun _ _ => by simp only [atom?]
  · exact (ih.attempt h).behind _ (by decide) fun _ _ => by simp only [atom?]
  · exact (ih.reduce h).behind _ (by decide) fun _ _ => by simp only [atom?]
  · exact (ih.foreach h).behind _ (by decide) fun _ _ => by simp only [atom?]
  · -- a definition with parameters
    rename_i called ts
    simp only [Option.bind_eq_some_iff, Prod.exists] at h
    obtain ⟨parameters, between, hparameters, hdefine⟩ := h
    obtain ⟨used, rfl, hagain⟩ := exists_of_parameters? hparameters
    obtain ⟨later, rfl, havoids, hlater⟩ := ih.define hdefine
    refine .intro (.word "def" :: .word called :: .symbol "(" :: (used ++ later)) (by simp)
      (fun hname => ?_) fun rest' halike m hm => ?_
    · simp only [List.mem_cons, List.mem_append, not_or] at hname
      exact havoids hname.2.2.2.2
    · simp only [List.length_cons, List.length_append] at hm
      simp [atom?, hagain, hlater rest' halike m (by omega)]
  · -- a definition without parameters
    rename_i called ts _
    obtain ⟨used, rfl, havoids, hagain⟩ := ih.define h
    refine .intro (.word "def" :: .word called :: used) rfl (fun hname => ?_)
      fun rest' halike m hm => ?_
    · exact havoids fun hmem => hname (by simp [hmem])
    · simp only [List.length_cons] at hm
      have hdefine := hagain rest' halike m (by omega)
      -- no parenthesis, since a colon stands there
      obtain ⟨r, hcolon⟩ := exists_of_define? hdefine
      rw [hcolon] at hdefine
      simp [hcolon, atom?, hdefine]
  · -- a call, unless the word is reserved
    split at h
    · cases h
    · rename_i hreserved
      have hcalled := atom?_call (by simpa using hreserved)
      exact (ih.call h).behind _ (by decide) hcalled
  · cases h

/-! ## All functions at once -/

theorem readsLocally (name : String) (fuel : Nat) : ReadsLocally name fuel := by
  induction fuel with
  | zero => constructor <;> intros <;> contradiction
  | succ fuel ih =>
    exact {
      pipe := pipe_local ih
      level := level_local ih
      operands := operands_local ih
      term := term_local ih
      steps := steps_local ih
      bracket := bracket_local ih
      atom := atom_local ih
      array := array_local ih
      object := object_local ih
      attempt := attempt_local ih
      reduce := reduce_local ih
      foreach := foreach_local ih
      define := define_local ih
      call := call_local ih
      inserts := inserts_local ih
      arguments := arguments_local ih
      condition := condition_local ih
      entries := entries_local ih
      entry := entry_local ih
      entryValue := entryValue_local ih }

end LayeredConfig.Jq.Grammar
