/-
  LayeredConfig.Proofs.Layer.Variables

  What the layer of environment variables binds.

  A key at the top is a text as soon as a variable for the key itself has come,
  and variables for the section of its name neither change that nor are they
  kept.  So whatever the order in which the two kinds come, what a key is bound
  to is told by the last variables for its places alone (`FollowsLast`), and
  where each place has one variable the order of all of them does not count.
-/
import LayeredConfig.Proofs.Document.Paths
import LayeredConfig.Proofs.Layer.LastEntry
import LayeredConfig.Proofs.Text.Pieces

namespace LayeredConfig

/-! ## Names of variables -/

namespace Text

theorem lowerChar_ne_nil (c : Char) : lowerChar c ≠ [] := by
  rw [lowerChar]
  split
  · simp
  · split <;> simp

/-- Making letters small loses no text. -/
theorem lower_eq_nil_iff {s : List Char} : lower s = [] ↔ s = [] := by
  cases s with
  | nil => simp [lower, lowerAfter]
  | cons c s =>
    refine iff_of_false ?_ (by simp)
    rw [lower, lowerAfter, List.append_eq_nil_iff]
    rintro ⟨hlowered, -⟩
    split at hlowered
    · simp at hlowered
    · exact lowerChar_ne_nil c hlowered

theorem ofList_eq_iff {chars : List Char} {s : String} :
    String.ofList chars = s ↔ s.toList = chars := by
  rw [← String.toList_inj, String.toList_ofList, eq_comm]

end Text

namespace Address

/-- The parts of a place: its section, if that is a named one, and its key. -/
def parts (address : Address) : List (List Char) :=
  address.sectionName.toList.map String.toList ++ [address.key.toList]

/-- A variable counts if its name is the start and two underscores, and then one
    or two parts between two underscores, none of them empty.  Its place is made
    of these in small letters. -/
theorem ofVariable?_eq_some_iff {start name : String} {address : Address} :
    ofVariable? start name = some address ↔
      ∃ rest segments, name.toList = start.toList ++ partSeparator ++ rest
        ∧ Text.Separates partSeparator segments rest ∧ (∀ segment ∈ segments, segment ≠ [])
        ∧ address.parts = segments.map Text.lower := by
  have hword : partSeparator ≠ [] := by decide
  rw [ofVariable?, Option.bind_eq_bind, Option.bind_eq_some_iff]
  refine exists_congr fun rest => ?_
  rw [Text.stripStart?_eq_some_iff]
  simp only [← Text.splitOn_eq_iff hword, exists_and_left, exists_eq_left']
  refine and_congr_right fun _ => ?_
  generalize Text.splitOn partSeparator rest = segments
  obtain ⟨sectionName, key⟩ := address
  -- what is not one part or two is no place
  rcases segments with _ | ⟨first, _ | ⟨second, _ | ⟨third, others⟩⟩⟩
  · cases sectionName <;> simp [parts]
  · cases sectionName <;> simp [parts, Text.lower_eq_nil_iff, Text.ofList_eq_iff]
  · cases sectionName <;> simp [parts, Text.lower_eq_nil_iff, Text.ofList_eq_iff, and_assoc]
  · cases sectionName <;> simp [parts]

end Address

/-! ## Variables as entries -/

/-- The places that are set by the variables that count, with their texts. -/
def variableEntries (start : String) (listed : Variables) : List (Address × String) :=
  listed.filterMap fun (name, text) => (Address.ofVariable? start name).map (·, text)

/-- What a key at the top is bound to by variables: to the text of the last one
    for the key itself, or else to a table of the last ones for the places in the
    section of its name. -/
inductive FollowsLast (entries : List (Address × String)) (top : String) : Option Value → Prop where
  | global {text : String} (h : lastAt entries ⟨none, top⟩ = some text) :
      FollowsLast entries top (some (.string text))
  | inSection {table : Document} (hglobal : lastAt entries ⟨none, top⟩ = none)
      (hsection : ∃ e ∈ entries, e.1.sectionName = some top)
      (htable : ∀ key, table.find? key = (lastAt entries ⟨some top, key⟩).map .string) :
      FollowsLast entries top (some (.table table))
  | absent (h : Untouched entries top) : FollowsLast entries top none

namespace Document

/-- Sets places to texts, one after another. -/
def setVariables (doc : Document) (entries : List (Address × String)) : Document :=
  entries.foldl (fun doc (address, text) => doc.setVariable address text) doc

theorem ofVariables_eq (start : String) (listed : Variables) :
    ofVariables start listed = setVariables [] (variableEntries start listed) := by
  rw [ofVariables, setVariables, variableEntries, List.foldl_filterMap]
  congr
  funext doc entry
  obtain ⟨name, text⟩ := entry
  dsimp only
  cases Address.ofVariable? start name <;> rfl

theorem setVariables_concat (doc : Document) (entries : List (Address × String))
    (address : Address) (text : String) :
    doc.setVariables (entries ++ [(address, text)])
      = (doc.setVariables entries).setVariable address text := by
  rw [setVariables, List.foldl_append]
  rfl

variable {doc : Document} {entries : List (Address × String)} {address : Address} {top : String}

/-! ## One variable -/

theorem setVariable_top (doc : Document) (key text : String) :
    doc.setVariable ⟨none, key⟩ text = doc.insert key (.string text) := rfl

theorem setVariable_section_of_none {name : String} (h : doc.find? name = none)
    (key text : String) :
    doc.setVariable ⟨some name, key⟩ text = doc.insert name (.table [(key, .string text)]) := by
  simp only [setVariable, h]

theorem setVariable_section_of_table {name : String} {table : Document}
    (h : doc.find? name = some (.table table)) (key text : String) :
    doc.setVariable ⟨some name, key⟩ text
      = doc.insert name (.table (insert key (.string text) table)) := by
  simp only [setVariable, h]

theorem setVariable_section_of_text {name other : String}
    (h : doc.find? name = some (.string other)) (key text : String) :
    doc.setVariable ⟨some name, key⟩ text = doc := by
  simp only [setVariable, h]

/-- A variable leaves alone what it is not for. -/
theorem find?_setVariable_of_ne (htop : address ≠ ⟨none, top⟩)
    (hsection : address.sectionName ≠ some top) (doc : Document) (text : String) :
    (doc.setVariable address text).find? top = doc.find? top := by
  obtain ⟨_ | name, key⟩ := address
  · have hkey : key ≠ top := fun h => htop (h ▸ rfl)
    rw [setVariable_top, find?_insert, if_neg hkey]
  · have hname : name ≠ top := fun h => hsection (h ▸ rfl)
    simp only [setVariable]
    split
    · rw [find?_insert, if_neg hname]
    · rw [find?_insert, if_neg hname]
    · rfl

end Document

namespace FollowsLast

variable {entries : List (Address × String)} {top : String} {found : Option Value}

/-- An entry does not count for what it is not for. -/
theorem concat_of_ne (h : FollowsLast entries top found) {address : Address}
    (htop : address ≠ ⟨none, top⟩) (hsection : address.sectionName ≠ some top) (text : String) :
    FollowsLast (entries ++ [(address, text)]) top found := by
  cases h with
  | global hlast => exact .global ((lastAt_concat_of_ne htop _ _).trans hlast)
  | inSection hglobal hmem htable =>
    obtain ⟨e, he, hname⟩ := hmem
    refine .inSection ((lastAt_concat_of_ne htop _ _).trans hglobal)
      ⟨e, List.mem_append_left _ he, hname⟩ fun key => ?_
    have hne : address ≠ ⟨some top, key⟩ := fun h => hsection (h ▸ rfl)
    rw [htable, lastAt_concat_of_ne hne]
  | absent h =>
    refine .absent fun e he => ?_
    rcases List.mem_append.mp he with hold | hnew
    · exact h e hold
    · rw [List.mem_singleton.mp hnew]
      exact ⟨htop, hsection⟩

/-- One more variable does to a key at the top what the rule says. -/
theorem setVariable {doc : Document} (h : FollowsLast entries top (doc.find? top))
    (address : Address) (text : String) :
    FollowsLast (entries ++ [(address, text)]) top ((doc.setVariable address text).find? top) := by
  by_cases htop : address = ⟨none, top⟩
  · subst htop
    rw [Document.setVariable_top, Document.find?_insert, if_pos rfl]
    exact .global (lastAt_concat_self _ _ _)
  by_cases hsection : address.sectionName = some top
  · obtain ⟨name, target⟩ := address
    obtain rfl : name = some top := hsection
    have hmem : ∃ e ∈ entries ++ [(⟨some top, target⟩, text)], e.1.sectionName = some top :=
      ⟨_, List.mem_append_right _ (List.mem_singleton.mpr rfl), rfl⟩
    -- what is bound so far decides whether the variable is kept
    generalize hfound : doc.find? top = found at h
    cases h with
    | global hlast =>
      rw [Document.setVariable_section_of_text hfound, hfound]
      exact .global ((lastAt_concat_of_ne htop _ _).trans hlast)
    | inSection hglobal _ htable =>
      rw [Document.setVariable_section_of_table hfound, Document.find?_insert, if_pos rfl]
      refine .inSection ((lastAt_concat_of_ne htop _ _).trans hglobal) hmem fun key => ?_
      rw [Document.find?_insert, htable, lastAt_append, lastAt_singleton]
      by_cases hkey : target = key <;> simp [hkey]
    | absent huntouched =>
      rw [Document.setVariable_section_of_none hfound, Document.find?_insert, if_pos rfl]
      have hglobal : lastAt entries ⟨none, top⟩ = none := huntouched.lastAt_eq_none (Or.inl rfl)
      refine .inSection ((lastAt_concat_of_ne htop _ _).trans hglobal) hmem fun key => ?_
      have hnone : lastAt entries ⟨some top, key⟩ = none :=
        huntouched.lastAt_eq_none (Or.inr rfl)
      rw [lastAt_append, lastAt_singleton, hnone, Document.find?, Document.find?]
      by_cases hkey : target = key <;> simp [hkey]
  · rw [Document.find?_setVariable_of_ne htop hsection]
    exact h.concat_of_ne htop hsection text

/-- The rule only asks for the last entries. -/
theorem congr (h : FollowsLast entries top found) {other : List (Address × String)}
    (hlast : ∀ address, lastAt entries address = lastAt other address) :
    FollowsLast other top found := by
  -- a place that has an entry in one list has one in the other
  have hplace : ∀ {address}, (∃ e ∈ entries, e.1 = address) ↔ ∃ e ∈ other, e.1 = address := by
    intro address
    have hnone : lastAt entries address = none ↔ ∀ e ∈ entries, e.1 ≠ address :=
      lastAt_eq_none_iff
    rw [hlast, lastAt_eq_none_iff] at hnone
    simpa using not_congr hnone.symm
  cases h with
  | global hglobal => exact .global ((hlast _).symm.trans hglobal)
  | inSection hglobal hmem htable =>
    obtain ⟨e, he, hname⟩ := hmem
    obtain ⟨e', he', hsame⟩ := hplace.mp ⟨e, he, rfl⟩
    refine .inSection ((hlast _).symm.trans hglobal) ⟨e', he', hsame ▸ hname⟩ fun key => ?_
    rw [htable, hlast]
  | absent huntouched =>
    refine .absent fun e he => ?_
    obtain ⟨e', he', hsame⟩ := hplace.mpr ⟨e, he, rfl⟩
    exact hsame ▸ huntouched e' he'

theorem eq_string (h : FollowsLast entries top found) {text : String}
    (hlast : lastAt entries ⟨none, top⟩ = some text) : found = some (.string text) := by
  cases h with
  | global hother => rw [Option.some.inj (hlast.symm.trans hother)]
  | inSection hnone => simp [hnone] at hlast
  | absent huntouched => simp [huntouched.lastAt_eq_none (Or.inl rfl)] at hlast

theorem exists_table (h : FollowsLast entries top found)
    (hnone : lastAt entries ⟨none, top⟩ = none) (hmem : ∃ e ∈ entries, e.1.sectionName = some top) :
    ∃ table : Document, found = some (.table table)
      ∧ ∀ key, table.find? key = (lastAt entries ⟨some top, key⟩).map .string := by
  cases h with
  | global hlast => simp [hnone] at hlast
  | inSection _ _ htable => exact ⟨_, rfl, htable⟩
  | absent huntouched =>
    obtain ⟨e, he, hname⟩ := hmem
    exact absurd hname (huntouched e he).2

theorem eq_none (h : FollowsLast entries top found) (huntouched : Untouched entries top) :
    found = none := by
  cases h with
  | global hlast => simp [huntouched.lastAt_eq_none (Or.inl rfl)] at hlast
  | inSection _ hmem =>
    obtain ⟨e, he, hname⟩ := hmem
    exact absurd hname (huntouched e he).2
  | absent _ => rfl

/-- The rule leaves nothing open but the order of the keys in a section. -/
theorem unique (h : FollowsLast entries top found) {other : Option Value}
    (hother : FollowsLast entries top other) :
    found = other ∨ ∃ first second : Document, found = some (.table first)
      ∧ other = some (.table second) ∧ ∀ key, first.find? key = second.find? key := by
  cases h with
  | global hlast => exact Or.inl (hother.eq_string hlast).symm
  | inSection hnone hmem htable =>
    obtain ⟨second, rfl, hsecond⟩ := hother.exists_table hnone hmem
    exact Or.inr ⟨_, second, rfl, rfl, fun key => (htable key).trans (hsecond key).symm⟩
  | absent huntouched => exact Or.inl (hother.eq_none huntouched).symm

end FollowsLast

namespace Document

theorem followsLast_setVariables (entries : List (Address × String)) (top : String) :
    FollowsLast entries top ((setVariables [] entries).find? top) := by
  -- on the variables from the last one back, which is the order in which they are set
  induction entries using List.reverseRecOn with
  | nil => exact .absent (by simp [Untouched])
  | append_singleton entries entry ih =>
    obtain ⟨address, text⟩ := entry
    rw [setVariables_concat]
    exact ih.setVariable address text

/-- Every key at the top follows the rule. -/
theorem followsLast_ofVariables (start : String) (listed : Variables) (top : String) :
    FollowsLast (variableEntries start listed) top
      ((ofVariables start listed).find? top) := by
  rw [ofVariables_eq]
  exact followsLast_setVariables _ top

/-- The order of variables for different places only shows in the order of keys. -/
theorem sameUpToOrder_ofVariables {start : String} {listed other : Variables}
    (hperm : listed.Perm other)
    (hplaces : ((variableEntries start listed).map Prod.fst).Nodup) :
    (ofVariables start listed).SameUpToOrder (ofVariables start other) := by
  have hlast := lastAt_eq_of_perm hplaces (hperm.filterMap _)
  have hfirst := wellFormed_ofVariables start listed
  have hsecond := wellFormed_ofVariables start other
  have hunique := fun top =>
    ((followsLast_ofVariables start listed top).congr hlast).unique
      (followsLast_ofVariables start other top)
  refine sameUpToOrder_of_find? hfirst.distinct hsecond.distinct (fun top => ?_)
    fun top v w hv hw => ?_
  · rcases hunique top with hsame | ⟨table, table', htable, htable', -⟩
    · rw [binds, binds, hsame]
    · rw [binds, binds, htable, htable']
      rfl
  · rcases hunique top with hsame | ⟨table, table', htable, htable', hkeys⟩
    · obtain rfl : v = w := Option.some.inj (hv.symm.trans (hsame.trans hw))
      exact .refl v
    · obtain rfl : v = .table table := Option.some.inj (hv.symm.trans htable)
      obtain rfl : w = .table table' := Option.some.inj (hw.symm.trans htable')
      exact sameUpToOrder_of_find?_eq (hfirst.distinct_of_find? htable)
        (hsecond.distinct_of_find? htable') hkeys

/-- The layer of environment variables exactly.  Those count whose names are the
    start and one or two parts behind two underscores each, none of them empty,
    and their places are these parts in small letters.  A key at the top is
    bound to the text of the last variable for it, whatever there is for the
    section of its name; or else to a table with the keys that variables for the
    section have, each bound to the text of the last of them.  Nothing else is
    bound.  So where all variables that count are for different places, their
    order only shows in the order of the keys. -/
theorem ofVariables_exact (start : String) (listed : Variables) :
    let doc := ofVariables start listed
    let counted := variableEntries start listed
    (∀ name address, Address.ofVariable? start name = some address ↔
        ∃ rest segments, name.toList = start.toList ++ Address.partSeparator ++ rest
          ∧ Text.Separates Address.partSeparator segments rest
          ∧ (∀ segment ∈ segments, segment ≠ [])
          ∧ address.parts = segments.map Text.lower)
      ∧ (∀ top text, lastAt counted ⟨none, top⟩ = some text →
          doc.find? top = some (.string text))
      ∧ (∀ top, lastAt counted ⟨none, top⟩ = none →
          (∃ e ∈ counted, e.1.sectionName = some top) →
          ∃ table : Document, doc.find? top = some (.table table)
            ∧ ∀ key, table.find? key = (lastAt counted ⟨some top, key⟩).map .string)
      ∧ (∀ top, Untouched counted top → doc.find? top = none)
      ∧ ∀ other, listed.Perm other → (counted.map Prod.fst).Nodup →
          doc.SameUpToOrder (ofVariables start other) := by
  intro doc counted
  have hfollows := followsLast_ofVariables start listed
  exact ⟨fun _ _ => Address.ofVariable?_eq_some_iff,
    fun top _ hlast => (hfollows top).eq_string hlast,
    fun top hnone hmem => (hfollows top).exists_table hnone hmem,
    fun top huntouched => (hfollows top).eq_none huntouched,
    fun _ hperm hplaces => sameUpToOrder_ofVariables hperm hplaces⟩

/-- A key and a section of one name, three underscores in a row, and a variable
    that does not count. -/
theorem ofVariables_exact_edge :
    let listed : Variables := [("APP__EDGE__PORT", "81"), ("APP__edge", "a"),
      ("APP__Edge__HOST", "b"), ("PATH", "/bin"), ("APP__CORE___PORT", "82")]
    let doc := ofVariables "APP" listed
    let counted := variableEntries "APP" listed
    counted = [(⟨some "edge", "port"⟩, "81"), (⟨none, "edge"⟩, "a"), (⟨some "edge", "host"⟩, "b"),
        (⟨some "core", "_port"⟩, "82")]
      ∧ doc.find? "edge" = some (.string "a")
      ∧ (∃ table : Document, doc.find? "core" = some (.table table)
        ∧ ∀ key, table.find? key = (lastAt counted ⟨some "core", key⟩).map .string)
      ∧ doc.find? "path" = none
      ∧ doc.SameUpToOrder (ofVariables "APP" listed.reverse) := by
  intro listed doc counted
  have hcounted : variableEntries "APP" listed = [(⟨some "edge", "port"⟩, "81"),
      (⟨none, "edge"⟩, "a"), (⟨some "edge", "host"⟩, "b"), (⟨some "core", "_port"⟩, "82")] := by
    decide +kernel
  obtain ⟨-, htop, hsection, habsent, hperm⟩ := ofVariables_exact "APP" listed
  refine ⟨hcounted, htop "edge" "a" ?_, hsection "core" ?_ ?_, habsent "path" ?_,
    hperm _ (List.reverse_perm listed).symm ?_⟩
  all_goals
    rw [hcounted]
    decide

end Document

end LayeredConfig
