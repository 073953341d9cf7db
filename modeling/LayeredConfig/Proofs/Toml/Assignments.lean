/-
  LayeredConfig.Proofs.Toml.Assignments

  Documents of assignments to bare keys.

  Every line binds one key, in the order of the lines, and what it is bound to is
  the value whose literal stands on the line.  So a text of such lines is read
  as their document, or not at all if a literal nests too deeply
  (`read_assignments`).
-/
import LayeredConfig.Proofs.Document.Lookup
import LayeredConfig.Proofs.Toml.Blank
import LayeredConfig.Proofs.Toml.Literal
import LayeredConfig.Proofs.Toml.WellFormed

namespace LayeredConfig.Toml

/-! ## Bare keys -/

/-- A key that needs no quotes. -/
structure IsBareKey (key : String) : Prop where
  ne_nil : key.toList ≠ []
  isBareKeyChar : ∀ c ∈ key.toList, isBareKeyChar c = true

instance (key : String) : Decidable (IsBareKey key) :=
  decidable_of_iff (key.toList ≠ [] ∧ key.toList.all isBareKeyChar = true)
    ⟨fun ⟨hne, hall⟩ => ⟨hne, List.all_eq_true.mp hall⟩,
      fun h => ⟨h.ne_nil, List.all_eq_true.mpr h.isBareKeyChar⟩⟩

theorem IsBareKey.exists_cons {key : String} (h : IsBareKey key) :
    ∃ c s, key.toList = c :: s ∧ Toml.isBareKeyChar c = true := by
  obtain ⟨c, s, hkey⟩ := List.exists_cons_of_ne_nil h.ne_nil
  exact ⟨c, s, hkey, h.isBareKeyChar c (hkey ▸ List.mem_cons_self)⟩

theorem skipSpaces_of_isBareKeyChar {c : Char} (h : isBareKeyChar c = true) (s : List Char) :
    skipSpaces (c :: s) = c :: s := by
  have hspace : isSpace c = false := by
    rw [isSpace, beq_eq_false_iff_ne.mpr (Text.ne_of_class h (by decide)),
      beq_eq_false_iff_ne.mpr (Text.ne_of_class h (by decide)), Bool.or_self]
  exact List.dropWhile_cons_of_neg (by simp [hspace])

/-- A bare key is read up to the space before the sign. -/
theorem readKey_of_isBareKey {key : String} (h : IsBareKey key) (s : List Char) :
    readKey (key.toList ++ ' ' :: '=' :: s) = some (([], key), '=' :: s) := by
  obtain ⟨c, t, hkey, hc⟩ := h.exists_cons
  have htake : (key.toList ++ ' ' :: '=' :: s).takeWhile isBareKeyChar = key.toList := by
    rw [List.takeWhile_append_of_pos h.isBareKeyChar, List.takeWhile_cons_of_neg (by decide),
      List.append_nil]
  have hdrop : (key.toList ++ ' ' :: '=' :: s).dropWhile isBareKeyChar = ' ' :: '=' :: s := by
    rw [List.dropWhile_append_of_pos h.isBareKeyChar, List.dropWhile_cons_of_neg (by decide)]
  have hskip : skipSpaces (key.toList ++ ' ' :: '=' :: s) = key.toList ++ ' ' :: '=' :: s := by
    rw [hkey]
    exact skipSpaces_of_isBareKeyChar hc _
  have hpart : readKeyPart (key.toList ++ ' ' :: '=' :: s) = some (key, ' ' :: '=' :: s) := by
    rw [readKeyPart]
    · simp only [htake, hdrop, List.isEmpty_eq_false_iff.mpr h.ne_nil, Bool.false_eq_true, if_false,
        String.ofList_toList]
    · intro u hu
      rw [hkey] at hu
      exact Text.ne_of_class hc (by decide) (List.cons.inj hu).1
    · intro u hu
      rw [hkey] at hu
      exact Text.ne_of_class hc (by decide) (List.cons.inj hu).1
  have hlimit : nestingLimit = 78 + 1 := rfl
  rw [readKey, hlimit, readKeyUpTo, hskip, hpart]
  rfl

/-! ## Lines -/

/-- The line that assigns a value to a key. -/
structure Assigns (entry : String × Value) (line : List Char) : Prop where
  key : IsBareKey entry.1
  writable : Writable entry.2
  line : ∃ text, Spells entry.2 text ∧ line = entry.1.toList ++ " = ".toList ++ text

variable {entry : String × Value} {line : List Char}

theorem Assigns.exists_cons (h : Assigns entry line) :
    ∃ c s, line = c :: s ∧ isBareKeyChar c = true := by
  obtain ⟨text, -, rfl⟩ := h.line
  obtain ⟨c, s, hkey, hc⟩ := h.key.exists_cons
  exact ⟨c, s ++ " = ".toList ++ text, by rw [hkey]; rfl, hc⟩

theorem isPlain_of_isBareKeyChar {c : Char} (h : isBareKeyChar c = true) : isPlain c = true := by
  have hword : isWordChar c = true := by
    simp only [isBareKeyChar, Bool.or_eq_true] at h
    simp only [isWordChar, Bool.or_eq_true]
    rcases h with (halphanum | hunderscore) | hminus
    · simp [halphanum]
    · simp [hunderscore]
    · simp [hminus]
  exact isPlain_of_isWordChar hword

theorem Assigns.plain (h : Assigns entry line) : Plain line := by
  obtain ⟨text, hspells, rfl⟩ := h.line
  rw [plain_append_iff, plain_append_iff]
  exact ⟨⟨fun c hc => isPlain_of_isBareKeyChar (h.key.isBareKeyChar c hc), by decide⟩,
    hspells.plain⟩

theorem readLine_of_isBareKeyChar {c : Char} (h : isBareKeyChar c = true) (s : List Char) :
    readLine (c :: s) = (readBinding (readNode nestingLimit) (c :: s)).map
      fun (((path, key), node), s) => (.binding path key node, s) := by
  have hne : c ≠ '[' := Text.ne_of_class h (by decide)
  rw [readLine]
  · cases readBinding (readNode nestingLimit) (c :: s) <;> rfl
  · exact fun t heq => hne (List.cons.inj heq).1
  · exact fun t heq => hne (List.cons.inj heq).1

theorem Spells.skipSpaces_eq {v : Value} {text : List Char} (h : Spells v text)
    (rest : List Char) : skipSpaces (' ' :: (text ++ rest)) = text ++ rest := by
  obtain ⟨c, s, rfl, hopens⟩ := h.opens
  have hspace : isSpace c = false := by
    simp only [opensValue, Bool.not_eq_true', Bool.or_eq_false_iff] at hopens
    exact hopens.1.1.1.1
  calc skipSpaces (' ' :: (c :: s ++ rest))
      = (c :: (s ++ rest)).dropWhile isSpace := List.dropWhile_cons_of_pos (by decide)
    _ = c :: s ++ rest := List.dropWhile_cons_of_neg (by simp [hspace])

/-- An assignment is read if its literal nests no deeper than the reader goes. -/
theorem readLine_of_assigns (h : Assigns entry line) (rest : List Char) :
    readLine (line ++ '\n' :: rest)
      = if nesting entry.2 ≤ nestingLimit then
          some (.binding [] entry.1 (node entry.2), '\n' :: rest)
        else none := by
  obtain ⟨text, hspells, rfl⟩ := h.line
  obtain ⟨c, s, hkey⟩ := List.exists_cons_of_ne_nil h.key.ne_nil
  have hc : isBareKeyChar c = true := h.key.isBareKeyChar c (hkey ▸ List.mem_cons_self)
  have htext : entry.1.toList ++ " = ".toList ++ text ++ '\n' :: rest
      = entry.1.toList ++ ' ' :: '=' :: ' ' :: (text ++ '\n' :: rest) := by
    rw [List.append_assoc, List.append_assoc]
    rfl
  have hline := readLine_of_isBareKeyChar hc (s ++ ' ' :: '=' :: ' ' :: (text ++ '\n' :: rest))
  rw [← List.cons_append, ← hkey] at hline
  have hread := hspells.read nestingLimit ('\n' :: rest) (endsValue_cons (by decide) rest)
  rw [htext, hline, readBinding, readKey_of_isBareKey h.key]
  simp only [Option.bind_eq_bind, Option.bind_some, readChar, if_true, hspells.skipSpaces_eq, hread]
  split <;> rfl

/-! ## Documents -/

theorem isBlankLine_of_isBareKeyChar {c : Char} (h : isBareKeyChar c = true) (s : List Char) :
    isBlankLine (c :: s) = false := by
  rw [isBlankLine, beq_eq_false_iff_ne.mpr (Text.ne_of_class h (by decide)),
    beq_eq_false_iff_ne.mpr (Text.ne_of_class h (by decide)),
    beq_eq_false_iff_ne.mpr (Text.ne_of_class h (by decide))]
  rfl

/-- A new key comes last. -/
theorem apply_binding {root : Entries} {key : String} (hkey : key ∉ root.map Prod.fst)
    (node : Node) : Progress.apply ⟨root, []⟩ (.binding [] key node)
      = some ⟨root ++ [(key, node)], []⟩ := by
  have hnone : Entries.find? key root = none := by
    cases hfind : Entries.find? key root with
    | none => rfl
    | some bound =>
      have hmem := List.mem_map_of_mem (f := Prod.fst) (Entries.mem_of_find?_eq_some hfind)
      exact absurd hmem hkey
  have hbind : Entries.changeAt false (Entries.bindDotted [] key node) [] .header root
      = some (root ++ [(key, node)]) := by
    show Entries.bindKey false key node .header root = some (root ++ [(key, node)])
    rw [Entries.bindKey, hnone]
    rfl
  rw [Progress.apply, hbind]
  rfl

/-- What a line of an assignment does to a document without that key. -/
theorem readLines_of_assigns (h : Assigns entry line) {root : Entries}
    (hkey : entry.1 ∉ root.map Prod.fst) (fuel : Nat) (rest : List Char) :
    readLines (fuel + 1) ⟨root, []⟩ (line ++ '\n' :: rest)
      = if nesting entry.2 ≤ nestingLimit then
          readLines fuel ⟨root ++ [(entry.1, node entry.2)], []⟩ rest
        else none := by
  have hline := readLine_of_assigns h rest
  obtain ⟨c, s, rfl, hc⟩ := h.exists_cons
  rw [readLines_append, skipSpaces_of_isBareKeyChar hc, List.cons_append,
    isBlankLine_of_isBareKeyChar hc, if_neg (by decide), ← List.cons_append, hline]
  split
  · have hend : endLine? ('\n' :: rest) = some rest := rfl
    simp only [Option.bind_eq_bind, Option.bind_some, apply_binding hkey, hend]
  · rfl

/-- Lines of assignments to new keys add them in their order. -/
theorem readLines_flatMap_assigns {doc : Document} {lines : List (List Char)}
    (h : List.Forall₂ Assigns doc lines) (hdistinct : doc.Distinct) {fuel : Nat}
    (hfuel : doc.length ≤ fuel) {root : Entries}
    (hroot : ∀ key ∈ root.map Prod.fst, key ∉ doc.keys) :
    readLines fuel ⟨root, []⟩ (lines.flatMap (· ++ ['\n']))
      = if ∀ e ∈ doc, nesting e.2 ≤ nestingLimit then
          some ⟨root ++ doc.map fun e => (e.1, node e.2), []⟩
        else none := by
  -- on the lines, with what was read before them left open
  induction h generalizing fuel root with
  | nil => simp [readLines]
  | @cons entry line doc lines hassigns hrest ih =>
    obtain ⟨fuel, rfl⟩ : ∃ n, fuel = n + 1 :=
      Nat.exists_eq_add_one.mpr (Nat.lt_of_lt_of_le (Nat.succ_pos _) hfuel)
    obtain ⟨hnew, hdistinct⟩ := Document.distinct_cons.mp hdistinct
    have hkey : entry.1 ∉ root.map Prod.fst := fun hmem => hroot entry.1 hmem (by simp)
    have htext : (line :: lines).flatMap (· ++ ['\n'])
        = line ++ '\n' :: lines.flatMap (· ++ ['\n']) := by simp
    have hroot' : ∀ key ∈ (root ++ [(entry.1, node entry.2)]).map Prod.fst,
        key ∉ Document.keys doc := by
      intro key hmem
      rw [List.map_append, List.mem_append] at hmem
      rcases hmem with hmem | hmem
      · exact fun hkeys => hroot key hmem (List.mem_cons_of_mem _ hkeys)
      · obtain rfl : key = entry.1 := List.mem_singleton.mp hmem
        exact hnew
    rw [htext, readLines_of_assigns hassigns hkey,
      ih hdistinct (Nat.le_of_succ_le_succ hfuel) hroot']
    simp only [List.forall_mem_cons]
    by_cases hnesting : nesting entry.2 ≤ nestingLimit
    · simp only [hnesting, if_true, true_and, List.map_cons, List.append_assoc,
        List.singleton_append]
    · rw [if_neg hnesting, if_neg fun hall => hnesting hall.1]

theorem toDocument?_nodes {doc : Document} {lines : List (List Char)}
    (h : List.Forall₂ Assigns doc lines) :
    Entries.toDocument? (doc.map fun e => (e.1, node e.2)) = some doc := by
  induction h with
  | nil => rfl
  | cons hassigns hrest ih =>
    rw [List.map_cons, Entries.toDocument?, nodeValue?_node hassigns.writable, ih]
    rfl

/-- A text of assignments denotes the document of what they assign, or nothing if
    the literal of one of them nests too deeply. -/
theorem read_assignments {doc : Document} {lines : List (List Char)}
    (h : List.Forall₂ Assigns doc lines) (hdistinct : doc.Distinct) :
    read (lines.flatMap (· ++ ['\n']))
      = if ∀ e ∈ doc, nesting e.2 ≤ nestingLimit then some doc else none := by
  have hmark : skipByteOrderMark (lines.flatMap (· ++ ['\n'])) = lines.flatMap (· ++ ['\n']) := by
    cases h with
    | nil => rfl
    | cons hassigns hrest =>
      obtain ⟨c, s, rfl, hc⟩ := hassigns.exists_cons
      have hne : c ≠ '\ufeff' := Text.ne_of_class hc (by decide)
      simp [skipByteOrderMark, hne]
  have hfuel : doc.length ≤ (lines.flatMap (· ++ ['\n'])).length :=
    h.length_eq ▸ length_le_flatMap_newline lines
  rw [read, hmark]
  simp only [readLines_flatMap_assigns h hdistinct hfuel (by simp : ∀ key ∈ ([] : Entries).map
    Prod.fst, key ∉ doc.keys)]
  split
  · simp only [Option.bind_eq_bind, Option.bind_some, List.nil_append, toDocument?_nodes h]
  · rfl

end LayeredConfig.Toml
