/-
  LayeredConfig.Proofs.Toml.Literal

  Values that are written and read back.

  A value without tables and without the absence of a value has a literal, and
  reading gives the value back as long as its arrays nest no deeper than the
  reader goes (`exists_spells`, `nodeValue?_node`).  The induction is on the
  value; what a part of it needs to know of its surroundings is only that a line,
  an item or an array ends behind it.
-/
import LayeredConfig.Proofs.Toml.Scalar
import LayeredConfig.Proofs.Toml.StringLiteral
import LayeredConfig.Toml.Reader

namespace LayeredConfig.Toml

/-! ## Values that can be written -/

/-- A value that is made of truth values, integers of 64 bits, numbers, strings
    without control characters, and arrays. -/
inductive Writable : Value → Prop where
  | bool (b : Bool) : Writable (.bool b)
  | int {n : Int} (h : isInt64 n = true) : Writable (.int n)
  | float (x : Double) : Writable (.float x)
  | string {s : String} (h : Plain s.toList) : Writable (.string s)
  | array {items : List Value} (h : ∀ v ∈ items, Writable v) : Writable (.array items)

mutual

/-- How deeply arrays stand inside of one another. -/
def nesting : Value → Nat
  | .array items => itemsNesting items + 1
  | _ => 0

/-- How deeply arrays stand inside of one another among the items of an array. -/
def itemsNesting : List Value → Nat
  | [] => 0
  | item :: items => max (nesting item) (itemsNesting items)

end

mutual

/-- What a value without tables is read as. -/
def node : Value → Node
  | .string s => .string s
  | .array items => .array (itemNodes items)
  | v => .scalar v

/-- What the items of an array are read as. -/
def itemNodes : List Value → List Node
  | [] => []
  | item :: items => node item :: itemNodes items

end

theorem nodesValues?_itemNodes {items : List Value}
    (h : ∀ v ∈ items, Entries.nodeValue? (node v) = some v) :
    Entries.nodesValues? (itemNodes items) = some items := by
  induction items with
  | nil => rfl
  | cons item items ih =>
    obtain ⟨hitem, hitems⟩ := List.forall_mem_cons.mp h
    rw [itemNodes, Entries.nodesValues?, hitem, ih hitems]
    rfl

/-- The node is that of the value. -/
theorem nodeValue?_node {v : Value} (h : Writable v) : Entries.nodeValue? (node v) = some v := by
  induction h with
  | bool | int | float | string => rfl
  | array _ ih =>
    rw [node, Entries.nodeValue?, nodesValues?_itemNodes ih]
    rfl

/-! ## The starts of values -/

/-- Whether a value may begin with a character, as opposed to what stands before
    items or ends an array. -/
def opensValue (c : Char) : Bool :=
  !(isSpace c || c == '\n' || c == '\r' || c == '#' || c == ']')

/-- Nothing is skipped before a value. -/
theorem skipGap_of_opensValue {c : Char} (h : opensValue c = true) (s : List Char) :
    skipGap false (c :: s) = some (c :: s) := by
  simp only [opensValue, Bool.not_eq_true', Bool.or_eq_false_iff, beq_eq_false_iff_ne] at h
  obtain ⟨⟨⟨⟨hspace, hline⟩, hreturn⟩, hsign⟩, -⟩ := h
  rw [skipGap]
  · rw [if_neg hsign, hspace, if_neg (by decide)]
  · exact fun hc => absurd hc hline
  · exact fun t hc => absurd hc hreturn

/-- The literal of a value that the reader takes as a whole. -/
structure Spells (v : Value) (text : List Char) : Prop where
  literal : literal v = some text
  plain : Plain text
  opens : ∃ c s, text = c :: s ∧ opensValue c = true
  read : ∀ (depth : Nat) (rest : List Char), EndsValue rest →
    readNode depth (text ++ rest) = if nesting v ≤ depth then some (node v, rest) else none

/-! ## Words -/

theorem isPlain_of_isWordChar {c : Char} (h : isWordChar c = true) : isPlain c = true := by
  simp only [isWordChar, Bool.or_eq_true, beq_iff_eq] at h
  rcases h with ((((h | rfl) | rfl) | rfl) | rfl) | rfl
  · have hrange : 0x20 ≤ c.toNat ∧ c.toNat < 0x7F :=
      (Text.toNat_of_isAlphanum h).imp (Nat.le_trans (by decide)) (Nat.lt_of_le_of_lt · (by decide))
    have hne : c.toNat ≠ 0x7F := Nat.ne_of_lt hrange.2
    simp [isPlain, hrange.1, hne]
  all_goals decide

theorem opensValue_of_isWordChar {c : Char} (h : isWordChar c = true) : opensValue c = true := by
  have hne {d : Char} (hd : isWordChar d = false) : (c == d) = false :=
    beq_eq_false_iff_ne.mpr (Text.ne_of_class h hd)
  simp only [opensValue, isSpace, hne (by decide : isWordChar ' ' = false),
    hne (by decide : isWordChar '\t' = false), hne (by decide : isWordChar '\n' = false),
    hne (by decide : isWordChar '\r' = false), hne (by decide : isWordChar '#' = false),
    hne (by decide : isWordChar ']' = false)]
  decide

/-- What begins with the character of a word is a scalar. -/
theorem readNode_of_isWordChar {c : Char} (h : isWordChar c = true) (depth : Nat)
    (s : List Char) :
    readNode depth (c :: s) = (readScalar (c :: s)).map fun (v, s) => (.scalar v, s) := by
  have hne {d : Char} (hd : isWordChar d = false) (t : List Char) (heq : c :: s = d :: t) :
      False := Text.ne_of_class h hd (List.cons.inj heq).1
  rw [readNode]
  · exact hne (by decide)
  · exact hne (by decide)
  · exact hne (by decide)
  · exact hne (by decide)

theorem spells_of_word {v : Value} {word : List Char} (hliteral : literal v = some word)
    (hword : wordValue? word = some v) (hchars : ∀ c ∈ word, isWordChar c = true)
    (hnesting : nesting v = 0) (hnode : node v = .scalar v) : Spells v word where
  literal := hliteral
  plain := fun c hc => isPlain_of_isWordChar (hchars c hc)
  opens := by
    cases word with
    | nil => exact absurd (wordValue?_nil.symm.trans hword) (by simp)
    | cons c s => exact ⟨c, s, rfl, opensValue_of_isWordChar (hchars c List.mem_cons_self)⟩
  read := fun depth rest hrest => by
    have hscalar := readScalar_append hword hchars hrest
    cases word with
    | nil => exact absurd (wordValue?_nil.symm.trans hword) (by simp)
    | cons c s =>
      rw [List.cons_append] at hscalar ⊢
      rw [readNode_of_isWordChar (hchars c List.mem_cons_self), hscalar, hnesting, hnode,
        if_pos (Nat.zero_le depth)]
      rfl

theorem spells_bool (b : Bool) : ∃ text, Spells (.bool b) text := by
  cases b with
  | true => exact ⟨"true".toList, spells_of_word rfl rfl (List.all_eq_true.mp rfl) rfl rfl⟩
  | false => exact ⟨"false".toList, spells_of_word rfl rfl (List.all_eq_true.mp rfl) rfl rfl⟩

theorem spells_int {n : Int} (h : isInt64 n = true) : Spells (.int n) (Number.intChars n) := by
  have hliteral : literal (.int n) = some (Number.intChars n) := by
    rw [literal, if_pos h]
  exact spells_of_word hliteral (wordValue?_intChars h)
    (fun c hc => isWordChar_of_isNumberChar (isNumberChar_of_mem_intChars hc)) rfl rfl

theorem spells_float (x : Double) : Spells (.float x) (x.render floatLayout) :=
  spells_of_word rfl (wordValue?_float x)
    (fun _ hc => isWordChar_of_isNumberChar (isNumberChar_of_mem_render hc)) rfl rfl

/-! ## Strings -/

theorem exists_stringLiteral_eq {s : String} (h : Plain s.toList) :
    ∃ c t, stringLiteral s = c :: t ∧ (c = '"' ∨ c = '\'') := by
  rcases stringLiteral_cases h with heq | ⟨heq, -⟩ | heq | ⟨heq, -⟩
  · exact ⟨'"', _, heq, Or.inl rfl⟩
  · exact ⟨'\'', _, heq, Or.inr rfl⟩
  · exact ⟨'"', _, heq, Or.inl rfl⟩
  · exact ⟨'\'', _, heq, Or.inr rfl⟩

theorem EndsValue.head?_ne {rest : List Char} (h : EndsValue rest) {c : Char}
    (hc : c ≠ '\n' ∧ c ≠ ',' ∧ c ≠ ']') : rest.head? ≠ some c := by
  intro hhead
  rcases h c hhead with rfl | rfl | rfl
  · exact hc.1 rfl
  · exact hc.2.1 rfl
  · exact hc.2.2 rfl

theorem spells_string {s : String} (h : Plain s.toList) :
    Spells (.string s) (stringLiteral s) where
  literal := rfl
  plain := plain_stringLiteral h
  opens := by
    obtain ⟨c, t, heq, hquote⟩ := exists_stringLiteral_eq h
    refine ⟨c, t, heq, ?_⟩
    rcases hquote with rfl | rfl <;> rfl
  read := fun depth rest hrest => by
    have hstring := readString_stringLiteral h (hrest.head?_ne (by decide))
      (hrest.head?_ne (by decide))
    obtain ⟨c, t, heq, hquote⟩ := exists_stringLiteral_eq h
    have hnesting : nesting (.string s) = 0 := rfl
    rw [heq, List.cons_append] at hstring ⊢
    rw [hnesting, if_pos (Nat.zero_le depth)]
    rcases hquote with rfl | rfl
    · rw [readNode, hstring]
      rfl
    · rw [readNode, hstring]
      rfl

/-! ## Arrays -/

/-- Behind a comma stands a space. -/
theorem readItems_space (read : Reader Node) (fuel : Nat) (s : List Char) :
    readItems read fuel (' ' :: s) = readItems read fuel s := by
  cases fuel with
  | zero => rfl
  | succ fuel =>
    have hskip : skipGap false (' ' :: s) = skipGap false s := rfl
    rw [readItems, readItems, hskip]

section ReadItems

variable {read : Reader Node} {c : Char} {s rest : List Char} {item : Node}

/-- The reader does not take the start of an item for the end of the array. -/
theorem readItems_of_opensValue (h : opensValue c = true) (fuel : Nat) :
    readItems read (fuel + 1) (c :: s) = (do
      let (item, s) ← read (c :: s)
      match ← skipGap false s with
      | ',' :: s =>
        let (nodes, s) ← readItems read fuel s
        return (item :: nodes, s)
      | ']' :: s => return ([item], s)
      | _ => none) := by
  have hne : c ≠ ']' := by
    rintro rfl
    exact absurd h (by decide)
  rw [readItems, skipGap_of_opensValue h]
  simp only [Option.bind_eq_bind, Option.bind_some]
  split
  · rename_i heq
    exact absurd (List.cons.inj heq).1 hne
  · rfl

theorem readItems_eq_none (h : opensValue c = true) (hread : read (c :: s) = none) (fuel : Nat) :
    readItems read (fuel + 1) (c :: s) = none := by
  rw [readItems_of_opensValue h, hread]
  rfl

/-- The last item, with the bracket behind it. -/
theorem readItems_last (h : opensValue c = true)
    (hread : read (c :: s) = some (item, ']' :: rest)) (fuel : Nat) :
    readItems read (fuel + 1) (c :: s) = some ([item], rest) := by
  rw [readItems_of_opensValue h, hread]
  rfl

/-- An item before others, with a comma and a space behind it. -/
theorem readItems_next (h : opensValue c = true)
    (hread : read (c :: s) = some (item, ',' :: ' ' :: rest)) (fuel : Nat) :
    readItems read (fuel + 1) (c :: s)
      = (readItems read fuel rest).map fun (nodes, s) => (item :: nodes, s) := by
  have hspace : readItems read fuel (' ' :: rest) = readItems read fuel rest :=
    readItems_space read fuel rest
  rw [← hspace, readItems_of_opensValue h, hread]
  show (readItems read fuel (' ' :: rest)).bind (fun (nodes, s) => some (item :: nodes, s))
    = (readItems read fuel (' ' :: rest)).map fun (nodes, s) => (item :: nodes, s)
  cases readItems read fuel (' ' :: rest) <;> rfl

end ReadItems

theorem commaSeparated_cons (text next : List Char) (texts : List (List Char)) :
    commaSeparated (text :: next :: texts)
      = text ++ ',' :: ' ' :: commaSeparated (next :: texts) := by
  rw [commaSeparated, commaSeparated, List.intercalate_cons_cons, List.append_assoc]
  rfl

/-- The literals of items between brackets are read as the nodes of the items. -/
theorem readItems_commaSeparated {depth : Nat} {items : List Value} {texts : List (List Char)}
    (h : List.Forall₂ Spells items texts) {fuel : Nat} (hfuel : items.length < fuel)
    (rest : List Char) :
    readItems (readNode depth) fuel (commaSeparated texts ++ ']' :: rest)
      = if itemsNesting items ≤ depth then some (itemNodes items, rest) else none := by
  induction h generalizing fuel with
  | nil =>
    obtain ⟨fuel, rfl⟩ := Nat.exists_eq_add_one.mpr hfuel
    rfl
  | @cons v text items texts hspells htail ih =>
    obtain ⟨fuel, rfl⟩ := Nat.exists_eq_add_one.mpr (Nat.zero_lt_of_lt hfuel)
    have hmax : itemsNesting (v :: items) ≤ depth
        ↔ nesting v ≤ depth ∧ itemsNesting items ≤ depth := Nat.max_le
    obtain ⟨c, s, rfl, hopens⟩ := hspells.opens
    have hread (tail : List Char) (htail : EndsValue tail) :
        readNode depth (c :: (s ++ tail))
          = if nesting v ≤ depth then some (node v, tail) else none := hspells.read depth tail htail
    cases htail with
    | nil =>
      have hitem := hread (']' :: rest) (endsValue_cons (by decide) rest)
      have hnesting : itemsNesting [v] = nesting v := Nat.max_zero _
      rw [commaSeparated, List.intercalate_singleton, List.cons_append, hnesting]
      by_cases hv : nesting v ≤ depth
      · rw [if_pos hv] at hitem ⊢
        exact readItems_last hopens hitem fuel
      · rw [if_neg hv] at hitem ⊢
        exact readItems_eq_none hopens hitem fuel
    | @cons next nextText items texts hnext htail =>
      rw [commaSeparated_cons, List.append_assoc, List.cons_append, List.cons_append,
        List.cons_append]
      have hitem := hread (',' :: ' ' :: (commaSeparated (nextText :: texts) ++ ']' :: rest))
        (endsValue_cons (by decide) _)
      by_cases hv : nesting v ≤ depth
      · rw [if_pos hv] at hitem
        rw [readItems_next hopens hitem, ih (Nat.lt_of_succ_lt_succ hfuel)]
        simp only [hmax, hv, true_and]
        split <;> rfl
      · rw [if_neg hv] at hitem
        rw [readItems_eq_none hopens hitem, if_neg fun h => hv (hmax.mp h).1]

/-- Every item takes a character at least. -/
theorem length_le_commaSeparated {items : List Value} {texts : List (List Char)}
    (h : List.Forall₂ Spells items texts) : items.length ≤ (commaSeparated texts).length := by
  induction h with
  | nil => exact Nat.zero_le _
  | @cons v text items texts hspells htail ih =>
    obtain ⟨c, s, rfl, -⟩ := hspells.opens
    cases htail with
    | nil =>
      rw [commaSeparated, List.intercalate_singleton]
      exact Nat.le_add_left 1 s.length
    | cons hnext htail =>
      rw [commaSeparated_cons]
      simp only [List.length_append, List.length_cons] at ih ⊢
      omega

theorem itemLiterals_eq_some {items : List Value} {texts : List (List Char)}
    (h : List.Forall₂ Spells items texts) : itemLiterals items = some texts := by
  induction h with
  | nil => rfl
  | cons hspells _ ih =>
    rw [itemLiterals, hspells.literal, ih]
    rfl

theorem plain_commaSeparated {items : List Value} {texts : List (List Char)}
    (h : List.Forall₂ Spells items texts) : Plain (commaSeparated texts) := by
  induction h with
  | nil => exact plain_nil
  | @cons v text items texts hspells htail ih =>
    cases htail with
    | nil =>
      rw [commaSeparated, List.intercalate_singleton]
      exact hspells.plain
    | cons hnext htail =>
      rw [commaSeparated_cons, plain_append_iff, plain_cons_iff, plain_cons_iff]
      exact ⟨hspells.plain, by decide, by decide, ih⟩

theorem spells_array {items : List Value} {texts : List (List Char)}
    (h : List.Forall₂ Spells items texts) :
    Spells (.array items) ('[' :: commaSeparated texts ++ [']']) where
  literal := by
    rw [literal, itemLiterals_eq_some h]
    rfl
  plain := by
    rw [List.cons_append, plain_cons_iff, plain_append_iff]
    exact ⟨by decide, plain_commaSeparated h, by decide⟩
  opens := ⟨'[', _, rfl, by decide⟩
  read := fun depth rest _ => by
    rw [List.cons_append, List.cons_append, List.append_assoc, List.singleton_append]
    cases depth with
    | zero => rfl
    | succ depth =>
      have hfuel : items.length < (commaSeparated texts ++ ']' :: rest).length := by
        have hlength := length_le_commaSeparated h
        rw [List.length_append, List.length_cons]
        omega
      rw [readNode, readItems_commaSeparated h hfuel]
      simp only [nesting, Nat.add_le_add_iff_right]
      split <;> rfl

/-! ## All values -/

theorem exists_forall₂_spells {items : List Value}
    (h : ∀ item ∈ items, ∃ text, Spells item text) :
    ∃ texts, List.Forall₂ Spells items texts := by
  induction items with
  | nil => exact ⟨[], .nil⟩
  | cons item items ih =>
    obtain ⟨⟨text, htext⟩, hitems⟩ := List.forall_mem_cons.mp h
    obtain ⟨texts, htexts⟩ := ih hitems
    exact ⟨text :: texts, .cons htext htexts⟩

/-- A value that can be written has a literal, which is read up to the end of
    the value exactly if the arrays nest no deeper than the reader goes. -/
theorem exists_spells {v : Value} (h : Writable v) : ∃ text, Spells v text := by
  induction h with
  | bool b => exact spells_bool b
  | int hn => exact ⟨_, spells_int hn⟩
  | float x => exact ⟨_, spells_float x⟩
  | string hs => exact ⟨_, spells_string hs⟩
  | array _ ih =>
    obtain ⟨texts, htexts⟩ := exists_forall₂_spells ih
    exact ⟨_, spells_array htexts⟩

end LayeredConfig.Toml
