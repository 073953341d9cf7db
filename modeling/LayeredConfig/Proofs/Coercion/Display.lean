/-
  LayeredConfig.Proofs.Coercion.Display

  Giving back what is shown.

  A value is shown as JSON text and read by rules of their own: list texts are
  cut at commas and freed of brackets and white space, integers and truth values
  are words.  The two meet because the text of an integer or a truth value is a
  word without any of these characters (`IsElement`), so that the elements of the
  text of an array are the texts of its items (`listElements_text`).  The empty
  array is shown as a text without elements, and is the one value of these types
  that is not taken back (`coerce_display`).
-/
import LayeredConfig.Proofs.Coercion.ListText
import LayeredConfig.Proofs.Recoercion
import LayeredConfig.Proofs.Toml.Scalar

namespace LayeredConfig

/-! ## Elements of list texts -/

namespace TypeDesc

/-- A text that is one element of a list text and keeps all its characters. -/
structure IsElement (s : List Char) : Prop where
  ne_nil : s ≠ []
  comma_notMem : ',' ∉ s
  isBracket : ∀ c ∈ s, isBracket c = false
  isBlank : ∀ c ∈ s, Text.isBlank c = false

theorem IsElement.isToken {s : List Char} (h : IsElement s) : IsToken s where
  head c hc := ⟨h.isBlank c (List.mem_of_mem_head? hc), h.isBracket c (List.mem_of_mem_head? hc)⟩
  last c hc := ⟨h.isBlank c (List.mem_of_getLast? hc), h.isBracket c (List.mem_of_getLast? hc)⟩
  ne_nil := h.ne_nil
  comma_notMem := h.comma_notMem

theorem isEdge_of_allBrackets {brackets : List Char} (h : AllBrackets brackets) :
    IsEdge brackets :=
  ⟨[], brackets, [], List.forall_mem_nil _, h, List.forall_mem_nil _, by simp⟩

/-- Brackets around an element are taken off, and nothing else. -/
theorem bareElement_append {opening s closing : List Char} (hs : IsElement s)
    (hopening : ∀ c ∈ opening, isBracket c = true) (hclosing : ∀ c ∈ closing, isBracket c = true) :
    bareElement (opening ++ s ++ closing) = s :=
  bareElement_of_decorates hs.isToken
    ⟨opening, closing, isEdge_of_allBrackets hopening, isEdge_of_allBrackets hclosing, rfl⟩

/-- The fragments between commas of the items of an array, with a bracket in
    front and one behind, are the texts of the items. -/
theorem map_bareElement_itemsChars {opening : List Char}
    (hopening : ∀ c ∈ opening, isBracket c = true) {items : List Value} (hne : items ≠ [])
    (hitems : ∀ item ∈ items, IsElement item.chars) :
    (Text.splitAt ',' (opening ++ Value.itemsChars items ++ [']'])).map bareElement
      = items.map Value.chars := by
  have hcomma {brackets : List Char} (h : ∀ c ∈ brackets, isBracket c = true) :
      ',' ∉ brackets := fun hmem => absurd (h ',' hmem) (by decide)
  have hclosing : ∀ c ∈ [']'], isBracket c = true := List.forall_mem_singleton.mpr rfl
  have hnothing : ∀ c ∈ ([] : List Char), isBracket c = true := by simp
  induction items generalizing opening with
  | nil => exact absurd rfl hne
  | cons item items ih =>
    obtain ⟨hitem, hrest⟩ := List.forall_mem_cons.mp hitems
    cases items with
    | nil =>
      have hwhole : ',' ∉ opening ++ item.chars ++ [']'] := by
        simp [hcomma hopening, hitem.comma_notMem]
      rw [Value.itemsChars, Text.splitAt_of_notMem hwhole, List.map_singleton,
        bareElement_append hitem hopening hclosing, List.map_singleton]
    | cons next items =>
      have hfirst : ',' ∉ opening ++ item.chars := by
        simp [hcomma hopening, hitem.comma_notMem]
      have hsplit : opening ++ Value.itemsChars (item :: next :: items) ++ [']']
          = (opening ++ item.chars)
            ++ ',' :: ([] ++ Value.itemsChars (next :: items) ++ [']']) := by
        simp [Value.itemsChars]
      have hbare : bareElement (opening ++ item.chars) = item.chars := by
        simpa using bareElement_append hitem hopening hnothing
      rw [hsplit, Text.splitAt_append, Text.splitAt_of_notMem hfirst, List.map_append,
        ih hnothing (by simp) hrest, List.map_singleton, hbare,
        List.singleton_append, ← List.map_cons]

/-- The elements of the text of an array are the texts of its items. -/
theorem listElements_text {items : List Value} (hne : items ≠ [])
    (hitems : ∀ item ∈ items, IsElement item.chars) :
    listElements (Value.array items).text = items.map Value.text := by
  have hchars : (Value.array items).text.toList = ['['] ++ Value.itemsChars items ++ [']'] := by
    rw [Value.text, Value.chars, String.toList_ofList]
    rfl
  have hkept : ∀ s ∈ items.map Value.chars, !s.isEmpty := by
    intro s hs
    obtain ⟨item, hitem, rfl⟩ := List.mem_map.mp hs
    simpa using (hitems item hitem).ne_nil
  have hopening : ∀ c ∈ ['['], isBracket c = true := List.forall_mem_singleton.mpr rfl
  rw [listElements, hchars, map_bareElement_itemsChars hopening hne hitems,
    List.filter_eq_self.mpr hkept, List.map_map]
  rfl

/-! ## Words -/

theorem isElement_intChars (n : Int) : IsElement (Number.intChars n) := by
  have hclass {c : Char} (hc : c ∈ Number.intChars n) : c = '-' ∨ c.isDigit = true := by
    rw [Number.intChars] at hc
    split at hc
    · rcases List.mem_cons.mp hc with rfl | hc
      · exact Or.inl rfl
      · exact Or.inr (isDigit_of_mem_toDigits hc)
    · exact Or.inr (isDigit_of_mem_toDigits hc)
  obtain ⟨first, rest, hcons, -⟩ := Number.exists_intChars_cons n
  refine ⟨by simp [hcons], fun hmem => ?_, fun c hc => ?_, fun c hc => ?_⟩
  · exact absurd (hclass hmem) (by decide)
  · rcases hclass hc with rfl | hdigit
    · rfl
    · have hne (d : Char) (hd : d.isDigit = false) : c ≠ d := Text.ne_of_class hdigit hd
      simp [isBracket, hne '[' rfl, hne ']' rfl, hne '(' rfl, hne ')' rfl]
  · rcases hclass hc with rfl | hdigit
    · rfl
    · simp only [Char.isDigit, Bool.and_eq_true, decide_eq_true_eq, ge_iff_le,
        UInt32.le_iff_toNat_le] at hdigit
      have hcode : 48 ≤ c.toNat ∧ c.toNat ≤ 57 := hdigit
      simp only [Text.isBlank, Bool.or_eq_false_iff, Bool.and_eq_false_iff,
        decide_eq_false_iff_not, beq_eq_false_iff_ne]
      omega

/-- The words for the values of a type are read as these values. -/
structure ReadsWords (environment : Environment) (type : TypeDesc) : Prop where
  isElement : ∀ v, Inhabits type v → IsElement v.chars
  coerce_text : ∀ v, Inhabits type v → type.coerce environment (.string v.text) = .ok v

theorem readInteger_intChars {n : Int} (hn : isInt64 n = true) :
    readInteger (Number.intChars n) = .ok n := by
  have hsign := Toml.takeSign_of_isWhole (decide (n < 0)) (isWhole_toDigits n.natAbs) []
  rw [List.append_nil, ← Toml.intChars_eq] at hsign
  obtain ⟨first, rest, hcons, -⟩ := Number.exists_intChars_cons n
  have hdigits : (Nat.toDigits 10 n.natAbs).isEmpty = false := by
    simp [(isWhole_toDigits n.natAbs).ne_nil]
  rw [hcons] at hsign ⊢
  simp only [readInteger, hsign, hdigits, Bool.false_eq_true, if_false]
  exact extendInteger_toDigits hn

theorem readsWords_int (environment : Environment) : ReadsWords environment .int where
  isElement := by
    intro v hv
    cases hv with
    | int hn => exact isElement_intChars _
  coerce_text := by
    intro v hv
    cases hv with
    | @int n hn =>
      have htext : (Value.int n).text.toList = Number.intChars n := String.toList_ofList
      have htrim : Text.trim (Number.intChars n) = Number.intChars n :=
        trim_of_not_isBlank (isElement_intChars n).isBlank
      show coerceInt (.string (Value.int n).text) = .ok (.int n)
      simp only [coerceInt, htext, htrim, readInteger_intChars hn]

theorem readsWords_bool (environment : Environment) : ReadsWords environment .bool where
  isElement := by
    intro v hv
    cases hv with
    | bool b =>
      cases b <;> exact ⟨by decide, by decide, by simp [Value.chars, isBracket],
        by simp [Value.chars, Text.isBlank]⟩
  coerce_text := by
    intro v hv
    cases hv with
    | bool b => cases b <;> rfl

variable {environment other : Environment} {type inner : TypeDesc} {raw v : Value}

/-- The text of an array that is not empty is read item by item. -/
theorem coerce_text_list {items : List Value} (hwords : ReadsWords environment inner)
    (hitems : ∀ w ∈ items, Inhabits inner w) (hne : items ≠ []) :
    (list inner).coerce environment (.string (Value.array items).text) = .ok (.array items) := by
  have helements : listElements (Value.array items).text = items.map Value.text :=
    listElements_text hne fun w hw => hwords.isElement w (hitems w hw)
  rw [coerce_list_string (by simpa [helements] using hne), helements, List.map_map]
  refine coerce_list_array_eq_ok_iff.mpr ⟨items, rfl, ?_⟩
  rw [List.forall₂_map_left_iff, List.forall₂_same]
  exact fun w hw => hwords.coerce_text w (hitems w hw)

/-! ## Types that read what they show -/

/-- Integers, truth values and strings, lists of integers or of truth values, and
    any of these behind any number of optional types. -/
def readsDisplay : TypeDesc → Bool
  | .int | .bool | .string | .list .int | .list .bool => true
  | .optional inner => inner.readsDisplay
  | _ => false

theorem expressionFree_of_readsDisplay (h : type.readsDisplay = true) :
    type.expressionFree = true := by
  induction type with
  | optional inner ih => exact ih h
  | list inner => cases inner <;> first | rfl | exact absurd h (by simp [readsDisplay])
  | union first second => exact absurd h (by simp [readsDisplay])
  | expression withEnv => exact absurd h (by simp [readsDisplay])
  | _ => rfl

/-- A value of a list type is an array, and it is shown by its text. -/
theorem coerce_display_list (hwords : ReadsWords environment inner)
    (h : Inhabits (list inner) v) (hv : v ≠ .array []) :
    (list inner).coerce environment (.string v.display) = .ok v := by
  cases h with
  | @list _ items hitems =>
    refine coerce_text_list hwords hitems ?_
    rintro rfl
    exact hv rfl

/-- What is shown of an optional value is its name if there is none. -/
theorem coerce_display_optional (htype : inner.expressionFree = true)
    (h : (optional inner).coerce environment raw = .ok v)
    (hinner : inner.coerce environment raw = .ok v →
      inner.coerce environment (.string v.display) = .ok v) :
    (optional inner).coerce environment (.string v.display) = .ok v := by
  rcases coerce_optional_ok_cases h with rfl | ⟨hok, hnull, hname⟩
  · rfl
  · by_cases hnone : v.display = "None"
    · -- the name of no value as a text of its own does not come out of an optional type
      rcases Value.eq_of_display_eq_none hnone with rfl | rfl
      · rfl
      · exact ((eq_of_coerce_eq_none htype hok).elim hnull hname).elim
    · rw [coerce_optional_of_ne (by simp) (by simpa using hnone)]
      exact hinner hok

/-- What is shown of a value is coerced into this very value, be it in another
    environment, unless it is the empty array. -/
theorem coerce_display (htype : type.readsDisplay = true)
    (h : type.coerce environment raw = .ok v) (hv : v ≠ .array []) :
    type.coerce other (.string v.display) = .ok v := by
  have hfree := expressionFree_of_readsDisplay htype
  rw [coerce_eq_of_expressionFree hfree other environment]
  induction type with
  | int =>
    obtain ⟨n, rfl, -⟩ := exists_int_of_coerceInt h
    exact (readsWords_int environment).coerce_text _ (inhabits_of_coerce h)
  | bool =>
    obtain ⟨b, rfl⟩ := exists_bool_of_coerceBool h
    exact (readsWords_bool environment).coerce_text _ (inhabits_of_coerce h)
  | string =>
    obtain rfl := Except.ok.inj h
    rfl
  | optional inner ih =>
    exact coerce_display_optional hfree h fun hinner => ih htype hinner hfree
  | list inner =>
    have hwords : ReadsWords environment inner := by
      cases inner with
      | int => exact readsWords_int environment
      | bool => exact readsWords_bool environment
      | _ => exact absurd htype (by simp [readsDisplay])
    exact coerce_display_list hwords (inhabits_of_coerce h) hv
  | float => exact absurd htype (by simp [readsDisplay])
  | union first second => exact absurd htype (by simp [readsDisplay])
  | expression withEnv => exact absurd htype (by simp [readsDisplay])

/-- Both ends of the integers in a list behind two optional types. -/
theorem coerce_display_bounds :
    let type := optional (optional (list int))
    let v := Value.array [.int (-9223372036854775808), .int 9223372036854775807]
    type.coerce .empty (.string "(-9223372036854775808, +9223372036854775807,)") = .ok v
      ∧ v.display = "[-9223372036854775808,9223372036854775807]"
      ∧ type.coerce .empty (.string v.display) = .ok v := by
  intro type v
  have hv : type.coerce .empty (.string "(-9223372036854775808, +9223372036854775807,)")
      = .ok v := rfl
  exact ⟨hv, rfl, coerce_display rfl hv (by simp [v])⟩

/-- The empty array is shown as a text without elements. -/
example :
    (list int).coerce .empty (.array []) = .ok (.array [])
      ∧ (list int).coerce .empty (.string (Value.array []).display)
        = .error (.malformed (list int) "[]") :=
  ⟨rfl, rfl⟩

end TypeDesc

end LayeredConfig
