/-
  LayeredConfig.Proofs.Coercion.ListText

  The elements of list texts.

  A list text is cut at its commas, and each fragment is freed of white space, then
  of brackets, then of white space again.  An element with plain ends comes out of
  such surroundings as it is (`bareElement_of_decorates`), and nothing comes out of
  just the fragments that consist of them alone (`bareElement_eq_nil_iff`).  So a
  text that carries elements is coerced like the array of these, and a text is
  malformed for a list type only if it carries none (`coerce_list_of_carries`).
-/
import LayeredConfig.Proofs.Coercion.Culprit
import LayeredConfig.Proofs.Text.Lines
import LayeredConfig.Proofs.Text.Trim

namespace LayeredConfig.TypeDesc

/-! ## Fragments -/

/-- A text of white space only. -/
def AllBlank (s : List Char) : Prop := ∀ c ∈ s, Text.isBlank c = true

/-- A text of brackets and parentheses only. -/
def AllBrackets (s : List Char) : Prop := ∀ c ∈ s, isBracket c = true

/-- A first or last character, if there is one, that is neither white space nor a
    bracket. -/
def PlainEnd (c? : Option Char) : Prop :=
  ∀ c ∈ c?, Text.isBlank c = false ∧ isBracket c = false

-- These are decided for the characters that are there, not for all that there are.

instance (s : List Char) : Decidable (AllBlank s) := List.decidableBAll _ s

instance (s : List Char) : Decidable (AllBrackets s) := List.decidableBAll _ s

instance (c? : Option Char) : Decidable (PlainEnd c?) := c?.decidableForallMem

/-- A text whose ends are neither white space nor brackets. -/
structure PlainEnds (s : List Char) : Prop where
  head : PlainEnd s.head?
  last : PlainEnd s.getLast?

/-- An element that a list text can carry. -/
structure IsToken (token : List Char) : Prop extends PlainEnds token where
  ne_nil : token ≠ []
  comma_notMem : ',' ∉ token

/-- What may stand on either side of an element: brackets between white space. -/
def IsEdge (s : List Char) : Prop :=
  ∃ blank brackets blank', AllBlank blank ∧ AllBrackets brackets ∧ AllBlank blank'
    ∧ s = blank ++ brackets ++ blank'

/-- A fragment is an element with an edge on both sides. -/
def Decorates (token fragment : List Char) : Prop :=
  ∃ start finish, IsEdge start ∧ IsEdge finish ∧ fragment = start ++ token ++ finish

/-- A fragment without an element: white space, brackets, white space, brackets and
    white space. -/
def IsHollow (fragment : List Char) : Prop :=
  ∃ blank brackets blank' brackets' blank'', AllBlank blank ∧ AllBrackets brackets
    ∧ AllBlank blank' ∧ AllBrackets brackets' ∧ AllBlank blank''
    ∧ fragment = blank ++ brackets ++ blank' ++ brackets' ++ blank''

/-- The fragments of a list text carry the elements, in order; there may be any
    number of fragments without one among them. -/
inductive Carries : (fragments tokens : List (List Char)) → Prop where
  | nil : Carries [] []
  | hollow {fragment : List Char} {fragments tokens : List (List Char)}
    (h : IsHollow fragment) (hrest : Carries fragments tokens) :
    Carries (fragment :: fragments) tokens
  | token {token fragment : List Char} {fragments tokens : List (List Char)}
    (htoken : IsToken token) (h : Decorates token fragment) (hrest : Carries fragments tokens) :
    Carries (fragment :: fragments) (token :: tokens)

/-! ## White space and brackets -/

theorem not_isBlank_of_isBracket {c : Char} (h : isBracket c = true) : Text.isBlank c = false := by
  simp only [isBracket, Bool.or_eq_true, beq_iff_eq] at h
  rcases h with ((rfl | rfl) | rfl) | rfl <;> rfl

theorem not_isBracket_of_isBlank {c : Char} (h : Text.isBlank c = true) : isBracket c = false := by
  cases hc : isBracket c with
  | false => rfl
  | true => exact absurd h (by simp [not_isBlank_of_isBracket hc])

theorem trim_of_not_isBlank {s : List Char} (h : ∀ c ∈ s, Text.isBlank c = false) :
    Text.trim s = s :=
  Text.trimBy_eq_self h

/-- White space has no brackets to be taken off. -/
theorem AllBlank.trimBy_isBracket {s : List Char} (h : AllBlank s) :
    Text.trimBy isBracket s = s :=
  Text.trimBy_eq_self fun c hc => not_isBracket_of_isBlank (h c hc)

/-- White space inside of brackets that are there stays where it is. -/
theorem AllBrackets.trim_append {opening closing : List Char} (hopening : AllBrackets opening)
    (hclosing : AllBrackets closing) (hopen : opening ≠ []) (hclose : closing ≠ [])
    (s : List Char) : Text.trim (opening ++ s ++ closing) = opening ++ s ++ closing := by
  refine Text.trimBy_eq_self_iff.mpr ⟨fun c hc => ?_, fun c hc => ?_⟩
  · rw [List.append_assoc, List.head?_append_of_ne_nil _ hopen] at hc
    exact not_isBlank_of_isBracket (hopening c (List.mem_of_mem_head? hc))
  · rw [List.getLast?_append_of_ne_nil _ hclose] at hc
    exact not_isBlank_of_isBracket (hclosing c (List.mem_of_getLast? hc))

/-! ## Fragments without an element -/

theorem bareElement_of_isHollow {fragment : List Char} (h : IsHollow fragment) :
    bareElement fragment = [] := by
  obtain ⟨blank, brackets, blank', brackets', blank'', hblank, hbrackets, hblank', hbrackets',
    hblank'', rfl⟩ := h
  have hnoBlank {s : List Char} (hs : AllBrackets s) : Text.trim s = s :=
    trim_of_not_isBlank fun c hc => not_isBlank_of_isBracket (hs c hc)
  -- where brackets are missing on one side, those on the other side stand alone
  by_cases hopen : brackets = []
  · have hfragment : blank ++ brackets ++ blank' ++ brackets' ++ blank''
        = (blank ++ blank') ++ brackets' ++ blank'' := by simp [hopen]
    have hstart : AllBlank (blank ++ blank') := List.forall_mem_append.mpr ⟨hblank, hblank'⟩
    have htrim : Text.trim ((blank ++ blank') ++ brackets' ++ blank'') = brackets' :=
      Text.trimBy_append hstart hblank'' (hnoBlank hbrackets')
    rw [bareElement, hfragment, htrim, Text.trimBy_eq_nil hbrackets']
    rfl
  · by_cases hclose : brackets' = []
    · have hfragment : blank ++ brackets ++ blank' ++ brackets' ++ blank''
          = blank ++ brackets ++ (blank' ++ blank'') := by simp [hclose]
      have hfinish : AllBlank (blank' ++ blank'') :=
        List.forall_mem_append.mpr ⟨hblank', hblank''⟩
      have htrim : Text.trim (blank ++ brackets ++ (blank' ++ blank'')) = brackets :=
        Text.trimBy_append hblank hfinish (hnoBlank hbrackets)
      rw [bareElement, hfragment, htrim, Text.trimBy_eq_nil hbrackets]
      rfl
    · have hfragment : blank ++ brackets ++ blank' ++ brackets' ++ blank''
          = blank ++ (brackets ++ blank' ++ brackets') ++ blank'' := by simp
      have htrim : Text.trim (blank ++ (brackets ++ blank' ++ brackets') ++ blank'')
          = brackets ++ blank' ++ brackets' :=
        Text.trimBy_append hblank hblank'' (hbrackets.trim_append hbrackets' hopen hclose blank')
      rw [bareElement, hfragment, htrim,
        Text.trimBy_append hbrackets hbrackets' hblank'.trimBy_isBracket]
      exact Text.trimBy_eq_nil hblank'

/-- Nothing comes out of a fragment only if it is hollow. -/
theorem bareElement_eq_nil_iff {fragment : List Char} :
    bareElement fragment = [] ↔ IsHollow fragment := by
  refine ⟨fun h => ?_, bareElement_of_isHollow⟩
  -- the three layers that are taken off, from the outside in
  obtain ⟨before, after, hbefore, hafter, houter⟩ :=
    Text.exists_eq_append_trimBy Text.isBlank fragment
  obtain ⟨opening, closing, hopening, hclosing, hbrackets⟩ :=
    Text.exists_eq_append_trimBy isBracket (Text.trim fragment)
  obtain ⟨inner, inner', hinner, hinner', hmiddle⟩ :=
    Text.exists_eq_append_trimBy Text.isBlank (Text.trimBy isBracket (Text.trim fragment))
  have hnothing : Text.trimBy Text.isBlank (Text.trimBy isBracket (Text.trim fragment)) = [] := h
  rw [hnothing, List.append_nil] at hmiddle
  rw [hmiddle] at hbrackets
  have htrim : Text.trimBy Text.isBlank fragment = opening ++ (inner ++ inner') ++ closing :=
    hbrackets
  rw [htrim] at houter
  exact ⟨before, opening, inner ++ inner', closing, after, hbefore, hopening,
    List.forall_mem_append.mpr ⟨hinner, hinner'⟩, hclosing, hafter, by rw [houter]; simp⟩

/-! ## Fragments with an element -/

/-- Where no brackets stand, all white space counts as being outside of them. -/
theorem IsEdge.exists_start {s : List Char} (h : IsEdge s) :
    ∃ blank brackets inner, AllBlank blank ∧ AllBrackets brackets ∧ AllBlank inner
      ∧ (brackets = [] → inner = []) ∧ s = blank ++ brackets ++ inner := by
  obtain ⟨blank, brackets, inner, hblank, hbrackets, hinner, rfl⟩ := h
  by_cases hnone : brackets = []
  · exact ⟨blank ++ inner, [], [], List.forall_mem_append.mpr ⟨hblank, hinner⟩,
      List.forall_mem_nil _, List.forall_mem_nil _, fun _ => rfl, by simp [hnone]⟩
  · exact ⟨blank, brackets, inner, hblank, hbrackets, hinner, fun h => absurd h hnone, rfl⟩

theorem IsEdge.exists_finish {s : List Char} (h : IsEdge s) :
    ∃ inner brackets blank, AllBlank inner ∧ AllBrackets brackets ∧ AllBlank blank
      ∧ (brackets = [] → inner = []) ∧ s = inner ++ brackets ++ blank := by
  obtain ⟨inner, brackets, blank, hinner, hbrackets, hblank, rfl⟩ := h
  by_cases hnone : brackets = []
  · exact ⟨[], [], inner ++ blank, List.forall_mem_nil _, List.forall_mem_nil _,
      List.forall_mem_append.mpr ⟨hinner, hblank⟩, fun _ => rfl, by simp [hnone]⟩
  · exact ⟨inner, brackets, blank, hinner, hbrackets, hblank, fun h => absurd h hnone, rfl⟩

/-- Where white space only stands behind brackets the text does not begin with
    any. -/
theorem not_isBlank_of_mem_head? {brackets inner rest : List Char}
    (hbrackets : AllBrackets brackets) (hnone : brackets = [] → inner = [])
    (hrest : ∀ c ∈ rest.head?, Text.isBlank c = false) :
    ∀ c ∈ (brackets ++ (inner ++ rest)).head?, Text.isBlank c = false := by
  intro c hc
  cases brackets with
  | nil =>
    rw [hnone rfl] at hc
    exact hrest c hc
  | cons d brackets =>
    obtain rfl : d = c := by simpa using hc
    exact not_isBlank_of_isBracket (hbrackets d List.mem_cons_self)

/-- Behind white space the text does not begin with brackets. -/
theorem not_isBracket_of_mem_head? {inner rest : List Char} (hinner : AllBlank inner)
    (hrest : ∀ c ∈ rest.head?, isBracket c = false) :
    ∀ c ∈ (inner ++ rest).head?, isBracket c = false := by
  intro c hc
  cases inner with
  | nil => exact hrest c hc
  | cons d inner =>
    obtain rfl : d = c := by simpa using hc
    exact not_isBracket_of_isBlank (hinner d List.mem_cons_self)

theorem AllBlank.reverse {s : List Char} (h : AllBlank s) : AllBlank s.reverse :=
  fun c hc => h c (List.mem_reverse.mp hc)

theorem AllBrackets.reverse {s : List Char} (h : AllBrackets s) : AllBrackets s.reverse :=
  fun c hc => h c (List.mem_reverse.mp hc)

section Token

variable {token opening inner inner' closing : List Char} (htoken : IsToken token)
  (hinner : AllBlank inner) (hinner' : AllBlank inner')
include htoken

theorem IsToken.head?_append (rest : List Char) : (token ++ rest).head? = token.head? :=
  List.head?_append_of_ne_nil _ htoken.ne_nil

theorem IsToken.head?_reverse_append (rest : List Char) :
    (token.reverse ++ rest).head? = token.getLast? := by
  rw [List.head?_append_of_ne_nil _ (by simpa using htoken.ne_nil), List.head?_reverse]

/-- With the white space at its ends taken off a text in brackets begins and ends with
    these, or with the element where there are none. -/
theorem IsToken.trim_decorated (hopening : AllBrackets opening) (hclosing : AllBrackets closing)
    (hopen : opening = [] → inner = []) (hclose : closing = [] → inner' = []) :
    Text.trim (opening ++ (inner ++ token ++ inner') ++ closing)
      = opening ++ (inner ++ token ++ inner') ++ closing := by
  refine Text.trimBy_eq_self_iff.mpr ⟨?_, ?_⟩
  · have hhead : ∀ c ∈ (token ++ (inner' ++ closing)).head?, Text.isBlank c = false := by
      rw [htoken.head?_append]
      exact fun c hc => (htoken.head c hc).1
    simpa only [List.append_assoc] using not_isBlank_of_mem_head? hopening hopen hhead
  · have hlast : ∀ c ∈ (token.reverse ++ (inner.reverse ++ opening.reverse)).head?,
        Text.isBlank c = false := by
      rw [htoken.head?_reverse_append]
      exact fun c hc => (htoken.last c hc).1
    rw [← List.head?_reverse]
    simpa only [List.reverse_append, List.append_assoc] using
      not_isBlank_of_mem_head? hclosing.reverse (by simpa using hclose) hlast

include hinner hinner'

/-- White space keeps the brackets of an element from being taken off. -/
theorem IsToken.trimBy_isBracket_spaced :
    Text.trimBy isBracket (inner ++ token ++ inner') = inner ++ token ++ inner' := by
  refine Text.trimBy_eq_self_iff.mpr ⟨?_, ?_⟩
  · have hhead : ∀ c ∈ (token ++ inner').head?, isBracket c = false := by
      rw [htoken.head?_append]
      exact fun c hc => (htoken.head c hc).2
    simpa only [List.append_assoc] using not_isBracket_of_mem_head? hinner hhead
  · have hlast : ∀ c ∈ (token.reverse ++ inner.reverse).head?, isBracket c = false := by
      rw [htoken.head?_reverse_append]
      exact fun c hc => (htoken.last c hc).2
    rw [← List.head?_reverse]
    simpa only [List.reverse_append, List.append_assoc] using
      not_isBracket_of_mem_head? hinner'.reverse hlast

theorem IsToken.trim_spaced : Text.trim (inner ++ token ++ inner') = token :=
  Text.trimBy_append hinner hinner' (Text.trimBy_eq_self_iff.mpr
    ⟨fun c hc => (htoken.head c hc).1, fun c hc => (htoken.last c hc).1⟩)

end Token

/-- An element comes out of its decoration as it is. -/
theorem bareElement_of_decorates {token fragment : List Char} (htoken : IsToken token)
    (h : Decorates token fragment) : bareElement fragment = token := by
  obtain ⟨start, finish, hstart, hfinish, rfl⟩ := h
  obtain ⟨before, opening, inner, hbefore, hopening, hinner, hopen, rfl⟩ := hstart.exists_start
  obtain ⟨inner', closing, after, hinner', hclosing, hafter, hclose, rfl⟩ := hfinish.exists_finish
  have hfragment : before ++ opening ++ inner ++ token ++ (inner' ++ closing ++ after)
      = before ++ (opening ++ (inner ++ token ++ inner') ++ closing) ++ after := by simp
  have hblank : Text.trim (before ++ (opening ++ (inner ++ token ++ inner') ++ closing) ++ after)
      = opening ++ (inner ++ token ++ inner') ++ closing :=
    Text.trimBy_append hbefore hafter (htoken.trim_decorated hopening hclosing hopen hclose)
  have hbrackets : Text.trimBy isBracket (opening ++ (inner ++ token ++ inner') ++ closing)
      = inner ++ token ++ inner' :=
    Text.trimBy_append hopening hclosing (htoken.trimBy_isBracket_spaced hinner hinner')
  rw [bareElement, hfragment, hblank, hbrackets, htoken.trim_spaced hinner hinner']

/-! ## Whole texts -/

theorem IsEdge.comma_notMem {s : List Char} (h : IsEdge s) : ',' ∉ s := by
  obtain ⟨blank, brackets, blank', hblank, hbrackets, hblank', rfl⟩ := h
  simp only [List.mem_append, not_or]
  exact ⟨⟨fun hmem => absurd (hblank _ hmem) (by decide),
    fun hmem => absurd (hbrackets _ hmem) (by decide)⟩,
    fun hmem => absurd (hblank' _ hmem) (by decide)⟩

theorem IsHollow.comma_notMem {fragment : List Char} (h : IsHollow fragment) : ',' ∉ fragment := by
  obtain ⟨blank, brackets, blank', brackets', blank'', hblank, hbrackets, hblank', hbrackets',
    hblank'', rfl⟩ := h
  have hstart : IsEdge (blank ++ brackets ++ blank') :=
    ⟨blank, brackets, blank', hblank, hbrackets, hblank', rfl⟩
  have hfinish : IsEdge ([] ++ brackets' ++ blank'') :=
    ⟨[], brackets', blank'', List.forall_mem_nil _, hbrackets', hblank'', rfl⟩
  have happend := List.not_mem_append hstart.comma_notMem hfinish.comma_notMem
  simpa only [List.nil_append, List.append_assoc] using happend

theorem Decorates.comma_notMem {token fragment : List Char} (h : Decorates token fragment)
    (htoken : IsToken token) : ',' ∉ fragment := by
  obtain ⟨start, finish, hstart, hfinish, rfl⟩ := h
  exact List.not_mem_append (List.not_mem_append hstart.comma_notMem htoken.comma_notMem)
    hfinish.comma_notMem

theorem Carries.comma_notMem {fragments tokens : List (List Char)} (h : Carries fragments tokens) :
    ∀ fragment ∈ fragments, ',' ∉ fragment := by
  induction h with
  | nil => exact List.forall_mem_nil _
  | hollow h hrest ih => exact List.forall_mem_cons.mpr ⟨h.comma_notMem, ih⟩
  | token htoken h hrest ih => exact List.forall_mem_cons.mpr ⟨h.comma_notMem htoken, ih⟩

theorem Carries.ne_nil {fragments tokens : List (List Char)} (h : Carries fragments tokens)
    (hne : tokens ≠ []) : fragments ≠ [] := by
  rintro rfl
  cases h
  exact hne rfl

/-- What is left of the fragments are the elements that they carry. -/
theorem Carries.filter_map_bareElement {fragments tokens : List (List Char)}
    (h : Carries fragments tokens) :
    (fragments.map bareElement).filter (fun e => !e.isEmpty) = tokens := by
  induction h with
  | nil => rfl
  | hollow h hrest ih =>
    rw [List.map_cons, bareElement_of_isHollow h, List.filter_cons_of_neg (by simp), ih]
  | token htoken h hrest ih =>
    rw [List.map_cons, bareElement_of_decorates htoken h,
      List.filter_cons_of_pos (by simpa using htoken.ne_nil), ih]

theorem listElements_of_carries {fragments tokens : List (List Char)} (hne : tokens ≠ [])
    (h : Carries fragments tokens) :
    listElements (String.ofList ([','].intercalate fragments)) = tokens.map String.ofList := by
  rw [listElements, String.toList_ofList, Text.splitAt_intercalate (h.ne_nil hne) h.comma_notMem,
    h.filter_map_bareElement]

/-- A text has no elements only if all its fragments are hollow. -/
theorem listElements_eq_nil_iff {s : String} :
    listElements s = [] ↔ ∀ fragment ∈ Text.splitAt ',' s.toList, IsHollow fragment := by
  simp only [listElements, List.map_eq_nil_iff, List.filter_eq_nil_iff, List.forall_mem_map,
    Bool.not_eq_true', Bool.not_eq_false, List.isEmpty_iff, bareElement_eq_nil_iff]

/-! ## List types -/

variable {environment : Environment} {inner type : TypeDesc}

theorem sizeOf_le_of_mem_parts {part : TypeDesc} (h : part ∈ type.parts) :
    sizeOf part ≤ sizeOf type := by
  induction type with
  | optional inner ih =>
    rcases List.mem_cons.mp h with rfl | h
    · exact Nat.le_refl _
    · have hle := ih h
      simp only [optional.sizeOf_spec]
      omega
  | list inner ih =>
    rcases List.mem_cons.mp h with rfl | h
    · exact Nat.le_refl _
    · have hle := ih h
      simp only [list.sizeOf_spec]
      omega
  | union first second ihFirst ihSecond =>
    rcases List.mem_cons.mp h with rfl | h
    · exact Nat.le_refl _
    · simp only [union.sizeOf_spec]
      rcases List.mem_append.mp h with h | h
      · have hle := ihFirst h
        omega
      · have hle := ihSecond h
        omega
  | _ => rw [List.mem_singleton.mp h]

theorem list_notMem_parts (inner : TypeDesc) : list inner ∉ inner.parts := by
  intro hmem
  have hle := sizeOf_le_of_mem_parts hmem
  simp only [list.sizeOf_spec] at hle
  omega

/-- A list type itself finds a text malformed only if the text has no elements: what
    an element fails with names the inner type, or something inside of it. -/
theorem coerce_list_eq_malformed_iff {s : String} :
    (list inner).coerce environment (.string s) = .error (.malformed (list inner) s)
      ↔ listElements s = [] := by
  constructor
  · intro h
    rcases coerce_list_error_cases h with herror | ⟨s', hs', hnil, -⟩ | ⟨items, hitems, -⟩
      | ⟨s', -, element, -, helement⟩
    · cases herror
    · cases hs'
      exact hnil
    · cases hitems
    · obtain ⟨culprit, hmem, -, -, -, rfl, -⟩ := hasCulprit_of_coerce helement
      exact absurd hmem (list_notMem_parts inner)
  · intro hs
    rw [coerce_list_text, hs]

/-- A text that carries elements is coerced like the array of these as strings.  A
    text, cut at its commas, is malformed for a list type exactly if there is nothing
    but white space and brackets, in two runs at most, in every fragment. -/
theorem coerce_list_of_carries (inner : TypeDesc) (environment : Environment) :
    (∀ fragments tokens, tokens ≠ [] → Carries fragments tokens →
      (list inner).coerce environment (.string (String.ofList ([','].intercalate fragments)))
        = (list inner).coerce environment
            (.array (tokens.map fun token => .string (String.ofList token))))
      ∧ ∀ s : String, ∃ fragments, fragments ≠ [] ∧ (∀ fragment ∈ fragments, ',' ∉ fragment)
        ∧ [','].intercalate fragments = s.toList
        ∧ ((list inner).coerce environment (.string s) = .error (.malformed (list inner) s)
          ↔ ∀ fragment ∈ fragments, IsHollow fragment) := by
  refine ⟨fun fragments tokens hne h => ?_, fun s => ?_⟩
  · have helements := listElements_of_carries hne h
    rw [coerce_list_string (by simpa [helements] using hne), helements, List.map_map]
    rfl
  · obtain ⟨hne, hcommas, hjoined⟩ := Text.splitAt_eq_iff.mp (rfl : Text.splitAt ',' s.toList = _)
    exact ⟨_, hne, hcommas, hjoined,
      coerce_list_eq_malformed_iff.trans listElements_eq_nil_iff⟩

/-- Brackets inside of an element stay, and a fragment without one is passed over. -/
theorem coerce_list_of_carries_words :
    let fragments := [" [( a[0]=b ) ".toList, " ] ( ".toList, "c d)".toList]
    let tokens := ["a[0]=b".toList, "c d".toList]
    Carries fragments tokens
      ∧ (list string).coerce .empty (.string " [( a[0]=b ) , ] ( ,c d)")
        = (list string).coerce .empty (.array [.string "a[0]=b", .string "c d"])
      ∧ (list string).coerce .empty (.string " [( a[0]=b ) , ] ( ,c d)")
        = .ok (.array [.string "a[0]=b", .string "c d"]) := by
  intro fragments tokens
  have hfirst : IsToken "a[0]=b".toList := ⟨⟨by decide, by decide⟩, by decide, by decide⟩
  have hsecond : IsToken "c d".toList := ⟨⟨by decide, by decide⟩, by decide, by decide⟩
  have hcarries : Carries fragments tokens := by
    refine .token hfirst ⟨" [( ".toList, " ) ".toList, ?_, ?_, rfl⟩
      (.hollow ?_ (.token hsecond ⟨[], [')'], ?_, ?_, rfl⟩ .nil))
    · exact ⟨[' '], ['[', '('], [' '], by decide, by decide, by decide, rfl⟩
    · exact ⟨[' '], [')'], [' '], by decide, by decide, by decide, rfl⟩
    · exact ⟨[' '], [']'], [' '], ['('], [' '], by decide, by decide, by decide, by decide,
        by decide, rfl⟩
    · exact ⟨[], [], [], by decide, by decide, by decide, rfl⟩
    · exact ⟨[], [')'], [], by decide, by decide, by decide, rfl⟩
  have hcoerce : (list string).coerce .empty (.string " [( a[0]=b ) , ] ( ,c d)")
      = (list string).coerce .empty (.array [.string "a[0]=b", .string "c d"]) :=
    (coerce_list_of_carries string .empty).1 fragments tokens (by decide) hcarries
  exact ⟨hcarries, hcoerce, hcoerce.trans rfl⟩

/-- A fragment with a third run of brackets has an element, which is one of them. -/
example : (list string).coerce .empty (.string "( [ )") = .ok (.array [.string "["]) := rfl

end LayeredConfig.TypeDesc
