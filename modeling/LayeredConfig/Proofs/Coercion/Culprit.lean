/-
  LayeredConfig.Proofs.Coercion.Culprit

  Where a failed coercion comes from.

  On its way down a type, a coercion meets the parts of the type and the pieces of
  the value: the items of arrays and the elements of list texts.  Every error is
  the failure of such a part with such a piece, and it names the two
  (`coerce_error_culprit`).  Optional types and lists hand the errors of their
  inner type on; a union puts an error of its own in the place of two failed
  conversions, and is then itself the part that the error names.
-/
import LayeredConfig.Proofs.Coercion.Steps

namespace LayeredConfig

/-- What a coercion may come upon in a value: the value itself, what it may come
    upon in an item of an array, and in an element of a list text. -/
inductive Value.IsPieceOf (piece : Value) : Value → Prop where
  | self : IsPieceOf piece piece
  | item {items : List Value} {item : Value} (hmem : item ∈ items) (h : IsPieceOf piece item) :
    IsPieceOf piece (.array items)
  | element {s element : String} (hmem : element ∈ TypeDesc.listElements s)
    (h : IsPieceOf piece (.string element)) : IsPieceOf piece (.string s)

/-- An error names a type and a value as those that it comes from.  Only a list
    type finds a text malformed, and only if the text has no elements; only a type
    of expressions runs one. -/
def CoercionError.Blames : CoercionError → TypeDesc → Value → Prop
  | .conversion named value _, culprit, piece => named = culprit ∧ value = piece
  | .malformed named input, culprit, piece =>
    named = culprit ∧ (∃ inner, culprit = .list inner)
      ∧ piece = .string input ∧ TypeDesc.listElements input = []
  | .expression source _, culprit, piece =>
    (∃ withEnv, culprit = .expression withEnv) ∧ piece = .string source

namespace TypeDesc

variable {environment : Environment} {type inner : TypeDesc} {raw item : Value}
  {e : CoercionError}

/-- A part of the type fails with the error on a piece of the value, and the error
    names these two. -/
def HasCulprit (environment : Environment) (type : TypeDesc) (raw : Value) (e : CoercionError) :
    Prop :=
  ∃ culprit ∈ type.parts, ∃ piece : Value, piece.IsPieceOf raw
    ∧ culprit.coerce environment piece = .error e ∧ e.Blames culprit piece

theorem HasCulprit.of_blames (h : type.coerce environment raw = .error e)
    (hblames : e.Blames type raw) : HasCulprit environment type raw e :=
  ⟨type, self_mem_parts type, raw, .self, h, hblames⟩

theorem HasCulprit.mono (h : HasCulprit environment inner item e)
    (hparts : inner.parts ⊆ type.parts)
    (hpieces : ∀ piece : Value, piece.IsPieceOf item → piece.IsPieceOf raw) :
    HasCulprit environment type raw e := by
  obtain ⟨culprit, hculprit, piece, hpiece, herror⟩ := h
  exact ⟨culprit, hparts hculprit, piece, hpieces piece hpiece, herror⟩

/-- The culprit is found by going down the type: where the error was handed on, it
    is in the part that it came from. -/
theorem hasCulprit_of_coerce (h : type.coerce environment raw = .error e) :
    HasCulprit environment type raw e := by
  -- on the value, too, since a list goes on with its items and elements
  induction type generalizing raw with
  | int =>
    obtain ⟨reason, rfl⟩ := exists_of_coerceInt_eq_error h
    exact .of_blames h ⟨rfl, rfl⟩
  | float =>
    obtain ⟨reason, rfl⟩ := exists_of_coerceFloat_eq_error h
    exact .of_blames h ⟨rfl, rfl⟩
  | string => exact nomatch (h : Except.ok _ = Except.error e)
  | bool =>
    obtain ⟨reason, rfl⟩ := exists_of_coerceBool_eq_error h
    exact .of_blames h ⟨rfl, rfl⟩
  | optional inner ih =>
    exact (ih (coerce_of_coerce_optional_eq_error h)).mono (List.subset_cons_self _ _)
      fun _ hpiece => hpiece
  | list inner ih =>
    have hparts : inner.parts ⊆ (list inner).parts := List.subset_cons_self _ _
    rcases coerce_list_error_cases h with rfl | ⟨s, rfl, hs, rfl⟩ | ⟨items, rfl, item, hmem, hitem⟩
      | ⟨s, rfl, element, hmem, helement⟩
    · exact .of_blames h ⟨rfl, rfl⟩
    · exact .of_blames h ⟨rfl, ⟨inner, rfl⟩, rfl, hs⟩
    · exact (ih hitem).mono hparts fun _ hpiece => .item hmem hpiece
    · exact (ih helement).mono hparts fun _ hpiece => .element hmem hpiece
  | union first second ihFirst ihSecond =>
    have hparts : first.parts ++ second.parts ⊆ (union first second).parts :=
      List.subset_cons_self _ _
    rcases coerce_union_error_cases h with rfl | hfirst | hsecond
    · exact .of_blames h ⟨rfl, rfl⟩
    · exact (ihFirst hfirst).mono (List.Subset.trans (List.subset_append_left _ _) hparts)
        fun _ hpiece => hpiece
    · exact (ihSecond hsecond).mono (List.Subset.trans (List.subset_append_right _ _) hparts)
        fun _ hpiece => hpiece
  | expression withEnv =>
    obtain ⟨source, reason, rfl, rfl⟩ := exists_of_coerce_expression_eq_error h
    exact .of_blames h ⟨⟨withEnv, rfl⟩, rfl⟩

/-- Every error of a coercion is the failure of a part of the type with a piece of
    the value, which it names.  So a text can only be malformed for a type with a
    list in it, and only a type with expressions fails in one. -/
theorem coerce_error_culprit (h : type.coerce environment raw = .error e) :
    HasCulprit environment type raw e
      ∧ ((∀ inner, list inner ∉ type.parts) → ∀ named input, e ≠ .malformed named input)
      ∧ (type.expressionFree = true → ∀ source reason, e ≠ .expression source reason) := by
  obtain ⟨culprit, hmem, piece, -, -, hblames⟩ := hasCulprit_of_coerce h
  refine ⟨hasCulprit_of_coerce h, fun hlists => ?_, fun htype => ?_⟩
  · rintro named input rfl
    obtain ⟨-, ⟨inner, rfl⟩, -⟩ := hblames
    exact hlists inner hmem
  · rintro source reason rfl
    obtain ⟨⟨withEnv, rfl⟩, -⟩ := hblames
    exact expressionFree_iff.mp htype withEnv hmem

/-- The second row of a table of numbers is empty. -/
theorem coerce_error_culprit_rows :
    let type := optional (list (list int))
    let raw := Value.array [.string "1, 2", .string "( )"]
    type.coerce .empty raw = .error (.malformed (list int) "( )")
      ∧ HasCulprit .empty type raw (.malformed (list int) "( )") := by
  intro type raw
  have h : type.coerce .empty raw = .error (.malformed (list int) "( )") := rfl
  exact ⟨h, (coerce_error_culprit h).1⟩

end TypeDesc

end LayeredConfig
