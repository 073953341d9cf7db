/-
  LayeredConfig.Proofs.TypeName.RoundTrip

  Canonical names and the types that they denote.

  The canonical name of a type is a part of its own wherever it stands inside of
  another name: it is trimmed, its brackets are balanced, and it has no comma
  outside of them (`isUnionPart_nameChars`).  So every name is taken apart where
  it was put together, and denotes the type that it was made from
  (`denotes_nameChars`).
-/
import LayeredConfig.Proofs.TypeName.Denotation

namespace LayeredConfig.TypeDesc

open LayeredConfig.Text

/-! ## Words in front of brackets -/

/-- A text without white space, brackets and commas. -/
def IsWord (word : List Char) : Prop :=
  ∀ c ∈ word, isBlank c = false ∧ c ≠ '[' ∧ c ≠ ']' ∧ c ≠ ','

instance (word : List Char) : Decidable (IsWord word) :=
  List.decidableBAll _ word

theorem IsWord.balanced {word : List Char} (h : IsWord word) : Balanced word :=
  Balanced.of_notMem (fun hmem => (h _ hmem).2.1 rfl) fun hmem => (h _ hmem).2.2.1 rfl

theorem IsWord.isUnionPart {word : List Char} (h : IsWord word) : IsUnionPart word := by
  refine ⟨h.balanced, ?_⟩
  rintro ⟨before, after, rfl, -⟩
  exact (h ',' (by simp)).2.2.2 rfl

/-- Behind a bracket that closes at the end of the text every comma is inside. -/
theorem not_hasCommaAt_one {inner : List Char} (h : Balanced inner) :
    ¬HasCommaAt 1 (inner ++ [']']) := by
  rintro ⟨before, after, heq, hcount⟩
  have hprefix : before <+: inner ++ [']'] := heq ▸ List.prefix_append before _
  rcases List.prefix_concat_iff.mp hprefix with rfl | hinner
  · simp at heq
  · have hle := h.closes_le before hinner
    omega

/-- A comma behind the word of a name and its opening bracket is not outside. -/
theorem IsWord.not_hasOuterComma {word inner : List Char} (h : IsWord word)
    (hinner : Balanced inner) : ¬HasOuterComma (word ++ '[' :: (inner ++ [']'])) := by
  rw [← hasCommaAt_zero]
  induction word with
  | nil =>
    rw [List.nil_append, hasCommaAt_cons (by decide) (by decide)]
    exact not_hasCommaAt_one hinner
  | cons c word ih =>
    obtain ⟨⟨-, hopen, hclose, hcomma⟩, hword⟩ := List.forall_mem_cons.mp h
    have hdepth : depthBehind 0 c = 0 := by simp [depthBehind, hopen]
    rw [List.cons_append, hasCommaAt_cons (fun hc => absurd hc hclose) (by simp [hcomma]), hdepth]
    exact ih hword

theorem IsWord.isUnionPart_enclosing {word inner : List Char} (h : IsWord word)
    (hinner : Balanced inner) : IsUnionPart (word ++ '[' :: (inner ++ [']'])) :=
  ⟨h.balanced.append hinner.bracket, h.not_hasOuterComma hinner⟩

theorem IsWord.trim_enclosing {word : List Char} (h : IsWord word) (inner : List Char) :
    trim (word ++ '[' :: (inner ++ [']'])) = word ++ '[' :: (inner ++ [']']) := by
  refine trimBy_eq_self_iff.mpr ⟨fun c hc => ?_, fun c hc => ?_⟩
  · cases word with
    | nil =>
      obtain rfl : '[' = c := by simpa using hc
      decide
    | cons d word =>
      obtain rfl : d = c := by simpa using hc
      exact (h d List.mem_cons_self).1
  · obtain rfl : ']' = c := by
      rw [← List.cons_append, ← List.append_assoc, List.getLast?_concat] at hc
      exact Option.some.inj hc
    decide

/-- A word right in front of brackets encloses what is inside of them. -/
theorem IsWord.encloses {word : List Char} (h : IsWord word) (inner : List Char) :
    Encloses word inner (trim (word ++ '[' :: (inner ++ [']']))) := by
  rw [h.trim_enclosing]
  exact ⟨[], by simp, rfl⟩

/-! ## Canonical names -/

/-- What stands in brackets behind a word, where a separator is in between. -/
theorem bracketed_pair_assoc (word first second last : List Char) (opener separator : Char) :
    word ++ opener :: first ++ separator :: second ++ last
      = word ++ opener :: ((first ++ separator :: second) ++ last) := by
  simp

theorem nameChars_optional (t : TypeDesc) : (optional t).nameChars
    = "Optional".toList ++ '[' :: (t.nameChars ++ [']']) :=
  List.append_assoc "Optional".toList _ _

theorem nameChars_list (t : TypeDesc) : (list t).nameChars
    = "List".toList ++ '[' :: (t.nameChars ++ [']']) :=
  List.append_assoc "List".toList _ _

theorem nameChars_union (t u : TypeDesc) : (union t u).nameChars
    = "Union".toList ++ '[' :: ((t.nameChars ++ ',' :: u.nameChars) ++ [']']) :=
  bracketed_pair_assoc "Union".toList _ _ _ _ _

/-- A canonical name is a part of its own inside of another name. -/
theorem isUnionPart_nameChars (t : TypeDesc) : IsUnionPart t.nameChars := by
  induction t with
  | int => exact (by decide : IsWord "Int".toList).isUnionPart
  | float => exact (by decide : IsWord "Float".toList).isUnionPart
  | string => exact (by decide : IsWord "String".toList).isUnionPart
  | bool => exact (by decide : IsWord "Bool".toList).isUnionPart
  | optional inner ih =>
    rw [nameChars_optional]
    exact (by decide : IsWord "Optional".toList).isUnionPart_enclosing ih.balanced
  | list inner ih =>
    rw [nameChars_list]
    exact (by decide : IsWord "List".toList).isUnionPart_enclosing ih.balanced
  | union first second ihFirst ihSecond =>
    rw [nameChars_union]
    exact (by decide : IsWord "Union".toList).isUnionPart_enclosing
      (ihFirst.balanced_comma ihSecond)
  | expression withEnv =>
    cases withEnv with
    | true => exact (by decide : IsWord "EnvExpression".toList).isUnionPart
    | false => exact (by decide : IsWord "Expression".toList).isUnionPart

/-- A canonical name denotes the type that it is the name of. -/
theorem denotes_nameChars (t : TypeDesc) : Denotes t.nameChars t := by
  induction t with
  | int => exact .int (by decide)
  | float => exact .float (by decide)
  | string => exact .string (by decide)
  | bool => exact .bool (by decide)
  | optional inner ih =>
    have hname := (by decide : IsWord "Optional".toList).encloses inner.nameChars
    rw [← nameChars_optional] at hname
    exact .optional hname (isUnionPart_nameChars inner).balanced ih
  | list inner ih =>
    have hname := (by decide : IsWord "List".toList).encloses inner.nameChars
    rw [← nameChars_list] at hname
    exact .list hname (isUnionPart_nameChars inner).balanced ih
  | union first second ihFirst ihSecond =>
    have hname := (by decide : IsWord "Union".toList).encloses
      (first.nameChars ++ ',' :: second.nameChars)
    rw [← nameChars_union] at hname
    exact .union hname (isUnionPart_nameChars first) (isUnionPart_nameChars second) ihFirst
      ihSecond
  | expression withEnv =>
    cases withEnv with
    | true => exact .envExpression (by decide)
    | false => exact .expression (by decide)

theorem ofName_of_name (t : TypeDesc) : ofName t.name = .ok t := by
  rw [ofName, mapError_eq_ok_iff, name, String.toList_ofList]
  exact resolveBy_of_denotes (denotes_nameChars t)

/-- Every type is what its canonical name resolves to; so types with one name are
    the same, and a name that resolves and the canonical name of its type
    resolve to the same. -/
theorem ofName_name :
    (∀ t : TypeDesc, ofName t.name = .ok t)
      ∧ (∀ t u : TypeDesc, t.name = u.name ↔ t = u)
      ∧ ∀ s, (ofName s >>= fun t => ofName t.name) = ofName s := by
  refine ⟨ofName_of_name, fun t u => ⟨fun h => ?_, congrArg name⟩, fun s => ?_⟩
  · have heq : Except.ok t = Except.ok u :=
      calc Except.ok t = ofName t.name := (ofName_of_name t).symm
        _ = ofName u.name := by rw [h]
        _ = Except.ok u := ofName_of_name u
    exact Except.ok.inj heq
  · cases ofName s with
    | ok t => exact ofName_of_name t
    | error part => rfl

end LayeredConfig.TypeDesc
