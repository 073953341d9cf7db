/-
  LayeredConfig.TypeDesc.Grammar

  From names to types.

  A type name is resolved by a table of rules.  A rule looks at the outermost
  form of a trimmed name only: it either declines the name or recognises a
  form, whose inner names are resolved in turn.  A name with unbalanced
  brackets, or a union without exactly two parts, is declined; an inner name
  that no rule recognises makes the whole name fail, and is what the failure
  reports.
-/
import LayeredConfig.TypeDesc
import LayeredConfig.Text.Split

namespace LayeredConfig.TypeDesc

open LayeredConfig.Text

/-! ## Brackets -/

/-- The depth of brackets behind a text that starts at `depth`, or nothing if a
    bracket closes that was never opened. -/
def depthAfter (depth : Nat) : List Char → Option Nat
  | [] => some depth
  | c :: s =>
    if c = '[' then depthAfter (depth + 1) s
    else if c = ']' then
      match depth with
      | 0 => none
      | depth + 1 => depthAfter depth s
    else depthAfter depth s

/-- Whether as many brackets close as open, and none before it was opened. -/
def balanced (s : List Char) : Bool :=
  depthAfter 0 s == some 0

/-- The text between the brackets behind the word `constructor`, if `name` is
    that word, optional white space and a bracketed balanced text. -/
def bracketed? (constructor name : List Char) : Option (List Char) := do
  let rest ← stripStart? constructor name
  let rest ← stripStart? ['['] (trimStart rest)
  let inner ← stripEnd? [']'] rest
  if balanced inner then some inner else none

/-- The text up to the first comma outside brackets, and the text behind it.
    A bracket that closes without having been opened is passed over. -/
def splitComma? (depth : Nat) : List Char → Option (List Char × List Char)
  | [] => none
  | c :: s =>
    if c = ',' ∧ depth = 0 then some ([], s)
    else
      let depth := if c = '[' then depth + 1 else if c = ']' then depth - 1 else depth
      (splitComma? depth s).map fun (before, after) => (c :: before, after)

/-- The two trimmed parts around the only comma outside brackets. -/
def splitPair? (s : List Char) : Option (List Char × List Char) :=
  match splitComma? 0 s with
  | none => none
  | some (before, after) =>
    match splitComma? 0 after with
    -- a second comma makes three parts
    | some _ => none
    | none => some (trim before, trim after)

/-! ## Rules -/

/-- The outermost form of a name. -/
inductive Form where
  /-- A name without inner names. -/
  | leaf (type : TypeDesc)
  /-- `Optional` of an inner name. -/
  | optional (inner : List Char)
  /-- `List` of an inner name. -/
  | list (inner : List Char)
  /-- `Union` of two inner names. -/
  | union (first second : List Char)
  deriving DecidableEq

/-- The rules by which names are recognised. -/
inductive Rule where
  | scalar
  | optional
  | list
  | union
  | envExpression
  | expression
  deriving DecidableEq

/-- The scalar types and the words that their names begin with. -/
def scalars : List (List Char × TypeDesc) :=
  [("Int".toList, .int), ("Float".toList, .float), ("String".toList, .string),
   ("Bool".toList, .bool)]

/-- The form that a rule recognises in a name, or nothing if it declines the
    name.  A scalar is recognised by the beginning of its name, whatever
    follows. -/
def Rule.form? (name : List Char) : Rule → Option Form
  | .scalar => (scalars.find? fun (word, _) => word.isPrefixOf name).map fun (_, t) => .leaf t
  | .optional => (bracketed? "Optional".toList name).map .optional
  | .list => (bracketed? "List".toList name).map .list
  | .union => do
    let inner ← bracketed? "Union".toList name
    let (first, second) ← splitPair? inner
    some (.union first second)
  | .envExpression =>
    if name = "EnvExpression".toList then some (.leaf (.expression true)) else none
  | .expression =>
    if name = "Expression".toList then some (.leaf (.expression false)) else none

/-- The table of rules in the order in which they are tried. -/
def rules : List Rule :=
  [.scalar, .optional, .list, .union, .envExpression, .expression]

/-! ## Inner names are shorter -/

theorem length_of_stripStart? {start s rest : List Char} (h : stripStart? start s = some rest) :
    s.length = start.length + rest.length := by
  rw [stripStart?_eq_some_iff] at h
  simp [h]

theorem length_of_bracketed? {constructor name inner : List Char}
    (h : bracketed? constructor name = some inner) : inner.length + 2 ≤ name.length := by
  simp only [bracketed?, Option.bind_eq_bind, Option.bind_eq_some_iff] at h
  obtain ⟨rest₁, h₁, rest₂, h₂, rest₃, h₃, h₄⟩ := h
  split at h₄
  · cases h₄
    have e₁ := length_of_stripStart? h₁
    have e₂ := length_of_stripStart? h₂
    have e₃ := stripEnd?_eq_some_iff.mp h₃
    have e₄ := length_trimStart_le rest₁
    simp only [e₃, List.length_append, List.length_cons, List.length_nil] at e₂
    omega
  · cases h₄

theorem splitComma?_eq {depth : Nat} {s before after : List Char}
    (h : splitComma? depth s = some (before, after)) : s = before ++ ',' :: after := by
  induction s generalizing depth before with
  | nil => simp [splitComma?] at h
  | cons c s ih =>
    simp only [splitComma?] at h
    split at h
    · rename_i hc
      cases h
      simp [hc.1]
    · simp only [Option.map_eq_some_iff] at h
      obtain ⟨⟨b, a⟩, hs, heq⟩ := h
      cases heq
      rw [ih hs]
      rfl

theorem length_of_splitPair? {s first second : List Char}
    (h : splitPair? s = some (first, second)) :
    first.length + second.length < s.length := by
  simp only [splitPair?] at h
  split at h
  · cases h
  · rename_i before after hs
    split at h
    · cases h
    · cases h
      have e := congrArg List.length (splitComma?_eq hs)
      have e₁ := length_trim_le before
      have e₂ := length_trim_le after
      simp at e
      omega

/-- The inner names of a form. -/
def Form.inner : Form → List (List Char)
  | .leaf _ => []
  | .optional x | .list x => [x]
  | .union x y => [x, y]

/-- What a rule finds inside a name is shorter than the name. -/
theorem Rule.inner_length_lt {rule : Rule} {name : List Char} {form : Form}
    (h : rule.form? name = some form) {x : List Char} (hx : x ∈ form.inner) :
    x.length < name.length := by
  cases rule with
  | scalar =>
    simp only [Rule.form?, Option.map_eq_some_iff] at h
    obtain ⟨_, _, rfl⟩ := h
    simp [Form.inner] at hx
  | optional =>
    simp only [Rule.form?, Option.map_eq_some_iff] at h
    obtain ⟨y, hy, rfl⟩ := h
    simp only [Form.inner, List.mem_singleton] at hx
    have := length_of_bracketed? hy
    subst hx
    omega
  | list =>
    simp only [Rule.form?, Option.map_eq_some_iff] at h
    obtain ⟨y, hy, rfl⟩ := h
    simp only [Form.inner, List.mem_singleton] at hx
    have := length_of_bracketed? hy
    subst hx
    omega
  | union =>
    simp only [Rule.form?, Option.bind_eq_bind, Option.bind_eq_some_iff] at h
    obtain ⟨y, hy, ⟨a, b⟩, hab, heq⟩ := h
    cases heq
    have e₁ := length_of_bracketed? hy
    have e₂ := length_of_splitPair? hab
    simp only [Form.inner, List.mem_cons, List.not_mem_nil, or_false] at hx
    rcases hx with rfl | rfl <;> omega
  | envExpression =>
    simp only [Rule.form?] at h
    split at h
    · cases h
      simp [Form.inner] at hx
    · cases h
  | expression =>
    simp only [Rule.form?] at h
    split at h
    · cases h
      simp [Form.inner] at hx
    · cases h

/-- The form that the first rule of a table recognises. -/
def formBy? (table : List Rule) (name : List Char) : Option Form :=
  table.findSome? (Rule.form? name)

theorem formBy?_inner_length_lt {table : List Rule} {name : List Char} {form : Form}
    (h : formBy? table name = some form) {x : List Char} (hx : x ∈ form.inner) :
    x.length < name.length := by
  obtain ⟨rule, _, hrule⟩ := List.exists_of_findSome?_eq_some h
  exact Rule.inner_length_lt hrule hx

/-! ## Resolution -/

/-- Resolves a name by a table of rules.  A failure is the trimmed name that no
    rule recognised; of two inner names the first fails first. -/
def resolveBy (table : List Rule) (name : List Char) : Except (List Char) TypeDesc :=
  match _form : formBy? table (trim name) with
  | none => .error (trim name)
  | some (.leaf t) => .ok t
  | some (.optional x) => do
    let t ← resolveBy table x
    return .optional t
  | some (.list x) => do
    let t ← resolveBy table x
    return .list t
  | some (.union x y) => do
    let t ← resolveBy table x
    let u ← resolveBy table y
    return .union t u
termination_by name.length
decreasing_by
  all_goals
    refine Nat.lt_of_lt_of_le (formBy?_inner_length_lt _form ?_) (length_trim_le name)
    simp [Form.inner]

/-- The type that a form denotes, its inner names being resolved by the table
    of all rules. -/
def Form.type : Form → Except (List Char) TypeDesc
  | .leaf t => .ok t
  | .optional x => return .optional (← resolveBy rules x)
  | .list x => return .list (← resolveBy rules x)
  | .union x y => return .union (← resolveBy rules x) (← resolveBy rules y)

/-- What one rule alone makes of a name as it stands: nothing if it declines. -/
def Rule.apply (rule : Rule) (name : String) : Except String (Option TypeDesc) :=
  match rule.form? name.toList with
  | none => .ok none
  | some form => (form.type.map some).mapError String.ofList

/-- The type with a given name, or the part of the name that no rule
    recognises. -/
def ofName (name : String) : Except String TypeDesc :=
  (resolveBy rules name.toList).mapError String.ofList

end LayeredConfig.TypeDesc
