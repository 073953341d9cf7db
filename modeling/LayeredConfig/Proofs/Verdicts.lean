/-
  LayeredConfig.Proofs.Verdicts

  What guards say about a value, and what comes of it.

  A guard says that a value passes, that it does not, or that it cannot tell
  (`Guard.Judges`).  A raw value is coerced first, and the guards only ever see what
  came of that: they are asked in their order, and the first one that does not say
  that the value passes decides the error (`Setting.fault?_eq_some_iff`).  So
  neither the guards behind that one nor the way in which the coerced value was
  written have a part in the outcome (`Setting.validate_outcome`).
-/
import LayeredConfig.Proofs.Diagnosis

namespace LayeredConfig

variable {environment : Environment} {v : Value} {e : ConfigError}

/-! ## Single guards -/

/-- What a guard says about a value: the answer of its predicate, or whether the
    first output of its expression counts as true.  No output, no value and `false`
    do not. -/
inductive Guard.Judges (environment : Environment) (v : Value) :
    Guard → Except CoercionError Bool → Prop where
  | native (message name : String) (predicate : Value → Bool) :
    Judges environment v ⟨message, .native name predicate⟩ (.ok (predicate v))
  | truth {message source : String} {output : Value}
    (h : environment.firstOutput [] (Expression.binding "x" source) v = .ok (some output))
    (hnull : output ≠ .null) (hfalse : output ≠ .bool false) :
    Judges environment v ⟨message, .expression source⟩ (.ok true)
  | silence {message source : String}
    (h : environment.firstOutput [] (Expression.binding "x" source) v = .ok none) :
    Judges environment v ⟨message, .expression source⟩ (.ok false)
  | falsehood {message source : String} {output : Value}
    (h : environment.firstOutput [] (Expression.binding "x" source) v = .ok (some output))
    (hfalse : output = .null ∨ output = .bool false) :
    Judges environment v ⟨message, .expression source⟩ (.ok false)
  | failure {message source reason : String}
    (h : environment.firstOutput [] (Expression.binding "x" source) v = .error reason) :
    Judges environment v ⟨message, .expression source⟩
      (.error (.expression source (.engine reason)))

namespace Guard

variable {guard : Guard} {verdict : Except CoercionError Bool}

theorem passes_of_judges (h : guard.Judges environment v verdict) :
    guard.passes environment v = verdict := by
  cases h with
  | native message name predicate => rfl
  | truth h hnull hfalse => simp only [passes, Expression.passes, h, mapError_ok]
  | silence h => simp only [passes, Expression.passes, h, mapError_ok]
  | falsehood h hfalse =>
    rcases hfalse with rfl | rfl <;> simp only [passes, Expression.passes, h, mapError_ok]
  | failure h =>
    simp only [passes, Expression.passes, h]
    rfl

/-- Every guard says something about every value. -/
theorem exists_judges (environment : Environment) (v : Value) (guard : Guard) :
    ∃ verdict, guard.Judges environment v verdict := by
  obtain ⟨message, check⟩ := guard
  cases check with
  | native name predicate => exact ⟨_, .native message name predicate⟩
  | expression source =>
    cases h : environment.firstOutput [] (Expression.binding "x" source) v with
    | error reason => exact ⟨_, .failure h⟩
    | ok output? =>
      cases output? with
      | none => exact ⟨_, .silence h⟩
      | some output =>
        by_cases hfalse : output = .null ∨ output = .bool false
        · exact ⟨_, .falsehood h hfalse⟩
        · rw [not_or] at hfalse
          exact ⟨_, .truth h hfalse.1 hfalse.2⟩

/-- A guard says one thing about a value, which is what comes of asking it. -/
theorem judges_iff : guard.Judges environment v verdict ↔ guard.passes environment v = verdict := by
  refine ⟨passes_of_judges, ?_⟩
  rintro rfl
  obtain ⟨other, hother⟩ := exists_judges environment v guard
  rwa [passes_of_judges hother]

theorem fault?_eq_none_iff {address : Address} :
    guard.fault? environment address v = none ↔ guard.Judges environment v (.ok true) := by
  rw [judges_iff, fault?]
  cases guard.passes environment v with
  | error cause => simp
  | ok passed => cases passed <;> simp

theorem fault?_eq_some_iff {address : Address} :
    guard.fault? environment address v = some e ↔
      guard.Judges environment v (.ok false)
          ∧ e = .guardViolation address.key address.sectionName guard.message v
        ∨ ∃ cause, guard.Judges environment v (.error cause)
          ∧ e = .guardError address.key guard.message cause := by
  simp only [judges_iff, fault?]
  cases guard.passes environment v with
  | error cause => simp [eq_comm]
  | ok passed => cases passed <;> simp [eq_comm]

/-- The first guard that does not say that the value passes is the one with a
    fault. -/
theorem findSome?_fault?_eq_some_iff {address : Address} {guards : List Guard} :
    guards.findSome? (fault? environment address v) = some e ↔
      ∃ before guard after, guards = before ++ guard :: after
        ∧ (∀ earlier ∈ before, earlier.Judges environment v (.ok true))
        ∧ (guard.Judges environment v (.ok false)
            ∧ e = .guardViolation address.key address.sectionName guard.message v
          ∨ ∃ cause, guard.Judges environment v (.error cause)
            ∧ e = .guardError address.key guard.message cause) := by
  simp only [List.findSome?_eq_some_iff, fault?_eq_none_iff, fault?_eq_some_iff]
  constructor
  · rintro ⟨before, guard, after, hguards, hfault, hbefore⟩
    exact ⟨before, guard, after, hguards, hbefore, hfault⟩
  · rintro ⟨before, guard, after, hguards, hbefore, hfault⟩
    exact ⟨before, guard, after, hguards, hfault, hbefore⟩

/-- Up to a guard that does not say that the value passes there is a fault, and it is
    the same whatever guards come behind that one. -/
theorem exists_findSome?_fault? (address : Address) (before : List Guard)
    (h : ¬guard.Judges environment v (.ok true)) :
    ∃ e, ∀ after, (before ++ guard :: after).findSome? (fault? environment address v) = some e := by
  obtain ⟨fault, hfault⟩ : ∃ fault, guard.fault? environment address v = some fault := by
    rwa [← Option.ne_none_iff_exists', ne_eq, fault?_eq_none_iff]
  simp only [List.findSome?_append, List.findSome?_cons, hfault]
  cases before.findSome? (fault? environment address v) with
  | none => exact ⟨fault, fun _ => rfl⟩
  | some earlier => exact ⟨earlier, fun _ => rfl⟩

end Guard

/-! ## Settings -/

namespace Setting

variable {setting : Setting} {raw : Value}

/-- With other guards a setting stays what it is otherwise. -/
def guardedBy (setting : Setting) (guards : List Guard) : Setting :=
  { setting with guards := guards }

theorem validate_eq_error_iff :
    setting.validate environment raw = .error e ↔
      setting.fault? environment ⟨none, setting.name⟩ raw = some e := by
  rw [← reported_eq_some_iff, reported_validate]

theorem fault?_of_coerce_error {address : Address} {cause : CoercionError}
    (h : setting.type.coerce environment raw = .error cause) :
    setting.fault? environment address raw
      = some (.invalidValue address.key address.sectionName cause) := by
  rw [fault?, h]

theorem fault?_of_coerce {address : Address} (h : setting.type.coerce environment raw = .ok v) :
    setting.fault? environment address raw
      = setting.guards.findSome? (Guard.fault? environment address v) := by
  rw [fault?, h]

/-- The fault of a raw value is that it is not coerced, or the first guard that does
    not say that the coerced value passes. -/
theorem fault?_eq_some_iff {address : Address} :
    setting.fault? environment address raw = some e ↔
      (∃ cause, setting.type.coerce environment raw = .error cause
        ∧ e = .invalidValue address.key address.sectionName cause)
      ∨ ∃ v before guard after, setting.type.coerce environment raw = .ok v
        ∧ setting.guards = before ++ guard :: after
        ∧ (∀ earlier ∈ before, earlier.Judges environment v (.ok true))
        ∧ (guard.Judges environment v (.ok false)
            ∧ e = .guardViolation address.key address.sectionName guard.message v
          ∨ ∃ cause, guard.Judges environment v (.error cause)
            ∧ e = .guardError address.key guard.message cause) := by
  cases hcoerce : setting.type.coerce environment raw with
  | error cause => simp [fault?_of_coerce_error hcoerce, eq_comm]
  | ok v => simp [fault?_of_coerce hcoerce, Guard.findSome?_fault?_eq_some_iff]

/-- Behind a guard that does not say that the coerced value passes, other guards make
    no difference. -/
theorem validate_guardedBy {before after later : List Guard} {guard : Guard}
    (hcoerce : setting.type.coerce environment raw = .ok v)
    (hguards : setting.guards = before ++ guard :: after)
    (h : ¬guard.Judges environment v (.ok true)) :
    (setting.guardedBy (before ++ guard :: later)).validate environment raw
      = setting.validate environment raw := by
  have hother :
      (setting.guardedBy (before ++ guard :: later)).type.coerce environment raw = .ok v :=
    hcoerce
  obtain ⟨e, he⟩ := Guard.exists_findSome?_fault? ⟨none, setting.name⟩ before h
  have hthis : setting.validate environment raw = .error e := by
    rw [validate_eq_error_iff, fault?_of_coerce hcoerce, hguards]
    exact he after
  have hthat : (setting.guardedBy (before ++ guard :: later)).validate environment raw
      = .error e := by
    rw [validate_eq_error_iff, fault?_of_coerce hother]
    exact he later
  rw [hthis, hthat]

/-- What comes of a raw value.  It is held exactly if it can be coerced and every
    guard says that the coerced value passes, and then the coerced value is what is
    held.  A value that cannot be coerced is reported with that failure, whatever the
    guards are; otherwise the first guard that does not say that the coerced value
    passes is reported, whatever guards come behind it.  Raw values that are coerced
    to the same have the same outcome. -/
theorem validate_outcome (environment : Environment) (setting : Setting) (raw : Value) :
    (∀ held, setting.validate environment raw = .ok held ↔
        ∃ v, setting.type.coerce environment raw = .ok v
          ∧ (∀ guard ∈ setting.guards, guard.Judges environment v (.ok true))
          ∧ held = ⟨setting.name, setting.type, v⟩)
      ∧ (∀ e, setting.validate environment raw = .error e ↔
        (∃ cause, setting.type.coerce environment raw = .error cause
          ∧ e = .invalidValue setting.name none cause)
        ∨ ∃ v before guard after, setting.type.coerce environment raw = .ok v
          ∧ setting.guards = before ++ guard :: after
          ∧ (∀ earlier ∈ before, earlier.Judges environment v (.ok true))
          ∧ (guard.Judges environment v (.ok false)
              ∧ e = .guardViolation setting.name none guard.message v
            ∨ ∃ cause, guard.Judges environment v (.error cause)
              ∧ e = .guardError setting.name guard.message cause))
      ∧ (∀ cause, setting.type.coerce environment raw = .error cause →
        ∀ guards, (setting.guardedBy guards).validate environment raw
          = .error (.invalidValue setting.name none cause))
      ∧ (∀ v before guard after, setting.type.coerce environment raw = .ok v →
        setting.guards = before ++ guard :: after → ¬guard.Judges environment v (.ok true) →
        ∀ later, (setting.guardedBy (before ++ guard :: later)).validate environment raw
          = setting.validate environment raw)
      ∧ ∀ other v, setting.type.coerce environment raw = .ok v →
        setting.type.coerce environment other = .ok v →
        setting.validate environment other = setting.validate environment raw := by
  refine ⟨fun held => ?_, fun e => ?_, ?_, ?_, ?_⟩
  · simp only [validate_eq_ok_iff, Guard.judges_iff]
  · exact validate_eq_error_iff.trans fault?_eq_some_iff
  · intro cause hcoerce guards
    exact validate_eq_error_iff.mpr (fault?_of_coerce_error hcoerce)
  · intro v before guard after hcoerce hguards h later
    exact validate_guardedBy hcoerce hguards h
  · intro other v hraw hother
    rw [validate, validate, hraw, hother]

end Setting

end LayeredConfig
