/-
  LayeredConfig.Proofs.Expression.Laws

  What expressions rely on.

  Of an engine nothing is known but what the language promises about the few
  constructs that are written around a source: the binding of a variable, and
  parentheses.  The reason that is given for a failure is free, as it may quote the
  program, so promises are about first outputs only (`Engine.firstOutput?`).
-/
import LayeredConfig.Expression

namespace LayeredConfig.Engine

variable (engine : Engine)

/-- The first output of a program without the reason if it has none: nothing if the
    program fails, and otherwise whether there is an output, and which one. -/
def firstOutput? (listed : Variables) (bound : List (String × Value)) (program : String)
    (input : Value) : Option (Option Value) :=
  (Environment.firstOutput ⟨listed, engine⟩ bound program input).toOption

/-- Behind `. as $name |`, a source in parentheses runs on the same input, which the
    variable is bound to. -/
def Binds (name : String) : Prop :=
  ∀ (listed : Variables) (source : String) (input : Value),
    engine.firstOutput? listed [] (Expression.binding name source) input
      = engine.firstOutput? listed [(name, input)] (Expression.parenthesized source) input

/-- A variable makes no difference to a program in which its name is not written. -/
def Ignores (name : String) : Prop :=
  ∀ (listed : Variables) (value : Value) (program : String) (input : Value),
    ¬name.toList <:+: program.toList →
    engine.firstOutput? listed [(name, value)] program input
      = engine.firstOutput? listed [] program input

/-- A source is the same program in parentheses.  This is so for programs; a source
    that is none may become one, if it closes the parenthesis itself. -/
def Groups (source : String) : Prop :=
  ∀ (listed : Variables) (input : Value),
    engine.firstOutput? listed [] (Expression.parenthesized source) input
      = engine.firstOutput? listed [] source input

/-- The program `.` gives a value back. -/
def Returns (v : Value) : Prop :=
  ∀ listed : Variables, engine.firstOutput? listed [] "." v = some (some v)

end LayeredConfig.Engine
