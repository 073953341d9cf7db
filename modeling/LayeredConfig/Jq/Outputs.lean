/-
  LayeredConfig.Jq.Outputs

  What a filter puts out: a sequence of values and faults, of which each is
  computed only when it is asked for.  A fault does not end the sequence; what
  ends is the computation that asks for the value in its place.

  A computation has its outputs at a place and in front of others.  Its parts run
  at places behind that one, each at another, so that no two of them make the
  same array or object.  As a computation is told what comes after it, the work
  for each output does not grow with the depth at which it is put out.
-/
import LayeredConfig.Jq.Datum

namespace LayeredConfig.Jq

/-- Why an output is no value. -/
inductive Fault where
  /-- An error with a value that a handler can look at. -/
  | raised (value : Datum)
  /-- The computation is nested too deeply. -/
  | exhausted

/-- One output. -/
abbrev Output := Except Fault Datum

/-- A sequence of outputs that is computed step by step. -/
inductive Outputs where
  | done
  | emit (first : Output) (rest : Unit → Outputs)

/-- What has outputs at each place, in front of those that come after. -/
abbrev Computation := Place → (after : Unit → Outputs) → Outputs

namespace Outputs

/-! ## Building sequences -/

/-- The outputs of `s`, and then those of `after`. -/
def append (after : Unit → Outputs) : Outputs → Outputs
  | .done => after ()
  | .emit output rest => .emit output fun _ => (rest ()).append after

/-- The values of a list in front of other outputs. -/
def ofList (after : Unit → Outputs) : List Datum → Outputs
  | [] => after ()
  | v :: rest => .emit (.ok v) fun _ => ofList after rest

/-- What `f` makes of each output and its number, one after the other.  The
    first output has the number `n`. -/
def bindFrom (f : Nat → Output → (Unit → Outputs) → Outputs) (after : Unit → Outputs)
    (n : Nat) : Outputs → Outputs
  | .done => after ()
  | .emit output rest => f n output fun _ => (rest ()).bindFrom f after (n + 1)

/-- Each output replaced by what `f` makes of it and its number. -/
def mapFrom (f : Nat → Output → Output) (after : Unit → Outputs) (n : Nat) : Outputs → Outputs
  | .done => after ()
  | .emit output rest => .emit (f n output) fun _ => (rest ()).mapFrom f after (n + 1)

/-- The outputs in front of the first raised error, and then what `handler`
    makes of its value.  What stands behind the error is never asked for. -/
def recover (handler : Datum → (Unit → Outputs) → Outputs) (after : Unit → Outputs) :
    Outputs → Outputs
  | .done => after ()
  | .emit (.error (.raised v)) _ => handler v after
  | .emit output rest => .emit output fun _ => (rest ()).recover handler after

/-- The outputs that are no false values; faults stay. -/
def truthy : Outputs → Outputs
  | .done => .done
  | .emit (.ok v) rest =>
    if v.truthy then .emit (.ok v) fun _ => (rest ()).truthy else (rest ()).truthy
  | .emit (.error fault) rest => .emit (.error fault) fun _ => (rest ()).truthy

/-- The first `n` outputs of `s`, which is not asked for more. -/
def take (after : Unit → Outputs) : (n : Nat) → (s : Unit → Outputs) → Outputs
  | 0, _ => after ()
  | n + 1, s =>
    match s () with
    | .done => after ()
    | .emit output rest => .emit output fun _ => take after n rest

/-! ## Taking sequences apart -/

/-- The first output. -/
def first? : Outputs → Option Output
  | .done => none
  | .emit output _ => some output

/-- The last value, or the first fault, or `none` if there is neither. -/
def last (before : Option Datum) : Outputs → Except Fault (Option Datum)
  | .done => .ok before
  | .emit (.ok v) rest => (rest ()).last (some v)
  | .emit (.error fault) _ => .error fault

/-- All values in order, behind the reversed list `before`; or the first fault. -/
def collect (before : List Datum) : Outputs → Except Fault (List Datum)
  | .done => .ok before.reverse
  | .emit (.ok v) rest => (rest ()).collect (v :: before)
  | .emit (.error fault) _ => .error fault

/-- Whether some value has the truth `sought`; a fault in front of it stays. -/
def someTruth (sought : Bool) : Outputs → Output
  | .done => .ok (.bool false)
  | .emit (.ok v) rest =>
    if v.truthy == sought then .ok (.bool true) else (rest ()).someTruth sought
  | .emit (.error fault) _ => .error fault

end Outputs

namespace Computation

/-- The outputs of a computation that nothing comes after. -/
def outputs (s : Computation) (place : Place) : Outputs :=
  s place fun _ => .done

/-! ## Computations without parts -/

/-- No outputs. -/
def done : Computation :=
  fun _ after => after ()

/-- One output. -/
def single (output : Output) : Computation :=
  fun _ after => .emit output after

/-- One value. -/
def value (v : Datum) : Computation :=
  single (.ok v)

/-- One error with a message. -/
def failure (message : String) : Computation :=
  single (.error (.raised (.string message)))

/-- The values of a list. -/
def ofList (items : List Datum) : Computation :=
  fun _ after => .ofList after items

/-- The same outputs at each place. -/
def ofOutputs (s : Outputs) : Computation :=
  fun _ after => s.append after

/-! ## One computation after the other -/

/-- The outputs of `s`, and then those of `t`. -/
def append (s t : Computation) : Computation :=
  fun place after => s (0 :: place) fun _ => t (1 :: place) after

/-- What `f` makes of each output, one after the other. -/
def bindOutput (s : Computation) (f : Output → Computation) : Computation :=
  fun place after =>
    (s.outputs (0 :: place)).bindFrom (fun n output => f output (n :: place)) after 1

/-- What `f` makes of each value, one after the other; faults stay. -/
def bind (s : Computation) (f : Datum → Computation) : Computation :=
  s.bindOutput fun
    | .ok v => f v
    | .error fault => single (.error fault)

/-- Each value replaced by what `f` makes of it. -/
def map (s : Computation) (f : Datum → Output) : Computation :=
  s.bind fun v => single (f v)

/-- The results of `f` on every output of `s` with every output of `t`, the
    outputs of `s` changing more slowly.  A fault of `s` shows only where `t` has
    an output to go with it. -/
def product (s t : Computation) (f : Datum → Datum → Output) : Computation :=
  s.bindOutput fun x => t.bindOutput fun y => single do
    let a ← x
    let b ← y
    f a b

/-- The outputs in front of the first raised error, and then what `handler`
    makes of its value. -/
def recover (s : Computation) (handler : Datum → Computation) : Computation :=
  fun place after => (s.outputs (0 :: place)).recover (fun v => handler v (1 :: place)) after

/-- The outputs of `s` that pass `keep`, or those of `t` if there are none. -/
def orIfNone (keep : Outputs → Outputs) (s t : Computation) : Computation :=
  fun place after =>
    match keep (s.outputs (0 :: place)) with
    | .done => t (1 :: place) after
    | found => found.append after

/-- The outputs of `s` that are no false values, or those of `t` if there are
    none. -/
def orElse (s t : Computation) : Computation :=
  orIfNone .truthy s t

/-- The first `n` outputs. -/
def take (n : Nat) (s : Computation) : Computation :=
  fun place after => .take after n fun _ => s.outputs place

/-- All outputs, with the new arrays and objects among them made here. -/
def settled (s : Computation) : Computation :=
  fun place after =>
    let here (n : Nat) (output : Output) : Output := output.map (Datum.settle (n :: place))
    (s.outputs (0 :: place)).mapFrom here after 1

/-- The array of all values, or the first fault. -/
def toArray (s : Computation) : Computation :=
  fun place => single (((s.outputs place).collect []).map Datum.newArray) place

/-! ## Sequences with a state -/

/-- Starting from `state`, what `step` makes of the state and each value in
    turn.  Where a step has several outputs, each of them goes on by itself. -/
def foldOver (step : Datum → Datum → Computation) : Outputs → (state : Datum) → Computation
  | .done, state => value state
  | .emit (.ok v) rest, state =>
    (step v state).bind fun next => foldOver step (rest ()) next
  | .emit (.error fault) _, _ => single (.error fault)

/-- Like `foldOver`, with what `project` makes of each value and the state behind
    it put out on the way. -/
def scanOver (step project : Datum → Datum → Computation) :
    Outputs → (state : Datum) → Computation
  | .done, _ => done
  | .emit (.ok v) rest, state =>
    (step v state).bind fun next =>
      (project v next).append fun place => scanOver step project (rest ()) next place
  | .emit (.error fault) _, _ => single (.error fault)

/-- What `f` makes of the outputs of `source` and each value of `start`.  The
    source runs at one place, so its outputs are the same for all of them. -/
def overEach (source start : Computation) (f : Outputs → Datum → Computation) : Computation :=
  fun place =>
    start.bind (fun v inner => f (source.outputs (0 :: place)) v inner) (1 :: place)

end Computation

end LayeredConfig.Jq
