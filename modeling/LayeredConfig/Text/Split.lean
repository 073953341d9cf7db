/-
  LayeredConfig.Text.Split

  Cutting text apart: at every occurrence of a separator, at the last
  occurrence of a character, and at line ends.
-/
import LayeredConfig.Text.Blank

namespace LayeredConfig.Text

/-! ## Prefixes and suffixes -/

/-- What follows `start` in `s`, if `s` begins with it. -/
def stripStart? : List Char → List Char → Option (List Char)
  | [], s => some s
  | _ :: _, [] => none
  | c :: start, d :: s => if c = d then stripStart? start s else none

/-- What precedes `finish` in `s`, if `s` ends with it. -/
def stripEnd? (finish s : List Char) : Option (List Char) :=
  (stripStart? finish.reverse s.reverse).map List.reverse

/-- `s` begins with `start` exactly when it is `start` followed by what
    stripping gives. -/
theorem stripStart?_eq_some_iff {start s rest : List Char} :
    stripStart? start s = some rest ↔ s = start ++ rest := by
  induction start generalizing s with
  | nil => simp [stripStart?]
  | cons c start ih =>
    cases s with
    | nil => simp [stripStart?]
    | cons d s =>
      by_cases h : c = d
      · simp [stripStart?, h, ih]
      · simp [stripStart?, h, Ne.symm h]

theorem stripEnd?_eq_some_iff {finish s rest : List Char} :
    stripEnd? finish s = some rest ↔ s = rest ++ finish := by
  simp only [stripEnd?, Option.map_eq_some_iff, stripStart?_eq_some_iff]
  constructor
  · rintro ⟨r, h, rfl⟩
    have := congrArg List.reverse h
    simpa using this
  · rintro rfl
    exact ⟨rest.reverse, by simp, by simp⟩

/-! ## Splitting at a character -/

/-- The pieces of `s` between occurrences of `sep`; always at least one. -/
def splitAt (sep : Char) : List Char → List (List Char)
  | [] => [[]]
  | c :: s =>
    if c = sep then [] :: splitAt sep s
    else match splitAt sep s with
      | [] => [[c]]
      | piece :: pieces => (c :: piece) :: pieces

/-- `s` cut at the last occurrence of `sep`, which is dropped. -/
def splitLast? (sep : Char) : List Char → Option (List Char × List Char)
  | [] => none
  | c :: s =>
    match splitLast? sep s with
    | some (before, after) => some (c :: before, after)
    | none => if c = sep then some ([], s) else none

/-! ## Splitting at a word -/

/-- The pieces of `s` between occurrences of the word `sep`, found from left to
    right without overlap.  An empty word separates nothing. -/
def splitOn (sep s : List Char) : List (List Char) :=
  if sep.isEmpty then [s] else go 0 [] s
where
  /-- `skip` characters of an occurrence are still to be passed over; `piece`
      holds the current piece in reverse. -/
  go : Nat → List Char → List Char → List (List Char)
    | _, piece, [] => [piece.reverse]
    | skip + 1, piece, _ :: rest => go skip piece rest
    | 0, piece, c :: rest =>
      if sep.isPrefixOf (c :: rest) then piece.reverse :: go (sep.length - 1) [] rest
      else go 0 (c :: piece) rest

/-! ## Lines -/

/-- Takes a carriage return off the end of a line. -/
def chopReturn (line : List Char) : List Char :=
  match stripEnd? ['\r'] line with
  | some line => line
  | none => line

/-- The lines of `s`.  A line ends with a line feed, or with a carriage return
    and a line feed; a last line that is empty does not count. -/
def lines (s : List Char) : List (List Char) :=
  go (splitAt '\n' s)
where
  /-- Only a line that a line feed ends loses its carriage return. -/
  go : List (List Char) → List (List Char)
    | [] => []
    | [last] => if last.isEmpty then [] else [last]
    | line :: rest => chopReturn line :: go rest

/-- The lines of a string. -/
def linesOf (s : String) : List String :=
  (lines s.toList).map String.ofList

end LayeredConfig.Text
