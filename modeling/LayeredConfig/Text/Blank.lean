/-
  LayeredConfig.Text.Blank

  White space and trimming.  A character is blank when it has the Unicode
  property White_Space; text is trimmed by taking the blank characters off
  both of its ends.

  Text is handled as a list of characters wherever it is taken apart, and as a
  `String` where it is only carried along.
-/

namespace LayeredConfig.Text

/-! ## The class -/

/-- The characters with the Unicode property White_Space.  The two zero-width
    characters U+200B and U+FEFF are not among them. -/
def isBlank (c : Char) : Bool :=
  let n := c.toNat
  (0x09 ≤ n && n ≤ 0x0D) || n == 0x20 || n == 0x85 || n == 0xA0 || n == 0x1680
    || (0x2000 ≤ n && n ≤ 0x200A) || n == 0x2028 || n == 0x2029 || n == 0x202F
    || n == 0x205F || n == 0x3000

/-! ## Trimming by a class of characters -/

/-- `s` without its longest end part that lies in `p`. -/
def dropWhileEnd (p : Char → Bool) (s : List Char) : List Char :=
  (s.reverse.dropWhile p).reverse

/-- `s` without its longest start and end parts that lie in `p`. -/
def trimBy (p : Char → Bool) (s : List Char) : List Char :=
  dropWhileEnd p (s.dropWhile p)

theorem length_dropWhile_le (p : Char → Bool) (s : List Char) :
    (s.dropWhile p).length ≤ s.length :=
  (List.dropWhile_suffix p).length_le

theorem length_dropWhileEnd_le (p : Char → Bool) (s : List Char) :
    (dropWhileEnd p s).length ≤ s.length := by
  have h := length_dropWhile_le p s.reverse
  simpa [dropWhileEnd] using h

theorem length_trimBy_le (p : Char → Bool) (s : List Char) :
    (trimBy p s).length ≤ s.length :=
  Nat.le_trans (length_dropWhileEnd_le p _) (length_dropWhile_le p s)

/-! ## Trimming white space -/

/-- `s` without the blank characters at its start. -/
def trimStart (s : List Char) : List Char :=
  s.dropWhile isBlank

/-- `s` without the blank characters at its two ends. -/
def trim (s : List Char) : List Char :=
  trimBy isBlank s

theorem length_trimStart_le (s : List Char) : (trimStart s).length ≤ s.length :=
  length_dropWhile_le isBlank s

theorem length_trim_le (s : List Char) : (trim s).length ≤ s.length :=
  length_trimBy_le isBlank s

/-- The trimmed form of a string. -/
def trimmed (s : String) : String :=
  String.ofList (trim s.toList)

end LayeredConfig.Text
