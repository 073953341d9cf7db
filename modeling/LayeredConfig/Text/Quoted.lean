/-
  LayeredConfig.Text.Quoted

  Text as messages quote it: between double quotes, with a backslash before
  quotes and backslashes, the four usual control characters as letters, and
  every other unprintable character by its code point in braces.
-/
import LayeredConfig.Text.Unprintable

namespace LayeredConfig.Text

/-- The digits of `n` to base sixteen, small letters, no leading zero. -/
def hexDigits (n : Nat) : List Char :=
  Nat.toDigits 16 n

/-- One character of quoted text. -/
def quotedChar (c : Char) : List Char :=
  if c == '"' then ['\\', '"']
  else if c == '\\' then ['\\', '\\']
  else if c == '\n' then ['\\', 'n']
  else if c == '\r' then ['\\', 'r']
  else if c == '\t' then ['\\', 't']
  else if c == '\x00' then ['\\', '0']
  else if isUnprintable c then ['\\', 'u', '\x7b'] ++ hexDigits c.toNat ++ ['\x7d']
  else [c]

/-- A string as messages quote it. -/
def quoted (s : String) : String :=
  String.ofList (['"'] ++ s.toList.flatMap quotedChar ++ ['"'])

end LayeredConfig.Text
