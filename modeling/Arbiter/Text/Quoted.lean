import Arbiter.Text.Printable

/-! # Quoted text

How a text is shown inside a message: between quotes, with the quote itself, the backslash and
everything that is not printable escaped.
-/

namespace Arbiter.Text

/-- Single quotes, unless the text holds some and no double quote. -/
def quoteFor (cs : List Char) : Char :=
  if cs.contains '\'' && !cs.contains '"' then '"' else '\''

/-- A number in lower-case hexadecimal, filled up with zeros to the given width. -/
def hex (width n : Nat) : List Char :=
  let digits := Nat.toDigits 16 n
  List.replicate (width - digits.length) '0' ++ digits

/-- The escape of a character by its code point, in the shortest of three widths. -/
def escapeCode (n : Nat) : List Char :=
  if n ≤ 0xFF then '\\' :: 'x' :: hex 2 n
  else if n ≤ 0xFFFF then '\\' :: 'u' :: hex 4 n
  else '\\' :: 'U' :: hex 8 n

/-- A character between the given quotes. -/
def escape (quote c : Char) : List Char :=
  if c = quote ∨ c = '\\' then ['\\', c]
  else if c = '\n' then ['\\', 'n']
  else if c = '\r' then ['\\', 'r']
  else if c = '\t' then ['\\', 't']
  else if isPrintable c then [c]
  else escapeCode c.toNat

/-- The text between quotes. -/
def quoted (s : String) : String :=
  let quote := quoteFor s.toList
  String.ofList (quote :: s.toList.flatMap (escape quote) ++ [quote])

end Arbiter.Text
