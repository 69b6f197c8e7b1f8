import Custody.Text.Digit
import Custody.Text.Printable

/-!
# Quoted texts

A text between quotes, as messages show an offending value: in single quotes unless it holds
single quotes and no double ones, with the quote, the backslash and everything that is not
printable escaped.
-/

namespace Custody.Text

/-- The mark a text is quoted with. -/
def quoteMark (cs : List Char) : Char :=
  if cs.contains '\x27' && !cs.contains '"' then '"' else '\x27'

/-- An unprintable character as `\x`, `\u` or `\U` with two, four or eight digits. -/
def escapeCode (c : Char) : List Char :=
  let n := c.toNat
  if n < 0x100 then ['\\', 'x'] ++ digitsOfWidth 16 2 n
  else if n < 0x10000 then ['\\', 'u'] ++ digitsOfWidth 16 4 n
  else ['\\', 'U'] ++ digitsOfWidth 16 8 n

/-- One character of a text that is quoted with `mark`. -/
def quoteChar (mark c : Char) : List Char :=
  if c = mark || c = '\\' then ['\\', c]
  else if c = '\n' then ['\\', 'n']
  else if c = '\r' then ['\\', 'r']
  else if c = '\t' then ['\\', 't']
  else if isPrintable c then [c]
  else escapeCode c

/-- A text between quotes. -/
def quoted (s : String) : String :=
  let cs := s.toList
  let mark := quoteMark cs
  String.ofList (mark :: cs.flatMap (quoteChar mark) ++ [mark])

example : quoted "it's" = "\"it's\"" := by cbv

example : quoted "a\\b\n" = "'a\\\\b\\n'" := by cbv

end Custody.Text
