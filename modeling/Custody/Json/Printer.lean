import Custody.Json.Basic
import Custody.Number.Shortest
import Custody.Text.Digit

/-!
# Writing JSON

Two layouts are in use: the compact one without blanks, with all characters as themselves, and the
spaced one with a blank after commas and colons, in which only ASCII characters stand for
themselves.
-/

namespace Custody

namespace Json

/-- How a value is laid out. -/
structure Layout where
  comma : String
  colon : String
  asciiOnly : Bool
deriving Repr

/-- No blanks, and characters as themselves. -/
def compact : Layout := { comma := ",", colon := ":", asciiOnly := false }

/-- Blanks after separators, and ASCII characters only. -/
def spaced : Layout := { comma := ", ", colon := ": ", asciiOnly := true }

/-- A code unit as an escape with four digits. -/
def unitEscape (n : Nat) : List Char := ['\\', 'u'] ++ Text.digitsOfWidth 16 4 n

/-- A character inside a text. -/
def escaped (asciiOnly : Bool) (c : Char) : List Char :=
  let n := c.toNat
  if c = '"' then ['\\', '"']
  else if c = '\\' then ['\\', '\\']
  else if c = '\n' then ['\\', 'n']
  else if c = '\r' then ['\\', 'r']
  else if c = '\t' then ['\\', 't']
  else if n = 8 then ['\\', 'b']
  else if n = 12 then ['\\', 'f']
  else if n < 0x20 then unitEscape n
  else if !asciiOnly || n < 0x7f then [c]
  else if n < 0x10000 then unitEscape n
  else
    let m := n - 0x10000
    unitEscape (0xD800 + m / 0x400) ++ unitEscape (0xDC00 + m % 0x400)

/-- A code point inside a text; half of a pair has no spelling but its escape. -/
def escapedPoint (asciiOnly : Bool) : CodePoint → List Char
  | .char c => escaped asciiOnly c
  | .half n => unitEscape (0xD800 + n)

/-- A text with its quotes. -/
def quote (asciiOnly : Bool) (t : LooseText) : String :=
  String.ofList ('"' :: t.points.flatMap (escapedPoint asciiOnly) ++ ['"'])

/-- A number that is not whole; the values that are not finite have words. -/
def realText : Binary64 → String
  | .infinite true => "-Infinity"
  | .infinite false => "Infinity"
  | .nan => "NaN"
  | x => x.text

mutual

/-- The text of a value. -/
def render (l : Layout) : Json → String
  | .null => "null"
  | .bool true => "true"
  | .bool false => "false"
  | .int n => toString n
  | .real x => realText x
  | .text s => quote l.asciiOnly (.sound s)
  | .list items => "[" ++ renderItems l items ++ "]"
  | .object ms => "\x7b" ++ renderMembers l ms ++ "\x7d"
  | .broken t => quote l.asciiOnly (.broken t)
  | .under _ v => render l v

/-- The texts of items, with commas between them. -/
def renderItems (l : Layout) : List Json → String
  | [] => ""
  | [v] => render l v
  | v :: rest => render l v ++ l.comma ++ renderItems l rest

/-- The texts of members, with commas between them. -/
def renderMembers (l : Layout) : List (String × Json) → String
  | [] => ""
  | [(k, v)] => quote l.asciiOnly (keyOf (k, v)) ++ l.colon ++ render l v
  | (k, v) :: rest =>
    quote l.asciiOnly (keyOf (k, v)) ++ l.colon ++ render l v ++ l.comma ++ renderMembers l rest

end

/-- The text of a value in the compact layout. -/
def toText (v : Json) : String := render compact v

end Json

end Custody
