import Custody.Schema.Reading
import Custody.Number.DecimalReader

/-!
# Numbers spelled in requests

Whole numbers and binary numbers may be given as texts. A whole number may have spaces around it, a
plus, zeros in front, underscores between its digits and a fraction of zeros; a binary number has
the usual notation with a point and an exponent.
-/

namespace Custody

namespace Numeral

/-! ## Whole numbers -/

/-- The most characters of a run of digits that is read, its minus included. -/
def lengthMost : Nat := 4300

/-- Whether a text starts with a whole number that is longer than what is read. -/
def isOverlong (cs : List Char) : Bool :=
  let (sign, body) := match cs with
    | '-' :: r => (1, r)
    | r => (0, r)
  body.head? != some '0' && lengthMost < sign + (body.takeWhile Text.isAsciiDigit).length

/-- A whole number in its shortest form: an optional minus and digits without a zero in front. -/
def plain? (cs : List Char) : Option Int :=
  let (negative, body) := Decimal.spanSign cs
  match cs.head?, Decimal.spanDigits body with
  | some '+', _ => none
  | _, ([], _) => none
  | _, (0 :: _ :: _, _) => none
  | _, (ds, []) => let n : Int := Text.ofDigits 10 ds; some (if negative then -n else n)
  | _, _ => none

/-- The text after zeros and underscores, of which the last one stays where nothing else or a point
follows. What follows may have a minus of its own. -/
def afterZeros? (last : Char) : List Char → Option (List Char)
  | [] => some [last]
  | c :: cs =>
    if c = '0' ∨ c = '_' then afterZeros? c cs
    else if c = '.' then some (last :: c :: cs)
    else if c = '-' ∨ Text.isAsciiDigit c then some (c :: cs)
    else none

/-- The text without zeros in front. -/
def withoutZeros? : List Char → Option (List Char)
  | '0' :: cs => afterZeros? '0' cs
  | c :: cs => if c = '-' ∨ Text.isAsciiDigit c then some (c :: cs) else none
  | [] => none

/-- The text without a fraction of zeros, of which there is at least one. -/
def withoutZeroFraction (cs : List Char) : List Char :=
  let whole := cs.takeWhile (· != '.')
  match cs.dropWhile (· != '.') with
  | _ :: z :: zs => if (z :: zs).all (· = '0') then whole else cs
  | _ => cs

/-- The text without underscores, if each stands between other characters; otherwise none. -/
def joined? (cs : List Char) : Option (List Char) :=
  let pieces := cs.splitOn '_'
  if pieces.length ≠ 1 ∧ pieces.all (fun p => !p.isEmpty) then some pieces.flatten else none

/-- The text in the form of a plain number, as far as it can be brought there. -/
def cleaned? (cs : List Char) : Option (List Char) := do
  let cs ← match Text.trimSpaces cs with
    | '+' :: '-' :: _ => none
    | '+' :: r => some r
    | r => some r
  let cs := withoutZeroFraction (← withoutZeros? cs)
  some ((joined? cs).getD cs)

/-- The whole number that a text spells. -/
def whole (s : String) : Reading Int :=
  let cs := s.toList
  let clean := (cleaned? cs).getD []
  if isOverlong cs || isOverlong clean then Reading.fault .intSize
  else match (plain? cs).orElse fun _ => plain? clean with
    | some n => .ok n
    | none => Reading.fault .intParsing

example : (whole " +007_000.00").toOption = some 7000 := by decide +kernel

example : (whole "0-32").toOption = some (-32) := by decide +kernel

example : (whole "7.").toOption = none := by decide +kernel

/-! ## Binary numbers -/

/-- The binary number that characters spell in the usual notation. -/
def realOfChars? (cs : List Char) : Option Binary64 :=
  let (negative, body) := Decimal.spanSign (cs.map Text.foldAscii)
  if body = "inf".toList ∨ body = "infinity".toList then some (.infinite negative)
  else if body = "nan".toList then some .nan
  else (Decimal.readScientific? body).map fun (c, e) => Binary64.ofScientific negative c e

/-- The binary number that a text spells: between spaces, or else with single underscores between
its characters. -/
def real (s : String) : Reading Binary64 :=
  let cs := s.toList
  match (realOfChars? (Text.trimSpaces cs)).orElse fun _ => (joined? cs).bind realOfChars? with
  | some x => .ok x
  | none => Reading.fault .realParsing

end Numeral

end Custody
