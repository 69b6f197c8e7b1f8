import Custody.Number.Decimal
import Custody.Text.Blank
import Custody.Text.Digit
import Custody.Text.Case

/-!
# Reading decimal numbers

A number is a sign, digits with at most one point and an exponent, or one of the words for an
infinity or an undefined value. Blanks around it and underscores anywhere are skipped, digits of
every script count, and case does not matter.
-/

namespace Custody

namespace Decimal

/-- The leading ASCII digits as values, and the rest. -/
def spanDigits : List Char → List Nat × List Char
  | [] => ([], [])
  | c :: cs =>
    match Text.asciiDigit? c with
    | some d => let (ds, rest) := spanDigits cs; (d :: ds, rest)
    | none => ([], c :: cs)

/-- An optional sign: whether it is a minus, and the rest. -/
def spanSign : List Char → Bool × List Char
  | '-' :: cs => (true, cs)
  | '+' :: cs => (false, cs)
  | cs => (false, cs)

/-- The largest exponent of a leading digit that can be written. -/
def maxExponent : Int := 999999999999999999

/-- The least exponent of a last digit that can be written. -/
def minExponent : Int := -1999999999999999997

/-- Why an operation on decimals has no answer: a text that is no number, a number whose exponent
is out of range, or a use of an undefined value. -/
inductive Fault where
  | malformed
  | outOfRange
  | undefinedValue
deriving DecidableEq, Repr

/-- The signal a fault is reported as. -/
def Fault.message : Fault → String
  | .malformed => "[<class 'decimal.ConversionSyntax'>]"
  | .outOfRange => "[<class 'decimal.InvalidOperation'>]"
  | .undefinedValue => "[<class 'decimal.InvalidOperation'>]"

/-- The most digits that can be written. -/
def maxDigits : Nat := 999999999999999999

/-- A finite number within the range of exponents and without too many digits. -/
def checked (s : Bool) (c : Nat) (e : Int) : Except Fault Decimal :=
  if maxDigits < digitCount c ∨ maxExponent < (digitCount c : Int) + e - 1 ∨ e < minExponent then
    .error .outOfRange
  else .ok (.finite s c e)

/-- The exponent part: nothing, or `e` with a signed whole number. -/
def readExponent : List Char → Option Int
  | [] => some 0
  | 'e' :: cs =>
    let (s, rest) := spanSign cs
    match spanDigits rest with
    | ([], _) => none
    | (ds, []) => let n : Int := Text.ofDigits 10 ds; some (if s then -n else n)
    | _ => none
  | _ => none

/-- Digits with at most one point, and an exponent: the coefficient and the exponent of its last
digit. -/
def readScientific? (cs : List Char) : Option (Nat × Int) :=
  let (whole, rest) := spanDigits cs
  let (fraction, rest) := match rest with
    | '.' :: r => spanDigits r
    | r => ([], r)
  if whole.isEmpty && fraction.isEmpty then none
  else (readExponent rest).map fun x => (Text.ofDigits 10 (whole ++ fraction), x - fraction.length)

/-- A finite number without its sign. -/
def readFinite (s : Bool) (cs : List Char) : Except Fault Decimal :=
  match readScientific? cs with
  | some (c, e) => checked s c e
  | none => .error .malformed

/-- An undefined value with the digits of its payload. -/
def readUndefined (s signaling : Bool) (cs : List Char) : Except Fault Decimal :=
  match spanDigits cs with
  | (ds, []) => .ok (.undefined s signaling (Text.ofDigits 10 ds))
  | _ => .error .malformed

/-- The number that a text stands for. -/
def ofText (t : String) : Except Fault Decimal :=
  let cs := ((Text.trim t.toList).filter (· != '_')).map (Text.foldAscii ∘ Text.plainDigit)
  let (s, body) := spanSign cs
  if body = "inf".toList ∨ body = "infinity".toList then .ok (.infinite s)
  else match body with
    | 'n' :: 'a' :: 'n' :: rest => readUndefined s false rest
    | 's' :: 'n' :: 'a' :: 'n' :: rest => readUndefined s true rest
    | _ => readFinite s body

end Decimal

end Custody
