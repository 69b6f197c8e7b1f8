import Custody.Text.Blank
import Custody.Text.Digit
import Custody.Text.Quoted

/-!
# Identifiers

Escrows, conditions and events are named by numbers, written as 32 hexadecimal digits in five
groups. Their order is the order of the numbers. The numbers that are given out never repeat: a
series goes on beyond 32 digits rather than starting anew.
-/

namespace Custody

/-- A number that names something. -/
structure Identifier where
  value : Nat
deriving DecidableEq, Repr, Inhabited

namespace Identifier

/-- The digits of an identifier: 32, or as many as it has. -/
def digits (i : Identifier) : List Char :=
  Text.digitsOfWidth 16 (max 32 (i.value.log2 / 4 + 1)) i.value

/-- The digits in groups of 8, 4, 4, 4 and the rest. -/
def text (i : Identifier) : String :=
  let ds := i.digits
  let group (from' n : Nat) : String := String.ofList ((ds.drop from').take n)
  group 0 8 ++ "-" ++ group 8 4 ++ "-" ++ group 12 4 ++ "-" ++ group 16 4 ++ "-" ++
    String.ofList (ds.drop 20)

/-- The number whose hexadecimal digits are the last `width` decimal digits of `n`. -/
def sameDigits : Nat → Nat → Nat
  | 0, _ => 0
  | width + 1, n => sameDigits width (n / 10) * 16 + n % 10

/-- The `n`-th identifier of a series: the first digit names the series, the last ones are the
decimal digits of `n`. A number has fewer decimal digits than binary ones. -/
def numbered (series n : Nat) : Identifier :=
  ⟨series * Nat.pow 16 31 + sameDigits (n.log2 + 1) n⟩

/-- The `n`-th escrow. -/
def escrow (n : Nat) : Identifier := numbered 14 n

/-- The `n`-th condition. -/
def condition (n : Nat) : Identifier := numbered 12 n

/-- The `n`-th event. -/
def event (n : Nat) : Identifier := numbered 15 n

/-! ## Reading -/

/-- The number that hexadecimal digits stand for, if they are all such. -/
def hexValue? (cs : List Char) : Option Nat :=
  let ds := cs.filterMap Text.hexDigit?
  if ds.length = cs.length ∧ !cs.isEmpty then some (Text.ofDigits 16 ds) else none

/-- Digits with single underscores between them. -/
def hexRuns? (cs : List Char) : Option Nat :=
  let rec joined : Bool → List Char → Option (List Char)
    | after, [] => if after then some [] else none
    | true, '_' :: rest => joined false rest
    | _, c :: rest => if c = '_' then none else (joined true rest).map (c :: ·)
  (joined false cs).bind hexValue?

/-- A number in hexadecimal notation: spaces around it, a plus and the mark `0x` are allowed, and the
ten decimal digits may be those of any script. -/
def hexNumber? (cs : List Char) : Option Nat :=
  let cs := (Text.trimSpaces cs).map Text.plainDigit
  let cs := match cs with
    | '+' :: r => r
    | r => r
  match cs with
  | '0' :: x :: r =>
    if x = 'x' ∨ x = 'X' then
      match r with
      | '_' :: r => hexRuns? r
      | r => hexRuns? r
    else hexRuns? cs
  | _ => hexRuns? cs

/-- A text without every occurrence of a word. -/
def without (w : List Char) : List Char → List Char
  | [] => []
  | c :: cs =>
    if !w.isEmpty && w.isPrefixOf (c :: cs) then without w ((c :: cs).drop (max 1 w.length))
    else c :: without w cs
termination_by cs => cs.length
decreasing_by
  · simp only [List.length_drop, List.length_cons]; omega
  · simp

/-- Why a text is no identifier: it has not 32 digits, or something else among them. -/
inductive ReadFault where
  | badlyFormed
  | notHexadecimal (digits : String)
deriving DecidableEq, Repr

/-- The text of the complaint. -/
def ReadFault.message : ReadFault → String
  | .badlyFormed => "badly formed hexadecimal UUID string"
  | .notHexadecimal s => "invalid literal for int() with base 16: " ++ Text.quoted s

/-- Whether a character is a brace. -/
def isBrace (c : Char) : Bool := c = '\x7b' || c = '\x7d'

/-- The identifier that a text names: hyphens anywhere, braces around it and the marks `urn:` and
`uuid:` are skipped. -/
def ofText (s : String) : Except ReadFault Identifier :=
  let cs := without "uuid:".toList (without "urn:".toList s.toList)
  let cs := ((cs.dropWhile isBrace).reverse.dropWhile isBrace).reverse
  let cs := cs.filter (· != '-')
  if cs.length ≠ 32 then .error .badlyFormed
  else match hexNumber? cs with
    | some n => .ok ⟨n⟩
    | none => .error (.notHexadecimal (String.ofList cs))

/-- The digits of a text whose hyphens stand where groups end. -/
def grouped? (cs : List Char) : Option Identifier :=
  let at' (i : Nat) : Bool := cs[i]? = some '-'
  if cs.length = 36 ∧ at' 8 ∧ at' 13 ∧ at' 18 ∧ at' 23 then
    let ds := cs.filter (· != '-')
    if ds.length = 32 then (hexValue? ds).map (⟨·⟩) else none
  else none

/-- The identifier that a request names: 32 digits, or five groups, also in braces or after
`urn:uuid:`. -/
def ofRequestText? (s : String) : Option Identifier :=
  let cs := s.toList
  let urn := "urn:uuid:".toList
  if cs.length = 32 then (hexValue? cs).map (⟨·⟩)
  else if cs.length = 38 ∧ cs.head? = some '\x7b' ∧ cs.getLast? = some '\x7d' then
    grouped? ((cs.drop 1).take 36)
  else if urn.isPrefixOf cs then grouped? (cs.drop 9)
  else grouped? cs

end Identifier

end Custody
