import Custody.Json.Basic
import Custody.Text.Digit

/-!
# Reading JSON

A text is read from its start; where it is no JSON, the fault is the place at which reading
stopped, counted in code points. Besides the grammar of the standard the words `NaN`, `Infinity`
and `-Infinity` are numbers. A whole number with too many digits and a value with too many levels
inside each other are refused, whatever follows. How many levels are too many depends on the room
that the reader is given: there is always room for one, and `spare` says for how many more.

While reading, a place is held as the number of code points that are left, so no counter is carried
along.
-/

namespace Custody

namespace Json

/-- Why reading stopped: the text is no JSON where some characters are left, a whole number is too
long, or an object or list begins one level too deep. -/
inductive Stop where
  | misread (left : Nat)
  | oversized
  | tooDeep (inObject : Bool)
deriving DecidableEq, Repr

/-- What a step of reading yields: a value and the rest, or why it stopped. -/
abbrev Step (α : Type) := Except Stop (α × List CodePoint)

/-- The most digits of a whole number. -/
def wholeDigitsMost : Nat := 4300

/-- The text after blanks. -/
def skipBlanks : List CodePoint → List CodePoint
  | .char ' ' :: ps => skipBlanks ps
  | .char '\t' :: ps => skipBlanks ps
  | .char '\n' :: ps => skipBlanks ps
  | .char '\r' :: ps => skipBlanks ps
  | ps => ps

/-- The text after a given start, if it starts so. -/
def dropStart : List Char → List CodePoint → Option (List CodePoint)
  | [], ps => some ps
  | _ :: _, [] => none
  | w :: ws, p :: ps => if p = .char w then dropStart ws ps else none

/-- The leading digits and the rest. -/
def digits : List CodePoint → List Nat × List CodePoint
  | .char c :: ps =>
    match Text.asciiDigit? c with
    | some d => let (ds, rest) := digits ps; (d :: ds, rest)
    | none => ([], .char c :: ps)
  | ps => ([], ps)

/-! ## Texts -/

/-- The value of four hexadecimal digits. -/
def hexQuad : List CodePoint → Option (Nat × List CodePoint)
  | .char a :: .char b :: .char c :: .char d :: rest => do
    let w ← Text.hexDigit? a
    let x ← Text.hexDigit? b
    let y ← Text.hexDigit? c
    let z ← Text.hexDigit? d
    some (((w * 16 + x) * 16 + y) * 16 + z, rest)
  | _ => none

/-- The code point of two halves of a pair. -/
def joined (n m : Nat) : CodePoint := .ofNat (0x10000 + (n - 0xD800) * 0x400 + (m - 0xDC00))

/-- What the first unit of an escape stands for, and the rest: the two halves of a pair are
joined. -/
def joinUnits (n : Nat) (rest : List CodePoint) : CodePoint × List CodePoint :=
  if 0xD800 ≤ n ∧ n ≤ 0xDBFF then
    match rest with
    | .char '\\' :: .char 'u' :: more =>
      match hexQuad more with
      | some (m, after) =>
        if 0xDC00 ≤ m ∧ m ≤ 0xDFFF ∧ !after.isEmpty then (joined n m, after)
        else (.ofNat n, rest)
      | none => (.ofNat n, rest)
    | _ => (.ofNat n, rest)
  else (.ofNat n, rest)

/-- The character that a one-letter escape stands for. -/
def escape? : CodePoint → Option Char
  | .char '"' => some '"'
  | .char '\\' => some '\\'
  | .char '/' => some '/'
  | .char 'b' => some '\x08'
  | .char 'f' => some '\x0c'
  | .char 'n' => some '\n'
  | .char 'r' => some '\r'
  | .char 't' => some '\t'
  | _ => none

/-- The rest of a text after its opening quote, with which `start` begins. The code points that were
read stand in `acc`, the last one first. -/
def readText (start : List CodePoint) : Nat → List CodePoint → List CodePoint → Step LooseText
  | 0, _, _ => .error (.misread start.length)
  | _ + 1, _, [] => .error (.misread start.length)
  | _ + 1, acc, .char '"' :: ps => .ok (LooseText.ofPoints acc.reverse, ps)
  | _ + 1, _, [.char '\\'] => .error (.misread start.length)
  | fuel + 1, acc, .char '\\' :: .char 'u' :: ps =>
    match hexQuad ps with
    | some (n, rest) =>
      if rest.isEmpty then .error (.misread (ps.length + 1))
      else
        let (p, rest) := joinUnits n rest
        readText start fuel (p :: acc) rest
    | none => .error (.misread (ps.length + 1))
  | fuel + 1, acc, .char '\\' :: e :: ps =>
    match escape? e with
    | some c => readText start fuel (.char c :: acc) ps
    | none => .error (.misread (ps.length + 2))
  | fuel + 1, acc, p :: ps =>
    if p.toNat < 0x20 then .error (.misread (ps.length + 1))
    else readText start fuel (p :: acc) ps

/-! ## Numbers -/

/-- An exponent: its value and the rest, when digits follow. -/
def readExponent (ps : List CodePoint) : Option (Int × List CodePoint) :=
  match ps with
  | p :: rest =>
    if p = .char 'e' ∨ p = .char 'E' then
      let (s, rest) := match rest with
        | .char '-' :: r => (true, r)
        | .char '+' :: r => (false, r)
        | r => (false, r)
      match digits rest with
      | ([], _) => none
      | (ds, rest) => let n : Int := Text.ofDigits 10 ds; some (if s then -n else n, rest)
    else none
  | [] => none

/-- The digits after a point and the rest, when there are some. -/
def readFraction (ps : List CodePoint) : Option (List Nat × List CodePoint) :=
  match ps with
  | .char '.' :: rest =>
    match digits rest with
    | ([], _) => none
    | r => some r
  | _ => none

/-- A number that begins with `start`, after its sign; a leading zero stands alone. -/
def readNumber (start : List CodePoint) (negative : Bool) (ps : List CodePoint) : Step Json :=
  let (ds, rest) : List Nat × List CodePoint := match ps with
    | .char '0' :: rest => ([0], rest)
    | _ => digits ps
  if ds.isEmpty then .error (.misread start.length)
  else
    let (fs, isReal, rest) := match readFraction rest with
      | some (fs, r) => (fs, true, r)
      | none => ([], false, rest)
    let (x, isReal, rest) := match readExponent rest with
      | some (x, r) => (x, true, r)
      | none => ((0 : Int), isReal, rest)
    let c := Text.ofDigits 10 (ds ++ fs)
    if isReal then .ok (.real (Binary64.ofScientific negative c (x - fs.length)), rest)
    else if wholeDigitsMost < ds.length then .error .oversized
    else .ok (.int (if negative then -(c : Int) else c), rest)

/-- A word or a number. -/
def readAtom (ps : List CodePoint) : Step Json :=
  let word (w : String) (v : Json) : Step Json :=
    match dropStart w.toList ps with
    | some r => .ok (v, r)
    | none => .error (.misread ps.length)
  match ps with
  | .char 'n' :: _ => word "null" .null
  | .char 't' :: _ => word "true" (.bool true)
  | .char 'f' :: _ => word "false" (.bool false)
  | .char 'N' :: _ => word "NaN" (.real .nan)
  | .char 'I' :: _ => word "Infinity" (.real (.infinite false))
  | .char '-' :: .char 'I' :: _ => word "-Infinity" (.real (.infinite true))
  | .char '-' :: rest => readNumber ps true rest
  | _ => readNumber ps false ps

/-! ## Values -/

mutual

/-- A value at the start of a text, with room for some levels inside it. The fuel is enough when it is
more than twice the number of code points, and one step more for items and members. -/
def readValue (room : Nat) : Nat → List CodePoint → Step Json
  | 0, ps => .error (.misread ps.length)
  | fuel + 1, ps =>
    match ps with
    | .char '"' :: rest => (readText ps fuel [] rest).map fun (t, r) => (ofLoose t, r)
    | .char '\x7b' :: rest =>
      if room = 0 then .error (.tooDeep true)
      else match skipBlanks rest with
        | .char '\x7d' :: r => .ok (.object [], r)
        | r => readMembers (room - 1) fuel [] r
    | .char '[' :: rest =>
      if room = 0 then .error (.tooDeep false)
      else match skipBlanks rest with
        | .char ']' :: r => .ok (.list [], r)
        | r => readItems (room - 1) fuel [] r
    | _ => readAtom ps

/-- The items of a list from the next one on. -/
def readItems (room : Nat) : Nat → List Json → List CodePoint → Step Json
  | 0, _, ps => .error (.misread ps.length)
  | fuel + 1, acc, ps =>
    match readValue room fuel ps with
    | .error e => .error e
    | .ok (v, rest) =>
      match skipBlanks rest with
      | .char ']' :: r => .ok (.list (v :: acc).reverse, r)
      | .char ',' :: r => readItems room fuel (v :: acc) (skipBlanks r)
      | r => .error (.misread r.length)

/-- The members of an object from the next one on. -/
def readMembers (room : Nat) : Nat → List (LooseText × Json) → List CodePoint → Step Json
  | 0, _, ps => .error (.misread ps.length)
  | fuel + 1, acc, ps =>
    match ps with
    | .char '"' :: afterQuote =>
      match readText ps fuel [] afterQuote with
      | .error e => .error e
      | .ok (key, rest) =>
        match skipBlanks rest with
        | .char ':' :: r =>
          match readValue room fuel (skipBlanks r) with
          | .error e => .error e
          | .ok (v, rest) =>
            let acc := (key, v) :: acc
            match skipBlanks rest with
            | .char '\x7d' :: r => .ok (.object ((distinct acc.reverse).map fun (k, v) => member k v), r)
            | .char ',' :: r => readMembers room fuel acc (skipBlanks r)
            | r => .error (.misread r.length)
        | r => .error (.misread r.length)
    | _ => .error (.misread ps.length)

end

/-- Why a text has no value: it is no JSON behind some number of code points, its bytes are no text,
it holds a whole number that is too long, or it nests too deep. -/
inductive ReadError where
  | misread (offset : Nat)
  | undecodable
  | oversized
  | tooDeep (inObject : Bool)
deriving DecidableEq, Repr

/-- The value that a whole text stands for. Nothing but blanks may surround it. -/
def ofPoints (spare : Nat) (ps : List CodePoint) : Except ReadError Json :=
  let fail : Stop → Except ReadError Json
    | .misread left => .error (.misread (ps.length - left))
    | .oversized => .error .oversized
    | .tooDeep inObject => .error (.tooDeep inObject)
  match readValue (spare + 1) (2 * ps.length + 1) (skipBlanks ps) with
  | .error stop => fail stop
  | .ok (v, rest) =>
    match skipBlanks rest with
    | [] => .ok v
    | r => fail (.misread r.length)

end Json

end Custody
