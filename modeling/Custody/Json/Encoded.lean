import Custody.Json.Reader
import Custody.Text.Utf8

/-!
# Documents

A document arrives as bytes. A mark of the byte order in front tells how its characters are written; so
do, without one, the zeros among the first bytes, since JSON begins with two characters of ASCII. Halves
of surrogate pairs are let through in every encoding.

> `ofDocument_encode`: a document in UTF-8 is read as its text.
-/

namespace Custody

/-- How the characters of a document are written: in bytes, or in units of two or four bytes with the
larger or the smaller part in front. -/
inductive Encoding where
  | bytes
  | pairs (bigEndian : Bool)
  | fours (bigEndian : Bool)
deriving DecidableEq, Repr

namespace Encoding

/-- The marks of the byte order. One begins like another, and the longer one counts. -/
def marks : List (List UInt8 × Encoding) :=
  [([0x00, 0x00, 0xFE, 0xFF], .fours true), ([0xFF, 0xFE, 0x00, 0x00], .fours false),
    ([0xFE, 0xFF], .pairs true), ([0xFF, 0xFE], .pairs false), ([0xEF, 0xBB, 0xBF], .bytes)]

/-- The encoding of a document without a mark, by its first bytes. -/
def byZeros : List UInt8 → Encoding
  | a :: b :: c :: d :: _ =>
    if a = 0 then (if b = 0 then .fours true else .pairs true)
    else if b = 0 then (if c = 0 ∧ d = 0 then .fours false else .pairs false)
    else .bytes
  | [a, b] => if a = 0 then .pairs true else if b = 0 then .pairs false else .bytes
  | _ => .bytes

/-- The encoding of a document, and its bytes behind the mark. -/
def detect (bs : List UInt8) : Encoding × List UInt8 :=
  match marks.find? fun m => m.1.isPrefixOf bs with
  | some (mark, e) => (e, bs.drop mark.length)
  | none => (byZeros bs, bs)

/-- The units of two bytes; none when a byte is left over. -/
def pairUnits? (bigEndian : Bool) : List UInt8 → Option (List Nat)
  | [] => some []
  | a :: b :: rest =>
    let n := if bigEndian then a.toNat * 256 + b.toNat else b.toNat * 256 + a.toNat
    (pairUnits? bigEndian rest).map (n :: ·)
  | [_] => none

/-- The code points of units of two bytes: two halves of a pair are joined. -/
def joinPairs : List Nat → List CodePoint
  | [] => []
  | n :: rest =>
    match rest with
    | m :: after =>
      if 0xD800 ≤ n ∧ n ≤ 0xDBFF ∧ 0xDC00 ≤ m ∧ m ≤ 0xDFFF then Json.joined n m :: joinPairs after
      else .ofNat n :: joinPairs (m :: after)
    | [] => [.ofNat n]

/-- The code points of units of four bytes; none when bytes are left over or a unit is too large. -/
def fours? (bigEndian : Bool) : List UInt8 → Option (List CodePoint)
  | [] => some []
  | a :: b :: c :: d :: rest =>
    let n := if bigEndian then ((a.toNat * 256 + b.toNat) * 256 + c.toNat) * 256 + d.toNat
      else ((d.toNat * 256 + c.toNat) * 256 + b.toNat) * 256 + a.toNat
    if n < 0x110000 then (fours? bigEndian rest).map (.ofNat n :: ·) else none
  | _ => none

/-- The code points of bytes in an encoding; none where they are not written so. -/
def points? : Encoding → List UInt8 → Option (List CodePoint)
  | .bytes, bs => Utf8.points? bs
  | .pairs b, bs => (pairUnits? b bs).map joinPairs
  | .fours b, bs => fours? b bs

/-- A document that begins with two bytes of ASCII is written in bytes, without a mark. -/
theorem detect_of_ascii {a b : UInt8} {rest : List UInt8} (ha : a ≠ 0 ∧ a < 0x80)
    (hb : b ≠ 0) : detect (a :: b :: rest) = (.bytes, a :: b :: rest) := by
  -- Each mark begins with a zero or with a byte that is not ASCII.
  have hfirst : ∀ m ∈ marks, ∃ x ∈ m.1.head?, x = 0 ∨ 0x80 ≤ x := by decide
  have hmark : marks.find? (fun m => m.1.isPrefixOf (a :: b :: rest)) = none := by
    refine List.find?_eq_none.mpr fun m hm hprefix => ?_
    obtain ⟨x, hx, hout⟩ := hfirst m hm
    obtain ⟨t, ht⟩ := List.isPrefixOf_iff_prefix.mp hprefix
    cases hm : m.1 with
    | nil => simp [hm] at hx
    | cons y ys =>
      obtain ⟨rfl, -⟩ : y = a ∧ _ := by simpa [hm] using ht
      obtain rfl : y = x := by simpa [hm] using hx
      rcases hout with h | h
      · exact ha.1 h
      · exact absurd ha.2 (UInt8.not_lt.mpr h)
  have hzeros : byZeros (a :: b :: rest) = .bytes := by
    match rest with
    | [] | [_] | _ :: _ :: _ => simp [byZeros, ha.1, hb]
  rw [detect, hmark, hzeros]

end Encoding

namespace Json

/-- The value of a document, with room for some levels inside each other beside the first one. -/
def ofDocument (spare : Nat) (body : List UInt8) : Except ReadError Json :=
  let (e, bs) := Encoding.detect body
  match e.points? bs with
  | some ps => ofPoints spare ps
  | none => .error .undecodable

/-- A document in UTF-8 whose text begins with two characters of ASCII is read as its text. -/
theorem ofDocument_encode {spare : Nat} {s : String} {c d : Char} {cs : List Char}
    (hs : s.toList = c :: d :: cs) (hc : 0 < c.toNat ∧ c.toNat < 0x80)
    (hd : 0 < d.toNat ∧ d.toNat < 0x80) :
    ofDocument spare (Utf8.encode s) = ofPoints spare (s.toList.map .char) := by
  have hbyte : ∀ n < 0x80, 0 < n → UInt8.ofNat n ≠ 0 ∧ UInt8.ofNat n < 0x80 := by decide
  have hdetect : Encoding.detect (Utf8.encode s) = (.bytes, Utf8.encode s) := by
    rw [Utf8.encode, hs, List.flatMap_cons, List.flatMap_cons, Utf8.encodeChar_of_ascii hc.2,
      Utf8.encodeChar_of_ascii hd.2]
    exact Encoding.detect_of_ascii (hbyte _ hc.2 hc.1) (hbyte _ hd.2 hd.1).1
  rw [ofDocument, hdetect]
  dsimp only
  rw [Encoding.points?, Utf8.points?_encode]

end Json

end Custody
