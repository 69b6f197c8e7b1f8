import Custody.Text.Quoted

/-!
# Code points

A text of the service is a run of code points, and 2048 of these are no characters: each is half of a
surrogate pair. An escape in a document puts one into a text, and so do three bytes that spell it. Such
a text is broken: no encoding can carry it, so it can neither be stored nor sent, but it can be compared
and shown.

> `LooseText.points_ofPoints`: a text is kept with all its code points.
> `LooseText.ofPoints_chars`: characters alone make up a sound text.
-/

namespace Custody

/-- A code point: a character, or half of a pair, counted from the first one. -/
inductive CodePoint where
  | char (c : Char)
  | half (n : Fin 0x800)
deriving DecidableEq, Repr

namespace CodePoint

/-- The code point of a number. -/
def ofNat (n : Nat) : CodePoint :=
  if h : 0xD800 ≤ n ∧ n < 0xE000 then .half ⟨n - 0xD800, by omega⟩ else .char (Char.ofNat n)

/-- The number of a code point. -/
def toNat : CodePoint → Nat
  | .char c => c.toNat
  | .half n => 0xD800 + n

/-- Whether a code point is half of a pair. -/
def isHalf : CodePoint → Bool
  | .char _ => false
  | .half _ => true

/-- The character that stands for a code point where only characters can. -/
def shown : CodePoint → Char
  | .char c => c
  | .half _ => '\uFFFD'

theorem ofNat_toNat_char (c : Char) : ofNat c.toNat = .char c := by
  have hvalid : ¬(0xD800 ≤ c.toNat ∧ c.toNat < 0xE000) := by
    have := c.valid
    unfold UInt32.isValidChar Nat.isValidChar at this
    unfold Char.toNat
    omega
  rw [ofNat, dif_neg hvalid, Char.ofNat_toNat]

end CodePoint

/-- A text with half of a pair in it. -/
structure BrokenText where
  points : List CodePoint
  broken : points.any CodePoint.isHalf = true
deriving DecidableEq, Repr

/-- A text that may hold halves of pairs. -/
inductive LooseText where
  | sound (s : String)
  | broken (t : BrokenText)
deriving DecidableEq, Repr

namespace LooseText

/-- The text of code points. -/
def ofPoints (ps : List CodePoint) : LooseText :=
  if h : ps.any CodePoint.isHalf = true then .broken ⟨ps, h⟩
  else .sound (String.ofList (ps.map CodePoint.shown))

/-- The code points of a text. -/
def points : LooseText → List CodePoint
  | .sound s => s.toList.map .char
  | .broken t => t.points

/-- A text as it is shown where only characters can stand. -/
def shown (t : LooseText) : String := String.ofList (t.points.map CodePoint.shown)

/-- A code point of a text that is quoted with `mark`. -/
def quotePoint (mark : Char) : CodePoint → List Char
  | .char c => Text.quoteChar mark c
  | .half n => ['\\', 'u'] ++ Text.digitsOfWidth 16 4 (0xD800 + n)

/-- A text between quotes. -/
def quoted (t : LooseText) : String :=
  let mark := Text.quoteMark t.shown.toList
  String.ofList (mark :: t.points.flatMap (quotePoint mark) ++ [mark])

theorem map_shown_chars (cs : List Char) : (cs.map CodePoint.char).map CodePoint.shown = cs := by
  rw [List.map_map]
  exact List.map_id cs

theorem ofPoints_chars (cs : List Char) : ofPoints (cs.map .char) = .sound (String.ofList cs) := by
  have hsound : ¬(cs.map CodePoint.char).any CodePoint.isHalf = true := by
    simp [CodePoint.isHalf]
  rw [ofPoints, dif_neg hsound, map_shown_chars]

theorem points_ofPoints (ps : List CodePoint) : (ofPoints ps).points = ps := by
  unfold ofPoints
  split
  next => rfl
  next h =>
    have hchar : ∀ p ∈ ps, CodePoint.char p.shown = p := by
      intro p hp
      cases p with
      | char c => rfl
      | half n => exact absurd (List.any_eq_true.mpr ⟨_, hp, rfl⟩) h
    rw [points, String.toList_ofList, List.map_map]
    exact (List.map_congr_left hchar).trans (List.map_id ps)

end LooseText

end Custody
