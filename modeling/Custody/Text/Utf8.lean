import Custody.Text.CodePoint

/-!
# UTF-8

A character is written as one to four bytes, of which the first tells how many follow. Bytes that are no
character are read as gaps, one for each run that begins like a character as far as it goes. The halves
of surrogate pairs are spelled with three bytes in the same way; they are read where they are let
through, and are no characters elsewhere.

> `decode_encode`: a text is read back from its bytes.
-/

namespace Custody.Utf8

/-- The bytes of a text. -/
def encode (s : String) : List UInt8 := s.toList.flatMap String.utf8EncodeChar

theorem encodeChar_of_ascii {c : Char} (h : c.toNat < 0x80) :
    String.utf8EncodeChar c = [UInt8.ofNat c.toNat] := if_pos (Nat.le_of_lt_succ h)

/-- The character that stands for a gap. -/
def replacement : Char := '\uFFFD'

/-- A character of which some bytes are there: how many are missing, between which bounds the next
one lies, and the bits so far. -/
inductive Pending where
  | idle
  | more (missing low high bits : Nat)
deriving DecidableEq, Repr

namespace Pending

/-- What a character that is broken off leaves. -/
def flush : Pending → List (Option CodePoint)
  | .idle => []
  | .more .. => [none]

/-- The first byte of a character. -/
def start (halves : Bool) (b : Nat) : Pending × List (Option CodePoint) :=
  if b < 0x80 then (.idle, [some (.ofNat b)])
  else if b < 0xC2 then (.idle, [none])
  else if b < 0xE0 then (.more 1 0x80 0xBF (b % 32), [])
  else if b < 0xF0 then
    (.more 2 (if b = 0xE0 then 0xA0 else 0x80) (if b = 0xED ∧ !halves then 0x9F else 0xBF) (b % 16),
      [])
  else if b < 0xF5 then
    (.more 3 (if b = 0xF0 then 0x90 else 0x80) (if b = 0xF4 then 0x8F else 0xBF) (b % 8), [])
  else (.idle, [none])

/-- The next byte. A byte that does not belong to the character begins another one. -/
def feed (halves : Bool) (p : Pending) (b : Nat) : Pending × List (Option CodePoint) :=
  match p with
  | .idle => start halves b
  | .more missing low high bits =>
    if low ≤ b ∧ b ≤ high then
      let bits := bits * 64 + b % 64
      if missing ≤ 1 then (.idle, [some (.ofNat bits)])
      else (.more (missing - 1) 0x80 0xBF bits, [])
    else
      let (q, ps) := start halves b
      (q, none :: ps)

end Pending

/-- The code points of bytes, after some bytes of a character. -/
def decodeFrom (halves : Bool) (p : Pending) : List UInt8 → List (Option CodePoint)
  | [] => p.flush
  | b :: bs => (p.feed halves b.toNat).2 ++ decodeFrom halves (p.feed halves b.toNat).1 bs

/-- The code points of bytes, with gaps. -/
def decode (halves : Bool) (bs : List UInt8) : List (Option CodePoint) := decodeFrom halves .idle bs

/-- The character that is shown for a code point or for a gap. -/
def shown (p : Option CodePoint) : Char := (p.map CodePoint.shown).getD replacement

/-- The code points of bytes that have no gap, halves of pairs among them. -/
def points? (bs : List UInt8) : Option (List CodePoint) := (decode true bs).mapM id

/-- The characters of bytes, with a replacement for each gap. -/
def legible (bs : List UInt8) : List Char := (decode false bs).map shown

/-! ## Reading back -/

namespace Pending

variable {halves : Bool} {b : Nat}

theorem feed_one (h : b < 0x80) : feed halves .idle b = (.idle, [some (.ofNat b)]) := if_pos h

theorem feed_two (h : 0xC2 ≤ b) (h' : b < 0xE0) :
    feed halves .idle b = (.more 1 0x80 0xBF (b % 32), []) := by
  rw [feed, start, if_neg (by omega), if_neg (by omega), if_pos h']

theorem feed_three (h : 0xE0 ≤ b) (h' : b < 0xF0) :
    feed halves .idle b = (.more 2 (if b = 0xE0 then 0xA0 else 0x80)
      (if b = 0xED ∧ !halves then 0x9F else 0xBF) (b % 16), []) := by
  rw [feed, start, if_neg (by omega), if_neg (by omega), if_neg (by omega), if_pos h']

theorem feed_four (h : 0xF0 ≤ b) (h' : b < 0xF5) :
    feed halves .idle b = (.more 3 (if b = 0xF0 then 0x90 else 0x80) (if b = 0xF4 then 0x8F else 0xBF)
      (b % 8), []) := by
  rw [feed, start, if_neg (by omega), if_neg (by omega), if_neg (by omega), if_neg (by omega), if_pos h']

theorem feed_more {missing low high bits : Nat} (hl : low ≤ b) (hh : b ≤ high) :
    feed halves (.more (missing + 2) low high bits) b =
      (.more (missing + 1) 0x80 0xBF (bits * 64 + b % 64), []) := by
  rw [feed, if_pos ⟨hl, hh⟩]
  exact if_neg (by omega)

theorem feed_last {low high bits : Nat} (hl : low ≤ b) (hh : b ≤ high) :
    feed halves (.more 1 low high bits) b = (.idle, [some (.ofNat (bits * 64 + b % 64))]) := by
  rw [feed, if_pos ⟨hl, hh⟩]
  exact if_pos (Nat.le_refl 1)

end Pending

theorem decodeFrom_cons {halves : Bool} {p q : Pending} {ps : List (Option CodePoint)} {n : Nat}
    (hn : n < 256) (h : p.feed halves n = (q, ps)) (bs : List UInt8) :
    decodeFrom halves p (UInt8.ofNat n :: bs) = ps ++ decodeFrom halves q bs := by
  rw [decodeFrom, UInt8.toNat_ofNat_of_lt' hn, h]

/-- A character is read back from its bytes. -/
theorem decodeFrom_encodeChar (halves : Bool) (c : Char) (bs : List UInt8) :
    decodeFrom halves .idle (String.utf8EncodeChar c ++ bs) =
      some (.char c) :: decodeFrom halves .idle bs := by
  rw [← CodePoint.ofNat_toNat_char c]
  have hvalid := c.valid
  unfold UInt32.isValidChar Nat.isValidChar at hvalid
  unfold String.utf8EncodeChar Char.toNat
  dsimp only
  generalize c.val.toNat = v at hvalid ⊢
  -- One case for each number of bytes, whose bits make up the number again.
  split
  · exact decodeFrom_cons (by omega) (Pending.feed_one (by omega)) bs
  split
  · refine (decodeFrom_cons (by omega) (Pending.feed_two (by omega) (by omega)) _).trans ?_
    refine (decodeFrom_cons (by omega) (Pending.feed_last (by omega) (by omega)) _).trans ?_
    rw [show (v / 64 % 32 + 192) % 32 * 64 + (v % 64 + 128) % 64 = v by omega]
    rfl
  split
  · refine (decodeFrom_cons (by omega) (Pending.feed_three (by omega) (by omega)) _).trans ?_
    refine (decodeFrom_cons (by omega)
      (Pending.feed_more (by split <;> omega) (by split <;> omega)) _).trans ?_
    refine (decodeFrom_cons (by omega) (Pending.feed_last (by omega) (by omega)) _).trans ?_
    rw [show ((v / 4096 % 16 + 224) % 16 * 64 + (v / 64 % 64 + 128) % 64) * 64 + (v % 64 + 128) % 64 = v
      by omega]
    rfl
  · refine (decodeFrom_cons (by omega) (Pending.feed_four (by omega) (by omega)) _).trans ?_
    refine (decodeFrom_cons (by omega)
      (Pending.feed_more (by split <;> omega) (by split <;> omega)) _).trans ?_
    refine (decodeFrom_cons (by omega) (Pending.feed_more (by omega) (by omega)) _).trans ?_
    refine (decodeFrom_cons (by omega) (Pending.feed_last (by omega) (by omega)) _).trans ?_
    rw [show (((v / 262144 % 8 + 240) % 8 * 64 + (v / 4096 % 64 + 128) % 64) * 64 +
      (v / 64 % 64 + 128) % 64) * 64 + (v % 64 + 128) % 64 = v by omega]
    rfl

theorem decode_encode (halves : Bool) (s : String) :
    decode halves (encode s) = s.toList.map fun c => some (.char c) := by
  rw [decode, encode]
  induction s.toList with
  | nil => rfl
  | cons c cs ih => rw [List.flatMap_cons, decodeFrom_encodeChar, ih, List.map_cons]

theorem points?_encode (s : String) : points? (encode s) = some (s.toList.map .char) := by
  rw [points?, decode_encode, List.mapM_map]
  exact List.mapM_pure

/-- An overlong spelling is no character; half of a pair is read where it is let through. -/
example : legible [0xE0, 0x80, 0x80] = [replacement, replacement, replacement] ∧
    legible [0xED, 0xA0, 0x80] = [replacement, replacement, replacement] ∧
    points? [0xED, 0xA0, 0x80] = some [.half 0] := by
  decide

end Custody.Utf8
