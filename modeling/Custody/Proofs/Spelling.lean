import Mathlib.Tactic.SplitIfs
import Custody.Ledger.Books

/-!
# Texts that are read back

What is written as JSON in the compact layout is read as what it was: a text with all its escapes,
and the answer of the gateway with the transaction in it.

> `Json.readText_escaped`: a character is read back from its spelling.
> `Gateway.settleOutcome_settleAnswer`: the client takes from an answer the transaction that the
> gateway named.
-/

namespace Custody

namespace Text

theorem hexDigit?_hexChar {d : Nat} (h : d < 16) : hexDigit? (hexChar d) = some d := by
  revert d
  decide

end Text

namespace Json

/-! ## Texts -/

/-- Four hexadecimal digits stand for the number that was written with them. -/
theorem hexQuad_digitsOfWidth {n : Nat} (h : n < 0x10000) (ps : List CodePoint) :
    hexQuad ((Text.digitsOfWidth 16 4 n).map .char ++ ps) = some (n, ps) := by
  have hdigit : ∀ m, Text.hexDigit? (Text.hexChar (m % 16)) = some (m % 16) :=
    fun m => Text.hexDigit?_hexChar (Nat.mod_lt m (by decide))
  have hvalue : ((n / 16 / 16 / 16 % 16 * 16 + n / 16 / 16 % 16) * 16 + n / 16 % 16) * 16 + n % 16 =
      n := by omega
  simp [Text.digitsOfWidth, hexQuad, hdigit, hvalue]

section Characters

variable (start : List CodePoint) (fuel : Nat) (acc : List CodePoint)

/-- A character that stands for itself. -/
theorem readText_plain {c : Char} (hq : c ≠ '"') (hb : c ≠ '\\') (hc : 0x20 ≤ c.toNat)
    (ps : List CodePoint) :
    readText start (fuel + 1) acc (.char c :: ps) = readText start fuel (.char c :: acc) ps := by
  -- The other equations of `readText` are for a quote and for a backslash.
  rw [readText, if_neg (by show ¬c.toNat < 0x20; omega)]
  all_goals simp_all

/-- A character with an escape of one letter. -/
theorem readText_letter {e c : Char} (he : escape? (.char e) = some c) (ps : List CodePoint) :
    readText start (fuel + 1) acc (.char '\\' :: .char e :: ps) =
      readText start fuel (.char c :: acc) ps := by
  have hu : e ≠ 'u' := by
    rintro rfl
    cases he
  rw [readText]
  · rw [he]
  · simpa using hu

/-- A character by its code unit, where the text goes on. -/
theorem readText_unit {n : Nat} (hn : n < 0xD800) {ps : List CodePoint} (hps : ps ≠ []) :
    readText start (fuel + 1) acc ((unitEscape n).map .char ++ ps) =
      readText start fuel (.char (Char.ofNat n) :: acc) ps := by
  have hquad := hexQuad_digitsOfWidth (n := n) (by omega) ps
  have hjoin : joinUnits n ps = (.char (Char.ofNat n), ps) := by
    unfold joinUnits CodePoint.ofNat
    rw [if_neg (by omega), dif_neg (by omega)]
  show readText start (fuel + 1) acc
    (.char '\\' :: .char 'u' :: ((Text.digitsOfWidth 16 4 n).map .char ++ ps)) = _
  rw [readText, hquad]
  simp only [List.isEmpty_iff, hps, if_false, hjoin]

/-- A character is read back from its spelling, where the text goes on. -/
theorem readText_escaped (c : Char) {ps : List CodePoint} (hps : ps ≠ []) :
    readText start (fuel + 1) acc ((escaped false c).map .char ++ ps) =
      readText start fuel (.char c :: acc) ps := by
  have letter : ∀ e, escape? (.char e) = some c →
      readText start (fuel + 1) acc (['\\', e].map .char ++ ps) = _ :=
    fun e he => readText_letter start fuel acc he ps
  have numbered : ∀ n, c.toNat = n → Char.ofNat n = c := fun n hn => hn ▸ Char.ofNat_toNat c
  simp only [escaped, Bool.not_false, Bool.true_or, if_true]
  split_ifs with hq hb hn hr ht h8 h12 hlow
  · exact letter '"' (by rw [hq]; rfl)
  · exact letter '\\' (by rw [hb]; rfl)
  · exact letter 'n' (by rw [hn]; rfl)
  · exact letter 'r' (by rw [hr]; rfl)
  · exact letter 't' (by rw [ht]; rfl)
  · exact letter 'b' (by rw [← numbered 8 h8]; rfl)
  · exact letter 'f' (by rw [← numbered 12 h12]; rfl)
  · have hunit := readText_unit start fuel acc (n := c.toNat) (by omega) hps
    rw [Char.ofNat_toNat] at hunit
    exact hunit
  · exact readText_plain start fuel acc hq hb (by omega) ps

/-- The spelling of characters inside a text. -/
def spelling (cs : List Char) : List CodePoint := (cs.flatMap (escaped false)).map .char

/-- A text is read back up to its closing quote. -/
theorem readText_quoted {cs : List Char} (h : cs.length < fuel) (rest : List CodePoint) :
    readText start fuel acc (spelling cs ++ .char '"' :: rest) =
      .ok (.ofPoints (acc.reverse ++ cs.map .char), rest) := by
  induction cs generalizing fuel acc with
  | nil =>
    obtain ⟨fuel, rfl⟩ := Nat.exists_eq_succ_of_ne_zero (Nat.ne_of_gt h)
    rw [List.map_nil, List.append_nil]
    rfl
  | cons c cs ih =>
    obtain ⟨fuel, rfl⟩ := Nat.exists_eq_succ_of_ne_zero (Nat.ne_of_gt (Nat.zero_lt_of_lt h))
    rw [spelling, List.flatMap_cons, List.map_append, List.append_assoc,
      readText_escaped start fuel acc c (by simp)]
    rw [show (cs.flatMap (escaped false)).map CodePoint.char = spelling cs from rfl,
      ih fuel _ (by simpa using h)]
    simp

/-- A whole text is read back. -/
theorem readText_sound {s : String} (h : s.toList.length < fuel) (rest : List CodePoint) :
    readText start fuel [] (spelling s.toList ++ .char '"' :: rest) = .ok (.sound s, rest) := by
  rw [readText_quoted start fuel [] h, List.reverse_nil, List.nil_append, LooseText.ofPoints_chars,
    String.ofList_toList]

end Characters

/-- A text in quotes is read as what it was. -/
theorem readValue_text (room fuel : Nat) (s : String) (rest : List CodePoint)
    (h : s.toList.length < fuel) :
    readValue room (fuel + 1) (.char '"' :: (spelling s.toList ++ .char '"' :: rest)) =
      .ok (.text s, rest) := by
  rw [readValue, readText_sound _ fuel h]
  rfl

/-! ## Objects -/

theorem toList_quote (s : String) :
    (quote false (.sound s)).toList = '"' :: (s.toList.flatMap (escaped false) ++ ['"']) := by
  rw [quote, LooseText.points, List.flatMap_map, String.toList_ofList]
  rfl

/-- The spelling of an object with one text. -/
theorem toList_toText_single (key s : String) :
    (object [(key, .text s)]).toText.toList =
      '\x7b' :: '"' :: (key.toList.flatMap (escaped false) ++ '"' :: ':' :: '"' ::
        (s.toList.flatMap (escaped false) ++ '"' :: ['\x7d'])) := by
  simp [toText, render, renderMembers, keyOf, compact, String.toList_append, toList_quote]

/-- The same as code points. -/
theorem points_toText_single (key s : String) :
    (object [(key, .text s)]).toText.toList.map .char =
      .char '\x7b' :: .char '"' :: (spelling key.toList ++ .char '"' :: .char ':' :: .char '"' ::
        (spelling s.toList ++ .char '"' :: [.char '\x7d'])) := by
  rw [toList_toText_single]
  simp [spelling]

theorem skipBlanks_colon (ps : List CodePoint) : skipBlanks (.char ':' :: ps) = .char ':' :: ps := rfl

theorem skipBlanks_quote (ps : List CodePoint) : skipBlanks (.char '"' :: ps) = .char '"' :: ps := rfl

/-- The only member of an object is read as what it was. -/
theorem readMembers_single (room fuel : Nat) (key s : String) (hk : key.toList.length < fuel + 1)
    (hs : s.toList.length < fuel) :
    readMembers room (fuel + 2) [] (.char '"' :: (spelling key.toList ++ .char '"' :: .char ':' ::
        .char '"' :: (spelling s.toList ++ .char '"' :: [.char '\x7d']))) =
      .ok (.object [(key, .text s)], []) := by
  rw [readMembers, readText_sound _ (fuel + 1) hk]
  simp only [skipBlanks_colon, skipBlanks_quote, readValue_text room fuel s [.char '\x7d'] hs]
  rfl

theorem length_le_spelling (cs : List Char) : cs.length ≤ (spelling cs).length := by
  rw [spelling, List.length_map]
  induction cs with
  | nil => exact Nat.le_refl _
  | cons c cs ih =>
    have hpos : 1 ≤ (escaped false c).length := by
      unfold escaped unitEscape
      grind
    rw [List.flatMap_cons, List.length_append, List.length_cons]
    omega

/-- An object with one text is read as what it was, however little room there is. -/
theorem ofPoints_single (spare : Nat) (key s : String) :
    ofPoints spare ((object [(key, .text s)]).toText.toList.map .char) =
      .ok (.object [(key, .text s)]) := by
  have hk := length_le_spelling key.toList
  have hs := length_le_spelling s.toList
  rw [points_toText_single]
  generalize hmembers : .char '"' :: (spelling key.toList ++ .char '"' :: .char ':' :: .char '"' ::
    (spelling s.toList ++ .char '"' :: [.char '\x7d'])) = ms
  -- The fuel is enough: each character that was read is spelled with at least one.
  obtain ⟨fuel, hfuel, hlk, hls⟩ : ∃ fuel, 2 * (CodePoint.char '\x7b' :: ms).length + 1 = fuel + 3 ∧
      key.toList.length < fuel + 1 ∧ s.toList.length < fuel := by
    refine ⟨2 * (CodePoint.char '\x7b' :: ms).length - 2, ?_, ?_, ?_⟩ <;> subst hmembers <;>
      simp only [List.length_cons, List.length_append] <;> omega
  have hread := readMembers_single spare fuel key s hlk hls
  rw [hmembers] at hread
  have hvalue : readValue (spare + 1) (fuel + 3) (.char '\x7b' :: ms) =
      .ok (.object [(key, .text s)], []) := by
    rw [readValue, if_neg (Nat.succ_ne_zero spare), ← hread, ← hmembers]
    rfl
  unfold ofPoints
  rw [hfuel, show skipBlanks (.char '\x7b' :: ms) = .char '\x7b' :: ms from rfl, hvalue]
  rfl

end Json

/-! ## Answers of the gateway -/

namespace Gateway

/-- The document of an answer is read as what it was. -/
theorem ofDocument_answer (spare : Nat) (t : String) :
    Json.ofDocument spare (Utf8.encode (Json.object [("tx_hash", .text t)]).toText) =
      .ok (.object [("tx_hash", .text t)]) := by
  rw [Json.ofDocument_encode (Json.toList_toText_single "tx_hash" t) (by decide) (by decide)]
  exact Json.ofPoints_single spare "tx_hash" t

/-- From an answer that can be taken the client takes the transaction that the gateway named. -/
theorem settleOutcome_settleAnswer {a : Address} {t : String} {t' : LooseText} :
    settleOutcome a (settleAnswer t) = .ok t' ↔ a.tellsKind = true ∧ t' = .sound t := by
  have hsuccess : isSuccess 200 = true := by decide
  unfold settleAnswer settleOutcome
  cases a.tellsKind with
  | false => exact ⟨(fun h => nomatch h), (fun h => nomatch h.1)⟩
  | true =>
    simp only [hsuccess, ofDocument_answer, true_and]
    exact ⟨fun h => (Except.ok.inj h).symm, fun h => congrArg Except.ok h.symm⟩

end Gateway

end Custody
