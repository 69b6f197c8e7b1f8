import Custody.Proofs.Amount

/-!
# Amounts and their column

The column of an amount has room for 20 digits, 7 of them behind the point. The bounds on a request are
those of the column. Every number for which the column has room is accepted, however it is written: with a
sign, with zeros in front and behind, with or without a point, with any exponent. And no others are, if the
arithmetic by which the bounds are judged keeps the number: one that it rounds is accepted for what it is
rounded to.

> `ofText_toText`: a number is read as what it was written for.
> `amount_ok_iff_fitsColumn`: the amounts that are accepted are those for which the column has room.
-/

namespace Custody

open Decimal (digitCount scaled)

/-- The numbers above zero with no more than 13 digits before the point and 7 behind it. -/
structure FitsColumn (v : ℚ) : Prop where
  positive : 0 < v
  below : v < 10 ^ 13
  units : InUnits v

/-! ## Written numbers -/

/-- An exponent as it is written: the letter, a sign, where there is one, and digits. -/
structure WrittenExponent where
  capital : Bool
  sign : Option Bool
  digits : List (Fin 10)
  nonempty : digits ≠ []

/-- A number as it is written: with a plus or without, with digits before the point and, where there
is one, behind it, and with an exponent or without. -/
structure WrittenNumber where
  plus : Bool
  whole : List (Fin 10)
  fraction : Option (List (Fin 10))
  exponent : Option WrittenExponent
  nonempty : whole ++ fraction.getD [] ≠ []

/-- The digits as characters. -/
def digitChars (ds : List (Fin 10)) : List Char := ds.map fun d => Text.hexChar d.val

/-- The number that digits stand for. -/
def ofDigitList (ds : List (Fin 10)) : Nat := Text.ofDigits 10 (ds.map Fin.val)

/-- The characters of a sign; it is a minus when `true`. -/
def signChars : Option Bool → List Char
  | none => []
  | some true => ['-']
  | some false => ['+']

namespace WrittenExponent

/-- The characters behind the letter. -/
def rest (x : WrittenExponent) : List Char := signChars x.sign ++ digitChars x.digits

def value (x : WrittenExponent) : Int :=
  if x.sign = some true then -ofDigitList x.digits else ofDigitList x.digits

end WrittenExponent

namespace WrittenNumber

variable (w : WrittenNumber)

/-- The sign: a plus or none. -/
def sign : Option Bool := if w.plus then some false else none

/-- The digits and the point. -/
def digitsAndPoint : List Char :=
  digitChars w.whole ++ w.fraction.elim [] fun ds => '.' :: digitChars ds

/-- The exponent, if there is one, in front of the sign its letter of either case. -/
def exponentText : List Char :=
  w.exponent.elim [] fun x => (if x.capital then 'E' else 'e') :: x.rest

def toText : String := String.ofList (signChars w.sign ++ (w.digitsAndPoint ++ w.exponentText))

/-- The number that all digits stand for. -/
def coefficient : Nat := ofDigitList (w.whole ++ w.fraction.getD [])

/-- The place of the last digit. -/
def place : Int := w.exponent.elim 0 WrittenExponent.value - (w.fraction.getD []).length

def value : ℚ := scaled w.coefficient w.place

end WrittenNumber

/-! ## Reading -/

/-- What comes after digits starts with no digit. -/
def NoDigitAhead (cs : List Char) : Prop := ∀ c ∈ cs.head?, Text.asciiDigit? c = none

theorem asciiDigit?_hexChar (d : Fin 10) : Text.asciiDigit? (Text.hexChar d.val) = some d.val := by
  revert d
  decide

theorem spanDigits_digitChars (ds : List (Fin 10)) {cs : List Char} (h : NoDigitAhead cs) :
    Decimal.spanDigits (digitChars ds ++ cs) = (ds.map Fin.val, cs) := by
  induction ds with
  | nil =>
    cases cs with
    | nil => rfl
    | cons c cs => simp [digitChars, Decimal.spanDigits, h c rfl]
  | cons d ds ih =>
    have hcons : digitChars (d :: ds) ++ cs = Text.hexChar d.val :: (digitChars ds ++ cs) := rfl
    rw [hcons, Decimal.spanDigits, asciiDigit?_hexChar, ih]
    rfl

/-- The characters of numbers, which reading leaves as they are but for the capital letter. -/
def numberChars : List Char := ['0', '1', '2', '3', '4', '5', '6', '7', '8', '9', '.', '+', '-', 'e']

theorem hexChar_mem (d : Fin 10) : Text.hexChar d.val ∈ numberChars := by
  revert d
  decide

theorem digitChars_subset (ds : List (Fin 10)) : ∀ c ∈ digitChars ds, c ∈ numberChars := by
  intro c hc
  obtain ⟨d, -, rfl⟩ := List.mem_map.mp hc
  exact hexChar_mem d

theorem signChars_subset (sign : Option Bool) : ∀ c ∈ signChars sign, c ∈ numberChars := by
  rcases sign with _ | _ | _ <;> simp [signChars, numberChars]

/-- A text without blanks is not trimmed. -/
theorem trim_eq_self {cs : List Char} (h : ∀ c ∈ cs, Text.isBlank c = false) : Text.trim cs = cs := by
  have hdrop : ∀ {ds : List Char}, (∀ c ∈ ds, Text.isBlank c = false) →
      ds.dropWhile Text.isBlank = ds := by
    intro ds hds
    cases ds with
    | nil => rfl
    | cons d ds => rw [List.dropWhile_cons_of_neg (by simp [hds d (by simp)])]
  rw [Text.trim, Text.trimBy, hdrop h, hdrop (by simpa using h), List.reverse_reverse]

/-- What reading makes of the characters of a text. -/
def readableChars (cs : List Char) : List Char :=
  ((Text.trim cs).filter (· != '_')).map (Text.foldAscii ∘ Text.plainDigit)

theorem readableChars_eq {cs : List Char} (h : ∀ c ∈ cs, c ∈ 'E' :: numberChars) :
    readableChars cs = cs.map Text.foldAscii := by
  have hplain : ∀ c ∈ 'E' :: numberChars, Text.isBlank c = false ∧ (c != '_') = true ∧
      (Text.foldAscii ∘ Text.plainDigit) c = Text.foldAscii c :=
    List.forall_iff_forall_mem.mp (by decide)
  rw [readableChars, trim_eq_self fun c hc => (hplain c (h c hc)).1,
    List.filter_eq_self.mpr fun c hc => (hplain c (h c hc)).2.1]
  exact List.map_congr_left fun c hc => (hplain c (h c hc)).2.2

theorem map_foldAscii_eq {cs : List Char} (h : ∀ c ∈ cs, c ∈ numberChars) :
    cs.map Text.foldAscii = cs := by
  have hsame : ∀ c ∈ numberChars, Text.foldAscii c = c :=
    List.forall_iff_forall_mem.mp (by decide)
  exact (List.map_congr_left fun c hc => hsame c (h c hc)).trans (List.map_id _)

/-- A sign is read before anything but another one. -/
theorem spanSign_signChars (sign : Option Bool) {c : Char} (cs : List Char) (hplus : c ≠ '+')
    (hminus : c ≠ '-') :
    Decimal.spanSign (signChars sign ++ c :: cs) = (sign == some true, c :: cs) := by
  rcases sign with _ | _ | _
  · show Decimal.spanSign (c :: cs) = _
    unfold Decimal.spanSign
    split
    next heq => exact absurd (List.cons.inj heq).1 hminus
    next heq => exact absurd (List.cons.inj heq).1 hplus
    next => rfl
  · rfl
  · rfl

theorem hexChar_ne (d : Fin 10) : Text.hexChar d.val ∉ ['+', '-', 'i', 'n', 's'] := by
  revert d
  decide

/-- A text that begins like a number is read as one. -/
theorem ofText_of_number {t : String} {sign : Option Bool} {c : Char} {cs : List Char}
    (ht : readableChars t.toList = signChars sign ++ c :: cs) (hc : c ∉ ['+', '-', 'i', 'n', 's']) :
    Decimal.ofText t = Decimal.readFinite (sign == some true) (c :: cs) := by
  simp only [List.mem_cons, List.not_mem_nil, or_false, not_or] at hc
  obtain ⟨hplus, hminus, hi, hn, hs⟩ := hc
  unfold readableChars at ht
  simp only [Decimal.ofText, ht, spanSign_signChars sign cs hplus hminus]
  rw [if_neg]
  · split
    next heq => exact absurd (List.cons.inj heq).1 hn
    next heq => exact absurd (List.cons.inj heq).1 hs
    next => rfl
  · simp [hi]

theorem WrittenExponent.rest_subset (x : WrittenExponent) : ∀ c ∈ x.rest, c ∈ numberChars := by
  intro c hc
  rcases List.mem_append.mp hc with hc | hc
  · exact signChars_subset _ c hc
  · exact digitChars_subset _ c hc

theorem noDigitAhead_nil : NoDigitAhead [] := fun _ hc => nomatch hc

/-- A number in an exponent is read with its sign. -/
theorem WrittenExponent.readExponent_rest (x : WrittenExponent) :
    Decimal.readExponent ('e' :: x.rest) = some x.value := by
  obtain ⟨capital, sign, ds, hds⟩ := x
  obtain ⟨d, ds, rfl⟩ := List.exists_cons_of_ne_nil hds
  have hspan := spanDigits_digitChars (d :: ds) noDigitAhead_nil
  rw [List.append_nil] at hspan
  have hd := hexChar_ne d
  simp only [List.mem_cons, not_or] at hd
  have hsign : Decimal.spanSign (signChars sign ++ digitChars (d :: ds)) =
      (sign == some true, digitChars (d :: ds)) := spanSign_signChars sign _ hd.1 hd.2.1
  simp only [Decimal.readExponent, WrittenExponent.rest, hsign, hspan]
  rcases sign with _ | _ | _ <;> rfl

namespace WrittenNumber

variable (w : WrittenNumber)

/-- The exponent as it is read. -/
def exponentChars : List Char := w.exponent.elim [] fun x => 'e' :: x.rest

theorem head?_exponentChars : ∀ c ∈ w.exponentChars.head?, c = 'e' := by
  unfold exponentChars
  cases w.exponent with
  | none => exact fun _ hc => nomatch hc
  | some x =>
    rintro _ ⟨⟩
    rfl

theorem readExponent_exponentChars :
    Decimal.readExponent w.exponentChars = some (w.exponent.elim 0 WrittenExponent.value) := by
  unfold exponentChars
  cases w.exponent with
  | none => rfl
  | some x => exact x.readExponent_rest

/-- The digits are read together, and the point tells how many of them count as places. -/
theorem readScientific?_chars : Decimal.readScientific? (w.digitsAndPoint ++ w.exponentChars) =
    some (w.coefficient, w.place) := by
  have hhead := w.head?_exponentChars
  have hahead : NoDigitAhead w.exponentChars := fun c hc => by rw [hhead c hc]; decide
  have hexponent := w.readExponent_exponentChars
  have hsome := w.nonempty
  unfold digitsAndPoint coefficient place
  rw [List.append_assoc]
  -- Of the exponent, only that it is read and that no digit begins it matters to the digits.
  generalize w.exponentChars = cs at *
  cases hfraction : w.fraction with
  | none =>
    rw [hfraction] at hsome
    have hwhole : w.whole ≠ [] := by simpa using hsome
    simp only [Decimal.readScientific?, Option.elim_none, List.nil_append,
      spanDigits_digitChars w.whole hahead]
    split
    next r heq => cases hhead '.' rfl
    next => simp [hwhole, hexponent, ofDigitList]
  | some ds =>
    rw [hfraction] at hsome
    have hpoint : NoDigitAhead ('.' :: (digitChars ds ++ cs)) := by
      rintro _ ⟨⟩
      decide
    have hempty : ((w.whole.map Fin.val).isEmpty && (ds.map Fin.val).isEmpty) = false := by
      simpa [List.isEmpty_iff] using hsome
    simp only [Decimal.readScientific?, Option.elim_some, List.cons_append,
      spanDigits_digitChars w.whole hpoint, spanDigits_digitChars ds hahead, hempty]
    simp [hexponent, ofDigitList]

theorem digitsAndPoint_subset : ∀ c ∈ w.digitsAndPoint, c ∈ numberChars := by
  intro c hc
  rcases List.mem_append.mp hc with hc | hc
  · exact digitChars_subset _ c hc
  · cases hfraction : w.fraction with
    | none =>
      rw [hfraction] at hc
      cases hc
    | some ds =>
      rw [hfraction] at hc
      rcases List.mem_cons.mp hc with rfl | hc
      · decide
      · exact digitChars_subset _ c hc

/-- The case of the letter is all that reading changes in an exponent. -/
theorem exponentText_readable : (∀ c ∈ w.exponentText, c ∈ 'E' :: numberChars) ∧
    w.exponentText.map Text.foldAscii = w.exponentChars := by
  unfold exponentText exponentChars
  cases w.exponent with
  | none => exact ⟨fun _ hc => (nomatch hc), rfl⟩
  | some x =>
    have hletter : (if x.capital then 'E' else 'e') ∈ 'E' :: numberChars ∧
        Text.foldAscii (if x.capital then 'E' else 'e') = 'e' := by
      cases x.capital <;> decide
    constructor
    · intro c hc
      rcases List.mem_cons.mp hc with rfl | hc
      · exact hletter.1
      · exact List.mem_cons_of_mem _ (x.rest_subset c hc)
    · rw [Option.elim_some, List.map_cons, hletter.2, map_foldAscii_eq x.rest_subset]
      rfl

theorem readableChars_toText :
    readableChars w.toText.toList = signChars w.sign ++ (w.digitsAndPoint ++ w.exponentChars) := by
  obtain ⟨hexponent, hread⟩ := w.exponentText_readable
  unfold toText
  rw [String.toList_ofList, readableChars_eq, List.map_append, List.map_append, hread,
    map_foldAscii_eq (signChars_subset _), map_foldAscii_eq w.digitsAndPoint_subset]
  intro c hc
  rcases List.mem_append.mp hc with hc | hc
  · exact List.mem_cons_of_mem _ (signChars_subset _ c hc)
  · rcases List.mem_append.mp hc with hc | hc
    · exact List.mem_cons_of_mem _ (w.digitsAndPoint_subset c hc)
    · exact hexponent c hc

/-- Digits or a point come first. -/
theorem digitsAndPoint_eq_cons :
    ∃ c cs, w.digitsAndPoint = c :: cs ∧ c ∉ ['+', '-', 'i', 'n', 's'] := by
  have hsome := w.nonempty
  unfold digitsAndPoint
  cases hwhole : w.whole with
  | cons d ds => exact ⟨_, _, rfl, hexChar_ne d⟩
  | nil =>
    cases hfraction : w.fraction with
    | none =>
      rw [hwhole, hfraction] at hsome
      exact absurd rfl hsome
    | some ds => exact ⟨'.', _, rfl, by decide⟩

/-- A number is read as what it was written for. -/
theorem ofText_toText :
    Decimal.ofText w.toText = Decimal.checked false w.coefficient w.place := by
  have hread := w.readableChars_toText
  have hscientific := w.readScientific?_chars
  have hpositive : (w.sign == some true) = false := by
    unfold sign
    cases w.plus <;> rfl
  obtain ⟨c, cs, hcons, hc⟩ := w.digitsAndPoint_eq_cons
  rw [hcons, List.cons_append] at hread hscientific
  rw [ofText_of_number hread hc, hpositive]
  simp only [Decimal.readFinite, hscientific]

end WrittenNumber

/-! ## Amounts -/

namespace FitsColumn

variable {v : ℚ} (h : FitsColumn v)
include h

/-- A number in units of the column has at most 20 digits. -/
theorem exists_scaled : ∃ m, v = scaled m (-7) ∧ m ≠ 0 ∧ digitCount m ≤ 20 := by
  obtain ⟨m, rfl⟩ := inUnits_iff.mp h.units
  have hm : m ≠ 0 := Decimal.scaled_pos_iff.mp h.positive
  have hle := (Decimal.scaled_lt_pow_iff (k := 13) hm).mp (by exact_mod_cast h.below)
  exact ⟨m, rfl, hm, by omega⟩

/-- So arithmetic that has room for it keeps it as it is. -/
theorem gives_self {ctx : Decimal.Context} (hroom : ctx.Roomy) : ctx.Gives v v := by
  obtain ⟨m, rfl, hm, hdigits⟩ := h.exists_scaled
  exact hroom.gives_self hm hdigits le_rfl

/-- Its size lies between a unit of the column and the bound. -/
theorem size {c : Nat} {e : Int} (hv : v = scaled c e) :
    c ≠ 0 ∧ -7 < digitCount c + e ∧ digitCount c + e ≤ 13 := by
  have hc : c ≠ 0 := Decimal.scaled_pos_iff.mp (hv ▸ h.positive)
  obtain ⟨m, hm, hm0, -⟩ := h.exists_scaled
  have hunit := Decimal.pow_le_scaled hm0 (-7)
  rw [← hm, hv] at hunit
  have hlow := Decimal.ten_zpow_lt_iff.mp (lt_of_le_of_lt hunit (Decimal.scaled_lt_pow c e))
  have hpos := Decimal.digitCount_pos m
  refine ⟨hc, by omega, (Decimal.scaled_lt_pow_iff hc).mp ?_⟩
  rw [← hv]
  exact_mod_cast h.below

end FitsColumn

section Amounts

variable {ctx : Decimal.Context} {src : Source} {v : Json} {d : Decimal}

/-- The column has room for an accepted amount that arithmetic keeps. -/
theorem fitsColumn_of_amount (h : amount ctx src v = .ok d) (hkeeps : ctx.Keeps d.value) :
    FitsColumn d.value := by
  obtain ⟨-, c, e, rfl, hc, hfault⟩ := amount_eq_ok_iff_fault.mp h
  have hbelow := (Decimal.scaled_lt_pow_iff hc).mpr (digitCount_add_le hc hfault)
  exact ⟨Decimal.scaled_pos_iff.mpr hc, by exact_mod_cast hbelow, inUnits_of_keeps hc hfault hkeeps⟩

/-- A number for which the column has room is accepted. -/
theorem amount_of_fitsColumn (hroom : ctx.Roomy) (hd : decimal src v = .ok d)
    (h : FitsColumn d.value) : amount ctx src v = .ok d :=
  (amount_eq_ok_iff hroom).mpr
    ⟨hd, h.positive, by exact_mod_cast h.below, _, h.gives_self hroom, h.units⟩

theorem decimal_text {t : String} (ht : Decimal.ofText t = .ok d) (hd : d.isFinite = true) :
    decimal src (.text t) = .ok d := by
  simp only [decimal, ht, hd, if_true]

theorem isFinite_of_value_ne (h : d.value ≠ 0) : d.isFinite = true := by
  cases d with
  | finite => rfl
  | infinite | undefined => exact absurd rfl h

/-- A number that is made has not too many digits and places. -/
theorem bounds_of_checked {s s' : Bool} {c c' : Nat} {e e' : Int}
    (h : Decimal.checked s c e = .ok (.finite s' c' e')) :
    digitCount c' ≤ Decimal.maxDigits ∧ Decimal.minExponent ≤ e' := by
  unfold Decimal.checked at h
  split at h
  next => cases h
  next hwithin =>
    cases h
    omega

theorem bounds_of_ofText {t : String} {s : Bool} {c : Nat} {e : Int}
    (h : Decimal.ofText t = .ok (.finite s c e)) :
    digitCount c ≤ Decimal.maxDigits ∧ Decimal.minExponent ≤ e := by
  have undefined : ∀ {s' b : Bool} {cs}, Decimal.readUndefined s' b cs ≠ .ok (.finite s c e) := by
    intro s' b cs hread
    unfold Decimal.readUndefined at hread
    split at hread <;> cases hread
  unfold Decimal.ofText at h
  dsimp only at h
  split at h
  next => cases h
  next =>
    split at h
    next => exact absurd h undefined
    next => exact absurd h undefined
    next =>
      unfold Decimal.readFinite at h
      split at h
      next => exact bounds_of_checked h
      next => cases h

/-- Of the exponents only a whole number gives a finite value. -/
theorem bounds_of_scaled {negative : Bool} {exponent : Json} {f : Nat → Reading Decimal} {n : Nat}
    {s : Bool} {c : Nat} {e : Int} (hf : decimalScaled negative exponent = .ok f)
    (h : f n = .ok (.finite s c e)) :
    digitCount c ≤ Decimal.maxDigits ∧ Decimal.minExponent ≤ e := by
  unfold decimalScaled at hf
  split at hf
  next => cases hf; cases h
  next => cases hf; cases h
  next => cases hf; cases h
  next =>
    obtain ⟨x, -, hf⟩ := Except.bind_eq_ok_iff.mp hf
    cases hf
    dsimp only at h
    cases hc : Decimal.checked negative n x with
    | error f =>
      rw [hc] at h
      cases h
    | ok d =>
      rw [hc] at h
      cases h
      exact bounds_of_checked hc

theorem bounds_of_parts {sign digits exponent : Json} {s : Bool} {c : Nat} {e : Int}
    (h : decimalOfParts sign digits exponent = .ok (.finite s c e)) :
    digitCount c ≤ Decimal.maxDigits ∧ Decimal.minExponent ≤ e := by
  obtain ⟨n, -, h⟩ := Except.bind_eq_ok_iff.mp h
  split at h
  next => cases h
  next =>
    obtain ⟨f, hf, h⟩ := Except.bind_eq_ok_iff.mp h
    split at h
    next =>
      obtain ⟨ds, -, h⟩ := Except.bind_eq_ok_iff.mp h
      exact bounds_of_scaled hf h
    next => cases h

/-- Only what is finite is let through, as it is. -/
theorem eq_of_finite {d d' : Decimal}
    (h : (if d.isFinite then .ok d else Reading.fault .finiteNumber) = Except.ok d') : d = d' := by
  split at h
  next => exact Except.ok.inj h
  next => cases h

theorem bounds_of_text {t : String} {s : Bool} {c : Nat} {e : Int}
    (h : decimal src (.text t) = .ok (.finite s c e)) :
    digitCount c ≤ Decimal.maxDigits ∧ Decimal.minExponent ≤ e := by
  unfold decimal at h
  dsimp only at h
  split at h
  next hd => exact bounds_of_ofText (eq_of_finite h ▸ hd)
  next => cases h

theorem bounds_of_list {sign digits exponent : Json} {s : Bool} {c : Nat} {e : Int}
    (h : decimal src (.list [sign, digits, exponent]) = .ok (.finite s c e)) :
    digitCount c ≤ Decimal.maxDigits ∧ Decimal.minExponent ≤ e := by
  unfold decimal at h
  dsimp only at h
  split at h
  next =>
    obtain ⟨d, hd, h⟩ := Except.bind_eq_ok_iff.mp h
    exact bounds_of_parts (eq_of_finite h ▸ hd)
  next => cases h

/-- Whatever an amount is read from, it is a whole number or has not too many digits and places. -/
theorem bounds_of_decimal {s : Bool} {c : Nat} {e : Int}
    (h : decimal src v = .ok (.finite s c e)) :
    e = 0 ∨ digitCount c ≤ Decimal.maxDigits ∧ Decimal.minExponent ≤ e := by
  cases v with
  | text t => exact .inr (bounds_of_text h)
  | int n =>
    cases h
    exact .inl rfl
  | real x =>
    -- A binary number is read as the text that spells it.
    have h : decimal src (.text (if src = .text then x.positionalText else x.text)) =
        .ok (.finite s c e) := h
    exact .inr (bounds_of_text h)
  | list parts =>
    rcases parts with _ | ⟨sign, _ | ⟨digits, _ | ⟨exponent, _ | ⟨more, rest⟩⟩⟩⟩
    case cons.cons.cons.nil => exact .inr (bounds_of_list h)
    all_goals cases h
  | _ => cases h

/-- Where nothing that can be written is lost, every accepted amount is kept. -/
theorem keeps_of_amount (hctx : ctx.Lossless) (h : amount ctx src v = .ok d) : ctx.Keeps d.value := by
  obtain ⟨hd, c, e, rfl, hc, hfault⟩ := amount_eq_ok_iff_fault.mp h
  refine hctx.imp_right fun ⟨hprecision, hleast⟩ => Decimal.roundsTo_self_of_excess hc ?_
  have hmax : Decimal.maxDigits = 999999999999999999 := rfl
  have hmin : Decimal.minExponent = -1999999999999999997 := rfl
  have hbelow := digitCount_add_le hc hfault
  have hbounds := bounds_of_decimal hd
  unfold Decimal.excess
  omega

end Amounts

end Custody
