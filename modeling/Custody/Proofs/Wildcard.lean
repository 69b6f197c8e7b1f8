import Mathlib.Data.List.Infix
import Custody.Text.Pattern

/-!
# What a pattern matches

A pattern says how a text is put together: its signs stand for one character after another, and `%` for as
many as one likes. The rows decide just that, for a text of any length and a pattern with signs for any run
wherever they are. A search text has such a sign on both sides, and so it is found where some piece of a
text fits it. Where each of its characters stands for itself, that is a piece that differs in the case of
letters only.

> `Tells.firstRow`, `Tells.nextRow`: each entry of a row tells whether a piece of the pattern fits what was
> read.
> `matchesPattern_iff`: a text matches if it is put together as the pattern says.
> `containsPattern_iff`: a search text is found by a piece that fits it.
> `found_iff_of_literal`, `exists_found_not_contains`: without special characters by a piece that it is, and
> with any of them not only so.
-/

namespace Custody.Text

/-! ## Patterns -/

/-- A text is put together as a pattern says. -/
inductive Fits : List Char → List Char → Prop
  | nil : Fits [] []
  | run {p t : List Char} (any : List Char) : Fits p t → Fits ('%' :: p) (any ++ t)
  | sign {q c : Char} {p t : List Char} : q ≠ '%' → signMatches q c = true → Fits p t →
      Fits (q :: p) (c :: t)

section Patterns

variable {p p' a t u v : List Char} {q c : Char}

theorem fits_nil_iff : Fits [] t ↔ t = [] := by
  constructor
  · rintro ⟨⟩
    rfl
  · rintro rfl
    exact .nil

theorem Fits.append (h : Fits p u) (h' : Fits p' v) : Fits (p ++ p') (u ++ v) := by
  induction h with
  | nil => exact h'
  | run any _ ih =>
    rw [List.append_assoc]
    exact .run any ih
  | sign hq hc _ ih => exact .sign hq hc ih

/-- A pattern is put together as the texts are that fit it. -/
theorem fits_append_iff : Fits (p ++ p') t ↔ ∃ u v, t = u ++ v ∧ Fits p u ∧ Fits p' v := by
  constructor
  · intro h
    induction p generalizing t with
    | nil => exact ⟨[], t, rfl, .nil, h⟩
    | cons q p ih =>
      cases h with
      | run any h =>
        obtain ⟨u, v, rfl, hu, hv⟩ := ih h
        exact ⟨any ++ u, v, (List.append_assoc ..).symm, .run any hu, hv⟩
      | sign hq hc h =>
        obtain ⟨u, v, rfl, hu, hv⟩ := ih h
        exact ⟨_ :: u, v, rfl, .sign hq hc hu, hv⟩
  · rintro ⟨u, v, rfl, hu, hv⟩
    exact hu.append hv

theorem fits_run (any : List Char) : Fits ['%'] any := by
  have h : Fits ['%'] (any ++ []) := .run any .nil
  rwa [List.append_nil] at h

theorem fits_sign_iff (hq : q ≠ '%') : Fits [q] t ↔ ∃ c, t = [c] ∧ signMatches q c = true := by
  constructor
  · rintro (_ | _ | ⟨-, hc, ⟨⟩⟩)
    · exact absurd rfl hq
    · exact ⟨_, rfl, hc⟩
  · rintro ⟨c, rfl, hc⟩
    exact .sign hq hc .nil

/-! ## The next sign -/

/-- Without a character, only signs for any run can fit. -/
theorem fits_concat_nil : Fits (a ++ [q]) [] ↔ q = '%' ∧ Fits a [] := by
  rw [fits_append_iff]
  constructor
  · rintro ⟨u, v, huv, hu, hv⟩
    obtain ⟨rfl, rfl⟩ := List.append_eq_nil_iff.mp huv.symm
    refine ⟨?_, hu⟩
    by_contra hq
    obtain ⟨c, hc, -⟩ := (fits_sign_iff hq).mp hv
    exact nomatch hc
  · rintro ⟨rfl, ha⟩
    exact ⟨[], [], rfl, ha, fits_run []⟩

/-- A sign for any run fits where the piece in front of it fits a beginning. -/
theorem fits_concat_run : Fits (a ++ ['%']) t ↔ ∃ u, u <+: t ∧ Fits a u := by
  rw [fits_append_iff]
  constructor
  · rintro ⟨u, v, rfl, hu, -⟩
    exact ⟨u, List.prefix_append u v, hu⟩
  · rintro ⟨u, ⟨v, rfl⟩, hu⟩
    exact ⟨u, v, rfl, hu, fits_run v⟩

/-- After one more character such a sign ends there, or it goes on. -/
theorem fits_concat_run_concat :
    Fits (a ++ ['%']) (t ++ [c]) ↔ Fits a (t ++ [c]) ∨ Fits (a ++ ['%']) t := by
  simp only [fits_concat_run, List.prefix_concat_iff, or_and_right, exists_or, exists_eq_left]

/-- Any other sign is for the last character alone. -/
theorem fits_concat_sign_concat (hq : q ≠ '%') :
    Fits (a ++ [q]) (t ++ [c]) ↔ Fits a t ∧ signMatches q c = true := by
  rw [fits_append_iff]
  constructor
  · rintro ⟨u, v, huv, hu, hv⟩
    obtain ⟨d, rfl, hd⟩ := (fits_sign_iff hq).mp hv
    obtain ⟨rfl, hcd⟩ := List.append_inj' huv rfl
    obtain rfl : c = d := List.singleton_inj.mp hcd
    exact ⟨hu, hd⟩
  · rintro ⟨ha, hc⟩
    exact ⟨t, [c], rfl, ha, (fits_sign_iff hq).mpr ⟨c, rfl, hc⟩⟩

end Patterns

/-! ## Rows -/

/-- A row for a pattern with a piece in front of it: each entry tells whether a text fits as much of the
pattern as ends there. -/
inductive Tells (t : List Char) : List Char → List Char → List Bool → Prop
  | last {a : List Char} {here : Bool} : (here = true ↔ Fits a t) → Tells t a [] [here]
  | more {a p : List Char} {q : Char} {here : Bool} {row : List Bool} : (here = true ↔ Fits a t) →
      Tells t (a ++ [q]) p row → Tells t a (q :: p) (here :: row)

namespace Tells

variable {a p t : List Char} {c : Char} {here : Bool} {row : List Bool}

theorem headD_iff (h : Tells t a p row) : row.headD false = true ↔ Fits a t := by
  cases h with
  | last hhere => exact hhere
  | more hhere _ => exact hhere

theorem getLastD_iff (h : Tells t a p row) : row.getLastD false = true ↔ Fits (a ++ p) t := by
  induction h with
  | last hhere => rwa [List.append_nil]
  | @more a p q here row _ hrest ih =>
    -- The rest of a row is never empty, so that its last entry is that of the row.
    rw [List.append_cons, ← ih]
    cases hrest <;> rfl

theorem firstRow (hhere : here = true ↔ Fits a []) : Tells [] a p (firstRow here p) := by
  induction p generalizing a here with
  | nil => exact .last hhere
  | cons q p ih =>
    refine .more hhere (ih ?_)
    rw [Bool.and_eq_true, decide_eq_true_iff, hhere, fits_concat_nil]

/-- One more character is taken into account from the front to the back of the row. -/
theorem nextRow (h : Tells t a p row) (hhere : here = true ↔ Fits a (t ++ [c])) :
    Tells (t ++ [c]) a p (nextRow c here p row) := by
  induction h generalizing here with
  | last _ => exact .last hhere
  | @more a p q old row hold hrest ih =>
    refine .more hhere (ih ?_)
    by_cases hq : q = '%'
    · subst hq
      rw [if_pos rfl, Bool.or_eq_true, hhere, hrest.headD_iff, fits_concat_run_concat]
    · rw [if_neg hq, Bool.and_eq_true, hold, fits_concat_sign_concat hq]

/-- Nothing is in front of the whole pattern, and nothing fits that but an empty text. -/
theorem foldl {u : List Char} (h : Tells t [] p row) :
    Tells (t ++ u) [] p (u.foldl (fun row c => Text.nextRow c false p row) row) := by
  induction u generalizing t row with
  | nil => rwa [List.append_nil]
  | cons c u ih =>
    have hnone : false = true ↔ Fits [] (t ++ [c]) := by
      simp [fits_nil_iff]
    rw [List.append_cons]
    exact ih (h.nextRow hnone)

end Tells

/-- The rows decide whether a text is put together as a pattern says. -/
theorem matchesPattern_iff {p t : List Char} : matchesPattern p t = true ↔ Fits p t := by
  have hfirst : Tells [] [] p (firstRow true p) := .firstRow (by simp [fits_nil_iff])
  exact hfirst.foldl.getLastD_iff

/-! ## Letters -/

/-- A character is folded to itself, or to a small letter. -/
theorem foldAscii_eq_self {c : Char} (h : (foldAscii c).isLower = false) : foldAscii c = c := by
  unfold foldAscii Char.toLower at *
  split
  next hupper =>
    exfalso
    have hA : 65 ≤ c.val.toNat := UInt32.le_iff_toNat_le.mp hupper.1
    have hZ : c.val.toNat ≤ 90 := UInt32.le_iff_toNat_le.mp hupper.2
    have hsmall : (c.val + 32).toNat = c.val.toNat + 32 := by
      rw [UInt32.toNat_add]
      exact Nat.mod_eq_of_lt (by simp only [UInt32.reduceToNat]; omega)
    rw [dif_pos hupper] at h
    change (decide (97 ≤ c.val + 32) && decide (c.val + 32 ≤ 122)) = false at h
    simp only [Bool.and_eq_false_iff, decide_eq_false_iff_not, UInt32.le_iff_toNat_le, hsmall,
      UInt32.reduceToNat] at h
    omega
  next => rfl

/-- The characters that are read as the replacement character. -/
def lookalikes : List Char := ['\uFFFD', '\uFFFE', '\uFFFF']

/-- The characters of a search text that do not stand for themselves alone. -/
def special : List Char := ['%', '_', '\x00'] ++ lookalikes

theorem foldAscii_of_special {d : Char} (hd : d ∈ special) : foldAscii d = d ∧ d.isLower = false := by
  simp only [special, lookalikes, List.mem_append, List.mem_cons, List.not_mem_nil, or_false] at hd
  rcases hd with (rfl | rfl | rfl) | rfl | rfl | rfl <;> decide

/-- No other character has one of these for its small form. -/
theorem eq_of_foldAscii_eq {c d : Char} (hd : d ∈ special) (h : foldAscii c = foldAscii d) : c = d := by
  obtain ⟨hself, hlower⟩ := foldAscii_of_special hd
  rw [hself] at h
  exact (foldAscii_eq_self (h ▸ hlower)).symm.trans h

/-- Only those are read as something else, and as one another. -/
theorem legible_eq_iff {c d : Char} (hc : c ∉ lookalikes) : legible c = legible d ↔ c = d := by
  simp only [lookalikes, List.mem_cons, List.not_mem_nil, or_false, not_or] at hc
  unfold legible
  constructor
  · intro h
    rw [if_neg (by tauto)] at h
    split at h
    next => exact absurd h hc.1
    next => exact h
  · rintro rfl
    rfl

/-- Each character stands for itself. -/
def Literal (cs : List Char) : Prop := ∀ c ∈ cs, c ∉ special

section Letters

variable {p t : List Char}

/-- A text fits a pattern that it is but for the case of letters. -/
theorem fits_of_map_eq (h : p.map foldAscii = t.map foldAscii) : Fits p t := by
  induction p generalizing t with
  | nil => exact fits_nil_iff.mpr (List.map_eq_nil_iff.mp h.symm)
  | cons q p ih =>
    cases t with
    | nil => exact nomatch h
    | cons c t =>
      obtain ⟨hc, ht⟩ := List.cons.inj h
      by_cases hq : q = '%'
      · subst hq
        exact .run [c] (ih ht)
      · exact .sign hq (by simp [signMatches, likeFold, hc]) (ih ht)

/-- Without special characters nothing else fits. -/
theorem fits_iff_of_literal (hp : Literal p) :
    Fits p t ↔ p.map foldAscii = t.map foldAscii := by
  refine ⟨fun h => ?_, fits_of_map_eq⟩
  induction h with
  | nil => rfl
  | run any _ _ => exact absurd (by decide) (hp '%' List.mem_cons_self)
  | @sign q c p t hq hc _ ih =>
    have hone : q ≠ '_' := by
      rintro rfl
      exact hp '_' List.mem_cons_self (by decide)
    have hfold : foldAscii q ∉ lookalikes := by
      intro hmem
      have hspecial : foldAscii q ∈ special := List.mem_append_right _ hmem
      rw [← eq_of_foldAscii_eq hspecial (foldAscii_of_special hspecial).1.symm] at hspecial
      exact hp q List.mem_cons_self hspecial
    have hsame : foldAscii q = foldAscii c := by
      simpa [signMatches, hone, likeFold, legible_eq_iff hfold] using hc
    rw [List.map_cons, List.map_cons, hsame, ih fun c hmem => hp c (List.mem_cons_of_mem q hmem)]

/-- A character that a sign may stand for without being like it. -/
def decoy (c : Char) : Char :=
  if c = '_' then 'x'
  else if c = '\uFFFD' then '\uFFFE'
  else if c = '\uFFFE' then '\uFFFF'
  else if c = '\uFFFF' then '\uFFFD'
  else c

/-- A text with nothing for any run, and with other characters where there can be. -/
def disguised (cs : List Char) : List Char := (cs.filter (· ≠ '%')).map decoy

theorem signMatches_decoy (c : Char) : signMatches c (decoy c) = true := by
  unfold decoy
  split_ifs with h1 h2 h3 h4
  · simp [signMatches, h1]
  · rw [h2]; decide
  · rw [h3]; decide
  · rw [h4]; decide
  · simp [signMatches]

theorem foldAscii_decoy_ne {c : Char} (h : c ∈ '_' :: lookalikes) :
    foldAscii c ≠ foldAscii (decoy c) := by
  simp only [lookalikes, List.mem_cons, List.not_mem_nil, or_false] at h
  rcases h with rfl | rfl | rfl | rfl <;> decide

theorem nul_not_mem_disguised {cs : List Char} (h : '\x00' ∉ cs) : '\x00' ∉ disguised cs := by
  intro hmem
  obtain ⟨c, hc, hdecoy⟩ := List.mem_map.mp hmem
  unfold decoy at hdecoy
  split_ifs at hdecoy
  all_goals try exact absurd hdecoy (by decide)
  exact h (hdecoy ▸ (List.mem_filter.mp hc).1)

/-- A text fits in its disguise. -/
theorem fits_disguised (p : List Char) : Fits p (disguised p) := by
  induction p with
  | nil => exact .nil
  | cons q p ih =>
    by_cases hq : q = '%'
    · subst hq
      exact .run [] ih
    · rw [disguised, List.filter_cons_of_pos (by simpa using hq)]
      exact .sign hq (signMatches_decoy q) ih

end Letters

/-! ## Search texts -/

/-- A text has another one in it, with the letters `A` to `Z` like their small forms. -/
def Contains (text piece : String) : Prop :=
  piece.toList.map foldAscii <:+: text.toList.map foldAscii

instance (text piece : String) : Decidable (Contains text piece) :=
  inferInstanceAs (Decidable (_ <:+: _))

/-- A search text is found: as far as its first NUL it fits a piece of the text in front of the first NUL
there, and if it has a NUL then this is the last piece. -/
def Found (text search : String) : Prop :=
  ∃ before piece after, beforeNul text = before ++ piece ++ after ∧
    Fits (beforeNul search) piece ∧ ('\x00' ∈ search.toList → after = [])

section Search

variable {text search : String} {d : Char}

theorem takeWhile_ne_append_of_mem {l : List Char} (h : d ∈ l) (l' : List Char) :
    (l ++ l').takeWhile (· != d) = l.takeWhile (· != d) := by
  obtain ⟨u, v, rfl, hu⟩ := List.eq_append_cons_of_mem h
  have hne : ∀ c ∈ u, (c != d) = true := fun c hc => bne_iff_ne.mpr fun heq => hu (heq ▸ hc)
  rw [List.append_assoc, List.takeWhile_append_of_pos hne, List.takeWhile_append_of_pos hne]
  simp

theorem takeWhile_ne_append_of_not_mem {l : List Char} (h : d ∉ l) (l' : List Char) :
    (l ++ l').takeWhile (· != d) = l ++ l'.takeWhile (· != d) :=
  List.takeWhile_append_of_pos fun _ hc => bne_iff_ne.mpr fun heq => h (heq ▸ hc)

theorem beforeNul_of_not_mem (h : '\x00' ∉ text.toList) : beforeNul text = text.toList := by
  have hall := takeWhile_ne_append_of_not_mem h []
  rwa [List.takeWhile_nil, List.append_nil] at hall

theorem nul_not_mem_beforeNul : '\x00' ∉ beforeNul text := by
  intro hmem
  have hne := List.all_eq_true.mp List.all_takeWhile _ hmem
  exact absurd rfl (bne_iff_ne.mp hne)

theorem fits_run_cons_iff {p t : List Char} :
    Fits ('%' :: p) t ↔ ∃ before rest, t = before ++ rest ∧ Fits p rest := by
  rw [← List.singleton_append, fits_append_iff]
  simp only [fits_run, true_and]

/-- A search text is found as it is said. -/
theorem containsPattern_iff : containsPattern search text = true ↔ Found text search := by
  have hspliced : beforeNul ("%" ++ search ++ "%") =
      '%' :: (search.toList ++ ['%']).takeWhile (· != '\x00') := by
    simp [beforeNul]
  rw [containsPattern, searchPattern, matchesPattern_iff, hspliced, fits_run_cons_iff]
  by_cases hnul : '\x00' ∈ search.toList
  · rw [takeWhile_ne_append_of_mem hnul]
    constructor
    · rintro ⟨before, piece, htext, hfits⟩
      exact ⟨before, piece, [], by rw [htext, List.append_nil], hfits, fun _ => rfl⟩
    · rintro ⟨before, piece, after, htext, hfits, hend⟩
      obtain rfl := hend hnul
      exact ⟨before, piece, by rw [htext, List.append_nil], hfits⟩
  · rw [takeWhile_ne_append_of_not_mem hnul, ← beforeNul_of_not_mem hnul]
    constructor
    · rintro ⟨before, rest, htext, hrest⟩
      obtain ⟨piece, after, rfl, hfits, -⟩ := fits_append_iff.mp hrest
      exact ⟨before, piece, after, by rw [htext, List.append_assoc], hfits, (absurd · hnul)⟩
    · rintro ⟨before, piece, after, htext, hfits, -⟩
      exact ⟨before, piece ++ after, by rw [htext, List.append_assoc], hfits.append (fits_run after)⟩

instance (text search : String) : Decidable (Found text search) :=
  decidable_of_iff _ containsPattern_iff

/-- A search text is found where it is itself a piece, but for the case of letters. -/
theorem found_of_infix (hnul : '\x00' ∉ search.toList)
    (h : search.toList.map foldAscii <:+: (beforeNul text).map foldAscii) : Found text search := by
  obtain ⟨piece, ⟨before, after, htext⟩, hpiece⟩ := List.infix_map_iff.mp h
  rw [← beforeNul_of_not_mem hnul] at hpiece
  exact ⟨before, piece, after, htext.symm, fits_of_map_eq hpiece, (absurd · hnul)⟩

/-- Without special characters it is found nowhere else. -/
theorem found_iff_of_literal (h : Literal search.toList) :
    Found text search ↔
      search.toList.map foldAscii <:+: (beforeNul text).map foldAscii := by
  have hnul : '\x00' ∉ search.toList := fun hmem => h _ hmem (by decide)
  refine ⟨?_, found_of_infix hnul⟩
  rintro ⟨before, piece, after, htext, hfits, -⟩
  rw [beforeNul_of_not_mem hnul, fits_iff_of_literal h] at hfits
  exact List.infix_map_iff.mpr ⟨piece, ⟨before, after, htext.symm⟩, hfits⟩

/-- A text that has another one in it has its special characters. -/
theorem Contains.mem (h : Contains text search) (hd : d ∈ special) (hmem : d ∈ search.toList) :
    d ∈ text.toList := by
  obtain ⟨c, hc, hlike⟩ := List.mem_map.mp (h.subset (List.mem_map_of_mem hmem))
  rwa [← eq_of_foldAscii_eq hd hlike]

/-- In a text without NUL, nothing that is contained goes without being found. -/
theorem Contains.found (h : Contains text search) (htext : '\x00' ∉ text.toList) :
    Found text search := by
  have hnul : '\x00' ∉ search.toList := fun hmem => htext (h.mem (by decide) hmem)
  rw [Contains, ← beforeNul_of_not_mem htext] at h
  exact found_of_infix hnul h

/-- A search text that is contained in its disguise has no special characters. -/
theorem literal_of_infix_disguised (h : search.toList.map foldAscii <:+:
    (disguised (beforeNul search)).map foldAscii) : Literal search.toList := by
  -- The disguise is no longer than the search text, which is then all of it.
  have hshort : ((beforeNul search).filter (· ≠ '%')).Sublist search.toList :=
    List.filter_sublist.trans (List.takeWhile_sublist _)
  have hwhole := hshort.eq_of_length_le (by simpa [disguised] using h.length_le)
  rw [disguised, hwhole] at h
  have hsame := h.sublist.eq_of_length (by simp)
  rw [List.map_map, List.map_inj_left] at hsame
  intro c hc hspecial
  obtain ⟨hbefore, hrun⟩ := List.mem_filter.mp (hwhole ▸ hc)
  have hnul : c ≠ '\x00' := fun h0 => nul_not_mem_beforeNul (h0 ▸ hbefore)
  refine foldAscii_decoy_ne ?_ (hsame c hc)
  simpa [special, hnul, of_decide_eq_true hrun] using hspecial

/-- Any special character makes a search text find a text that does not contain it. -/
theorem exists_found_not_contains (h : ¬ Literal search.toList) :
    ∃ text, '\x00' ∉ text.toList ∧ Found text search ∧ ¬ Contains text search := by
  let text := String.ofList (disguised (beforeNul search))
  have hchars : text.toList = disguised (beforeNul search) := String.toList_ofList
  have hnul : '\x00' ∉ text.toList := hchars ▸ nul_not_mem_disguised nul_not_mem_beforeNul
  refine ⟨text, hnul, ⟨[], _, [], ?_, fits_disguised (beforeNul search), fun _ => rfl⟩,
    fun hcontains => h (literal_of_infix_disguised (hchars ▸ hcontains))⟩
  rw [beforeNul_of_not_mem hnul, hchars, List.nil_append, List.append_nil]

end Search

end Custody.Text
