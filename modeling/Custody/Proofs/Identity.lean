import Mathlib.Algebra.Group.Nat.Defs
import Mathlib.Data.List.Induction
import Mathlib.Data.List.Nodup
import Custody.Identifier

/-!
# Names that do not repeat

The records of the service are told apart by their identifiers, and the ledger knows an escrow by
the text of its identifier only. Both distinguish:

> `numbered_injective`: the numbers of a series give different identifiers.
> `text_injective`: different identifiers have different texts.
> `find?_eq_some_iff_mem`: what is told apart is found.
> `inTurn_concat`: lists that grow one by one, each item judged by those before it.

A text is cut into groups by position, so it is enough that the digits differ; and a number is known
by its digits once their width is not smaller than it needs.
-/

namespace Custody

/-- A search by what tells the members of a list apart finds every one of them. -/
theorem find?_eq_some_iff_mem {α β : Type} [DecidableEq β] {f : α → β} {l : List α}
    (h : (l.map f).Nodup) {a : α} : l.find? (fun b => f b = f a) = some a ↔ a ∈ l := by
  constructor
  · exact List.mem_of_find?_eq_some
  · intro ha
    cases hf : l.find? fun b => f b = f a with
    | none => simpa using List.find?_eq_none.mp hf a ha
    | some b =>
      have hb : b ∈ l := List.mem_of_find?_eq_some hf
      have hba : f b = f a := by simpa using List.find?_some hf
      rw [List.inj_on_of_nodup_map h hb ha hba]

/-! ## One after another -/

section InTurn

variable {α β : Type} {may : List α → α → Prop} {l : List α} {a : α}

/-- Every item is one that may come after those before it. -/
def InTurn (may : List α → α → Prop) (l : List α) : Prop :=
  ∀ before a after, l = before ++ a :: after → may before a

theorem inTurn_nil : InTurn may [] := by
  intro before a after h
  cases before <;> cases h

theorem inTurn_concat : InTurn may (l ++ [a]) ↔ InTurn may l ∧ may l a := by
  constructor
  · intro h
    refine ⟨fun before b after hb => h before b (after ++ [a]) (by rw [hb]; simp), h l a [] rfl⟩
  · rintro ⟨h, ha⟩ before b after hb
    rcases List.eq_nil_or_concat after with rfl | ⟨rest, c, rfl⟩
    · obtain ⟨rfl, hab⟩ := List.append_inj' hb rfl
      cases hab
      exact ha
    · rw [List.concat_eq_append, ← List.cons_append, ← List.append_assoc] at hb
      exact h before b rest (List.append_inj' hb rfl).1

/-- Items that do not repeat are in turn, if each may come wherever it has not been yet. -/
theorem inTurn_of_nodup (h : l.Nodup) (hmay : ∀ before, ∀ a ∈ l, a ∉ before → may before a) :
    InTurn may l := by
  rintro before a after rfl
  exact hmay before a (by simp) fun ha =>
    (List.nodup_append.mp h).2.2 a ha a List.mem_cons_self rfl

end InTurn

namespace Text

theorem hexChar_injective : ∀ m < 16, ∀ n < 16, hexChar m = hexChar n → m = n := by decide

/-- A number that fits a width is known by its digits of that width. -/
theorem digitsOfWidth_injective {base width m n : Nat} (hb : base ≤ 16) (hm : m < base ^ width)
    (hn : n < base ^ width) (h : digitsOfWidth base width m = digitsOfWidth base width n) :
    m = n := by
  induction width generalizing m n with
  | zero =>
    rw [Nat.pow_zero] at hm hn
    omega
  | succ w ih =>
    have hpos : 0 < base := Nat.pos_of_ne_zero fun h0 => by simp [h0] at hm
    obtain ⟨hfront, hlast⟩ := List.append_inj' h rfl
    have hq : m / base = n / base := by
      refine ih ?_ ?_ hfront <;>
        exact Nat.div_lt_of_lt_mul (by rw [Nat.mul_comm, ← Nat.pow_succ]; assumption)
    have hr : m % base = n % base := by
      refine hexChar_injective _ ?_ _ ?_ (List.cons.inj hlast).1 <;>
        exact Nat.lt_of_lt_of_le (Nat.mod_lt _ hpos) hb
    rw [← Nat.div_add_mod m base, ← Nat.div_add_mod n base, hq, hr]

end Text

namespace Identifier

/-! ## Numbers of a series -/

/-- A wider field changes nothing for a number that fits. -/
theorem sameDigits_succ {width n : Nat} (h : n < 10 ^ width) :
    sameDigits (width + 1) n = sameDigits width n := by
  induction width generalizing n with
  | zero =>
    have : n = 0 := by simpa using h
    subst this
    rfl
  | succ w ih =>
    have hq : n / 10 < 10 ^ w :=
      Nat.div_lt_of_lt_mul (by rw [Nat.mul_comm, ← Nat.pow_succ]; exact h)
    rw [sameDigits, ih hq, sameDigits]

theorem sameDigits_of_le {v w n : Nat} (hvw : v ≤ w) (h : n < 10 ^ v) :
    sameDigits w n = sameDigits v n := by
  induction hvw with
  | refl => rfl
  | step hvw ih =>
    rw [sameDigits_succ (Nat.lt_of_lt_of_le h (Nat.pow_le_pow_right (by decide) hvw)), ih]

theorem sameDigits_injective {width m n : Nat} (hm : m < 10 ^ width) (hn : n < 10 ^ width)
    (h : sameDigits width m = sameDigits width n) : m = n := by
  induction width generalizing m n with
  | zero =>
    rw [Nat.pow_zero] at hm hn
    omega
  | succ w ih =>
    simp only [sameDigits] at h
    have hq : m / 10 = n / 10 := by
      refine ih ?_ ?_ (by omega) <;>
        exact Nat.div_lt_of_lt_mul (by rw [Nat.mul_comm, ← Nat.pow_succ]; assumption)
    omega

/-- A number has no more decimal digits than binary ones. -/
theorem lt_ten_pow (n : Nat) : n < 10 ^ (n.log2 + 1) :=
  Nat.lt_of_lt_of_le Nat.lt_log2_self (Nat.pow_le_pow_left (by decide) _)

theorem numbered_injective {series m n : Nat} (h : numbered series m = numbered series n) :
    m = n := by
  have hs : sameDigits (m.log2 + 1) m = sameDigits (n.log2 + 1) n :=
    Nat.add_left_cancel (congrArg value h)
  have hm := sameDigits_of_le (Nat.le_max_left (m.log2 + 1) (n.log2 + 1)) (lt_ten_pow m)
  have hn := sameDigits_of_le (Nat.le_max_right (m.log2 + 1) (n.log2 + 1)) (lt_ten_pow n)
  -- The digits may be taken in a field that is wide enough for both.
  have wide : ∀ {k}, k ≤ max (m.log2 + 1) (n.log2 + 1) →
      10 ^ k ≤ 10 ^ max (m.log2 + 1) (n.log2 + 1) :=
    fun hk => Nat.pow_le_pow_right (by decide) hk
  exact sameDigits_injective
    (Nat.lt_of_lt_of_le (lt_ten_pow m) (wide (Nat.le_max_left _ _)))
    (Nat.lt_of_lt_of_le (lt_ten_pow n) (wide (Nat.le_max_right _ _))) (by rw [hm, hn, hs])

/-! ## Texts -/

theorem value_lt_width (i : Identifier) : i.value < 16 ^ max 32 (i.value.log2 / 4 + 1) := by
  have hlog : i.value < 2 ^ (i.value.log2 + 1) := Nat.lt_log2_self
  have hexp : i.value.log2 + 1 ≤ 4 * max 32 (i.value.log2 / 4 + 1) := by
    have := Nat.le_max_right 32 (i.value.log2 / 4 + 1)
    omega
  calc i.value < 2 ^ (i.value.log2 + 1) := hlog
    _ ≤ 2 ^ (4 * max 32 (i.value.log2 / 4 + 1)) := Nat.pow_le_pow_right (by decide) hexp
    _ = 16 ^ max 32 (i.value.log2 / 4 + 1) := by rw [Nat.pow_mul]

theorem le_length_digits (i : Identifier) : 32 ≤ i.digits.length := by
  rw [digits, Text.length_digitsOfWidth]
  exact Nat.le_max_left _ _

theorem digits_injective {a b : Identifier} (h : a.digits = b.digits) : a = b := by
  have hw : max 32 (a.value.log2 / 4 + 1) = max 32 (b.value.log2 / 4 + 1) := by
    have := congrArg List.length h
    rwa [digits, digits, Text.length_digitsOfWidth, Text.length_digitsOfWidth] at this
  have ha := value_lt_width a
  rw [digits, digits, hw] at h
  rw [hw] at ha
  have hv := Text.digitsOfWidth_injective (by decide) ha (value_lt_width b) h
  cases a
  cases b
  simp only at hv
  rw [hv]

theorem toList_text (i : Identifier) :
    i.text.toList = i.digits.take 8 ++ '-' :: ((i.digits.drop 8).take 4 ++ '-' ::
      ((i.digits.drop 12).take 4 ++ '-' :: ((i.digits.drop 16).take 4 ++ '-' ::
        i.digits.drop 20))) := by
  simp [text, String.toList_append]

/-- The groups of a text put together are the digits. -/
theorem groups_append (ds : List Char) :
    ds.take 8 ++ ((ds.drop 8).take 4 ++ ((ds.drop 12).take 4 ++ ((ds.drop 16).take 4 ++
      ds.drop 20))) = ds := by
  have h16 : (ds.drop 16).take 4 ++ ds.drop 20 = ds.drop 16 := by
    simpa using List.take_append_drop 4 (ds.drop 16)
  have h12 : (ds.drop 12).take 4 ++ ds.drop 16 = ds.drop 12 := by
    simpa using List.take_append_drop 4 (ds.drop 12)
  have h8 : (ds.drop 8).take 4 ++ ds.drop 12 = ds.drop 8 := by
    simpa using List.take_append_drop 4 (ds.drop 8)
  rw [h16, h12, h8, List.take_append_drop]

/-- Different identifiers have different texts. -/
theorem text_injective {a b : Identifier} (h : a.text = b.text) : a = b := by
  have ha := le_length_digits a
  have hb := le_length_digits b
  have hl := congrArg String.toList h
  rw [toList_text, toList_text] at hl
  -- The groups have the same places in both texts, for there are enough digits to fill them.
  obtain ⟨h0, hl⟩ := List.append_inj hl (by simp; omega)
  obtain ⟨h8, hl⟩ := List.append_inj (List.cons.inj hl).2 (by simp; omega)
  obtain ⟨h12, hl⟩ := List.append_inj (List.cons.inj hl).2 (by simp; omega)
  obtain ⟨h16, hl⟩ := List.append_inj (List.cons.inj hl).2 (by simp; omega)
  refine digits_injective ?_
  rw [← groups_append a.digits, ← groups_append b.digits, h0, h8, h12, h16, (List.cons.inj hl).2]

end Identifier

end Custody
