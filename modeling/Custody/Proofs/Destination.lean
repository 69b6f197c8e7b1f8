import Mathlib.Data.List.TakeWhile
import Custody.Address

/-!
# Where requests go

A request goes to an address below a base. Below a base with a scheme there is one for every target
that can be read, and it has the scheme of the base: the path behind an authority begins with a slash,
and still does when its dots are resolved.

> `usable_ofText?`, `usable_opened?`: what holds of a base with a scheme.
> `isSome_below?_iff`: which targets have an address below it.
> `tellsKind_below?`: the text of that address begins with its kind.
-/

namespace Custody

namespace Address

/-! ## Paths -/

/-- A path that is empty or begins with a slash. -/
def Rooted (path : List Char) : Prop := path = [] ∨ path.head? = some '/'

theorem rooted_encoded {those path : List Char} (hslash : '/' ∉ those) (h : Rooted path) :
    Rooted (encoded those path) := by
  rcases h with rfl | h
  · exact .inl rfl
  · obtain ⟨rest, rfl⟩ := List.head?_eq_some_iff.mp h
    right
    rw [encoded, List.flatMap_cons]
    simp [hslash]

/-- The pieces of a path begin with an empty one when it does not begin with a word. -/
theorem splitOn_of_rooted {path : List Char} (h : Rooted path) : ∃ ps, path.splitOn '/' = [] :: ps := by
  rcases h with rfl | h
  · exact ⟨[], List.splitOn_nil _⟩
  · obtain ⟨rest, rfl⟩ := List.head?_eq_some_iff.mp h
    exact ⟨rest.splitOn '/', by
      rw [List.splitOn, List.splitOnP_cons_eq_if_modifyHead, if_pos (by decide), ← List.splitOn]⟩

/-- The first piece is never taken back. -/
theorem withoutDots_cons_nil (ps : List (List Char)) : ∃ qs, withoutDots ([] :: ps) = [] :: qs := by
  unfold withoutDots
  rw [List.foldl_cons, if_neg (by decide), if_neg (by decide), List.nil_append]
  -- From here on, what is kept begins with it.
  suffices ∀ ks : List (List Char), ∃ qs, ps.foldl (fun kept p =>
      if p = ['.'] then kept
      else if p = ['.', '.'] then if kept = [[]] then kept else kept.dropLast
      else kept ++ [p]) ([] :: ks) = [] :: qs from this []
  induction ps with
  | nil => exact fun ks => ⟨ks, rfl⟩
  | cons p ps ih =>
    intro ks
    rw [List.foldl_cons]
    split
    next => exact ih ks
    next =>
      split
      next =>
        split
        next => exact ih ks
        next hne =>
          have hks : ks ≠ [] := fun h => hne (by rw [h])
          rw [List.dropLast_cons_of_ne_nil hks]
          exact ih ks.dropLast
      next => exact ih (ks ++ [p])

theorem rooted_resolveDots {path : List Char} (h : Rooted path) : Rooted (resolveDots path) := by
  obtain ⟨ps, hps⟩ := splitOn_of_rooted h
  obtain ⟨qs, hqs⟩ := withoutDots_cons_nil ps
  rw [resolveDots, hps, hqs]
  cases qs with
  | nil => exact .inl rfl
  | cons q qs =>
    right
    rw [List.intercalate_cons_cons]
    rfl

/-! ## Addresses with a scheme -/

/-- An address with a scheme of letters and the like. -/
structure Usable (a : Address) : Prop where
  scheme : a.scheme ≠ []
  plain : ∀ c ∈ a.scheme, c ≠ '/' ∧ c ≠ ':'
  rooted : a.hasAuthority = true → Rooted a.path

/-- The text of a usable address begins with the kind that it has. -/
theorem tellsKind_of_usable {a : Address} (h : a.Usable) : a.tellsKind = true := by
  have hscheme : a.scheme.isEmpty = false := by simp [h.scheme]
  obtain ⟨rest, htext⟩ : ∃ rest, a.text.toList = a.scheme ++ ':' :: rest := by
    unfold Address.text
    simp only [hscheme, Bool.false_eq_true, if_false, String.toList_ofList, List.append_assoc,
      List.singleton_append]
    exact ⟨_, rfl⟩
  have hword : a.text.toList.takeWhile (fun c => c != '/' && c != ':') = a.scheme := by
    rw [htext, List.takeWhile_append_of_pos (fun c hc => by simp [h.plain c hc])]
    simp
  unfold tellsKind
  dsimp only
  rw [hword, htext, List.drop_left, hscheme]
  rfl

section Paths

variable {a b : Address} {path : List Char} {query : Option (List Char)}

/-- A path and a query change nothing else. -/
theorem scheme_withPath? (h : a.withPath? path query = some b) :
    b.scheme = a.scheme ∧ b.hasAuthority = a.hasAuthority := by
  unfold withPath? at h
  dsimp only at h
  split at h
  next => cases h
  next =>
    split at h
    next => cases h
    next =>
      cases h
      exact ⟨rfl, rfl⟩

/-- With a scheme, only an authority asks something of the path. -/
theorem withPath?_of_scheme (hs : a.scheme ≠ []) (hr : a.hasAuthority = true → Rooted path) :
    a.withPath? path query = some { a with
      path := encoded encodedInPath (resolveDots path)
      query := query.map (encoded encodedInQuery) } := by
  have hrooted : ¬(a.hasAuthority && !(path.isEmpty || decide (path.head? = some '/'))) = true := by
    intro h
    obtain ⟨hauthority, hnot⟩ := Bool.and_eq_true_iff.mp h
    rcases hr hauthority with rfl | hslash
    · cases hnot
    · simp [hslash] at hnot
  have hbare : (a.scheme.isEmpty && !a.hasAuthority) = false := by simp [hs]
  unfold withPath?
  simp only [if_neg hrooted, hbare, Bool.false_and, Bool.false_eq_true, if_false]

theorem rooted_of_withPath? (hs : a.scheme ≠ []) (h : a.withPath? path query = some b) :
    b.hasAuthority = true → Rooted b.path := by
  intro hauthority
  have hr : Rooted path := by
    have ha := (scheme_withPath? h).2.symm.trans hauthority
    unfold withPath? at h
    dsimp only at h
    split at h
    next => cases h
    next hrooted =>
      simp only [ha, Bool.true_and, Bool.not_eq_true, Bool.not_eq_false'] at hrooted
      rcases (Bool.or_eq_true_iff.mp hrooted) with hnil | hslash
      · exact .inl (List.isEmpty_iff.mp hnil)
      · exact .inr (of_decide_eq_true hslash)
  rw [withPath?_of_scheme hs fun _ => hr] at h
  cases h
  exact rooted_encoded (by decide) (rooted_resolveDots hr)

end Paths

/-! ## Characters -/

/-- What holds of all characters of ASCII holds of each. -/
theorem of_ascii {P : Char → Prop} (h : ∀ n < 128, P (Char.ofNat n)) {c : Char}
    (hc : c.toNat < 128) : P c := by
  rw [← Char.ofNat_toNat c]
  exact h _ hc

theorem toNat_lt_of_isAlphanum {c : Char} (h : c.isAlphanum = true) : c.toNat < 128 := by
  change (decide (65 ≤ c.val ∧ c.val ≤ 90) || (decide (97 ≤ c.val) && decide (c.val ≤ 122)) ||
    (decide (48 ≤ c.val) && decide (c.val ≤ 57))) = true at h
  simp only [Bool.or_eq_true, Bool.and_eq_true, decide_eq_true_eq, UInt32.le_iff_toNat_le] at h
  change ((65 ≤ c.toNat ∧ c.toNat ≤ 90) ∨ (97 ≤ c.toNat ∧ c.toNat ≤ 122)) ∨
    (48 ≤ c.toNat ∧ c.toNat ≤ 57) at h
  omega

/-- The characters of a scheme are no slash and no colon, nor are they when they are written small. -/
theorem foldAscii_ne {c : Char} (h : c.isAlphanum = true ∨ c = '+' ∨ c = '.' ∨ c = '-') :
    Text.foldAscii c ≠ '/' ∧ Text.foldAscii c ≠ ':' := by
  rcases h with h | rfl | rfl | rfl
  · exact of_ascii (P := fun c => c.isAlphanum = true →
      Text.foldAscii c ≠ '/' ∧ Text.foldAscii c ≠ ':') (by decide) (toNat_lt_of_isAlphanum h) h
  all_goals decide

theorem mem_spanScheme {cs : List Char} {c : Char} (h : c ∈ (spanScheme cs).1) :
    c.isAlphanum = true ∨ c = '+' ∨ c = '.' ∨ c = '-' := by
  unfold spanScheme at h
  dsimp only at h
  split at h
  next =>
    cases cs with
    | nil => cases h
    | cons d rest =>
      dsimp only at h
      split at h
      next hd =>
        rcases List.mem_cons.mp h with rfl | h
        · exact .inl (by rw [Char.isAlphanum, hd]; rfl)
        · have hc := List.all_eq_true.mp List.all_takeWhile c h
          simpa [or_assoc] using hc
      next => cases h
  next => cases h

/-- What begins with a slash has no scheme. -/
theorem spanScheme_slash (cs : List Char) : spanScheme ('/' :: cs) = ([], '/' :: cs) := by
  unfold spanScheme
  simp

/-- A text is not split in front of its first other character. -/
theorem splitAtMark_cons {mark c : Char} (h : c ≠ mark) (cs : List Char) :
    splitAtMark mark (c :: cs) = (c :: (splitAtMark mark cs).1, (splitAtMark mark cs).2) := by
  simp [splitAtMark, h, Ne.symm h]

/-! ## Bases -/

/-- An address that was read is usable when it has a scheme. -/
theorem usable_ofText? {text : String} {a : Address} (h : ofText? text = some a)
    (hs : a.scheme ≠ []) : a.Usable := by
  unfold ofText? at h
  dsimp only at h
  split at h
  next => cases h
  next =>
    obtain ⟨host, -, h⟩ := Option.bind_eq_some_iff.mp h
    obtain ⟨port, -, h⟩ := Option.bind_eq_some_iff.mp h
    have hscheme := (scheme_withPath? h).1
    refine ⟨hs, ?_, rooted_of_withPath? ?_ h⟩
    · rw [hscheme]
      intro c hc
      obtain ⟨d, hd, rfl⟩ := List.mem_map.mp hc
      exact foldAscii_ne (mem_spanScheme hd)
    · rw [← hscheme]
      exact hs

section Targets

variable {base a : Address} {target : List Char}

/-- Another target changes neither the scheme nor whether there is an authority. -/
theorem usable_withTarget? (h : base.Usable) (ha : base.withTarget? target = some a) :
    a.Usable ∧ a.scheme = base.scheme := by
  unfold withTarget? at ha
  dsimp only at ha
  obtain ⟨hscheme, -⟩ := scheme_withPath? ha
  refine ⟨⟨?_, ?_, rooted_of_withPath? ?_ ha⟩, hscheme⟩
  · rw [hscheme]
    exact h.scheme
  · rw [hscheme]
    exact h.plain
  · exact h.scheme

/-- Below a usable address there is one for every target that begins with a slash. -/
theorem withTarget?_of_usable (h : base.Usable)
    (ht : base.hasAuthority = true → target.head? = some '/') :
    ∃ a, base.withTarget? target = some a := by
  have hauthority : ∀ host : List Char, host.isEmpty = base.host.isEmpty →
      ({ base with host := host } : Address).hasAuthority = base.hasAuthority := by
    intro host hhost
    simp only [hasAuthority, hhost]
  refine ⟨_, withPath?_of_scheme h.scheme fun ha => .inr ?_⟩
  obtain ⟨rest, rfl⟩ := List.head?_eq_some_iff.mp (ht (by
    rw [← ha]
    refine (hauthority _ ?_).symm
    split <;> simp))
  simp

/-- The target of a usable address begins with a slash where it has to. -/
theorem head?_target (h : base.Usable) (ha : base.hasAuthority = true) (rest : List Char) :
    (base.target ++ rest).head? = some '/' := by
  unfold Address.target
  rcases h.rooted ha with hp | hp
  · rw [hp]
    rfl
  · obtain ⟨path, hp⟩ := List.head?_eq_some_iff.mp hp
    rw [hp]
    rfl

/-- A base is made of an address as usable. -/
theorem usable_opened? (ha : a.scheme ≠ [] → a.Usable) (h : a.opened? = some base)
    (hs : base.scheme ≠ []) : base.Usable := by
  unfold opened? at h
  split at h
  next =>
    cases h
    exact ha hs
  next =>
    have hscheme : base.scheme = a.scheme := by
      unfold withTarget? at h
      exact (scheme_withPath? h).1
    exact (usable_withTarget? (ha (hscheme ▸ hs)) h).1

end Targets

/-! ## Requests -/

section Requests

variable {base a : Address} {text : String}

/-- What begins with a slash names no scheme, and lies below a base. -/
theorem below?_eq_some (hslash : text.toList.head? = some '/') (h : base.below? text = some a) :
    ∃ target, base.withTarget? target = some a := by
  unfold below? at h
  obtain ⟨b, hb, h⟩ := Option.bind_eq_some_iff.mp h
  have hscheme : b.scheme = [] := by
    unfold ofText? at hb
    dsimp only at hb
    split at hb
    next => cases hb
    next =>
      obtain ⟨host, -, hb⟩ := Option.bind_eq_some_iff.mp hb
      obtain ⟨port, -, hb⟩ := Option.bind_eq_some_iff.mp hb
      rw [(scheme_withPath? hb).1]
      obtain ⟨rest, hrest⟩ := List.head?_eq_some_iff.mp hslash
      simp [hrest, splitAtMark, spanScheme_slash]
  simp only [hscheme, List.isEmpty_nil, Bool.not_true, Bool.false_and, Bool.false_eq_true,
    if_false] at h
  exact ⟨_, h⟩

/-- What begins with one slash is an address exactly when each of its characters may stand in one and
it is not too long. -/
theorem isSome_ofText?_iff {d : Char} {rest : List Char} (htext : text.toList = '/' :: d :: rest)
    (hd : d ≠ '/' ∧ d ≠ '#' ∧ d ≠ '?') :
    (ofText? text).isSome = true ↔
      text.toList.length ≤ lengthMost ∧ ∀ c ∈ text.toList, isAllowed c = true := by
  have hfit : (lengthMost < text.toList.length || !text.toList.all isAllowed) = true ↔
      ¬(text.toList.length ≤ lengthMost ∧ ∀ c ∈ text.toList, isAllowed c = true) := by
    rw [Bool.or_eq_true, decide_eq_true_eq, Bool.not_eq_true', ← Bool.not_eq_true,
      List.all_eq_true, not_and_or, Nat.not_le]
  unfold ofText?
  dsimp only
  split
  next h => exact iff_of_false (by simp) (hfit.mp h)
  next h =>
    refine iff_of_true ?_ (not_not.mp (hfit.not.mp h))
    have hparts : authorityParts [] = ([], [], []) := by decide
    have hhost : host? [] = some [] := by decide
    have hport : port? [] = some none := by decide
    simp only [htext, splitAtMark_cons (show '/' ≠ '#' by decide), spanScheme_slash,
      splitAtMark_cons (show '/' ≠ '?' by decide), splitAtMark_cons hd.2.1,
      splitAtMark_cons hd.2.2]
    split
    next r heq =>
      injection heq with _ heq
      injection heq with heq _
      exact absurd heq hd.1
    next =>
      -- One slash begins neither a scheme nor an authority.
      simp only [hparts, hhost, hport, Option.bind_some]
      simp [withPath?, hasAuthority, encoded, Ne.symm hd.1]

/-- Below a usable base there is an address for such a target exactly then. -/
theorem isSome_below?_iff (h : base.Usable) {d : Char} {rest : List Char}
    (htext : text.toList = '/' :: d :: rest) (hd : d ≠ '/' ∧ d ≠ '#' ∧ d ≠ '?') :
    (base.below? text).isSome = true ↔
      text.toList.length ≤ lengthMost ∧ ∀ c ∈ text.toList, isAllowed c = true := by
  rw [← isSome_ofText?_iff htext hd]
  unfold below?
  cases ofText? text with
  | none => rfl
  | some b =>
    dsimp only [bind, Option.bind]
    refine iff_of_true ?_ rfl
    split
    next => rfl
    next =>
      obtain ⟨a, ha⟩ := withTarget?_of_usable h fun hauthority => head?_target h hauthority _
      rw [ha]
      rfl

/-- The address that a request goes to below a usable base tells its kind. -/
theorem tellsKind_below? (h : base.Usable) (hslash : text.toList.head? = some '/')
    (ha : base.below? text = some a) : a.tellsKind = true := by
  obtain ⟨target, ha⟩ := below?_eq_some hslash ha
  exact tellsKind_of_usable (usable_withTarget? h ha).1

end Requests

end Address

end Custody
