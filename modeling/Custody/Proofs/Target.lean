import Mathlib.Data.List.Induction
import Mathlib.Tactic.MkIffOfInductiveProp
import Custody.Ledger.Gateway
import Custody.Proofs.Destination

/-!
# What is asked for below a gateway

The target of a request is the path of the base with the words of the request behind it. What stands
in the base is not encoded a second time, and its dots are resolved already; so a clean path stands
behind it as it is.

> `clean_sent`: a path that was sent once can be sent again.
> `target_below?_of_clean`: the target of an address below a base.
> `target_base`: the base of a connection is one of these, unless it has a query.
> `path_request?`: so a request goes to its path behind that of the base.
-/

namespace Custody

namespace Address

/-! ## Encoded texts -/

theorem encoded_of_sent {those cs : List Char} (h : ∀ c ∈ cs, c.toNat < 127 ∧ c ∉ those) :
    encoded those cs = cs := by
  induction cs with
  | nil => rfl
  | cons c cs ih =>
    obtain ⟨hc, hcs⟩ := List.forall_mem_cons.mp h
    rw [encoded, List.flatMap_cons, if_pos (by simpa using hc), ← encoded, ih hcs]
    rfl

theorem mem_digitsOfWidth {width n : Nat} {c : Char} (h : c ∈ Text.digitsOfWidth 16 width n) :
    ∃ d < 16, c = Text.hexChar d := by
  induction width generalizing n with
  | zero => cases h
  | succ width ih =>
    rcases List.mem_append.mp h with h | h
    · exact ih h
    · exact ⟨_, Nat.mod_lt n (by decide), List.mem_singleton.mp h⟩

/-- What is encoded is encoded in characters of which none is encoded again, nor a slash. -/
theorem mem_encodedChar {c d : Char} (h : c ∈ encodedChar d) :
    c.toNat < 127 ∧ c ∉ encodedInPath ∧ c ≠ '/' := by
  have hdigit : ∀ n < 16, (Text.hexChar n).toUpper.toNat < 127 ∧
      (Text.hexChar n).toUpper ∉ encodedInPath ∧ (Text.hexChar n).toUpper ≠ '/' := by decide
  obtain ⟨b, -, h⟩ := List.mem_flatMap.mp h
  rcases List.mem_cons.mp h with rfl | h
  · decide
  · obtain ⟨e, he, rfl⟩ := List.mem_map.mp h
    obtain ⟨n, hn, rfl⟩ := mem_digitsOfWidth he
    exact hdigit n hn

theorem length_toList_loop (b : ByteArray) (i : Nat) (front : List UInt8) :
    (ByteArray.toList.loop b i front).length = (b.size - i) + front.length := by
  induction h : b.size - i generalizing i front with
  | zero =>
    unfold ByteArray.toList.loop
    rw [if_neg (by omega), List.length_reverse, Nat.zero_add]
  | succ n ih =>
    unfold ByteArray.toList.loop
    rw [if_pos (by omega), ih _ _ (by omega), List.length_cons]
    omega

/-- Every character has bytes, and so a percent sign when it is encoded. -/
theorem percent_mem_encodedChar (d : Char) : '%' ∈ encodedChar d := by
  have hlength : (String.ofList [d]).toUTF8.toList.length = d.utf8Size := by
    rw [ByteArray.toList, length_toList_loop]
    simp [List.utf8Encode]
  obtain ⟨b, hb⟩ := List.exists_mem_of_length_pos (hlength ▸ d.utf8Size_pos)
  exact List.mem_flatMap.mpr ⟨b, hb, List.mem_cons_self ..⟩

section Encoded

variable {those cs : List Char} {c : Char}

/-- A character of an encoded text stood in the text, or it is one of those that characters are
encoded in. -/
theorem mem_encoded (h : c ∈ encoded those cs) :
    (c ∈ cs ∧ c.toNat < 127 ∧ c ∉ those) ∨ ∃ d, c ∈ encodedChar d := by
  obtain ⟨d, hd, h⟩ := List.mem_flatMap.mp h
  split at h
  next hkept =>
    obtain rfl := List.mem_singleton.mp h
    exact .inl ⟨hd, by simpa using hkept⟩
  next => exact .inr ⟨d, h⟩

/-- Nothing of an encoded path is encoded again. -/
theorem sent_encoded (h : c ∈ encoded encodedInPath cs) : c.toNat < 127 ∧ c ∉ encodedInPath := by
  rcases mem_encoded h with ⟨-, h⟩ | ⟨d, hd⟩
  · exact h
  · exact ⟨(mem_encodedChar hd).1, (mem_encodedChar hd).2.1⟩

theorem slash_mem_encoded (h : '/' ∈ encoded those cs) : '/' ∈ cs := by
  rcases mem_encoded h with ⟨h, -⟩ | ⟨d, hd⟩
  · exact h
  · exact absurd rfl (mem_encodedChar hd).2.2

/-- A text is encoded as one without a percent sign only where it stays as it is. -/
theorem encoded_of_percent_not_mem (h : '%' ∉ encoded those cs) : encoded those cs = cs := by
  induction cs with
  | nil => rfl
  | cons c cs ih =>
    rw [encoded, List.flatMap_cons, ← encoded, List.mem_append, not_or] at h
    rw [encoded, List.flatMap_cons, ← encoded, ih h.2]
    split
    next => rfl
    next hkept =>
      rw [if_neg hkept] at h
      exact absurd (percent_mem_encodedChar c) h.1

theorem encoded_intercalate (hslash : '/' ∉ those) (ps : List (List Char)) :
    encoded those (['/'].intercalate ps) = ['/'].intercalate (ps.map (encoded those)) := by
  have happend : ∀ xs ys, encoded those (xs ++ ys) = encoded those xs ++ encoded those ys :=
    fun xs ys => List.flatMap_append
  have hmark : encoded those ['/'] = ['/'] :=
    encoded_of_sent fun c hc => by
      rw [List.mem_singleton.mp hc]
      exact ⟨by decide, hslash⟩
  induction ps with
  | nil => rfl
  | cons p ps ih =>
    cases ps with
    | nil => simp [List.intercalate_singleton]
    | cons q qs =>
      rw [List.intercalate_cons_cons, happend, happend, ih, hmark]
      simp only [List.map_cons, List.intercalate_cons_cons]

end Encoded

/-! ## Pieces -/

theorem slash_not_mem_of_mem_splitOn {path p : List Char} (h : p ∈ path.splitOn '/') : '/' ∉ p := by
  induction path generalizing p with
  | nil =>
    rw [List.splitOn_nil, List.mem_singleton] at h
    rw [h]
    exact List.not_mem_nil
  | cons c path ih =>
    rw [List.splitOn_cons_eq_if_modifyHead] at h
    split at h
    next =>
      rcases List.mem_cons.mp h with rfl | h
      · exact List.not_mem_nil
      · exact ih h
    next hc =>
      obtain ⟨q, qs, hsplit⟩ := List.exists_cons_of_ne_nil (List.splitOn_ne_nil '/' path)
      rw [hsplit] at h
      rcases List.mem_cons.mp h with rfl | h
      · rw [List.mem_cons, not_or]
        exact ⟨fun heq => hc (by simp [← heq]), ih (hsplit ▸ List.mem_cons_self ..)⟩
      · exact ih (hsplit ▸ List.mem_cons_of_mem _ h)

/-- A path none of whose pieces stands for something else. -/
def Dotless (path : List Char) : Prop := ∀ p ∈ path.splitOn '/', p ≠ ['.'] ∧ p ≠ ['.', '.']

theorem resolveDots_of_dotless {path : List Char} (h : Dotless path) : resolveDots path = path := by
  rw [resolveDots, withoutDots_of_plain h, List.intercalate_splitOn]

/-- Pieces are left out, and none of those that are left is made of dots. -/
theorem mem_withoutDots {ps : List (List Char)} {p : List Char} (h : p ∈ withoutDots ps) :
    p ∈ ps ∧ p ≠ ['.'] ∧ p ≠ ['.', '.'] := by
  revert p
  induction ps using List.reverseRec with
  | nil => exact fun h => nomatch h
  | append_singleton ps q ih =>
    have hkept : ∀ p ∈ withoutDots ps, p ∈ ps ++ [q] ∧ p ≠ ['.'] ∧ p ≠ ['.', '.'] :=
      fun p hp => ⟨List.mem_append_left _ (ih hp).1, (ih hp).2⟩
    intro p h
    unfold withoutDots at h
    rw [List.foldl_append, ← withoutDots, List.foldl_cons, List.foldl_nil] at h
    split at h
    next => exact hkept p h
    next hone =>
      split at h
      next =>
        split at h
        next => exact hkept p h
        next => exact hkept p (List.dropLast_subset _ h)
      next htwo =>
        rcases List.mem_append.mp h with h | h
        · exact hkept p h
        · rw [List.mem_singleton.mp h]
          exact ⟨List.mem_append_right _ (List.mem_singleton_self _), hone, htwo⟩

theorem dotless_intercalate {ps : List (List Char)} (hslash : ∀ p ∈ ps, '/' ∉ p)
    (h : ∀ p ∈ ps, p ≠ ['.'] ∧ p ≠ ['.', '.']) : Dotless (['/'].intercalate ps) := by
  by_cases hnil : ps = []
  · subst hnil
    unfold Dotless
    decide
  · rw [Dotless, List.splitOn_intercalate _ hslash hnil]
    exact h

theorem dotless_resolveDots (path : List Char) : Dotless (resolveDots path) :=
  dotless_intercalate (fun _ hp => slash_not_mem_of_mem_splitOn (mem_withoutDots hp).1)
    fun _ hp => (mem_withoutDots hp).2

theorem dotless_encoded {those path : List Char} (hslash : '/' ∉ those) (h : Dotless path) :
    Dotless (encoded those path) := by
  have hpieces : ['/'].intercalate (path.splitOn '/') = path := List.intercalate_splitOn '/'
  rw [← hpieces, encoded_intercalate hslash]
  refine dotless_intercalate ?_ ?_
  · intro p hp hmem
    obtain ⟨q, hq, rfl⟩ := List.mem_map.mp hp
    exact slash_not_mem_of_mem_splitOn hq (slash_mem_encoded hmem)
  · intro p hp
    obtain ⟨q, hq, rfl⟩ := List.mem_map.mp hp
    -- Dots are encoded as dots, and nothing else is.
    have hdots : ∀ ds : List Char, '%' ∉ ds → encoded those q = ds → q = ds := fun ds hds heq => by
      rw [← heq] at hds
      exact (encoded_of_percent_not_mem hds).symm.trans heq
    exact ⟨fun heq => (h q hq).1 (hdots _ (by decide) heq),
      fun heq => (h q hq).2 (hdots _ (by decide) heq)⟩

/-! ## Targets -/

/-- A word of letters, digits and hyphens. -/
def isWord (cs : List Char) : Bool := cs.all fun c => c.isAlphanum || c == '-'

/-- A path that is sent as it is. -/
@[mk_iff]
structure Clean (path : List Char) : Prop where
  sent : ∀ c ∈ path, c.toNat < 127 ∧ c ∉ encodedInPath
  dotless : Dotless path

/-- A path that was sent once can be sent again. -/
theorem clean_sent (path : List Char) : Clean (encoded encodedInPath (resolveDots path)) :=
  ⟨fun _ => sent_encoded, dotless_encoded (by decide) (dotless_resolveDots path)⟩

namespace Clean

variable {path : List Char}

theorem sent_eq (h : Clean path) : encoded encodedInPath (resolveDots path) = path := by
  rw [resolveDots_of_dotless h.dotless, encoded_of_sent h.sent]

theorem nil : Clean [] := by
  refine ⟨nofun, ?_⟩
  unfold Dotless
  decide

/-- A path goes on behind a slash. -/
theorem append_slash_iff {front rest : List Char} :
    Clean (front ++ '/' :: rest) ↔ Clean front ∧ Clean rest := by
  have hslash : '/'.toNat < 127 ∧ '/' ∉ encodedInPath := by decide
  simp only [clean_iff, Dotless, List.splitOn_append_cons_self, List.forall_mem_append,
    List.forall_mem_cons]
  tauto

/-- A word is sent as it is. -/
theorem of_word (h : isWord path = true) : Clean path := by
  have hplain : ∀ c ∈ path, (c.toNat < 127 ∧ c ∉ encodedInPath) ∧ c ≠ '/' ∧ c ≠ '.' := by
    intro c hc
    have hchar : c.isAlphanum = true ∨ c = '-' := by simpa using List.all_eq_true.mp h c hc
    rcases hchar with h | rfl
    · exact of_ascii (P := fun c => c.isAlphanum = true →
        (c.toNat < 127 ∧ c ∉ encodedInPath) ∧ c ≠ '/' ∧ c ≠ '.') (by decide)
        (toNat_lt_of_isAlphanum h) h
    · decide
  refine ⟨fun c hc => (hplain c hc).1, fun p hp => ?_⟩
  rw [List.splitOn_eq_singleton fun hc => (hplain _ hc).2.1 rfl, List.mem_singleton] at hp
  subst hp
  exact ⟨fun heq => (hplain '.' (by simp [heq])).2.2 rfl,
    fun heq => (hplain '.' (by simp [heq])).2.2 rfl⟩

/-- No mark that is encoded stands in a path. -/
theorem splitAtMark (h : Clean path) {mark : Char} (hmark : mark ∈ encodedInPath) :
    splitAtMark mark path = (path, none) := by
  have hnot : mark ∉ path := fun hc => (h.sent _ hc).2 hmark
  have hall : path.takeWhile (· != mark) = path :=
    List.takeWhile_eq_self_iff.mpr fun c hc => by simpa using ne_of_mem_of_not_mem hc hnot
  rw [Address.splitAtMark, hall, if_neg (by simpa using hnot)]

end Clean

section Targets

variable {a b base : Address} {path : List Char} {query : Option (List Char)}

/-- With a scheme, the dots of a path are resolved, and then it is encoded. -/
theorem path_withPath? (hs : a.scheme ≠ []) (h : a.withPath? path query = some b) :
    b.path = encoded encodedInPath (resolveDots path) ∧
      b.query = query.map (encoded encodedInQuery) := by
  have hbare : (a.scheme.isEmpty && !a.hasAuthority) = false := by simp [hs]
  unfold withPath? at h
  simp only [hbare, Bool.false_and, Bool.false_eq_true, if_false] at h
  split at h
  next => cases h
  next =>
    cases h
    exact ⟨rfl, rfl⟩

theorem target_of_path (hpath : a.path ≠ []) (hquery : a.query = none) : a.target = a.path := by
  rw [target, hquery, if_neg (by simpa using hpath)]
  exact List.append_nil _

/-- Below a base with a scheme a clean path is sent as it is. -/
theorem target_withTarget?_of_clean (hs : base.scheme ≠ []) (hclean : Clean path) (hne : path ≠ [])
    (h : base.withTarget? path = some a) : a.target = path := by
  unfold withTarget? at h
  rw [hclean.splitAtMark (by decide)] at h
  obtain ⟨hpath, hquery⟩ := path_withPath? (by exact hs) h
  rw [hclean.sent_eq] at hpath
  rw [target_of_path (hpath ▸ hne) hquery, hpath]

/-- Without scheme and authority, the dots of a path stay. -/
theorem withPath?_of_bare (hs : a.scheme = []) (hauthority : a.hasAuthority = false)
    (hslashes : ['/', '/'].isPrefixOf path = false) (hcolon : path.head? ≠ some ':') :
    a.withPath? path query = some { a with
      path := encoded encodedInPath path
      query := query.map (encoded encodedInQuery) } := by
  unfold withPath?
  simp [hs, hauthority, hslashes, hcolon]

/-- A clean text that begins with one slash is an address with this target. -/
theorem target_ofText?_of_clean {text : String} {d : Char} {rest : List Char}
    (htext : text.toList = '/' :: d :: rest) (hd : d ≠ '/') (hclean : Clean text.toList)
    (h : ofText? text = some a) : a.scheme = [] ∧ a.target = text.toList := by
  have hparts : authorityParts [] = ([], [], []) := by decide
  have hhost : host? [] = some [] := by decide
  have hport : port? [] = some none := by decide
  unfold ofText? at h
  dsimp only at h
  split at h
  next => cases h
  next =>
    -- A slash in front rules out a scheme, and no second slash behind it an authority.
    have hspan : spanScheme text.toList = ([], text.toList) := by rw [htext, spanScheme_slash]
    rw [hclean.splitAtMark (by decide)] at h
    dsimp only at h
    rw [hspan] at h
    dsimp only at h
    rw [hclean.splitAtMark (by decide), htext] at h
    dsimp only at h
    split at h
    next r heq =>
      injection heq with _ heq
      injection heq with heq _
      exact absurd heq hd
    next =>
      simp only [hparts, hhost, hport, Option.bind_some] at h
      rw [withPath?_of_bare rfl rfl (by simp [List.isPrefixOf, Ne.symm hd]) (by simp), ← htext,
        encoded_of_sent hclean.sent] at h
      cases h
      exact ⟨rfl, target_of_path (by rw [htext]; exact List.cons_ne_nil _ _) rfl⟩

/-- Below a base with a scheme it is sent behind the path of the base. -/
theorem target_below?_of_clean {text : String} {d : Char} {rest : List Char}
    (hs : base.scheme ≠ []) (htext : text.toList = '/' :: d :: rest) (hd : d ≠ '/')
    (hclean : Clean text.toList) (hbase : Clean (base.target ++ d :: rest))
    (h : base.below? text = some a) : a.target = base.target ++ d :: rest := by
  unfold below? at h
  obtain ⟨b, hb, h⟩ := Option.bind_eq_some_iff.mp h
  obtain ⟨hscheme, htarget⟩ := target_ofText?_of_clean htext hd hclean hb
  simp only [hscheme, List.isEmpty_nil, Bool.not_true, Bool.false_and, Bool.false_eq_true,
    if_false] at h
  have hword : b.target.dropWhile (fun c => decide (c = '/')) = d :: rest := by
    rw [htarget, htext, List.dropWhile_cons_of_pos (by decide),
      List.dropWhile_cons_of_neg (by simpa using hd)]
  rw [hword] at h
  exact target_withTarget?_of_clean hs hbase (by simp) h

/-- What is read with a scheme has a clean path. -/
theorem clean_ofText? {text : String} (hs : a.scheme ≠ []) (h : ofText? text = some a) :
    Clean a.path := by
  unfold ofText? at h
  dsimp only at h
  split at h
  next => cases h
  next =>
    obtain ⟨host, -, h⟩ := Option.bind_eq_some_iff.mp h
    obtain ⟨port, -, h⟩ := Option.bind_eq_some_iff.mp h
    rw [(path_withPath? ((scheme_withPath? h).1 ▸ hs) h).1]
    exact clean_sent _

theorem scheme_withTarget? (h : a.withTarget? path = some b) : b.scheme = a.scheme := by
  unfold withTarget? at h
  exact (scheme_withPath? h).1

theorem scheme_opened? (h : a.opened? = some base) : base.scheme = a.scheme := by
  unfold opened? at h
  split at h
  next => rw [Option.some.inj h]
  next => exact scheme_withTarget? h

/-- A target with a query keeps it. -/
theorem query_withTarget? (hs : a.scheme ≠ []) (h : a.withTarget? path = some b)
    (hquery : b.query = none) : '?' ∉ path := by
  unfold withTarget? at h
  cases hmark : path.contains '?' with
  | false => simpa using hmark
  | true =>
    rw [splitAtMark, if_pos hmark] at h
    rw [(path_withPath? (by exact hs) h).2] at hquery
    cases hquery

/-- A base without a query has a clean target, with a slash at its end. -/
theorem target_opened? (hs : base.scheme ≠ []) (hclean : Clean a.path) (h : a.opened? = some base)
    (hquery : base.query = none) : ∃ front, Clean front ∧ base.target = front ++ ['/'] := by
  have hscheme : a.scheme ≠ [] := scheme_opened? h ▸ hs
  unfold opened? at h
  split at h
  next hlast =>
    cases h
    obtain ⟨front, hfront⟩ := List.getLast?_eq_some_iff.mp hlast
    refine ⟨front, ?_, hfront⟩
    by_cases hpath : a.path = []
    · rw [target, hpath, hquery] at hfront
      cases front with
      | nil => exact .nil
      | cons c front => simp at hfront
    · rw [target_of_path hpath hquery] at hfront
      exact (Clean.append_slash_iff.mp (hfront ▸ hclean)).1
  next hlast =>
    have hnone : a.query = none := by
      have hmark := query_withTarget? hscheme h hquery
      cases hq : a.query with
      | none => rfl
      | some q => exact absurd (by simp [target, hq]) hmark
    have hpath : a.path ≠ [] := by
      intro hpath
      rw [target, hpath, hnone] at hlast
      exact hlast rfl
    rw [target_of_path hpath hnone] at h
    exact ⟨a.path, hclean, target_withTarget?_of_clean hscheme
      (Clean.append_slash_iff.mpr ⟨hclean, .nil⟩) (by simp) h⟩

end Targets

end Address

namespace Gateway.Connection

open Address

variable {config : Config} {c : Connection} {id : String} {a : Address} {q : Request}

/-- The target of the base of a connection, unless it has a query. -/
theorem target_base (hc : config.connect = .ok c) (hs : c.base.scheme ≠ [])
    (hquery : c.base.query = none) : ∃ front, Clean front ∧ c.base.target = front ++ ['/'] := by
  unfold Config.connect at hc
  split at hc
  next => cases hc
  next base hbase =>
    dsimp only at hc
    split at hc
    next => cases hc
    next =>
      cases hc
      obtain ⟨a, ha, hopened⟩ := Option.bind_eq_some_iff.mp hbase
      exact target_opened? hs (clean_ofText? (scheme_opened? hopened ▸ hs) ha) hopened hquery

/-- What lies at a clean path below the gateway is asked for there. -/
theorem path_request? (hc : config.connect = .ok c) (hs : c.base.scheme ≠ [])
    (hquery : c.base.query = none) {method text body : String} {d : Char} {rest : List Char}
    (htext : text.toList = '/' :: d :: rest) (hd : d ≠ '/') (hclean : Clean (d :: rest))
    (hq : c.request? method text body = some (a, q)) :
    q.path = String.ofList (c.base.target ++ d :: rest) := by
  obtain ⟨front, hfront, hbase⟩ := target_base hc hs hquery
  obtain ⟨b, hb, heq⟩ := Option.map_eq_some_iff.mp hq
  cases heq
  have htextClean : Clean text.toList := by
    rw [htext]
    show Clean ([] ++ '/' :: d :: rest)
    exact Clean.append_slash_iff.mpr ⟨.nil, hclean⟩
  have hbaseClean : Clean (c.base.target ++ d :: rest) := by
    rw [hbase, List.append_assoc]
    exact Clean.append_slash_iff.mpr ⟨hfront, hclean⟩
  show String.ofList a.target = _
  rw [target_below?_of_clean hs htext hd htextClean hbaseClean hb]

end Gateway.Connection

end Custody
