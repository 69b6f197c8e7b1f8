import Custody.Proofs.Naming
import Custody.Proofs.Target
import Custody.Proofs.Understanding

/-!
# How often a view is asked for

A read asks until a reply ends it, or until it has no attempt left. A reply is kept whatever it says;
only a failure of the connection is asked past. So what a read comes to hangs on one reply: the first
that ends it, or else the last failure.

> `readAttempts_of_closesAt`: the replies that a read takes are those up to the one that closes it.
> `Connection.fetch_of_closesAt`: so it sends one request for each, and comes to what that one means.
> `reads_bounded`: how many requests that are, by the first reply that ends a read.
-/

namespace Custody

namespace Gateway

/-! ## Replies in turn -/

/-- The `k`-th reply of a script, counted from one, is the first that ends a read. -/
structure EndsAt (script : Nat → Reply) (k : Nat) : Prop where
  pos : 0 < k
  ends : (script (k - 1)).isRetried = false
  retried : ∀ i, i + 1 < k → (script i).isRetried = true

/-- A read of so many attempts takes no reply behind the `k`-th: that one ends it, or its attempts. -/
structure ClosesAt (script : Nat → Reply) (attempts k : Nat) : Prop where
  pos : 0 < k
  le : k ≤ attempts
  closes : (script (k - 1)).isRetried = true → k = attempts
  retried : ∀ i, i + 1 < k → (script i).isRetried = true

section Scripts

variable {script : Nat → Reply} {attempts k : Nat}

/-- A read closes at the first reply that ends one, or at its last attempt. -/
theorem EndsAt.closesAt (h : EndsAt script k) (hn : 0 < attempts) :
    ClosesAt script attempts (min attempts k) := by
  have hpos := h.pos
  refine ⟨by omega, by omega, fun hr => ?_, fun i hi => h.retried i (by omega)⟩
  by_contra hne
  have hk : min attempts k = k := by omega
  rw [hk, h.ends] at hr
  cases hr

/-- It closes at its last attempt when all of them have failed. -/
theorem closesAt_of_retried (h : ∀ i < attempts, (script i).isRetried = true) (hn : 0 < attempts) :
    ClosesAt script attempts attempts :=
  ⟨hn, le_refl _, fun _ => rfl, fun i hi => h i (by omega)⟩

/-- Where a reply ends a read, one is the first. -/
theorem exists_endsAt {i : Nat} (h : (script i).isRetried = false) : ∃ k, EndsAt script k := by
  induction i using Nat.strong_induction_on with
  | _ i ih =>
    by_cases hall : ∀ j < i, (script j).isRetried = true
    · exact ⟨i + 1, by omega, h, fun j hj => hall j (by omega)⟩
    · simp only [not_forall] at hall
      obtain ⟨j, hj, hends⟩ := hall
      exact ih j hj (by simpa using hends)

/-- Every read closes at one reply. -/
theorem exists_closesAt (script : Nat → Reply) (hn : 0 < attempts) :
    ∃ k, ClosesAt script attempts k := by
  by_cases hall : ∀ i < attempts, (script i).isRetried = true
  · exact ⟨_, closesAt_of_retried hall hn⟩
  · simp only [not_forall] at hall
    obtain ⟨i, -, hends⟩ := hall
    obtain ⟨k, hk⟩ := exists_endsAt (by simpa using hends)
    exact ⟨_, hk.closesAt hn⟩

/-- The replies that are asked past are taken one after another. -/
theorem readAttempts_of_retried {m i : Nat} (h : ∀ j < m, (script (i + j)).isRetried = true)
    (left : Nat) :
    readAttempts script (left + m) i =
      (List.range m).map (fun j => script (i + j)) ++ readAttempts script left (i + m) := by
  induction m generalizing left with
  | zero => rfl
  | succ m ih =>
    have hm := h m (by omega)
    rw [show left + (m + 1) = left + 1 + m by omega, ih (fun j hj => h j (by omega)),
      List.range_succ, List.map_append, List.append_assoc]
    simp only [readAttempts, hm, if_true, List.map_singleton, List.singleton_append, Nat.add_assoc]

/-- The replies that a read takes are those up to the one that closes it. -/
theorem readAttempts_of_closesAt (h : ClosesAt script attempts k) :
    readAttempts script attempts 0 = (List.range k).map script := by
  obtain ⟨m, rfl⟩ : ∃ m, k = m + 1 := ⟨k - 1, (Nat.succ_pred_eq_of_pos h.pos).symm⟩
  obtain ⟨left, rfl⟩ : ∃ left, attempts = left + 1 + m := ⟨attempts - (m + 1), by have := h.le; omega⟩
  rw [readAttempts_of_retried (fun j hj => by simpa using h.retried j (by omega)), List.range_succ,
    List.map_append]
  simp only [Nat.zero_add, List.map_singleton, readAttempts]
  congr 1
  split
  next hr =>
    -- A failure closes a read only where no attempt is left.
    obtain rfl : left = 0 := by have := h.closes hr; omega
    rfl
  next => rfl

end Scripts

/-! ## Requests -/

namespace Connection

variable {c : Connection} {script : Nat → Reply} {id : String} {a : Address} {q : Request} {k : Nat}

/-- A read sends one request for each reply up to the one that closes it, and comes to what that one
means. -/
theorem fetch_of_closesAt (hq : c.fetchRequest? id = some (a, q))
    (h : ClosesAt script c.attempts k) :
    c.fetch script id = (List.replicate k q, fetchOutcome a id (script (k - 1))) := by
  obtain ⟨m, rfl⟩ : ∃ m, k = m + 1 := ⟨k - 1, (Nat.succ_pred_eq_of_pos h.pos).symm⟩
  have hlast : ((List.range (m + 1)).map script).getLast? = some (script m) := by
    rw [List.range_succ, List.map_append, List.map_singleton, List.getLast?_concat]
  unfold fetch
  simp only [hq, readAttempts_of_closesAt h, hlast]
  simp [Function.comp_def]

/-- What cannot be asked for is not asked for. -/
theorem fetch_of_no_request (h : c.fetchRequest? id = none) :
    c.fetch script id = ([], .error (.failed .badAddress)) := by
  unfold fetch
  simp only [h]

/-- A connection makes as many attempts as it is told to, and at least one. -/
theorem attempts_connect {config : Config} (hc : config.connect = .ok c) :
    c.attempts = (max config.attempts 1).toNat ∧ 0 < c.attempts := by
  unfold Config.connect at hc
  split at hc
  next => cases hc
  next =>
    dsimp only at hc
    split at hc
    next => cases hc
    next =>
      cases hc
      have hmax : max 1 config.attempts = max config.attempts 1 := Int.max_comm ..
      exact ⟨congrArg Int.toNat hmax, by show 0 < (max 1 config.attempts).toNat; omega⟩

end Connection

/-- An identifier that can be asked for. -/
def Readable (id : String) : Prop :=
  id.toList.length + 9 ≤ Address.lengthMost ∧ ∀ c ∈ id.toList, Address.isAllowed c = true

namespace Connection

/-- What is asked for begins with one slash. -/
theorem toList_fetchTarget (id : String) :
    ("/escrows/" ++ id).toList = '/' :: 'e' :: ("scrows/".toList ++ id.toList) := by
  rw [String.toList_append]
  rfl

/-- Below a base with a scheme, exactly the readable identifiers can be asked for. -/
theorem isSome_fetchRequest?_iff {config : Config} (hc : config.connect = .ok c)
    (hs : c.base.scheme ≠ []) (id : String) :
    (c.fetchRequest? id).isSome = true ↔ Readable id := by
  have hfront : ∀ c ∈ "/escrows/".toList, Address.isAllowed c = true :=
    List.all_eq_true.mp (by decide)
  have hlength : ("/escrows/" ++ id).toList.length = id.toList.length + 9 := by
    rw [String.toList_append, List.length_append]
    exact Nat.add_comm ..
  unfold fetchRequest? request?
  rw [Option.isSome_map, Address.isSome_below?_iff (base_usable hc hs) (toList_fetchTarget id)
    (by decide), hlength, String.toList_append, List.forall_mem_append, Readable]
  exact and_congr_right fun _ => and_iff_right hfront

/-- The request of a read. -/
structure Asks (c : Connection) (id : String) (q : Request) : Prop where
  method : q.method = "GET"
  body : q.body = ""
  authorization : q.authorization = c.authorization
  path : c.base.scheme ≠ [] → c.base.query = none → Address.isWord id.toList = true →
    q.path = String.ofList c.base.target ++ "escrows/" ++ id

theorem asks_of_fetchRequest? {config : Config} {id : String} (hc : config.connect = .ok c)
    (hq : c.fetchRequest? id = some (a, q)) : c.Asks id q := by
  obtain ⟨b, -, heq⟩ := Option.map_eq_some_iff.mp hq
  have hpath (hs : c.base.scheme ≠ []) (hquery : c.base.query = none)
      (hword : Address.isWord id.toList = true) :
      q.path = String.ofList c.base.target ++ "escrows/" ++ id := by
    have hclean : Address.Clean ('e' :: ("scrows/".toList ++ id.toList)) := by
      show Address.Clean ("escrows".toList ++ '/' :: id.toList)
      exact Address.Clean.append_slash_iff.mpr ⟨.of_word (by decide), .of_word hword⟩
    rw [path_request? hc hs hquery (toList_fetchTarget id) (by decide) hclean hq]
    apply String.toList_injective
    simp
  cases heq
  exact ⟨rfl, rfl, rfl, hpath⟩

section Polls

variable {c : Connection} {script : Nat → Reply} {id : String} {a : Address} {q : Request}

/-- How often a read of `n` attempts sends its request, and what it comes to. -/
structure Polls (c : Connection) (id : String) (n : Nat) (a : Address) (q : Request)
    (script : Nat → Reply) : Prop where
  sends : ∀ k, EndsAt script k → (c.fetch script id).1 = List.replicate (min n k) q
  tells : ∀ k ≤ n, EndsAt script k → (c.fetch script id).2 = fetchOutcome a id (script (k - 1))
  means : ∀ k ≤ n, EndsAt script k → a.tellsKind = true →
    Understood id (script (k - 1)) (c.fetch script id).2
  fails : (∀ i < n, (script i).isRetried = true) →
    ∃ name message, script (n - 1) = .broken name message true ∧
      c.fetch script id =
        (List.replicate n q, fetchFault (.fetch ("Ledger unreachable: " ++ message)))
  heeds : ∀ i status body spare, script i = .response status body spare →
    (c.fetch script id).1.length ≤ i + 1

theorem polls_of_fetchRequest? (hpos : 0 < c.attempts)
    (hq : c.fetchRequest? id = some (a, q)) : c.Polls id c.attempts a q script where
  sends := fun k hk => by rw [fetch_of_closesAt hq (hk.closesAt hpos)]
  tells := fun k hle hk => by rw [fetch_of_closesAt hq (hk.closesAt hpos), Nat.min_eq_right hle]
  means := fun k hle hk ha => by
    rw [fetch_of_closesAt hq (hk.closesAt hpos), Nat.min_eq_right hle]
    exact understood_of_tellsKind ha id _
  fails := by
    intro hall
    rw [fetch_of_closesAt hq (closesAt_of_retried hall hpos)]
    have hlast := hall (c.attempts - 1) (by omega)
    cases hr : script (c.attempts - 1) with
    | response status body spare =>
      rw [hr] at hlast
      cases hlast
    | broken name message transport =>
      rw [hr] at hlast
      obtain rfl : transport = true := hlast
      exact ⟨name, message, rfl, rfl⟩
  heeds := by
    intro i status body spare hi
    obtain ⟨k, hk⟩ := exists_closesAt script hpos
    rw [fetch_of_closesAt hq hk, List.length_replicate]
    by_contra hlt
    have hretried := hk.retried i (by omega)
    rw [hi] at hretried
    cases hretried

end Polls

end Connection

end Gateway

open Gateway (Connection Readable)

/-- An identifier that cannot be asked for is not asked for. For another one, a read sends its request
to the path of the escrow once for every reply up to the first that ends a read, but no more often than
it has attempts, of which there is always one. It comes to what that reply means, and to nothing else:
a view, an unknown escrow, a break elsewhere than at the connection, an answer nested too deep, or a
failed read (below a base without a scheme, where no address tells its kind, it comes to what the reply
is taken for). When every attempt has failed at the connection, it tells of the last failure. No reply
that is an answer is asked past. -/
theorem reads_bounded {config : Gateway.Config} {c : Connection} (hc : config.connect = .ok c)
    (id : String) :
    (c.base.scheme ≠ [] → ((c.fetchRequest? id).isSome = true ↔ Readable id)) ∧
    (c.fetchRequest? id = none → ∀ script, c.fetch script id = ([], .error (.failed .badAddress))) ∧
    ∀ a q, c.fetchRequest? id = some (a, q) → c.Asks id q ∧
      ∀ script, c.Polls id (max config.attempts 1).toNat a q script := by
  obtain ⟨hn, hpos⟩ := Connection.attempts_connect hc
  refine ⟨fun hs => Connection.isSome_fetchRequest?_iff hc hs id,
    fun hnone _ => Connection.fetch_of_no_request hnone,
    fun a q hq => ⟨Connection.asks_of_fetchRequest? hc hq, fun script => ?_⟩⟩
  exact hn ▸ Connection.polls_of_fetchRequest? hpos hq

/-- The connection fails twice, and then the gateway answers that it is busy. -/
def busyScript : Nat → Gateway.Reply := Gateway.scripted
  [.broken "ConnectError" "refused" true, .broken "ReadTimeout" "timed out" true,
    .response 503 (Utf8.encode "busy") 0, .response 404 [] 0]

/-- With three attempts the third reply counts, and nothing is asked after it. -/
theorem reads_bounded_busyScript : ∃ a q, testConnection.fetchRequest? "e-1" = some (a, q) ∧
    q.path = "/escrows/e-1" ∧ Gateway.EndsAt busyScript 3 ∧
    testConnection.fetch busyScript "e-1" =
      (List.replicate 3 q, Gateway.fetchFault (.fetch "Ledger read failed: HTTP 503")) := by
  have hc : testConfig.connect = .ok testConnection := by decide +kernel
  obtain ⟨hreadable, -, hreads⟩ := reads_bounded hc "e-1"
  have hsome : (testConnection.fetchRequest? "e-1").isSome = true :=
    (hreadable (by decide)).mpr ⟨by decide, List.all_eq_true.mp (by decide)⟩
  obtain ⟨⟨a, q⟩, hq⟩ := Option.isSome_iff_exists.mp hsome
  obtain ⟨hasks, hpolls⟩ := hreads a q hq
  have hretried : ∀ i < 2, (busyScript i).isRetried = true := by decide
  have hends : Gateway.EndsAt busyScript 3 :=
    ⟨by decide, by decide, fun i hi => hretried i (by omega)⟩
  have htold : Gateway.fetchOutcome a "e-1" (busyScript 2) =
      Gateway.fetchFault (.fetch "Ledger read failed: HTTP 503") := by
    have hkind : (testConnection.fetchRequest? "e-1").map (fun p => p.1.tellsKind) = some true := by
      decide +kernel
    rw [hq] at hkind
    have hkind : a.tellsKind = true := Option.some.inj hkind
    rw [show busyScript 2 = .response 503 (Utf8.encode "busy") 0 from rfl, Gateway.fetchOutcome, hkind]
    rfl
  refine ⟨a, q, hq, hasks.path (by decide) (by decide) (by decide), hends, ?_⟩
  exact Prod.ext ((hpolls busyScript).sends 3 hends)
    (((hpolls busyScript).tells 3 (by decide) hends).trans htold)

end Custody
