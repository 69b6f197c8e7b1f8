import Custody.Store.Basic
import Custody.Text.Pattern

/-!
# Listings

A user sees the escrows that they take part in, chosen by filters, sorted by a column and cut into
pages. Escrows that are equal in the column come in the order of their identifiers, so a listing has
one order only. An overview does the same from the depositor's or the recipient's side, and shows
what has been released of each amount.

> `mem_arrange`: sorting neither adds nor drops an escrow.
> `pageOf_append`: the first page and the rest are the whole.
-/

namespace Custody

/-! ## Order -/

/-- What escrows can be sorted by. -/
inductive Column where
  | createdAt | updatedAt | amount | deadline | title
deriving DecidableEq, Repr, Inhabited

namespace Column

/-- The column with a name; a listing by an unknown one goes by creation. -/
def ofText : String → Column
  | "updated_at" => .updatedAt
  | "amount" => .amount
  | "expires_at" => .deadline
  | "title" => .title
  | _ => .createdAt

/-- The order of two escrows in a column. Times are compared by what the clock showed, amounts by
their nearest binary values, titles by their characters; no deadline comes before any. -/
def order (c : Column) (a b : Escrow) : Ordering :=
  match c with
  | .createdAt => compare a.createdAt.wall b.createdAt.wall
  | .updatedAt => compare a.updatedAt.wall b.updatedAt.wall
  | .amount => compare a.amount.toBinary64.rank b.amount.toBinary64.rank
  | .deadline =>
    match a.deadline, b.deadline with
    | none, none => .eq
    | none, some _ => .lt
    | some _, none => .gt
    | some x, some y => compare x.wall y.wall
  | .title => compare a.title b.title

end Column

/-- Whether an escrow may stand before another one. -/
def precedes (c : Column) (o : SortOrder) (a b : Escrow) : Bool :=
  let r := match o with
    | .asc => c.order a b
    | .desc => c.order b a
  (r.then (compare a.id.value b.id.value)).isLE

/-- Escrows in the order of a column. -/
def arrange (c : Column) (o : SortOrder) (es : List Escrow) : List Escrow :=
  es.mergeSort (precedes c o)

theorem mem_arrange {c : Column} {o : SortOrder} {es : List Escrow} {e : Escrow} :
    e ∈ arrange c o es ↔ e ∈ es := List.mem_mergeSort

@[simp]
theorem length_arrange (c : Column) (o : SortOrder) (es : List Escrow) :
    (arrange c o es).length = es.length := List.length_mergeSort _

/-! ## Pages -/

/-- A piece of a list. A start before the list is its start, a negative size has no bound. -/
def pageOf {α : Type} (start size : Int) (l : List α) : List α :=
  let rest := l.drop start.toNat
  if size < 0 then rest else rest.take size.toNat

theorem pageOf_append {α : Type} (n : Nat) (l : List α) :
    pageOf 0 n l ++ pageOf n (-1) l = l := by
  simp [pageOf, List.take_append_drop, show ¬ (n : Int) < 0 by omega]

/-- The `page`-th page of a size, unless the store cannot count as far. -/
def paged {α : Type} (page size : Int) (l : List α) : Except Failure (List α) :=
  let start := (page - 1) * size
  if fitsWord start && fitsWord size then .ok (pageOf start size l) else .error .offsetOutOfRange

/-! ## Listings -/

/-- What a user wants to see. -/
structure ListQuery where
  status : Option Status
  type : Option EscrowType
  role : Option Role
  search : Option String
  column : Column
  order : SortOrder
  page : Int
  limit : Int
deriving DecidableEq, Repr

/-- A page of escrows, and how many there are on all pages. -/
structure Page where
  items : List Escrow
  total : Nat
deriving Repr

/-- Whether an escrow has a text in its title or its description. -/
def Escrow.mentions (e : Escrow) (text : String) : Bool :=
  Text.containsPattern text e.title || e.description.any fun d => Text.containsPattern text d

/-- Whether a user takes part in an escrow, in a role if one is given. -/
def Escrow.involves (e : Escrow) (user : String) (role : Option Role) : Bool :=
  match role with
  | some r => (rolesFor e.parties user).contains r
  | none => !(rolesFor e.parties user).isEmpty

namespace ListQuery

/-- Whether an escrow has the status and the type that are asked for. -/
def admits (q : ListQuery) (e : Escrow) : Bool :=
  q.status.all (e.status = ·) && q.type.all (e.type = ·)

/-- Whether an escrow is what a user wants to see. -/
def selects (q : ListQuery) (user : String) (e : Escrow) : Bool :=
  e.involves user q.role && q.admits e && q.search.all fun t => t = "" || e.mentions t

/-- Whether the store gives up on the search text: it is too long, and there are escrows to search, be
they the user's or not. -/
def overstrains (q : ListQuery) (s : Store) : Bool :=
  (q.search.any fun t => !Text.isSearchable t) && s.escrows.any q.admits

end ListQuery

/-- A page of what a user wants to see. -/
def Store.list (s : Store) (user : String) (q : ListQuery) : Except Failure Page :=
  if q.overstrains s then .error .patternTooLong
  else do
    let found := s.escrows.filter (q.selects user)
    let items ← paged q.page q.limit (arrange q.column q.order found)
    return ⟨items.map Escrow.loaded, found.length⟩

/-! ## Overviews -/

/-- A line of an overview: what was deposited and what of it has been released. -/
structure OverviewItem where
  escrow : Escrow
  released : Decimal
  remaining : Decimal
deriving Repr

/-- A page of an overview. -/
structure Overview where
  items : List OverviewItem
  total : Nat
  pages : Int
  page : Int
  pageSize : Int
deriving Repr

/-- Whether an escrow is seen from a side of it. -/
def Escrow.seenFrom (e : Escrow) (user : String) : OverviewRole → Bool
  | .depositor => e.creator = user
  | .recipient => e.involves user (some .seller)
  | .any => e.creator = user || e.involves user (some .seller)

/-- Whether an escrow that may still be left waits past its deadline. -/
def Escrow.overdue (e : Escrow) (now : Moment) : Bool :=
  (e.deadline.any fun d => d.wall < now.wall) && (e.status = .pending || e.status = .active)

/-- Whether an escrow has a status of the overview. -/
def Escrow.hasOverviewStatus (e : Escrow) (now : Moment) : OverviewStatus → Bool
  | .created => e.status = .pending
  | .pending => e.status = .pending
  | .active => e.status = .active
  | .completed => e.status = .completed
  | .cancelled => e.status = .cancelled
  | .disputed => e.status = .disputed
  | .expired => e.overdue now

/-- Whether an escrow belongs into an overview. -/
def OverviewQuery.selects (q : OverviewQuery) (user : String) (now : Moment) (e : Escrow) : Bool :=
  e.seenFrom user q.role && q.status.all (e.hasOverviewStatus now) &&
    (q.token.all fun t => t = "" || e.asset = t) &&
    (q.createdFrom.all fun m => m.wall ≤ e.createdAt.wall) &&
    (q.createdTo.all fun m => e.createdAt.wall ≤ m.wall)

/-- The column that an overview is sorted by. -/
def OverviewQuery.column (q : OverviewQuery) : Column :=
  match q.sortBy with
  | .createdAt => .createdAt
  | .deadline => .deadline

/-- The findings about an amount that is no number to show. -/
def unshowable (name : String) (d : Decimal) : List Finding :=
  if d.isFinite then [] else [⟨.finiteNumber, [.key name]⟩]

/-- The line of an escrow. -/
def OverviewItem.ofEscrow (e : Escrow) : Except Failure OverviewItem :=
  let released := if e.released then e.amount else Decimal.zero
  match e.amount.sub? released with
  | none => .error (.decimal .undefinedValue)
  | some remaining =>
    match unshowable "total_amount" e.amount ++ unshowable "total_released" released ++
        unshowable "remaining_amount" remaining with
    | [] => .ok ⟨e, released, remaining⟩
    | fs => .error (.request fs)

/-- How many pages of a size hold so many lines. -/
def pageCount (total : Nat) (size : Int) : Except Failure Int :=
  if total = 0 then .ok 0
  else if size = 0 then .error .divisionByZero
  else .ok (-(Int.fdiv (-(total : Int)) size))

/-- A page of an overview, with at most so many lines. -/
def Store.overview (s : Store) (user : String) (q : OverviewQuery) (most : Int) (now : Moment) :
    Except Failure Overview := do
  let size := min q.pageSize most
  let found := s.escrows.filter (q.selects user now)
  let rows ← paged q.page size (arrange q.column q.sortOrder found)
  let items ← rows.mapM fun e => OverviewItem.ofEscrow e.loaded
  let pages ← pageCount found.length size
  return { items := items, total := found.length, pages := pages, page := q.page, pageSize := size }

/-! ## What to reconcile -/

/-- The escrows that changed last, newest first; a negative bound is none. -/
def Store.recent (s : Store) (most : Int) : Except Failure (List Identifier) :=
  if fitsWord most then
    .ok (pageOf 0 most ((s.escrows.mergeSort fun a b => b.updatedAt.wall ≤ a.updatedAt.wall).map (·.id)))
  else .error .offsetOutOfRange

end Custody
