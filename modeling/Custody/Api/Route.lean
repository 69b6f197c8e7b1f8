import Custody.Api.Message

/-!
# Routes

Where a request goes. A route has a method and a path whose open pieces take anything but a slash; a
path that only another method knows is answered as such, and a path that a slash at its end keeps
from being known is pointed to the one without.

> `find_found_mem`: a request goes to an endpoint only by a route of its method.
-/

namespace Custody.Api

/-- What the service offers. -/
inductive Endpoint where
  | health | create | list | overview | show' | events | update | activate | cancel | expire
  | release | dispute | resolve | confirm | check
deriving DecidableEq, Repr

/-- A piece of the path of a route. -/
inductive Piece where
  | word (w : String)
  | hole
deriving DecidableEq, Repr

/-- A route. -/
structure Route where
  method : String
  path : List Piece
  endpoint : Endpoint
deriving DecidableEq, Repr

namespace Route

/-- The path of a route about escrows. -/
def escrows (rest : List Piece) : List Piece :=
  [.word "api", .word "v1", .word "escrows"] ++ rest

/-- All routes; the first that fits is taken. -/
def all : List Route :=
  [⟨"GET", [.word "health"], .health⟩,
    ⟨"POST", escrows [], .create⟩,
    ⟨"GET", escrows [], .list⟩,
    ⟨"GET", escrows [.word "overview"], .overview⟩,
    ⟨"GET", escrows [.hole], .show'⟩,
    ⟨"GET", escrows [.hole, .word "events"], .events⟩,
    ⟨"PATCH", escrows [.hole], .update⟩,
    ⟨"POST", escrows [.hole, .word "activate"], .activate⟩,
    ⟨"POST", escrows [.hole, .word "cancel"], .cancel⟩,
    ⟨"POST", escrows [.hole, .word "expire"], .expire⟩,
    ⟨"POST", escrows [.hole, .word "release"], .release⟩,
    ⟨"POST", escrows [.hole, .word "dispute"], .dispute⟩,
    ⟨"POST", escrows [.hole, .word "resolve"], .resolve⟩,
    ⟨"POST", [.word "api", .word "v1", .word "conditions", .hole, .word "confirm"], .confirm⟩,
    ⟨"POST", [.word "api", .word "v1", .word "admin", .word "consistency-check"], .check⟩]

/-- The pieces of a path that stand in the holes of a route, when the path fits. A line may end behind
the last word. -/
def holes? : List Piece → List (List Char) → Option (List String)
  | [], [] => some []
  | [.word w], [c] => if c = w.toList ∨ c = w.toList ++ ['\n'] then some [] else none
  | .word w :: ps, c :: cs => if c = w.toList then holes? ps cs else none
  | .hole :: ps, c :: cs => if c = [] then none else (holes? ps cs).map (String.ofList c :: ·)
  | _, _ => none

/-- The pieces of a path that begins with a slash. -/
def pieces? : List Char → Option (List (List Char))
  | '/' :: cs => some (cs.splitOn '/')
  | _ => none

/-- What stands in the holes of a route, when the path fits. -/
def fits (r : Route) (path : List Char) : Option (List String) :=
  (pieces? path).bind (holes? r.path)

end Route

/-- Where a request goes. -/
inductive Destination where
  | found (e : Endpoint) (holes : List String)
  | otherMethod
  | otherPath
  | nowhere
deriving DecidableEq, Repr

namespace Destination

/-- Whether a path is that of some route. -/
def known (path : List Char) : Bool := Route.all.any fun r => (r.fits path).isSome

/-- A path without slashes at its end. -/
def unslashed (path : List Char) : List Char := (path.reverse.dropWhile (· = '/')).reverse

/-- Where a request with a method and a path goes. -/
def find (method : String) (path : List Char) : Destination :=
  match Route.all.findSome? fun r =>
      if r.method = method then (r.fits path).map fun hs => (r.endpoint, hs) else none with
  | some (e, hs) => .found e hs
  | none =>
    if known path then .otherMethod
    else if path.getLast? = some '/' ∧ path ≠ ['/'] ∧ known (unslashed path) then .otherPath
    else .nowhere

/-- A request goes to an endpoint only by a route of its method. -/
theorem find_found_mem {method : String} {path : List Char} {e : Endpoint} {hs : List String}
    (h : find method path = .found e hs) :
    ∃ r ∈ Route.all, r.method = method ∧ r.endpoint = e ∧ r.fits path = some hs := by
  unfold find at h
  split at h
  · rename_i e' hs' hf
    cases h
    obtain ⟨r, hr, hq⟩ := List.exists_of_findSome?_eq_some hf
    split at hq
    · rename_i hm
      obtain ⟨x, hx, hy⟩ := Option.map_eq_some_iff.1 hq
      cases hy
      exact ⟨r, hr, hm, rfl, hx⟩
    · cases hq
  · split at h
    · cases h
    · split at h <;> cases h

end Destination

end Custody.Api
