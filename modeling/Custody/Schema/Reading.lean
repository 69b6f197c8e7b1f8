import Custody.Failure

/-!
# Reading requests

A reader takes a JSON value to a value of the domain, or to the list of everything that is wrong
with it, each finding with the path to where it was found. Readers of objects go through the fields
in the order of declaration and do not stop at the first fault.

> `both_eq_ok_iff`: two readings together succeed exactly when each of them does.
-/

namespace Custody

/-- A value read, or all that is wrong. -/
abbrev Reading (α : Type) := Except (List Finding) α

/-- A way to read a value. -/
abbrev Reader (α : Type) := Json → Reading α

/-- Where a value comes from. A number with a fraction is taken to a decimal by its shortest
positional text from a JSON text, and by its usual text elsewhere; something else in the place of
an object is named differently in a request body. -/
inductive Source where
  | text | value | body
deriving DecidableEq, Repr

namespace Reading

/-- A single finding right here. -/
def fault {α : Type} (v : Violation) : Reading α := .error [⟨v, []⟩]

/-- A reading one step further down. -/
def under {α : Type} (step : PathStep) : Reading α → Reading α
  | .ok a => .ok a
  | .error fs => .error (fs.map fun f => { f with path := step :: f.path })

/-- A reading and another one: the findings of both are kept. -/
def both {α β : Type} : Reading α → Reading β → Reading (α × β)
  | .ok a, .ok b => .ok (a, b)
  | .error fs, .ok _ => .error fs
  | .ok _, .error gs => .error gs
  | .error fs, .error gs => .error (fs ++ gs)

/-- A function read so far is given one more argument. -/
def arg {α β : Type} (x : Reading α) (f : Reading (α → β)) : Reading β :=
  (both f x).map fun (g, a) => g a

/-- All items, each under its position; the first position is `i`. -/
def items {α : Type} (r : Reader α) : Nat → List Json → Reading (List α)
  | _, [] => .ok []
  | i, v :: rest => ((r v).under (.index i) |>.both (items r (i + 1) rest)).map fun (a, as) => a :: as

theorem both_eq_ok_iff {α β : Type} {x : Reading α} {y : Reading β} {p : α × β} :
    both x y = .ok p ↔ x = .ok p.1 ∧ y = .ok p.2 := by
  cases x <;> cases y <;> simp [both, Prod.ext_iff]

end Reading

/-- A sequence of steps gives a result exactly when each step does. -/
theorem Except.bind_eq_ok_iff {ε α β : Type} {x : Except ε α} {f : α → Except ε β} {b : β} :
    (x >>= f) = .ok b ↔ ∃ a, x = .ok a ∧ f a = .ok b := by
  cases x with
  | error e => simp [bind, Except.bind]
  | ok a => simp [bind, Except.bind]

/-! ## Objects -/

/-- The members of an object. -/
abbrev Members := List (String × Json)

/-- A field that has to be there. -/
def required {α : Type} (ms : Members) (name : String) (r : Reader α) : Reading α :=
  (match Json.lookup name ms with
    | some v => r v
    | none => Reading.fault .missing).under (.key name)

/-- A field that may be left out. -/
def optional {α : Type} (ms : Members) (name : String) (r : Reader α) : Reading (Option α) :=
  match Json.lookup name ms with
  | some v => ((r v).under (.key name)).map some
  | none => .ok none

/-- A field with a value for when it is left out. -/
def defaulted {α : Type} (ms : Members) (name : String) (r : Reader α) (a : α) : Reading α :=
  (optional ms name r).map (·.getD a)

/-- An object, read by its members. -/
def model {α : Type} (src : Source) (body : Members → Reading α) : Reader α
  | .object ms => body ms
  | _ => Reading.fault (if src = .body then .modelAttributesType else .modelType)

/-- Null, or a value. -/
def nullable {α : Type} (r : Reader α) : Reader (Option α)
  | .null => .ok none
  | v => (r v).map some

/-- A list of values with bounds on its length. One value too many ends the reading at once. -/
def listOf {α : Type} (r : Reader α) (least : Nat) (most : Option Nat) : Reader (List α)
  | .list vs =>
    if most.any fun m => m < vs.length then Reading.fault .tooLong
    else match Reading.items r 0 vs with
      | .ok as => if as.length < least then Reading.fault .tooShort else .ok as
      | .error fs => .error fs
  | _ => Reading.fault .listType

/-- The fields of a model that a request gives, in alphabetical order. -/
def givenFields (fields : List String) (ms : Members) : List String :=
  (fields.filter fun f => ms.any fun m => m.1 = f).mergeSort fun a b => a ≤ b

end Custody
