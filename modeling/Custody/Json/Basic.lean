import Custody.Number.Binary64
import Custody.Text.CodePoint

/-!
# JSON values

A value keeps what its text tells: the order of an object's members, and whether a number was
written whole or with a fraction. A broken text is kept with its code points. A member whose name is
broken stands under the name as it is shown, and its value tells the name.

> `same_text_iff`: texts are the same exactly when they are equal.
-/

namespace Custody

/-- A JSON value, or what stands under a broken key. -/
inductive Json where
  | null
  | bool (b : Bool)
  | int (n : Int)
  | real (x : Binary64)
  | text (s : String)
  | list (items : List Json)
  | object (members : List (String × Json))
  | broken (t : BrokenText)
  | under (key : BrokenText) (value : Json)
deriving Repr, Inhabited

namespace Json

/-- The value of a text. -/
def ofLoose : LooseText → Json
  | .sound s => .text s
  | .broken t => .broken t

theorem ofLoose_ne_null (t : LooseText) : ofLoose t ≠ .null := by
  cases t <;> exact nofun

/-- The member of an object with a key that may be broken. -/
def member : LooseText → Json → String × Json
  | .sound s, v => (s, v)
  | .broken t, v => ((LooseText.broken t).shown, .under t v)

/-- The key of a member. -/
def keyOf : String × Json → LooseText
  | (_, .under t _) => .broken t
  | (k, _) => .sound k

/-- The value under a key that may be broken; of several members of one key the last counts. -/
def lookupLoose (key : LooseText) : List (String × Json) → Option Json
  | [] => none
  | m :: rest => (lookupLoose key rest).orElse fun _ => if keyOf m = key then some m.2 else none

/-- The value under a key. -/
def lookup (key : String) (ms : List (String × Json)) : Option Json := lookupLoose (.sound key) ms

/-- The member of an object; none for a value that is no object. -/
def get? (key : String) : Json → Option Json
  | .object ms => lookup key ms
  | _ => none

/-- The members with the value under a key set: in its place when the key is there, at the end
when it is not. -/
def insert {κ : Type} [DecidableEq κ] (key : κ) (value : Json) : List (κ × Json) → List (κ × Json)
  | [] => [(key, value)]
  | (k, v) :: rest => if k = key then (k, value) :: rest else (k, v) :: insert key value rest

/-- One member per key, at the place where the key came first, with the value it came with
last. -/
def distinct {κ : Type} [DecidableEq κ] (members : List (κ × Json)) : List (κ × Json) :=
  members.foldl (fun ms (k, v) => insert k v ms) []

/-- A text, or null where there is none. -/
def ofText? : Option String → Json
  | some s => .text s
  | none => .null

/-- The same for a text that may be broken. -/
def ofLoose? : Option LooseText → Json
  | some t => ofLoose t
  | none => .null

/-! ## Equality -/

/-- The fraction that a value is as a number; a truth value counts as one or zero. -/
def ratio? : Json → Option (Int × Nat)
  | .bool b => some (if b then 1 else 0, 1)
  | .int n => some (n, 1)
  | .real x => x.toRatio?
  | _ => none

/-- Whether two values are the same number. -/
def sameNumber (a b : Json) : Bool :=
  match ratio? a, ratio? b with
  | some (n, d), some (m, e) => n * e == m * d
  | none, none =>
    match a, b with
    | .real x, .real y => x == y
    | _, _ => false
  | _, _ => false

mutual

/-- Whether two values are the same: numbers by what they count, objects whatever the order of their
members. -/
def same : Json → Json → Bool
  | .null, b => match b with
    | .null => true
    | _ => false
  | .text a, b => match b with
    | .text b => a == b
    | _ => false
  | .list a, b => match b with
    | .list b => sameItems a b
    | _ => false
  | .object a, b => match b with
    | .object b => a.length == b.length && sameMembers a b
    | _ => false
  | .broken a, b => match b with
    | .broken b => a == b
    | _ => false
  | .under k a, b => match b with
    | .under l b => k == l && same a b
    | _ => false
  | a, b => sameNumber a b

/-- Whether items are the same, one by one. -/
def sameItems : List Json → List Json → Bool
  | [], [] => true
  | a :: as, b :: bs => same a b && sameItems as bs
  | _, _ => false

/-- Whether each of some members has the same value among others. -/
def sameMembers : List (String × Json) → List (String × Json) → Bool
  | [], _ => true
  | (k, a) :: as, bs =>
    (match lookupLoose (keyOf (k, a)) bs with
      | some b => same a b
      | none => false) && sameMembers as bs

end

/-- Equality of values. An undefined number is not equal to itself. -/
def equals (a b : Json) : Bool :=
  match a with
  | .real .nan => false
  | _ => same a b

instance : BEq Json := ⟨same⟩

theorem same_text_iff (a b : String) : same (.text a) (.text b) = true ↔ a = b := by
  simp [same]

/-! ## Size and content -/

mutual

/-- How deep a value is: one for a value without parts, one more than its deepest part for any
other. -/
def depth : Json → Nat
  | .list items => depthItems items + 1
  | .object members => depthMembers members + 1
  | .under _ v => depth v
  | _ => 1

/-- The depth of the deepest item. -/
def depthItems : List Json → Nat
  | [] => 0
  | v :: vs => max (depth v) (depthItems vs)

/-- The depth of the deepest member. -/
def depthMembers : List (String × Json) → Nat
  | [] => 0
  | (_, v) :: ms => max (depth v) (depthMembers ms)

end

mutual

/-- Whether a document can carry a value: it has no broken text and no number that is not finite. -/
def isPortable : Json → Bool
  | .real x => x.isFinite
  | .list items => portableItems items
  | .object members => portableMembers members
  | .broken _ | .under .. => false
  | _ => true

/-- Whether a document can carry all items. -/
def portableItems : List Json → Bool
  | [] => true
  | v :: vs => isPortable v && portableItems vs

/-- Whether a document can carry all members. -/
def portableMembers : List (String × Json) → Bool
  | [] => true
  | (_, v) :: ms => isPortable v && portableMembers ms

end

mutual

/-- A value with null for every number that is not finite. -/
def finite : Json → Json
  | .real x => if x.isFinite then .real x else .null
  | .list items => .list (finiteItems items)
  | .object members => .object (finiteMembers members)
  | .under k v => .under k (finite v)
  | v => v

/-- Items with null for every number that is not finite. -/
def finiteItems : List Json → List Json
  | [] => []
  | v :: vs => finite v :: finiteItems vs

/-- Members with null for every number that is not finite. -/
def finiteMembers : List (String × Json) → List (String × Json)
  | [] => []
  | (k, v) :: ms => (k, finite v) :: finiteMembers ms

end

/-- Whether a text or a key in a value is broken. -/
def isBroken (v : Json) : Bool := !v.finite.isPortable

end Json

end Custody
