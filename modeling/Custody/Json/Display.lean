import Custody.Json.Basic
import Custody.Number.Shortest
import Custody.Text.Quoted

/-!
# Values in messages

How a value is named in a message: a text stands for itself, or in quotes where it is quoted or
nested, and the other values have the spellings below.
-/

namespace Custody

namespace Json

mutual

/-- A value with quotes around its texts. -/
def literal : Json → String
  | .null => "None"
  | .bool true => "True"
  | .bool false => "False"
  | .int n => toString n
  | .real x => x.text
  | .text s => Text.quoted s
  | .list items => "[" ++ literalItems items ++ "]"
  | .object ms => "\x7b" ++ literalMembers ms ++ "\x7d"
  | .broken t => (LooseText.broken t).quoted
  | .under _ v => literal v

/-- Items with commas between them. -/
def literalItems : List Json → String
  | [] => ""
  | [v] => literal v
  | v :: rest => literal v ++ ", " ++ literalItems rest

/-- Members with commas between them. -/
def literalMembers : List (String × Json) → String
  | [] => ""
  | [(k, v)] => (keyOf (k, v)).quoted ++ ": " ++ literal v
  | (k, v) :: rest => (keyOf (k, v)).quoted ++ ": " ++ literal v ++ ", " ++ literalMembers rest

end

/-- A value as text: a text as it is, any other value by its spelling. -/
def spelled : Json → LooseText
  | .text s => .sound s
  | .broken t => .broken t
  | v => .sound (literal v)

/-- A value as messages show it. -/
def display (v : Json) : String := v.spelled.shown

/-- Whether a value counts as true: null, false, zero and everything empty do not. -/
def truthy : Json → Bool
  | .null => false
  | .bool b => b
  | .int n => n != 0
  | .real x => !x.isZero
  | .text s => s != ""
  | .list items => !items.isEmpty
  | .object ms => !ms.isEmpty
  | .broken _ => true
  | .under _ v => truthy v

end Json

end Custody
