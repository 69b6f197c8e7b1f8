import Custody.Text.Digit

/-!
# Base 64

Bytes in characters that every header can carry: three bytes are four characters of six bits each,
and equals signs fill the last group.

> `encode64_length`: every group of three bytes that was begun takes four characters.
-/

namespace Custody.Text

/-- The sixty-four characters, in the order of the bits that they stand for. -/
def alphabet64 : List Char :=
  "ABCDEFGHIJKLMNOPQRSTUVWXYZabcdefghijklmnopqrstuvwxyz0123456789+/".toList

/-- The character of six bits. -/
def char64 (n : Nat) : Char := alphabet64.getD (n % 64) 'A'

/-- The characters of bytes. -/
def encode64 : List Nat → List Char
  | a :: b :: c :: rest =>
    char64 (a / 4) :: char64 (a * 16 + b / 16) :: char64 (b * 4 + c / 64) :: char64 c :: encode64 rest
  | [a, b] => [char64 (a / 4), char64 (a * 16 + b / 16), char64 (b * 4), '=']
  | [a] => [char64 (a / 4), char64 (a * 16), '=', '=']
  | [] => []

theorem encode64_length (bs : List Nat) : (encode64 bs).length = (bs.length + 2) / 3 * 4 := by
  fun_induction encode64 bs with
  | case1 a b c rest ih => simp only [List.length_cons, ih]; omega
  | case2 => simp
  | case3 => simp
  | case4 => rfl

end Custody.Text
