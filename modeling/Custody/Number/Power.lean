/-!
# Powers of two and ten

The weights of the digits in the two bases that numbers are written in here.
-/

namespace Custody

/-- Two to the power of a number. -/
def twoTo (n : Nat) : Nat := Nat.pow 2 n

/-- Ten to the power of a number. -/
def tenTo (n : Nat) : Nat := Nat.pow 10 n

@[simp]
theorem twoTo_zero : twoTo 0 = 1 := rfl

@[simp]
theorem tenTo_zero : tenTo 0 = 1 := rfl

theorem twoTo_succ (n : Nat) : twoTo (n + 1) = twoTo n * 2 := rfl

theorem tenTo_succ (n : Nat) : tenTo (n + 1) = tenTo n * 10 := rfl

theorem twoTo_pos (n : Nat) : 0 < twoTo n := by
  induction n with
  | zero => decide
  | succ n ih => rw [twoTo_succ]; omega

theorem tenTo_pos (n : Nat) : 0 < tenTo n := by
  induction n with
  | zero => decide
  | succ n ih => rw [tenTo_succ]; omega

/-- Whether a whole number has room in 64 bits, one of which is its sign. -/
def fitsWord (n : Int) : Bool := -(twoTo 63) ≤ n && n < twoTo 63

end Custody
