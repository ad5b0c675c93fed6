/-! # Orders by difference

Numbers of 32 bits are compared by the sign of their difference modulo 2^32. Numbers that are half
the range or further apart have no order by it, so that the way a list is sorted shows.
-/

namespace ShaderBinding.Spirv

/--
Whether the difference of two numbers is zero or negative as a signed number. Numbers that are
half the range apart are so both ways round.
-/
def wrappedLe (a b : UInt32) : Bool := a = b || a - b ≥ 0x80000000

variable {α : Type}

def sortFrom (le : α → α → Bool) : Nat → List α → List α
  | 0, xs => xs
  | fuel + 1, xs =>
    let half := xs.length / 2
    if half = 0 then xs
    else (sortFrom le fuel (xs.take half)).merge (sortFrom le fuel (xs.drop half)) le

def sortBy (le : α → α → Bool) (xs : List α) : List α := sortFrom le xs.length xs

end ShaderBinding.Spirv
