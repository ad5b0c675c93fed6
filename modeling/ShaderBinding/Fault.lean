/-! # Faults and failures

A fault stops a computation outright: a quantity left its width, or an object was used against
its rules. An error is an answer a caller can handle. A `Failure` is one or the other, and the
arithmetic of sizes and offsets is over `Nat`, with a fault where the width is exceeded.
-/

namespace ShaderBinding

inductive Fault where
  | addOverflow
  | subOverflow
  | mulOverflow
  | capacityOverflow
  | indexOutOfBounds (length index : Nat)
  | lengthExceeded (limit length : Nat)
  | missingEntry
  | releasedTwice
  | usedAfterRelease
  | notMapped
  | zeroAspectRatio
  | coincidentPlanes
  | unknownImage
  deriving DecidableEq, Repr

namespace Fault

def message : Fault → String
  | addOverflow => "attempt to add with overflow"
  | subOverflow => "attempt to subtract with overflow"
  | mulOverflow => "attempt to multiply with overflow"
  | capacityOverflow => "capacity overflow"
  | indexOutOfBounds length index =>
    s!"index out of bounds: the len is {length} but the index is {index}"
  | lengthExceeded limit length =>
    s!"range end index {length} out of range for slice of length {limit}"
  | missingEntry => "no entry found for key"
  | releasedTwice => "Double-free"
  | usedAfterRelease => "Use after free"
  | notMapped => "Unmapping memory that is not mapped"
  | zeroAspectRatio => "The aspect ratio must not be zero."
  | coincidentPlanes => "The near-plane and far-plane must not be superimposed."
  | unknownImage => "not implemented"

/-- Whether an object or a mapping was used against its rules. -/
def isMisuse : Fault → Bool
  | releasedTwice | usedAfterRelease | notMapped | missingEntry => true
  | _ => false

end Fault

/-- A computation that can only fault. -/
abbrev Checked := Except Fault

inductive Failure (ε : Type) where
  | fault (fault : Fault)
  | error (error : ε)
  deriving DecidableEq, Repr

def Failure.map {ε δ : Type} (f : ε → δ) : Failure ε → Failure δ
  | .fault x => .fault x
  | .error e => .error (f e)

/-- A computation that can fault or report an error. -/
abbrev Outcome (ε : Type) := Except (Failure ε)

instance {ε : Type} : MonadLift Checked (Outcome ε) where
  monadLift x := x.mapError .fault

def Outcome.fail {ε α : Type} (e : ε) : Outcome ε α :=
  .error (.error e)

def Outcome.mapFailure {ε δ α : Type} (f : ε → δ) (x : Outcome ε α) : Outcome δ α :=
  x.mapError (Failure.map f)

/-- Sizes and offsets are unsigned numbers of 32 or of 64 bits. -/
inductive Width where
  | word
  | long
  deriving DecidableEq, Repr

namespace Width

def bound : Width → Nat
  | word => 0x100000000
  | long => 0x10000000000000000

def wrap (width : Width) (n : Nat) : Nat := n % width.bound

end Width

namespace Checked

def add (width : Width) (a b : Nat) : Checked Nat :=
  if a + b < width.bound then .ok (a + b) else .error .addOverflow

def mul (width : Width) (a b : Nat) : Checked Nat :=
  if a * b < width.bound then .ok (a * b) else .error .mulOverflow

/-- The sum of a list; every partial sum has to fit. -/
def sum (width : Width) (values : List Nat) : Checked Nat :=
  values.foldlM (add width) 0

def product (width : Width) (values : List Nat) : Checked Nat :=
  values.foldlM (mul width) 1

abbrev add32 := add .word
abbrev mul32 := mul .word
abbrev sum32 := sum .word
abbrev product32 := product .word
abbrev add64 := add .long
abbrev mul64 := mul .long

def isSigned64 (n : Int) : Bool := -0x8000000000000000 ≤ n && n < 0x8000000000000000

def addSigned64 (a b : Int) : Checked Int :=
  if isSigned64 (a + b) then .ok (a + b) else .error .addOverflow

def mulSigned64 (a b : Int) : Checked Int :=
  if isSigned64 (a * b) then .ok (a * b) else .error .mulOverflow

theorem add_eq_ok_iff {width : Width} {a b c : Nat} :
    add width a b = .ok c ↔ a + b < width.bound ∧ c = a + b := by
  unfold add; split <;> simp [*, eq_comm]

theorem mul_eq_ok_iff {width : Width} {a b c : Nat} :
    mul width a b = .ok c ↔ a * b < width.bound ∧ c = a * b := by
  unfold mul; split <;> simp [*, eq_comm]

end Checked

end ShaderBinding
