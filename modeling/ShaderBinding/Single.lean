/-! # Single-precision numbers

Numbers of 32 bits as their bit patterns, so that a NaN keeps its payload. An operation on a NaN
gives that NaN back, made quiet, and an invalid operation on other numbers gives the negative
quiet NaN without a payload.
-/

namespace ShaderBinding

structure Single where
  bits : UInt32
  deriving DecidableEq, Repr

namespace Single

def zero : Single := ⟨0⟩
def one : Single := ⟨0x3F800000⟩
def two : Single := ⟨0x40000000⟩

instance : Inhabited Single := ⟨zero⟩

def isNaN (x : Single) : Bool := (x.bits &&& 0x7FFFFFFF) > 0x7F800000

def quiet (x : Single) : Single := ⟨x.bits ||| 0x00400000⟩

def toFloat (x : Single) : Float32 := .ofBits x.bits

def ofFloat (x : Float32) : Single := if x.isNaN then ⟨0xFFC00000⟩ else ⟨x.toBits⟩

/-- The number nearest to a natural number. -/
def ofNat (n : Nat) : Single := ofFloat (.ofNat n)

def binary (op : Float32 → Float32 → Float32) (a b : Single) : Single :=
  if a.isNaN then a.quiet
  else if b.isNaN then b.quiet
  else ofFloat (op a.toFloat b.toFloat)

instance : Add Single := ⟨binary (· + ·)⟩
instance : Sub Single := ⟨binary (· - ·)⟩
instance : Mul Single := ⟨binary (· * ·)⟩
instance : Div Single := ⟨binary (· / ·)⟩
instance : Neg Single := ⟨fun x => ⟨x.bits ^^^ 0x80000000⟩⟩

def tan (x : Single) : Single := if x.isNaN then x.quiet else ofFloat x.toFloat.tan

end Single

end ShaderBinding
