import ShaderBinding.Fault
import ShaderBinding.Single

/-! # Matrices

What the linear algebra library makes of numbers: the homogeneous matrices of a translation and of
a perspective projection, and equality up to rounding.
-/

namespace ShaderBinding

namespace Single

def epsilon : Float32 := .ofBits 0x34000000

/--
Equality up to rounding: the numbers differ by no more than `epsilon`, absolutely or relative to
the larger one. An infinity equals only itself, and a NaN nothing.
-/
def near (a b : Single) : Bool :=
  let x := a.toFloat
  let y := b.toFloat
  let difference := (x - y).abs
  let largest := if y.abs > x.abs then y.abs else x.abs
  x == y || (!x.isInf && !y.isInf &&
    (difference ≤ epsilon || difference ≤ largest * epsilon))

end Single

/-- Four columns of four numbers. -/
structure Matrix where
  columns : Vector (Vector Single 4) 4
  deriving DecidableEq, Repr

namespace Matrix

def identity : Matrix :=
  ⟨#v[#v[.one, .zero, .zero, .zero], #v[.zero, .one, .zero, .zero],
    #v[.zero, .zero, .one, .zero], #v[.zero, .zero, .zero, .one]]⟩

def toList (m : Matrix) : List Single := m.columns.toList.flatMap (·.toList)

/--
Moves the scene away from a viewer at some distance from the origin. The difference of the
distance and itself is zero for a number, and an infinite distance or none leaves no entry a
number.
-/
def awayFromViewer (distance : Single) : Matrix :=
  let o := distance - distance
  let i := .one + o
  ⟨#v[#v[i, o, o, o], #v[o, i, o, o], #v[o, o, i, o], #v[o, o, o - distance, i]]⟩

def projection (aspectRatio fovY near far : Single) : Matrix :=
  let scale := .one / (fovY / .two).tan
  let span := near - far
  let depth := (far + near) / span
  let shift := far * near * .two / span
  ⟨#v[#v[scale / aspectRatio, .zero, .zero, .zero], #v[.zero, scale, .zero, .zero],
    #v[.zero, .zero, depth, -.one], #v[.zero, .zero, shift, .zero]]⟩

/-- A perspective projection: the planes have to differ and the aspect ratio must not be zero. -/
def perspective (aspectRatio fovY near far : Single) : Checked Matrix :=
  if far.near near then .error .coincidentPlanes
  else if aspectRatio.near .zero then .error .zeroAspectRatio
  else .ok (projection aspectRatio fovY near far)

end Matrix

end ShaderBinding
