import ShaderBinding.Bytes
import ShaderBinding.Camera
import ShaderBinding.Type.Walk

/-! # Seeded data

The initial bytes of a block. Every 4×4 matrix that is named for a camera matrix is seeded with
that matrix; all other bytes are zero.
-/

namespace ShaderBinding

/-- The part of a path after its last dot, in lower case. -/
def lastSegment (path : String) : List Char :=
  (path.toList.reverse.takeWhile (· ≠ '.')).reverse.map Char.toLower

namespace Camera

/-- The matrix a leaf is named for by the end of its name. -/
def matrix? (camera : Camera) (path : String) : Option Matrix :=
  let endsWith (text : String) : Bool := text.toList.isSuffixOf (lastSegment path)
  if endsWith "view" then some camera.view
  else if endsWith "proj" || endsWith "projection" then some camera.proj
  else if endsWith "model" then some .identity
  else none

end Camera

def ShaderType.isFloatMatrix4 : ShaderType → Bool
  | .matrix .float 4 4 _ => true
  | _ => false

/-- A matrix to be written at a leaf. -/
structure Seed where
  offset : Nat
  size : Nat
  matrix : Matrix
  deriving DecidableEq, Repr

namespace Seed

def ofLeaf? (camera : Camera) (leaf : Leaf) : Option Seed :=
  if leaf.type.isFloatMatrix4 then
    (camera.matrix? leaf.path).map (⟨leaf.offset, leaf.type.size, ·⟩)
  else none

/-- The numbers of a seed with their offsets; a column takes a quarter of the leaf's size. -/
def slots (seed : Seed) : List (Nat × Single) :=
  seed.matrix.columns.toList.zipIdx.flatMap fun (column, c) =>
    column.toList.zipIdx.map fun (number, r) =>
      (seed.offset + c * (seed.size / 4) + 4 * r, number)

/-- Write a number where all of it fits; elsewhere it is dropped. -/
def writeSlot (data : Bytes) (slot : Nat × Single) : Bytes :=
  if slot.1 + 4 ≤ data.length then data.overwrite slot.1 (Bytes.ofWord slot.2.bits) else data

def write (data : Bytes) (seed : Seed) : Bytes := seed.slots.foldl writeSlot data

end Seed

namespace ShaderType

def seeds (type : ShaderType) (camera : Camera) : Checked (List Seed) := do
  return (← type.walk "" 0).filterMap (Seed.ofLeaf? camera)

/-- The seeded bytes of a value of the type, if anything in it is seeded. -/
def defaultData (type : ShaderType) (camera : Camera) : Checked (Option Bytes) := do
  let seeds ← type.seeds camera
  if seeds.isEmpty then return none
  else return some (seeds.foldl Seed.write (Bytes.zeros type.size))

end ShaderType

end ShaderBinding
