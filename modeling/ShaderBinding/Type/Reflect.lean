import ShaderBinding.Severity
import ShaderBinding.Type.Basic

/-! # Reflecting a type description

The tree of a described type. What decides the kind of a node is, in this order: an image base,
a struct base, array dimensions, several columns; all else is a vector or scalar. A struct with
array dimensions is an array of that struct.
-/

namespace ShaderBinding

inductive TypeError where
  | missingImageTraits (name : String)
  | emptyStruct (name : String)
  deriving DecidableEq, Repr

namespace TypeError

def code : TypeError → String
  | missingImageTraits _ => "MissingImageTraits"
  | emptyStruct _ => "EmptyStruct"

def message : TypeError → String
  | missingImageTraits name => s!"image type '{name}' has no image traits"
  | emptyStruct name => s!"struct '{name}' has no members"

instance : Diagnostic TypeError := ⟨code, message, fun _ => none⟩

end TypeError

def ImageTraits.shape (traits : ImageTraits) : ImageShape where
  dim := traits.dim
  sampled := traits.sampled ≠ 2
  multisampled := traits.multisampled
  depth := traits.depth
  arrayed := traits.arrayed
  format := traits.format

def ArrayDim.ofDeclared (length : Nat) : ArrayDim :=
  if length = 0 then ⟨1, true⟩ else ⟨length, false⟩

namespace ShaderType

def ofImage (name : String) : Option ImageTraits → Outcome TypeError ShaderType
  | some traits => return image traits.shape
  | none => .fail (.missingImageTraits name)

def ofMatrix (base : BaseKind) (rows columns stride : Nat) : Checked ShaderType := do
  let size ←
    if stride > 0 then Checked.mul32 stride columns
    else Checked.mul32 (← Checked.mul32 base.byteWidth rows) columns
  return matrix base rows columns size

def ofVector (base : BaseKind) (length : Nat) : Checked ShaderType := do
  return vector base length (← Checked.mul32 base.byteWidth (max length 1))

/-- The array of an element type; `declared` holds the dimensions innermost first. -/
def ofArray (declared : List Nat) (stride : Nat) (element : ShaderType) : Checked ShaderType := do
  let dims := declared.reverse.map ArrayDim.ofDeclared
  let count ← elementCount dims
  let stride := if stride > 0 then stride else element.size
  return array dims element stride (← Checked.mul32 stride count)

/-- A node that is not a struct, once its array dimensions are taken off. -/
def ofNumeric (base : BaseKind) (vectorSize columns matrixStride : Nat) : Checked ShaderType :=
  if columns > 1 then ofMatrix base vectorSize columns matrixStride else ofVector base vectorSize

mutual

def ofDescription : TypeDescription → Outcome TypeError ShaderType
  | { name, base, vectorSize, columns, matrixStride, arrayDims, arrayStride, image := traits,
      members, offset := _, size } =>
    if base.isImage then ofImage name traits
    else do
      let element : ShaderType ←
        if base = .struct then
          if members.isEmpty then .fail (.emptyStruct name)
          else pure (struct (← ofMembers members) size)
        else ofNumeric base vectorSize columns matrixStride
      if arrayDims.isEmpty then return element else ofArray arrayDims arrayStride element

def ofMembers : List TypeDescription → Outcome TypeError Fields
  | [] => return .nil
  | member :: rest => do
    let type ← ofDescription member
    return .cons member.name member.offset type (← ofMembers rest)

end

end ShaderType

end ShaderBinding
