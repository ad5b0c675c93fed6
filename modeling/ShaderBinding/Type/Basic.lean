import ShaderBinding.Fault
import ShaderBinding.Type.Description

/-! # Shader types

The type of a shader variable as a tree with byte sizes, strides and member offsets, and its
spelling in a shader's source.
-/

namespace ShaderBinding

/-- `sampled` tells a sampled image from a storage image. -/
structure ImageShape where
  dim : ImageDim
  sampled : Bool
  multisampled : Bool
  depth : Bool
  arrayed : Bool
  format : String
  deriving DecidableEq, Repr

/-- A dimension sized at run time counts as one element. -/
structure ArrayDim where
  length : Nat
  isUnsized : Bool
  deriving DecidableEq, Repr

mutual

/-- Array dimensions stand outermost first; `stride` is the step between neighbouring elements
of the flattened array. -/
inductive ShaderType where
  | vector (base : BaseKind) (length size : Nat)
  | matrix (base : BaseKind) (rows columns size : Nat)
  | image (shape : ImageShape)
  | array (dims : List ArrayDim) (element : ShaderType) (stride size : Nat)
  | struct (fields : Fields) (size : Nat)
  deriving DecidableEq, Repr

/-- The members of a struct in declaration order. -/
inductive Fields where
  | nil
  | cons (name : String) (offset : Nat) (type : ShaderType) (rest : Fields)
  deriving DecidableEq, Repr

end

structure Field where
  name : String
  offset : Nat
  type : ShaderType
  deriving DecidableEq, Repr

namespace Fields

def toList : Fields → List Field
  | nil => []
  | cons name offset type rest => ⟨name, offset, type⟩ :: rest.toList

def ofList (fields : List Field) : Fields :=
  fields.foldr (fun field rest => cons field.name field.offset field.type rest) nil

def length : Fields → Nat
  | nil => 0
  | cons _ _ _ rest => rest.length + 1

@[simp]
theorem toList_ofList (fields : List Field) : (ofList fields).toList = fields := by
  induction fields with
  | nil => rfl
  | cons field rest ih => exact congrArg (field :: ·) ih

end Fields

namespace ImageShape

def describe (shape : ImageShape) : String :=
  (if shape.sampled then "sampler" else "image") ++ shape.dim.label ++
    (if shape.multisampled then "MS" else "") ++ (if shape.arrayed then "Array" else "") ++
    (if shape.depth && shape.sampled then "Shadow" else "")

end ImageShape

def ArrayDim.describe (dim : ArrayDim) : String :=
  if dim.isUnsized then "[]" else s!"[{dim.length}]"

def elementCount (dims : List ArrayDim) : Checked Nat := Checked.product32 (dims.map (·.length))

namespace ShaderType

def size : ShaderType → Nat
  | vector _ _ size => size
  | matrix _ _ _ size => size
  | image _ => 0
  | array _ _ _ size => size
  | struct _ size => size

def asImage? : ShaderType → Option ImageShape
  | image shape => some shape
  | _ => none

def fieldCount? : ShaderType → Option Nat
  | struct fields _ => some fields.length
  | _ => none

mutual

def describe : ShaderType → String
  | vector base length _ =>
    if length ≤ 1 then base.scalarName else s!"{base.vectorMark}vec{length}"
  | matrix base rows columns _ =>
    if rows = columns then s!"{base.vectorMark}mat{columns}"
    else s!"{base.vectorMark}mat{columns}x{rows}"
  | image shape => shape.describe
  | array dims element _ _ => dims.foldl (fun text dim => text ++ dim.describe) element.describe
  | struct fields _ => "struct \x7b " ++ "; ".intercalate (describeFields fields) ++ " \x7d"

def describeFields : Fields → List String
  | .nil => []
  | .cons name _ type rest => s!"{type.describe} {name}" :: describeFields rest

end

end ShaderType

end ShaderBinding
