import ShaderBinding.Named

/-! # Type descriptions

How a compiler front end describes the type of a variable or struct member: numbers and flags
as the compiler declares them, before any size is worked out.
-/

namespace ShaderBinding

inductive BaseKind where
  | bool
  | int8
  | uint8
  | int16
  | uint16
  | half
  | int
  | uint
  | float
  | int64
  | uint64
  | double
  | image
  | sampledImage
  | sampler
  | struct
  | unknown
  deriving DecidableEq, Repr

namespace BaseKind

def byteWidth : BaseKind → Nat
  | int8 | uint8 => 1
  | int16 | uint16 | half => 2
  | bool | int | uint | float => 4
  | int64 | uint64 | double => 8
  | image | sampledImage | sampler | struct | unknown => 0

def scalarName : BaseKind → String
  | bool => "bool"
  | int8 => "int8_t"
  | uint8 => "uint8_t"
  | int16 => "int16_t"
  | uint16 => "uint16_t"
  | half => "float16_t"
  | int => "int"
  | uint => "uint"
  | float => "float"
  | int64 => "int64_t"
  | uint64 => "uint64_t"
  | double => "double"
  | image => "image"
  | sampledImage => "sampler"
  | sampler => "sampler"
  | struct => "struct"
  | unknown => "<unknown>"

def vectorMark : BaseKind → String
  | bool => "b"
  | int8 => "i8"
  | uint8 => "u8"
  | int16 => "i16"
  | uint16 => "u16"
  | half => "f16"
  | int => "i"
  | uint => "u"
  | int64 => "i64"
  | uint64 => "u64"
  | double => "d"
  | float | image | sampledImage | sampler | struct | unknown => ""

def isImage : BaseKind → Bool
  | image | sampledImage => true
  | _ => false

def name : BaseKind → String
  | bool => "Bool"
  | int8 => "Int8"
  | uint8 => "UInt8"
  | int16 => "Int16"
  | uint16 => "UInt16"
  | half => "Half"
  | int => "Int"
  | uint => "UInt"
  | float => "Float"
  | int64 => "Int64"
  | uint64 => "UInt64"
  | double => "Double"
  | image => "Image"
  | sampledImage => "SampledImage"
  | sampler => "Sampler"
  | struct => "Struct"
  | unknown => "Unknown"

instance : Named BaseKind where
  all := [bool, int8, uint8, int16, uint16, half, int, uint, float, int64, uint64, double, image,
    sampledImage, sampler, struct, unknown]
  name := name

end BaseKind

inductive ImageDim where
  | d1
  | d2
  | d3
  | cube
  | rect
  | buffer
  | subpassData
  deriving DecidableEq, Repr

namespace ImageDim

def label : ImageDim → String
  | d1 => "1D"
  | d2 => "2D"
  | d3 => "3D"
  | cube => "Cube"
  | rect => "2DRect"
  | buffer => "Buffer"
  | subpassData => "SubpassInput"

def name : ImageDim → String
  | d1 => "D1"
  | d2 => "D2"
  | d3 => "D3"
  | cube => "Cube"
  | rect => "Rect"
  | buffer => "Buffer"
  | subpassData => "SubpassData"

instance : Named ImageDim := ⟨[d1, d2, d3, cube, rect, buffer, subpassData], name⟩

end ImageDim

/-- `sampled` is the compiler's own number: 0 unknown, 1 used with a sampler, 2 storage. -/
structure ImageTraits where
  dim : ImageDim := .d2
  sampled : Nat := 1
  multisampled : Bool := false
  depth : Bool := false
  arrayed : Bool := false
  format : String := ""
  deriving DecidableEq, Repr

/--
`vectorSize` counts vector components or matrix rows. `arrayDims` has the innermost dimension
first, and 0 is a dimension sized at run time. A stride of 0 is undeclared.
-/
structure TypeDescription where
  name : String := ""
  base : BaseKind := .float
  vectorSize : Nat := 1
  columns : Nat := 1
  matrixStride : Nat := 0
  arrayDims : List Nat := []
  arrayStride : Nat := 0
  image : Option ImageTraits := none
  members : List TypeDescription := []
  offset : Nat := 0
  size : Nat := 0

def TypeDescription.element (desc : TypeDescription) : TypeDescription :=
  { desc with arrayDims := [], arrayStride := 0 }

end ShaderBinding
