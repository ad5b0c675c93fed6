import ShaderBinding.Bytes
import ShaderBinding.Fault
import ShaderBinding.Flags
import ShaderBinding.Named

/-! # Images

What an image is created with, how many bytes a full upload of it takes, and the pixels of an
image of one colour. Sizes in bytes fit in 64 bits, the number of texels of a fill in 32.
-/

namespace ShaderBinding

/-- Bit values of the native interface; bits 1, 4 and 5 are known. -/
abbrev BufferUsage := Flags 6

namespace BufferUsage

def uniform : BufferUsage := ⟨0x10⟩
def storage : BufferUsage := ⟨0x20⟩

end BufferUsage

/-- Bit values of the native interface; bits 1, 2 and 3 are known. -/
abbrev ImageUsage := Flags 4

namespace ImageUsage

def transferDst : ImageUsage := ⟨0x2⟩
def sampled : ImageUsage := ⟨0x4⟩
def storage : ImageUsage := ⟨0x8⟩

def ofNat (n : Nat) : ImageUsage := .truncate n &&& (transferDst ||| sampled ||| storage)

end ImageUsage

inductive ImageFormat where
  | rgba8Unorm
  | rgba8Srgb
  | bgra8Unorm
  | r32Sfloat
  | rgba16Sfloat
  | rgba32Sfloat
  deriving DecidableEq, Repr

namespace ImageFormat

def name : ImageFormat → String
  | rgba8Unorm => "Rgba8Unorm"
  | rgba8Srgb => "Rgba8Srgb"
  | bgra8Unorm => "Bgra8Unorm"
  | r32Sfloat => "R32Sfloat"
  | rgba16Sfloat => "Rgba16Sfloat"
  | rgba32Sfloat => "Rgba32Sfloat"

instance : Named ImageFormat where
  all := [rgba8Unorm, rgba8Srgb, bgra8Unorm, r32Sfloat, rgba16Sfloat, rgba32Sfloat]
  name := name

def bytesPerPixel : ImageFormat → Nat
  | rgba8Unorm | rgba8Srgb | bgra8Unorm | r32Sfloat => 4
  | rgba16Sfloat => 8
  | rgba32Sfloat => 16

end ImageFormat

structure Color where
  red : UInt8
  green : UInt8
  blue : UInt8
  alpha : UInt8
  deriving DecidableEq, Repr

namespace Color

def white : Color := ⟨255, 255, 255, 255⟩

def bytes (color : Color) : Bytes := [color.red, color.green, color.blue, color.alpha]

end Color

structure ImageInfo where
  width : Nat := 64
  height : Nat := 64
  format : ImageFormat := .rgba8Unorm
  usage : ImageUsage := .sampled ||| .transferDst
  deriving DecidableEq, Repr

namespace ImageInfo

def dataSize (info : ImageInfo) : Checked Nat := do
  Checked.mul64 (← Checked.mul64 info.width info.height) info.format.bytesPerPixel

/-- One texel of a colour: its bytes, repeated until the texel is full. -/
def texel (format : ImageFormat) (color : Color) : Bytes :=
  (List.replicate (format.bytesPerPixel / 4) color.bytes).flatten

def solid (info : ImageInfo) (color : Color) : Checked Bytes := do
  let count ← Checked.mul32 info.width info.height
  return (List.replicate count (texel info.format color)).flatten

end ImageInfo

end ShaderBinding
