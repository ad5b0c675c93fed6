import ShaderBinding.Bytes
import ShaderBinding.Severity

/-! # Shader binaries

The words of a shader binary. The first word is a magic number, which also tells the byte order
of all words.
-/

namespace ShaderBinding

inductive ShaderError where
  | io (path reason : String)
  | invalidLength (length : Nat)
  | invalidMagic (word : UInt32)
  deriving DecidableEq, Repr

namespace ShaderError

def hexDigits (word : UInt32) : String :=
  .ofList ((List.range 8).map fun i => Nat.digitChar (word.toNat >>> (4 * (7 - i)) % 16))

def code : ShaderError → String
  | io .. => "Io"
  | invalidLength _ => "InvalidLength"
  | invalidMagic _ => "InvalidMagic"

def message : ShaderError → String
  | io path reason => s!"failed to read shader {path}: {reason}"
  | invalidLength length => s!"SPIR-V length {length} is not a multiple of 4"
  | invalidMagic word => s!"invalid SPIR-V magic number 0x{hexDigits word}"

def severity (_ : ShaderError) : Severity := .warning

instance : Diagnostic ShaderError := ⟨code, message, fun e => some e.severity⟩

end ShaderError

namespace Spirv

def magic : UInt32 := 0x07230203

def magicSwapped : UInt32 := 0x03022307

/-- The words of a binary in either byte order. -/
def readWords (bytes : Bytes) : Except ShaderError (List UInt32) :=
  if bytes.isEmpty || bytes.length % 4 ≠ 0 then .error (.invalidLength bytes.length)
  else
    match bytes.toWords with
    | [] => .error (.invalidLength bytes.length)
    | first :: rest =>
      if first = magic then .ok (first :: rest)
      else if first = magicSwapped then .ok bytes.toWordsBigEndian
      else .error (.invalidMagic first)

end Spirv

end ShaderBinding
