import ShaderBinding.Memory.Image
import ShaderBinding.Severity

/-! # Memory errors

Why an allocation, a mapping or an upload failed. These errors have no severity of their own;
whatever asked for the memory decides how bad the failure is.
-/

namespace ShaderBinding

inductive OutOfMemory where
  | host
  | device
  deriving DecidableEq, Repr

inductive MappingError where
  | notHostVisible
  | outOfBounds (start stop size : Nat)
  | failed
  | outOfMemory (heap : OutOfMemory)
  deriving DecidableEq, Repr

inductive AllocationError where
  | outOfMemory (heap : OutOfMemory)
  | tooManyObjects
  | unsupportedFormat (format : ImageFormat) (name : String)
  deriving DecidableEq, Repr

inductive TransferError where
  | dataSizeMismatch (expected actual : Nat)
  | outOfMemory (heap : OutOfMemory)
  | submissionFailed
  deriving DecidableEq, Repr

namespace OutOfMemory

def code : OutOfMemory → String
  | host => "OutOfHostMemory"
  | device => "OutOfDeviceMemory"

def nestedCode (heap : OutOfMemory) : String := s!"OutOfMemory.{heap.code}"

def message : OutOfMemory → String
  | host => "Host memory exhausted"
  | device => "Device memory exhausted"

instance : Named OutOfMemory := ⟨[host, device], code⟩

end OutOfMemory

namespace MappingError

def code : MappingError → String
  | notHostVisible => "NotHostVisible"
  | outOfBounds .. => "OutOfBounds"
  | failed => "Failed"
  | outOfMemory heap => heap.nestedCode

def message : MappingError → String
  | notHostVisible => "Allocation is not host visible"
  | outOfBounds start stop size => s!"Range {start}..{stop} exceeds allocation of {size} bytes"
  | failed => "Failed to map memory"
  | outOfMemory heap => heap.message

instance : Diagnostic MappingError := ⟨code, message, fun _ => none⟩

end MappingError

namespace AllocationError

def code : AllocationError → String
  | outOfMemory heap => heap.nestedCode
  | tooManyObjects => "TooManyObjects"
  | unsupportedFormat .. => "UnsupportedFormat"

def message : AllocationError → String
  | outOfMemory heap => heap.message
  | tooManyObjects => "Too many allocations"
  | unsupportedFormat format name => s!"Format {format.name} is not supported for '{name}'"

instance : Diagnostic AllocationError := ⟨code, message, fun _ => none⟩

end AllocationError

namespace TransferError

def code : TransferError → String
  | dataSizeMismatch .. => "DataSizeMismatch"
  | outOfMemory heap => heap.nestedCode
  | submissionFailed => "SubmissionFailed"

def message : TransferError → String
  | dataSizeMismatch expected actual => s!"Image takes {expected} bytes, {actual} given"
  | outOfMemory heap => heap.message
  | submissionFailed => "Upload submission failed"

instance : Diagnostic TransferError := ⟨code, message, fun _ => none⟩

end TransferError

end ShaderBinding
