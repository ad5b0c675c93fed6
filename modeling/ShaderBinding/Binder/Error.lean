import ShaderBinding.Native.Error
import ShaderBinding.PushConstants

/-! # Binding errors

Why binding a layout, or an access to something bound, failed. An access that named the wrong
place is a warning; all other failures are critical.
-/

namespace ShaderBinding

inductive LimitKind where
  | boundDescriptorSets
  | samplers
  | uniformBuffers
  | storageBuffers
  | sampledImages
  | storageImages
  deriving DecidableEq, Repr

namespace LimitKind

def name : LimitKind → String
  | boundDescriptorSets => "BoundDescriptorSets"
  | samplers => "Samplers"
  | uniformBuffers => "UniformBuffers"
  | storageBuffers => "StorageBuffers"
  | sampledImages => "SampledImages"
  | storageImages => "StorageImages"

instance : Named LimitKind where
  all := [boundDescriptorSets, samplers, uniformBuffers, storageBuffers, sampledImages,
    storageImages]
  name := name

def label : LimitKind → String
  | boundDescriptorSets => "bound descriptor sets"
  | samplers => "samplers"
  | uniformBuffers => "uniform buffers"
  | storageBuffers => "storage buffers"
  | sampledImages => "sampled images"
  | storageImages => "storage images"

end LimitKind

inductive BindError where
  | device (error : DeviceError)
  | allocation (name : String) (error : AllocationError)
  | mapping (error : MappingError)
  | transfer (name : String) (error : TransferError)
  | limitExceeded (kind : LimitKind) (count limit : Nat)
  | unknownBinding (set binding : Nat)
  | wrongKind (set binding : Nat) (expected : String)
  | pushConstant (error : PushConstantError)
  deriving DecidableEq, Repr

namespace BindError

def code : BindError → String
  | device error => s!"Device.{error.code}"
  | allocation _ error => s!"Allocation.{error.code}"
  | mapping error => s!"Mapping.{error.code}"
  | transfer _ error => s!"Transfer.{error.code}"
  | limitExceeded kind .. => s!"LimitExceeded.{kind.name}"
  | unknownBinding .. => "UnknownBinding"
  | wrongKind .. => "WrongKind"
  | pushConstant error => s!"PushConstant.{error.code}"

def message : BindError → String
  | device error => error.message
  | allocation name error => s!"Failed to allocate '{name}': {error.message}"
  | mapping error => error.message
  | transfer name error => s!"Failed to upload '{name}': {error.message}"
  | limitExceeded kind count limit => s!"{count} {kind.label} exceed device limit of {limit}"
  | unknownBinding set binding => s!"Nothing is bound at set {set} binding {binding}"
  | wrongKind set binding expected => s!"Set {set} binding {binding} is not {expected}"
  | pushConstant error => error.message

def severity : BindError → Severity
  | unknownBinding .. | wrongKind .. | pushConstant _ => .warning
  | device _ | allocation .. | mapping _ | transfer .. | limitExceeded .. => .critical

instance : Diagnostic BindError := ⟨code, message, fun error => some error.severity⟩

end BindError

end ShaderBinding
