import ShaderBinding.Memory.Error

/-! # Device errors

Why a call of the native interface failed. A status code of the native interface that is not
one of the causes below is reported by the call's name and the code's.
-/

namespace ShaderBinding

inductive DeviceError where
  | outOfMemory (heap : OutOfMemory)
  | deviceLost
  | failed (call text : String)
  deriving DecidableEq, Repr

namespace DeviceError

def code : DeviceError → String
  | outOfMemory heap => heap.nestedCode
  | deviceLost => "DeviceLost"
  | failed .. => "Failed"

def message : DeviceError → String
  | outOfMemory heap => heap.message
  | deviceLost => "Device lost"
  | failed call text => s!"{call} failed: {text}"

instance : Diagnostic DeviceError := ⟨code, message, fun _ => none⟩

end DeviceError

end ShaderBinding
