import ShaderBinding.ThirdParty.Matrix
import ShaderBinding.ThirdParty.SpirvReflect.Module

/-! # Libraries

All that the program asks of the libraries it stands on. What it does is defined and proved for any
of them; the ones that it is built with are the instance.
-/

namespace ShaderBinding

/-- Libraries that reflect modules and make the matrices of cameras. Whatever a library faults with,
it has no objects of the program to misuse. -/
class Libraries where
  reflectModule : List UInt32 → Except Spirv.ModuleError Spirv.Module
  awayFromViewer : Single → Matrix
  perspective (aspectRatio fovY near far : Single) : Checked Matrix
  isMisuse_perspective {aspectRatio fovY near far : Single} {fault : Fault} :
    perspective aspectRatio fovY near far = .error fault → fault.isMisuse = false

theorem Matrix.isMisuse_perspective {aspectRatio fovY near far : Single} {fault : Fault}
    (h : perspective aspectRatio fovY near far = .error fault) : fault.isMisuse = false := by
  unfold perspective at h
  split at h
  · cases h
    rfl
  · split at h <;> cases h
    rfl

instance : Libraries where
  reflectModule := Spirv.Module.ofWords
  awayFromViewer := .awayFromViewer
  perspective := Matrix.perspective
  isMisuse_perspective := Matrix.isMisuse_perspective

end ShaderBinding
