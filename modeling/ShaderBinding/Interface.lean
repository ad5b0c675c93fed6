import ShaderBinding.Stage.Basic
import ShaderBinding.Type.Description

/-! # Stage interfaces

What one shader stage declares: input and output variables, descriptor bindings and push
constant blocks, as a compiler front end reports them.
-/

namespace ShaderBinding

inductive BindingKind where
  | uniformBuffer
  | storageBuffer
  | sampledImage
  | combinedImageSampler
  | storageImage
  | sampler
  | uniformTexelBuffer
  | storageTexelBuffer
  | inputAttachment
  | accelerationStructure
  deriving DecidableEq, Repr

namespace BindingKind

def name : BindingKind → String
  | uniformBuffer => "UniformBuffer"
  | storageBuffer => "StorageBuffer"
  | sampledImage => "SampledImage"
  | combinedImageSampler => "CombinedImageSampler"
  | storageImage => "StorageImage"
  | sampler => "Sampler"
  | uniformTexelBuffer => "UniformTexelBuffer"
  | storageTexelBuffer => "StorageTexelBuffer"
  | inputAttachment => "InputAttachment"
  | accelerationStructure => "AccelerationStructure"

instance : Named BindingKind where
  all := [uniformBuffer, storageBuffer, sampledImage, combinedImageSampler, storageImage, sampler,
    uniformTexelBuffer, storageTexelBuffer, inputAttachment, accelerationStructure]
  name := name

end BindingKind

/-- A built-in variable is not part of the interface between stages. -/
structure VariableDeclaration where
  name : String
  location : Nat
  builtin : Bool
  type : TypeDescription

/-- Array dimensions of the type declare an array of descriptors. -/
structure BindingDeclaration where
  name : String
  set : Nat
  binding : Nat
  kind : BindingKind
  type : TypeDescription

structure BlockDeclaration where
  name : String
  type : TypeDescription

structure Interface where
  stage : Stage
  entryPoint : String := "main"
  inputs : List VariableDeclaration := []
  outputs : List VariableDeclaration := []
  bindings : List BindingDeclaration := []
  pushConstants : List BlockDeclaration := []

end ShaderBinding
