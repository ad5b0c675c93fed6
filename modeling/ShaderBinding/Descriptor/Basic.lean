import ShaderBinding.Resource

/-! # Descriptors

Descriptor types, the bindings of a set layout, and the sizes a descriptor pool is made with.
-/

namespace ShaderBinding

inductive DescriptorType where
  | sampler
  | combinedImageSampler
  | sampledImage
  | storageImage
  | uniformBuffer
  | storageBuffer
  | uniformBufferDynamic
  | storageBufferDynamic
  | inputAttachment
  deriving DecidableEq, Repr

namespace DescriptorType

def name : DescriptorType → String
  | sampler => "Sampler"
  | combinedImageSampler => "CombinedImageSampler"
  | sampledImage => "SampledImage"
  | storageImage => "StorageImage"
  | uniformBuffer => "UniformBuffer"
  | storageBuffer => "StorageBuffer"
  | uniformBufferDynamic => "UniformBufferDynamic"
  | storageBufferDynamic => "StorageBufferDynamic"
  | inputAttachment => "InputAttachment"

instance : Named DescriptorType where
  all := [sampler, combinedImageSampler, sampledImage, storageImage, uniformBuffer, storageBuffer,
    uniformBufferDynamic, storageBufferDynamic, inputAttachment]
  name := name

def ofCategory : Category → DescriptorType
  | .uniformBuffer => uniformBuffer
  | .storageBuffer => storageBuffer
  | .sampledImage => combinedImageSampler
  | .storageImage => storageImage

def ofResource? (resource : Resource) : Option DescriptorType :=
  resource.category?.map ofCategory

end DescriptorType

structure LayoutBinding where
  binding : Nat
  type : DescriptorType
  count : Nat
  stages : StageFlags
  deriving DecidableEq, Repr

structure PoolSize where
  type : DescriptorType
  count : Nat
  deriving DecidableEq, Repr

end ShaderBinding
