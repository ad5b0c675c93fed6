/-! # Device limits

What a device allows a pipeline to use. The defaults are the least values every device has.
-/

namespace ShaderBinding

structure Limits where
  maxBoundDescriptorSets : Nat := 4
  maxPerStageDescriptorSamplers : Nat := 16
  maxDescriptorSetUniformBuffers : Nat := 72
  maxDescriptorSetStorageBuffers : Nat := 24
  maxDescriptorSetSampledImages : Nat := 96
  maxDescriptorSetStorageImages : Nat := 24
  maxVertexInputAttributes : Nat := 16
  maxFragmentOutputAttachments : Nat := 4
  maxPushConstantsSize : Nat := 128
  deriving DecidableEq, Repr

end ShaderBinding
