import ShaderBinding.Native.Call
import ShaderBinding.PushConstants

/-! # Vulkan encodings

The numbers and records in which a device's arguments reach Vulkan, and the status codes that
come back. A descriptor update keeps its buffer and image records in two lists of their own, to
which its writes refer.
-/

namespace ShaderBinding.Vulkan

def format : ImageFormat → Nat
  | .rgba8Unorm => 37
  | .rgba8Srgb => 43
  | .bgra8Unorm => 44
  | .r32Sfloat => 100
  | .rgba16Sfloat => 97
  | .rgba32Sfloat => 109

def descriptorType : DescriptorType → Nat
  | .sampler => 0
  | .combinedImageSampler => 1
  | .sampledImage => 2
  | .storageImage => 3
  | .uniformBuffer => 6
  | .storageBuffer => 7
  | .uniformBufferDynamic => 8
  | .storageBufferDynamic => 9
  | .inputAttachment => 10

def statusNames : List (Int × String) :=
  [(1, "NOT_READY"), (2, "TIMEOUT"), (3, "EVENT_SET"), (4, "EVENT_RESET"), (5, "INCOMPLETE"),
    (-3, "ERROR_INITIALIZATION_FAILED"), (-5, "ERROR_MEMORY_MAP_FAILED"),
    (-6, "ERROR_LAYER_NOT_PRESENT"), (-7, "ERROR_EXTENSION_NOT_PRESENT"),
    (-8, "ERROR_FEATURE_NOT_PRESENT"), (-9, "ERROR_INCOMPATIBLE_DRIVER"),
    (-10, "ERROR_TOO_MANY_OBJECTS"), (-11, "ERROR_FORMAT_NOT_SUPPORTED"),
    (-12, "ERROR_FRAGMENTED_POOL"), (-13, "ERROR_UNKNOWN"), (-1000000000, "ERROR_SURFACE_LOST_KHR"),
    (-1000000001, "ERROR_NATIVE_WINDOW_IN_USE_KHR"), (1000001003, "SUBOPTIMAL_KHR"),
    (-1000001004, "ERROR_OUT_OF_DATE_KHR"), (-1000003001, "ERROR_INCOMPATIBLE_DISPLAY_KHR"),
    (-1000011001, "ERROR_VALIDATION_FAILED_EXT"), (-1000012000, "ERROR_INVALID_SHADER_NV"),
    (-1000023000, "ERROR_IMAGE_USAGE_NOT_SUPPORTED_KHR"),
    (-1000023001, "ERROR_VIDEO_PICTURE_LAYOUT_NOT_SUPPORTED_KHR"),
    (-1000023002, "ERROR_VIDEO_PROFILE_OPERATION_NOT_SUPPORTED_KHR"),
    (-1000023003, "ERROR_VIDEO_PROFILE_FORMAT_NOT_SUPPORTED_KHR"),
    (-1000023004, "ERROR_VIDEO_PROFILE_CODEC_NOT_SUPPORTED_KHR"),
    (-1000023005, "ERROR_VIDEO_STD_VERSION_NOT_SUPPORTED_KHR"),
    (-1000069000, "ERROR_OUT_OF_POOL_MEMORY"), (-1000072003, "ERROR_INVALID_EXTERNAL_HANDLE"),
    (-1000158000, "ERROR_INVALID_DRM_FORMAT_MODIFIER_PLANE_LAYOUT_EXT"),
    (-1000161000, "ERROR_FRAGMENTATION"), (-1000174001, "ERROR_NOT_PERMITTED_KHR"),
    (-1000255000, "ERROR_FULL_SCREEN_EXCLUSIVE_MODE_LOST_EXT"),
    (-1000257000, "ERROR_INVALID_OPAQUE_CAPTURE_ADDRESS"), (1000268000, "THREAD_IDLE_KHR"),
    (1000268001, "THREAD_DONE_KHR"), (1000268002, "OPERATION_DEFERRED_KHR"),
    (1000268003, "OPERATION_NOT_DEFERRED_KHR"), (1000297000, "PIPELINE_COMPILE_REQUIRED"),
    (-1000299000, "ERROR_INVALID_VIDEO_STD_PARAMETERS_KHR"),
    (-1000338000, "ERROR_COMPRESSION_EXHAUSTED_EXT"),
    (1000482000, "ERROR_INCOMPATIBLE_SHADER_BINARY_EXT")]

def statusText (status : Int) : String :=
  match statusNames.find? (·.1 = status) with
  | some (_, name) => name
  | none => toString status

def deviceError (call : String) (status : Int) : DeviceError :=
  if status = -1 then .outOfMemory .host
  else if status = -2 then .outOfMemory .device
  else if status = -4 then .deviceLost
  else .failed call (statusText status)

def callName? : CallKind → Option String
  | .createLayout => some "vkCreateDescriptorSetLayout"
  | .createPool => some "vkCreateDescriptorPool"
  | .allocateSets => some "vkAllocateDescriptorSets"
  | .createView => some "vkCreateImageView"
  | .createSampler => some "vkCreateSampler"
  | .createModule => some "vkCreateShaderModule"
  | .waitIdle => some "vkDeviceWaitIdle"
  | .allocateBuffer | .allocateImage | .mapMemory | .transferImage => none

def destroyName : ObjectKind → String
  | .layout => "vkDestroyDescriptorSetLayout"
  | .pool | .set => "vkDestroyDescriptorPool"
  | .view => "vkDestroyImageView"
  | .sampler => "vkDestroySampler"
  | .module => "vkDestroyShaderModule"

structure ViewInfo where
  image : Nat
  type : Nat
  format : Nat
  aspect : Nat
  mips : Nat × Nat
  layers : Nat × Nat
  deriving DecidableEq, Repr

def viewInfo (image : Nat) (info : ImageInfo) : ViewInfo where
  image := image
  type := 1
  format := format info.format
  aspect := 1
  mips := (0, 1)
  layers := (0, 1)

structure SamplerInfo where
  mag : Nat
  min : Nat
  mipmap : Nat
  address : List Nat
  maxLod : UInt32
  deriving DecidableEq, Repr

def samplerInfo : SamplerInfo := ⟨1, 1, 1, [0, 0, 0], 0x447A0000⟩

structure BufferRecord where
  buffer : Nat
  offset : Nat
  range : Nat
  deriving DecidableEq, Repr

structure ImageRecord where
  sampler : Nat
  view : Nat
  layout : Nat
  deriving DecidableEq, Repr

/-- A reference into the buffer records or the image records of an update. -/
inductive RecordRef where
  | buffer (index : Nat)
  | image (index : Nat)
  deriving DecidableEq, Repr

structure RawWrite where
  set : Nat
  binding : Nat
  element : Nat
  count : Nat
  type : Nat
  info : RecordRef
  deriving DecidableEq, Repr

structure Update where
  buffers : List BufferRecord
  images : List ImageRecord
  writes : List RawWrite
  deriving DecidableEq, Repr

def bufferRecord? : Descriptor → Option BufferRecord
  | .uniformBuffer buffer start stop | .storageBuffer buffer start stop =>
    some ⟨buffer, start, stop - start⟩
  | .combinedImageSampler .. | .storageImage _ => none

/-- A sampled image is read in layout 5, read-only; a storage image in the general layout 1. -/
def imageRecord? : Descriptor → Option ImageRecord
  | .combinedImageSampler sampler view => some ⟨sampler, view, 5⟩
  | .storageImage view => some ⟨0, view, 1⟩
  | .uniformBuffer .. | .storageBuffer .. => none

/-- The writes, each with a reference to the next unused record of its kind. -/
def refer (buffers images : Nat) : List DescriptorWrite → List RawWrite
  | [] => []
  | write :: rest =>
    let raw := RawWrite.mk write.set.id write.binding 0 1 (descriptorType write.descriptor.type)
    match write.descriptor with
    | .uniformBuffer .. | .storageBuffer .. =>
      raw (.buffer buffers) :: refer (buffers + 1) images rest
    | .combinedImageSampler .. | .storageImage _ =>
      raw (.image images) :: refer buffers (images + 1) rest

namespace Update

def ofWrites (writes : List DescriptorWrite) : Update where
  buffers := writes.filterMap fun write => bufferRecord? write.descriptor
  images := writes.filterMap fun write => imageRecord? write.descriptor
  writes := refer 0 0 writes

def resolve (update : Update) : RecordRef → Option (BufferRecord ⊕ ImageRecord)
  | .buffer i => update.buffers[i]?.map .inl
  | .image i => update.images[i]?.map .inr

end Update

def hasLength : Descriptor → Bool
  | .uniformBuffer _ start stop | .storageBuffer _ start stop => start ≤ stop
  | .combinedImageSampler .. | .storageImage _ => true

/-- The arguments of the call that updates descriptors. A range that ends before it starts has no
length, and the update is a fault. -/
def update (writes : List DescriptorWrite) : Checked Update :=
  if writes.all fun write => hasLength write.descriptor then .ok (.ofWrites writes)
  else .error .subOverflow

def layoutBinding (b : LayoutBinding) : List Nat :=
  [b.binding, descriptorType b.type, b.count, b.stages.toNat]

def poolSize (size : PoolSize) : List Nat := [descriptorType size.type, size.count]

def pushRange (range : PushRange) : List Nat := [range.stages.toNat, range.offset, range.size]

end ShaderBinding.Vulkan
