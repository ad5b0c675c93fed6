import ShaderBinding.Descriptor.Basic
import ShaderBinding.LayoutMap

/-! # Pool sizes

Six counters of descriptors by type. Every counter starts at one, so that no requested size is
ever zero, and a buffer counts for its plain and its dynamic type. Counts fit in 32 bits.
-/

namespace ShaderBinding

structure PoolSizes where
  uniformBuffer : Nat
  uniformBufferDynamic : Nat
  storageBuffer : Nat
  storageBufferDynamic : Nat
  combinedImageSampler : Nat
  storageImage : Nat
  deriving DecidableEq, Repr

namespace PoolSizes

def baseline : PoolSizes := ⟨1, 1, 1, 1, 1, 1⟩

/-- The counter of a type; types without one are not counted. -/
def get (sizes : PoolSizes) : DescriptorType → Nat
  | .uniformBuffer => sizes.uniformBuffer
  | .uniformBufferDynamic => sizes.uniformBufferDynamic
  | .storageBuffer => sizes.storageBuffer
  | .storageBufferDynamic => sizes.storageBufferDynamic
  | .combinedImageSampler => sizes.combinedImageSampler
  | .storageImage => sizes.storageImage
  | .sampler | .sampledImage | .inputAttachment => 0

def put (sizes : PoolSizes) (n : Nat) : DescriptorType → PoolSizes
  | .uniformBuffer => { sizes with uniformBuffer := n }
  | .uniformBufferDynamic => { sizes with uniformBufferDynamic := n }
  | .storageBuffer => { sizes with storageBuffer := n }
  | .storageBufferDynamic => { sizes with storageBufferDynamic := n }
  | .combinedImageSampler => { sizes with combinedImageSampler := n }
  | .storageImage => { sizes with storageImage := n }
  | .sampler | .sampledImage | .inputAttachment => sizes

def types : List DescriptorType :=
  [.uniformBuffer, .uniformBufferDynamic, .storageBuffer, .storageBufferDynamic,
    .combinedImageSampler, .storageImage]

def countedAs : Category → List DescriptorType
  | .uniformBuffer => [.uniformBuffer, .uniformBufferDynamic]
  | .storageBuffer => [.storageBuffer, .storageBufferDynamic]
  | .sampledImage => [.combinedImageSampler]
  | .storageImage => [.storageImage]

def toList (sizes : PoolSizes) : List PoolSize := types.map fun type => ⟨type, sizes.get type⟩

/-- Add an amount to the counter of each listed type; a fault leaves the counters before it. -/
def raise (amount : DescriptorType → Nat) (sizes : PoolSizes) :
    List DescriptorType → Except Fault Unit × PoolSizes
  | [] => (.ok (), sizes)
  | type :: rest =>
    match Checked.add32 (sizes.get type) (amount type) with
    | .ok n => raise amount (sizes.put n type) rest
    | .error fault => (.error fault, sizes)

def count (sizes : PoolSizes) (category : Category) (n : Nat) : Checked PoolSizes :=
  let (result, sizes) := raise (fun _ => n) sizes (countedAs category)
  result.map fun _ => sizes

def ofLayoutMap (layout : LayoutMap) : Checked PoolSizes :=
  (layout.resources.filterMap (·.category?)).foldlM (fun sizes category => sizes.count category 1)
    baseline

def accumulate (a b : PoolSizes) : Except Fault Unit × PoolSizes := raise b.get a types

def add (a b : PoolSizes) : Checked PoolSizes :=
  let (result, sizes) := accumulate a b
  result.map fun _ => sizes

def total (sizes : PoolSizes) : Checked Nat := Checked.sum32 (types.map sizes.get)

def addSize (type : DescriptorType) (n : Nat) : List PoolSize → Checked (List PoolSize)
  | [] => return [⟨type, n⟩]
  | size :: rest => do
    if size.type = type then return ⟨type, ← Checked.add32 size.count n⟩ :: rest
    else return size :: (← addSize type n rest)

def withBindings (sizes : PoolSizes) (bindings : List LayoutBinding) : Checked (List PoolSize) :=
  bindings.foldlM (fun list binding => addSize binding.type binding.count list) sizes.toList

end PoolSizes

end ShaderBinding
