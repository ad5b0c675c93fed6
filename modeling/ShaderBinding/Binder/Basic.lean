import ShaderBinding.Binder.Error
import ShaderBinding.Descriptor.PoolSizes
import ShaderBinding.Native.Backend

/-! # Binders

A binder owns what binds a shader model's descriptors: one layout and one set per set index, the
pool of the sets, and a buffer or an image behind every descriptor. Shader sets come first, one
for each index up to the highest declared one, and the sets of built-in layouts follow them.
-/

namespace ShaderBinding

/-- The objects behind one descriptor. A sampled image has a sampler. -/
inductive Backing where
  | buffer (allocation : Allocation)
  | image (allocation : Allocation) (info : ImageInfo) (view : Nat) (sampler : Option Nat)
  deriving DecidableEq, Repr

structure BoundResource where
  key : BindingKey
  resource : Resource
  type : DescriptorType
  backing : Backing
  deriving DecidableEq, Repr

structure SetLayout where
  handle : Nat
  bindings : List LayoutBinding
  deriving DecidableEq, Repr

structure Binder where
  setCount : Nat
  layouts : List SetLayout
  pool : Nat
  sets : List DescriptorSet
  resources : List BoundResource
  poolSizes : PoolSizes
  deriving DecidableEq, Repr

namespace Backing

def allocation : Backing → Allocation
  | buffer allocation => allocation
  | image allocation .. => allocation

def dispose {ε : Type} : Backing → Native ε Unit
  | buffer allocation => Native.deallocate .buffer allocation
  | image allocation _ view sampler => do
    match sampler with
    | some sampler => Native.destroy .sampler sampler
    | none => pure ()
    Native.destroy .view view
    Native.deallocate .image allocation

end Backing

namespace BoundResource

def layoutBinding (bound : BoundResource) : LayoutBinding :=
  ⟨bound.key.binding, bound.type, 1, bound.resource.stages⟩

def descriptor (bound : BoundResource) : Descriptor :=
  match bound.backing with
  | .buffer allocation =>
    if bound.type = .storageBuffer then .storageBuffer allocation.handle 0 allocation.size
    else .uniformBuffer allocation.handle 0 allocation.size
  | .image _ _ view (some sampler) => .combinedImageSampler sampler view
  | .image _ _ view none => .storageImage view

end BoundResource

namespace Binder

def setIndices (binder : Binder) : List Nat := List.range binder.setCount

def builtinSets (binder : Binder) : List DescriptorSet := binder.sets.drop binder.setCount

def get? (binder : Binder) (key : BindingKey) : Option BoundResource :=
  binder.resources.find? (·.key = key)

def stageFlags (binder : Binder) : StageFlags :=
  Flags.union (binder.resources.map (·.resource.stages))

def shaderSet? (setCount : Nat) (sets : List DescriptorSet) (index : Nat) : Option DescriptorSet :=
  if index < setCount then sets[index]? else none

def writeOf (setCount : Nat) (sets : List DescriptorSet) (bound : BoundResource) :
    Except BindError DescriptorWrite :=
  match shaderSet? setCount sets bound.key.set with
  | some set => .ok ⟨set, bound.key.binding, bound.descriptor⟩
  | none => .error (.unknownBinding bound.key.set 0)

def destroyLayouts {ε : Type} (layouts : List SetLayout) : Native ε Unit :=
  layouts.reverse.forM fun layout => Native.destroy .layout layout.handle

def disposeResources {ε : Type} (resources : List BoundResource) : Native ε Unit :=
  resources.reverse.forM fun bound => bound.backing.dispose

/-- Release every object, last created first. -/
def dispose {ε : Type} (binder : Binder) : Native ε Unit := do
  Native.destroy .pool binder.pool
  destroyLayouts binder.layouts
  disposeResources binder.resources

end Binder

end ShaderBinding
