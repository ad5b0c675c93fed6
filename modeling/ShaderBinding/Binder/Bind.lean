import ShaderBinding.Binder.Basic
import ShaderBinding.Limits

/-! # Binding a layout map

Binding makes a backing for each descriptor, checks the device's limits, and then makes the
layouts, the pool and the sets and writes every descriptor. Each part undoes its own work when
it fails, so that a failed bind leaves no object behind.
-/

namespace ShaderBinding

open Native

structure BindOptions where
  builtins : List (List LayoutBinding) := []
  placeholder : ImageInfo := {}
  fill : Color := .white
  limits : Limits := {}
  deriving DecidableEq, Repr

namespace Backing

/-- A buffer large enough for a type; no buffer is empty. -/
def makeBuffer (name : String) (size : Nat) (usage : BufferUsage) : Native BindError Backing := do
  return .buffer (← mapError (.allocation name) (allocateBuffer (max size 1) usage name))

/-- An image with its pixels uploaded, a view of it, and a sampler if it is to be sampled. -/
def makeImage (name : String) (info : ImageInfo) (pixels : Bytes) (sampled : Bool) :
    Native BindError Backing := do
  let allocation ← mapError (.allocation name) (allocateImage info name)
  withUndo (deallocate .image allocation) do
    mapError (.transfer name) (transferImage allocation info pixels)
    let view ← mapError .device (createView allocation.handle info)
    withUndo (destroy .view view) do
      let sampler ← if sampled then some <$> mapError .device createSampler else pure none
      return .image allocation info view sampler

def make (options : BindOptions) (pixels : Bytes) (resource : Resource) :
    Category → Native BindError Backing
  | .uniformBuffer => makeBuffer resource.name resource.type.size .uniform
  | .storageBuffer => makeBuffer resource.name resource.type.size .storage
  | .sampledImage => makeImage resource.name options.placeholder pixels true
  | .storageImage =>
    makeImage resource.name
      { options.placeholder with usage := options.placeholder.usage ||| .storage } pixels false

end Backing

namespace Binder

/-- The descriptors of a layout map in key order, each with its category. -/
def declared (layout : LayoutMap) : List (BindingKey × Resource × Category) :=
  layout.entries.filterMap fun (key, resource) => resource.category?.map (key, resource, ·)

/-- One more than the highest declared set index. -/
def setCountOf (layout : LayoutMap) : Nat :=
  match layout.setIndices.getLast? with
  | some last => last + 1
  | none => 0

def makeResources (options : BindOptions) (pixels : Bytes) (layout : LayoutMap) :
    Native BindError (List BoundResource) :=
  makeAll (fun (key, resource, category) => do
      return ⟨key, resource, .ofCategory category, ← Backing.make options pixels resource category⟩)
    (·.backing.dispose) (declared layout)

def countOf (layout : LayoutMap) (category : Category) : Nat :=
  (declared layout).countP (·.2.2 = category)

/-- The counts that device limits apply to, in the order in which they are checked. -/
def limitChecks (layout : LayoutMap) (options : BindOptions) : List (LimitKind × Nat × Nat) :=
  let limits := options.limits
  let count := countOf layout
  [(.boundDescriptorSets, Width.word.wrap (setCountOf layout + options.builtins.length),
      limits.maxBoundDescriptorSets),
    (.samplers, count .sampledImage, limits.maxPerStageDescriptorSamplers),
    (.uniformBuffers, count .uniformBuffer, limits.maxDescriptorSetUniformBuffers),
    (.storageBuffers, count .storageBuffer, limits.maxDescriptorSetStorageBuffers),
    (.sampledImages, count .sampledImage, limits.maxDescriptorSetSampledImages),
    (.storageImages, count .storageImage, limits.maxDescriptorSetStorageImages)]

def checkLimits (layout : LayoutMap) (options : BindOptions) : Except BindError Unit :=
  match (limitChecks layout options).find? fun (_, count, limit) => limit < count with
  | some (kind, count, limit) => .error (.limitExceeded kind count limit)
  | none => .ok ()

/-- The bindings of every layout: one list per set index, which may be empty, then the built-ins. -/
def layoutBindings (setCount : Nat) (resources : List BoundResource)
    (builtins : List (List LayoutBinding)) : List (List LayoutBinding) :=
  (List.range setCount).map (fun index =>
      (resources.filter (·.key.set = index)).map (·.layoutBinding)) ++ builtins

def makeLayouts (bindings : List (List LayoutBinding)) : Native BindError (List SetLayout) :=
  makeAll (fun bindings => do return ⟨← mapError .device (createLayout bindings), bindings⟩)
    (fun layout => destroy .layout layout.handle) bindings

/-- How many sets the pool has to hold: enough by its counters, and one per set index. -/
def maxSets (sizes : PoolSizes) (setCount builtins : Nat) : Checked Nat := do
  Checked.add32 (max (← sizes.total) (Width.word.wrap setCount)) (Width.word.wrap builtins)

def bind (layout : LayoutMap) (options : BindOptions) : Native BindError Binder := do
  let setCount := setCountOf layout
  let poolSizes ← PoolSizes.ofLayoutMap layout
  let pixels ← options.placeholder.solid options.fill
  let resources ← makeResources options pixels layout
  withUndo (disposeResources resources) do
    ofExcept (checkLimits layout options)
    let layouts ← makeLayouts (layoutBindings setCount resources options.builtins)
    withUndo (destroyLayouts layouts) do
      let capacity ← maxSets poolSizes setCount options.builtins.length
      let sizes ← poolSizes.withBindings options.builtins.flatten
      let pool ← mapError .device (createPool capacity sizes)
      withUndo (destroy .pool pool) do
        let sets ← mapError .device (allocateSets pool (layouts.map (·.handle)))
        updateSets (← ofExcept (resources.mapM (writeOf setCount sets)))
        return ⟨setCount, layouts, pool, sets, resources, poolSizes⟩

end Binder

end ShaderBinding
