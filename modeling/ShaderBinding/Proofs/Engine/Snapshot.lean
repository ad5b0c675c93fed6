import ShaderBinding.Proofs.Binder.Declared
import ShaderBinding.Proofs.Engine.Seeding

/-! # Snapshots of bound models

A snapshot of a bound model says what its descriptors, memory, push constants and modules are,
whichever handles they have. A model that was just bound has the snapshot that its configuration,
shaders and model determine.
-/

namespace ShaderBinding

open Native Backend

/-- What is behind a descriptor: the bytes in memory, and for an image its parameters and whether
it has a sampler. -/
inductive Content where
  | buffer (size : Nat) (name : String) (bytes : Option Bytes)
  | image (size : Nat) (name : String) (info : ImageInfo) (sampled : Bool) (bytes : Option Bytes)
  deriving DecidableEq, Repr

def Backing.content (a : Allocator) : Backing → Content
  | buffer allocation =>
    .buffer allocation.size allocation.name (a.bytes? allocation.memory)
  | image allocation info _ sampler =>
    .image allocation.size allocation.name info sampler.isSome (a.bytes? allocation.memory)

/-- The code of a module: the words that its handle was made from last. -/
def Backend.moduleWords? (b : Backend) (handle : Nat) : Option (List UInt32) :=
  b.trace.reverse.findSome? fun
    | ⟨.createModule words, .handle made⟩ => if made = handle then some words else none
    | _ => none

structure ResourceSnapshot where
  key : BindingKey
  resource : Resource
  type : DescriptorType
  content : Content
  deriving DecidableEq, Repr

structure StageSnapshot where
  stage : Stage
  entry : String
  words : Option (List UInt32)
  deriving DecidableEq, Repr

/-- A set is known by the position of its layout. -/
structure Snapshot where
  setCount : Nat
  layouts : List (List LayoutBinding)
  sets : List Nat
  poolSizes : PoolSizes
  resources : List ResourceSnapshot
  pushConstants : PushConstants
  stages : List StageSnapshot
  deriving DecidableEq, Repr

def BoundResource.snapshot (a : Allocator) (bound : BoundResource) : ResourceSnapshot :=
  ⟨bound.key, bound.resource, bound.type, bound.backing.content a⟩

def StageModule.snapshot (b : Backend) (entry : StageModule) : StageSnapshot :=
  ⟨entry.stage, entry.entry, b.moduleWords? entry.handle⟩

def BoundModel.snapshot (b : Backend) (bound : BoundModel) : Snapshot where
  setCount := bound.binder.setCount
  layouts := bound.binder.layouts.map (·.bindings)
  sets := bound.binder.sets.map fun set => (bound.binder.layouts.map (·.handle)).idxOf set.layout
  poolSizes := bound.binder.poolSizes
  resources := bound.binder.resources.map (·.snapshot b.allocator)
  pushConstants := bound.pushConstants
  stages := bound.modules.map (·.snapshot b)

/-- What is behind a descriptor at first: a buffer with the data that its type starts with, and
zeros where the buffer is larger than the type, or an image of the placeholder's pixels. -/
def Content.initial (placeholder : ImageInfo) (pixels : Bytes) (camera : Camera)
    (resource : Resource) : Category → Checked Content
  | .uniformBuffer | .storageBuffer => do
    let size := max resource.type.size 1
    let bytes := (← resource.type.initialBytes camera) ++ Bytes.zeros (size - resource.type.size)
    return .buffer size resource.name (some bytes)
  | .sampledImage => return .image pixels.length resource.name placeholder true (some pixels)
  | .storageImage =>
    return .image pixels.length resource.name
      { placeholder with usage := placeholder.usage ||| .storage } false (some pixels)

def ResourceSnapshot.initial (placeholder : ImageInfo) (pixels : Bytes) (camera : Camera)
    (d : BindingKey × Resource × Category) : Checked ResourceSnapshot := do
  return ⟨d.1, d.2.1, .ofCategory d.2.2, ← Content.initial placeholder pixels camera d.2.1 d.2.2⟩

def ResourceSnapshot.layoutBinding (r : ResourceSnapshot) : LayoutBinding :=
  ⟨r.key.binding, r.type, 1, r.resource.stages⟩

def Snapshot.initial [Libraries] (config : Config) (shaders : ShaderSet) (model : Model) :
    Checked Snapshot := do
  let poolSizes ← PoolSizes.ofLayoutMap model.layout
  let pixels ← config.placeholder.solid config.fill
  let camera ← Camera.ofView config.view
  let resources ← (Binder.declared model.layout).mapM
    (ResourceSnapshot.initial config.placeholder pixels camera)
  let data ← model.pushConstants.mapM (PushConstants.initialData camera)
  let setCount := Binder.setCountOf model.layout
  return {
    setCount := setCount
    layouts := (List.range setCount).map (fun index =>
      (resources.filter (·.key.set = index)).map (·.layoutBinding)) ++ config.builtinLayouts
    sets := List.range (setCount + config.builtinLayouts.length)
    poolSizes := poolSizes
    resources := resources
    pushConstants := ⟨PushConstants.placed 0 (PushConstants.sizes model), .ofList data⟩
    stages := shaders.values.map fun shader => ⟨shader.stage, shader.entry, some shader.words⟩ }

variable {b b' : Backend}

namespace Backend

/-- Later modules have other handles. -/
theorem History.moduleWords?_eq {events : List Event} (h : History b events b') {handle : Nat}
    (hknown : b.Knows (.module handle)) : b'.moduleWords? handle = b.moduleWords? handle := by
  unfold moduleWords?
  rw [h.trace_eq, List.reverse_append, List.findSome?_append]
  refine Option.or_eq_right_of_none (List.findSome?_eq_none_iff.mpr fun event hmem => ?_)
  split
  · rename_i words made
    refine if_neg ?_
    rintro rfl
    have hcreated : NativeObject.module made ∈ Record.created events :=
      List.mem_flatMap.mpr ⟨_, List.mem_reverse.mp hmem, List.mem_singleton.mpr rfl⟩
    exact (h.fresh _ hcreated).1 hknown
  · rfl

end Backend

namespace BoundModel

theorem snapshot_of_makeModules (hv : b.Valid) {shaders : ShaderSet} {modules : List StageModule}
    (h : (makeModules shaders).exec b = (.ok modules, b')) :
    modules.map (·.snapshot b') =
      shaders.values.map fun shader => ⟨shader.stage, shader.entry, some shader.words⟩ := by
  unfold makeModules at h
  generalize shaders.values = items at h ⊢
  induction items generalizing b modules with
  | nil =>
    cases h
    rfl
  | cons shader rest ih =>
    obtain ⟨entry, b₁, hentry, h⟩ := exec_bind_eq_ok.mp h
    obtain ⟨others, _, hothers, h⟩ := exec_bind_eq_ok.mp h
    cases h
    obtain ⟨handle, _, hhandle, hentry⟩ := exec_bind_eq_ok.mp hentry
    cases hentry
    obtain ⟨hb₁, hlive⟩ := (makes_createModule shader.words hv).of_ok hhandle
    have hothers := exec_withUndo_eq_ok.mp hothers
    obtain ⟨⟨events, hevents⟩, -⟩ := (makes_modules rest hb₁.valid).of_ok hothers
    have hknown : b₁.Knows (.module handle) := hb₁.valid.known (by rw [hlive]; simp)
    have hwords : b'.moduleWords? handle = some shader.words := by
      rw [hevents.moduleWords?_eq hknown, Backend.moduleWords?, (exec_onDevice_eq_ok hhandle).2]
      simp
    rw [List.map_cons, List.map_cons, ih hb₁.valid hothers]
    exact congrArg (fun words => (⟨shader.stage, shader.entry, words⟩ : StageSnapshot) :: _) hwords

end BoundModel

namespace Binder

variable {layout : LayoutMap} {options : BindOptions} {binder : Binder}

theorem nodup_handles (hv : b.Valid) (built : Built layout options b binder b') :
    (binder.layouts.map (·.handle)).Nodup := by
  obtain ⟨hmade, -⟩ := (makes_makeResources options built.pixels layout hv).of_ok built.resources
  obtain ⟨hlaid, hlive⟩ := (makes_makeLayouts _ hmade.valid).of_ok built.layouts
  have hnodup := hlaid.valid.live_nodup
  rw [hlive] at hnodup
  have hobjects : (binder.layouts.flatMap (·.objects)).Nodup :=
    Multiset.coe_nodup.mp (Multiset.nodup_add.mp hnodup).2.1
  have heq : binder.layouts.flatMap (·.objects) =
      (binder.layouts.map (·.handle)).map NativeObject.layout := by
    simp [SetLayout.objects, List.map_eq_flatMap, List.flatMap_assoc]
  rw [heq] at hobjects
  exact hobjects.of_map

theorem map_idxOf_of_nodup {handles : List Nat} (h : handles.Nodup) :
    (handles.map fun handle => handles.idxOf handle) = List.range handles.length := by
  refine List.ext_getElem (by simp) fun i hi _ => ?_
  rw [List.getElem_map, h.idxOf_getElem, List.getElem_range]

theorem positions_of_built (hv : b.Valid) (built : Built layout options b binder b') :
    (binder.sets.map fun set => (binder.layouts.map (·.handle)).idxOf set.layout) =
      List.range (setCountOf layout + options.builtins.length) := by
  have hpositions := congrArg
    (List.map fun handle => (binder.layouts.map (·.handle)).idxOf handle) (sets_of_built built).1
  rw [List.map_map, map_idxOf_of_nodup (nodup_handles hv built), List.length_map,
    length_layouts built, built.setCount] at hpositions
  exact hpositions

theorem layoutBindings_eq (a : Allocator) (setCount : Nat) (resources : List BoundResource)
    (builtins : List (List LayoutBinding)) : layoutBindings setCount resources builtins =
      (List.range setCount).map (fun index =>
        ((resources.map (·.snapshot a)).filter (·.key.set = index)).map (·.layoutBinding)) ++
        builtins := by
  simp only [layoutBindings, List.filter_map, List.map_map]
  rfl

variable {camera : Camera} {pixels : Bytes} {d : BindingKey × Resource × Category}
  {bound : BoundResource} {entry : Nat × Block} {a : Allocator}

theorem Starts.content_image (h : Starts options pixels d bound entry) {allocation : Allocation}
    {info : ImageInfo} {view : Nat} {sampler : Option Nat}
    (hbacking : bound.backing = .image allocation info view sampler)
    (hbytes : a.bytes? bound.backing.allocation.memory = some pixels) : bound.backing.content a =
      .image pixels.length bound.resource.name info sampler.isSome (some pixels) := by
  have hallocation := h.allocation
  rw [hbacking] at hallocation hbytes ⊢
  dsimp only [Backing.allocation] at hallocation hbytes
  rw [Backing.content, hbytes, hallocation]
  rfl

theorem Starts.content_eq (h : Starts options pixels d bound entry) {bytes : Bytes}
    (hseeded : bound.seededBytes camera pixels = .ok bytes)
    (hbytes : a.bytes? bound.backing.allocation.memory = some bytes) :
    Content.initial options.placeholder pixels camera d.2.1 d.2.2 =
      .ok (bound.backing.content a) := by
  obtain ⟨key, resource, category⟩ := d
  obtain ⟨key', resource', type', backing⟩ := bound
  obtain rfl : resource' = resource := h.resource
  obtain ⟨events, hmade⟩ := h.made
  unfold BoundResource.seededBytes at hseeded
  dsimp only at hmade hseeded hbytes ⊢
  cases hmade with
  | buffer husage hsize =>
    obtain ⟨data, hdata, heq⟩ := Except.bind_eq_ok.mp hseeded
    cases heq
    have hname := congrArg Allocation.name h.allocation
    dsimp only [Backing.allocation] at hname hbytes
    rw [Backing.content, hsize, hname, hbytes]
    cases category <;> cases husage <;> rw [Content.initial, hdata] <;> rfl
  | sampled =>
    cases hseeded
    rw [h.content_image rfl hbytes]
    rfl
  | storage hinfo =>
    cases hseeded
    rw [h.content_image rfl hbytes, hinfo]
    rfl

theorem Starts.snapshot_eq (h : Starts options pixels d bound entry) {bytes : Bytes}
    (hseeded : bound.seededBytes camera pixels = .ok bytes)
    (hbytes : a.bytes? bound.backing.allocation.memory = some bytes) :
    ResourceSnapshot.initial options.placeholder pixels camera d = .ok (bound.snapshot a) := by
  rw [ResourceSnapshot.initial, h.content_eq hseeded hbytes, BoundResource.snapshot, h.key,
    h.resource, h.type]
  rfl

end Binder

namespace BoundModel

variable {config : Config} {shaders : ShaderSet} {model : Model} {limits : Limits}
  {bound : BoundModel}

theorem keeps_allocator_makeModules (shaders : ShaderSet) :
    (makeModules shaders).Leaves (Keeps (·.allocator)) b := by
  refine .makeAll (fun shader b => ?_) (fun entry b => .keeps_allocator_perform) _ b
  exact .bind .keeps_allocator fun _ _ _ => .pure _

theorem snapshot_of_make [Libraries] (hv : b.Valid)
    (h : (make config shaders model limits).exec b = (.ok bound, b')) :
    Snapshot.initial config shaders model = .ok (bound.snapshot b') := by
  obtain ⟨parts⟩ := parts_of_make h
  obtain ⟨built⟩ := Binder.built_of_bind parts.binder
  have hmade := ((Binder.makes_bind _ _ hv).of_ok parts.binder).1.valid
  have hseeded := ((Binder.makes_seed _ _ hmade).of_ok parts.seed).1.valid
  obtain ⟨hnew, hdistinct, hstarts⟩ := Binder.starts_of_built hv built
  have hbytes := (Binder.ends_seed (sound_of_make h) hdistinct hnew).of_ok parts.seed
  have hallocator : b'.allocator = parts.seeded.allocator :=
    (keeps_allocator_makeModules shaders).rel parts.modules
  have hresources : (Binder.declared model.layout).mapM
      (ResourceSnapshot.initial config.placeholder built.pixels parts.camera) =
        .ok (bound.binder.resources.map (·.snapshot b'.allocator)) := by
    refine Except.mapM_eq_ok.mpr (List.forall₂_map_right_iff.mpr ?_)
    refine List.Forall₂.flip (((List.forall₂_and_left ..).mpr ⟨hbytes, hstarts.flip⟩).imp ?_)
    rintro _ d ⟨⟨bytes, hseeded, hbytes⟩, entry, hstart⟩
    exact hstart.snapshot_eq hseeded (hallocator ▸ hbytes)
  have hpush := parts.pushConstants
  rw [PushConstants.seed_ofModel parts.zeros] at hpush
  obtain ⟨data, hdata, hpush⟩ := Except.map_eq_ok.mp (Except.mapError_eq_ok.mp hpush)
  refine Except.bind_eq_ok.mpr ⟨_, built.poolSizes, ?_⟩
  refine Except.bind_eq_ok.mpr ⟨_, built.fill, ?_⟩
  refine Except.bind_eq_ok.mpr ⟨_, parts.view, ?_⟩
  refine Except.bind_eq_ok.mpr ⟨_, hresources, ?_⟩
  refine Except.bind_eq_ok.mpr ⟨_, hdata, ?_⟩
  refine congrArg Except.ok ?_
  unfold BoundModel.snapshot
  rw [← hpush, built.setCount, (Binder.layouts_of_built built).1,
    Binder.layoutBindings_eq b'.allocator, Binder.positions_of_built hv built,
    snapshot_of_makeModules hseeded parts.modules]
  rfl

end BoundModel

end ShaderBinding
