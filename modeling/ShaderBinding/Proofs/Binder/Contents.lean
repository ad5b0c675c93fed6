import ShaderBinding.Proofs.Binder.Bound
import ShaderBinding.Proofs.Native.Contents

/-! # What the memory behind descriptors starts with

Making a backing adds one block to those of the allocator: zeros for a buffer, the pixels for an
image. Nothing else that a bind does touches any memory.
-/

namespace ShaderBinding

open Native Backend

variable {b b' : Backend}

namespace Backing

def initial (pixels : Bytes) (resource : Resource) : Backing → Bytes
  | buffer _ => Bytes.zeros (max resource.type.size 1)
  | image .. => pixels

/-- A backing was added to an allocator as a block that holds the bytes. -/
structure Added (a : Allocator) (name : String) (bytes : Bytes) (backing : Backing)
    (block : Block) (a' : Allocator) : Prop where
  allocation : backing.allocation = ⟨a.next, a.next, bytes.length, name⟩
  size : bytes.length < 2 ^ 63
  adds : a.Adds block a'
  bytes : block.memory.bytes = bytes

variable {backing : Backing} {pixels : Bytes} {resource : Resource}

theorem added_of_makeBuffer {usage : BufferUsage}
    (h : (makeBuffer resource.name resource.type.size usage).exec b = (.ok backing, b')) :
    ∃ block, Added b.allocator resource.name (backing.initial pixels resource) backing block
      b'.allocator := by
  obtain ⟨allocation, _, hallocate, h⟩ := exec_bind_eq_ok.mp h
  cases h
  obtain ⟨hsize, rfl, memory, hzeros, hadds⟩ :=
    allocateBuffer_eq_ok (exec_mapError_eq_ok.mp hallocate)
  have hlength : (Bytes.zeros (max resource.type.size 1)).length = max resource.type.size 1 :=
    List.length_replicate
  exact ⟨_, by rw [initial, hlength, Backing.allocation], hlength ▸ hsize, hadds, hzeros⟩

theorem added_of_makeImage {info : ImageInfo} {sampled : Bool} (hv : b.allocator.Valid)
    (h : (makeImage resource.name info pixels sampled).exec b = (.ok backing, b')) :
    ∃ block, Added b.allocator resource.name (backing.initial pixels resource) backing block
      b'.allocator := by
  obtain ⟨parts⟩ := parts_of_makeImage h
  obtain ⟨hsize, hallocation, hadds⟩ := transferImage_eq_ok hv parts.allocate parts.transfer
  have hviewed : parts.viewed.allocator = parts.transferred.allocator :=
    Leaves.keeps_allocator.rel parts.createView
  have hsampler : (if sampled then some <$> createSampler else pure none :
      Native DeviceError (Option Nat)).Leaves (Keeps (·.allocator)) parts.viewed := by
    split
    · exact .map .keeps_allocator
    · exact .pure _
  have hsampled : b'.allocator = parts.viewed.allocator := hsampler.rel parts.createSampler
  rw [parts.backing_eq, hsampled, hviewed]
  exact ⟨_, hallocation, hsize, hadds, Memory.bytes_ofBytes pixels⟩

theorem added_of_make {options : BindOptions} {category : Category} (hv : b.allocator.Valid)
    (h : (make options pixels resource category).exec b = (.ok backing, b')) :
    ∃ block, Added b.allocator resource.name (backing.initial pixels resource) backing block
      b'.allocator := by
  cases category with
  | uniformBuffer | storageBuffer => exact added_of_makeBuffer h
  | sampledImage | storageImage => exact added_of_makeImage hv h

end Backing

structure BoundResource.IsNew (pixels : Bytes) (a : Allocator) (bound : BoundResource) : Prop where
  size : bound.backing.allocation.size = (bound.backing.initial pixels bound.resource).length
  small : bound.backing.allocation.size < 2 ^ 63
  bytes : a.bytes? bound.backing.allocation.memory =
    some (bound.backing.initial pixels bound.resource)

namespace Binder

variable {options : BindOptions} {pixels : Bytes} {layout : LayoutMap}
  {resources : List BoundResource}

structure Starts (options : BindOptions) (pixels : Bytes) (d : BindingKey × Resource × Category)
    (bound : BoundResource) (entry : Nat × Block) : Prop where
  key : bound.key = d.1
  resource : bound.resource = d.2.1
  type : bound.type = .ofCategory d.2.2
  made : ∃ events, Backing.Made options pixels d.2.1 d.2.2 bound.backing events
  allocation : bound.backing.allocation =
    ⟨entry.1, entry.1, (bound.backing.initial pixels bound.resource).length, bound.resource.name⟩
  size : bound.backing.allocation.size < 2 ^ 63
  bytes : entry.2.memory.bytes = bound.backing.initial pixels bound.resource

theorem Starts.isNew {d : BindingKey × Resource × Category} {bound : BoundResource}
    {entry : Nat × Block} (h : Starts options pixels d bound entry) {a : Allocator} (hv : a.Valid)
    (hmem : entry ∈ a.blocks) : bound.IsNew pixels a where
  size := by rw [h.allocation]
  small := h.size
  bytes := by
    rw [h.allocation, ← h.bytes]
    exact hv.bytes?_eq hmem

theorem starts_of_makeResources (hv : b.allocator.Valid)
    (h : (makeResources options pixels layout).exec b = (.ok resources, b')) :
    b'.allocator.Valid ∧ ∃ steps : List (BoundResource × Nat × Block),
      List.Forall₂ (fun d step => Starts options pixels d step.1 step.2) (declared layout) steps ∧
      resources = steps.map (·.1) ∧
      b'.allocator.blocks = b.allocator.blocks ++ steps.map (·.2) := by
  unfold makeResources at h
  generalize declared layout = items at h
  induction items generalizing b resources with
  | nil =>
    cases h
    exact ⟨hv, [], .nil, rfl, (List.append_nil _).symm⟩
  | cons d rest ih =>
    obtain ⟨bound, b₁, hbound, h⟩ := exec_bind_eq_ok.mp h
    obtain ⟨others, b₂, hothers, h⟩ := exec_bind_eq_ok.mp h
    cases h
    obtain ⟨backing, _, hbacking, hbound⟩ := exec_bind_eq_ok.mp hbound
    cases hbound
    obtain ⟨events, hmade, -⟩ := Backing.made_of_make hbacking
    obtain ⟨block, hadded⟩ := Backing.added_of_make hv hbacking
    obtain ⟨hvalid, steps, hsteps, rfl, hblocks⟩ :=
      ih (hadded.adds.valid hv) (exec_withUndo_eq_ok.mp hothers)
    refine ⟨hvalid, (_, b.allocator.next, block) :: steps, .cons ⟨rfl, rfl, rfl, ⟨events, hmade⟩,
      hadded.allocation, ?_, hadded.bytes⟩ hsteps, rfl, ?_⟩
    · rw [hadded.allocation]
      exact hadded.size
    · rw [hblocks, hadded.adds.blocks, List.append_assoc]
      rfl

theorem keeps_allocator_makeLayouts (bindings : List (List LayoutBinding)) :
    (makeLayouts bindings).Leaves (Keeps (·.allocator)) b := by
  refine .makeAll (fun bindings b => ?_) (fun layout b => .keeps_allocator_perform) _ b
  exact .bind (.mapError .keeps_allocator) fun _ _ _ => .pure _

variable {binder : Binder}

theorem allocator_of_built (built : Built layout options b binder b') :
    b'.allocator = built.made.allocator := by
  have hlaid : built.laid.allocator = built.made.allocator :=
    (keeps_allocator_makeLayouts _).rel built.layouts
  have hpooled : built.pooled.allocator = built.laid.allocator :=
    Leaves.keeps_allocator.rel built.pool
  have hsets : (allocateSets binder.pool (binder.layouts.map (·.handle))).Leaves
      (Keeps (·.allocator)) built.pooled := by
    refine .get_bind ?_
    split
    · exact .pure _
    · exact .keeps_allocator
  have hallocated : built.allocated.allocator = built.pooled.allocator := hsets.rel built.sets
  have hupdated : b'.allocator = built.allocated.allocator :=
    Leaves.keeps_allocator_perform.rel built.update
  rw [hupdated, hallocated, hpooled, hlaid]

/-- Every resource of a new binder has memory of its own, as it was made. -/
theorem starts_of_built (hv : b.Valid) (built : Built layout options b binder b') :
    (∀ bound ∈ binder.resources, bound.IsNew built.pixels b'.allocator) ∧
      (binder.resources.map (·.backing.allocation.memory)).Nodup ∧
      List.Forall₂ (fun d bound => ∃ entry, Starts options built.pixels d bound entry)
        (declared layout) binder.resources := by
  obtain ⟨hvalid, steps, hsteps, hresources, hblocks⟩ :=
    starts_of_makeResources hv.allocator built.resources
  rw [allocator_of_built built, hresources]
  have hmemory : (steps.map (·.1)).map (·.backing.allocation.memory) =
      (steps.map (·.2)).map (·.1) := by
    rw [List.map_map, List.map_map]
    refine List.map_congr_left fun step hmem => ?_
    obtain ⟨d, -, hstarts⟩ := exists_left_of_forall₂ hsteps hmem
    exact congrArg Allocation.memory hstarts.allocation
  refine ⟨fun bound hbound => ?_, ?_, ?_⟩
  · obtain ⟨step, hmem, rfl⟩ := List.mem_map.mp hbound
    obtain ⟨d, -, hstarts⟩ := exists_left_of_forall₂ hsteps hmem
    refine hstarts.isNew hvalid ?_
    exact hblocks ▸ List.mem_append_right _ (List.mem_map_of_mem hmem)
  · have hnodup := hvalid.nodup
    rw [hblocks, List.map_append] at hnodup
    exact hmemory ▸ hnodup.of_append_right
  · exact List.forall₂_map_right_iff.mpr (hsteps.imp fun d step h => ⟨step.2, h⟩)

end Binder

end ShaderBinding
