import ShaderBinding.Proofs.Binder.Backings
import ShaderBinding.Proofs.Descriptor.PoolSizes

/-! # Entries of a descriptor pool

Every counter starts at one. So a pool is asked for with an entry of zero only if a built-in
binding has a type without a counter, and all bindings of that type together no descriptors.
-/

namespace ShaderBinding

open Native Backend

namespace Binder

variable {layout : LayoutMap} {options : BindOptions} {b b' : Backend}

def Sized (layout : LayoutMap) (options : BindOptions) (sizes : List PoolSize) : Prop :=
  ∃ counters, PoolSizes.ofLayoutMap layout = .ok counters ∧
    counters.withBindings options.builtins.flatten = .ok sizes

def PoolSized (layout : LayoutMap) (options : BindOptions) (event : Event) : Prop :=
  ∀ maxSets sizes, event.call = .createPool maxSets sizes → Sized layout options sizes

theorem PoolSized.calls : BackingCalls (Extends (PoolSized layout options)) where
  allocateBuffer := .onAllocator fun _ => nofun
  allocateImage := .onAllocator fun _ => nofun
  transferImage := .onAllocator fun _ => nofun
  createView := .onDevice fun _ => nofun
  createSampler := .onDevice fun _ => nofun
  destroy := .destroy (fun _ _ _ => nofun) _ _
  deallocate := .deallocate (fun _ _ _ => nofun) _ _

/-- Whatever comes of a bind, every pool that it asks for is of the sizes that are counted. -/
theorem poolSized_bind : (bind layout options).Leaves (Extends (PoolSized layout options)) b := by
  refine leaves_bind_sized PoolSized.calls.fresh ?_ ?_ ?_ ?_
  · exact .onDevice fun _ => nofun
  · intro b counters maxSets sizes hcounters hsizes
    refine .onDevice fun _ => ?_
    rintro _ _ ⟨⟩
    exact ⟨counters, hcounters, hsizes⟩
  · refine .get_bind ?_
    split
    · exact .pure _
    · exact .onDevice fun _ => nofun
  · exact .updateSets fun _ => nofun

namespace Sized

variable {sizes : List PoolSize}

theorem count_eq_zero_iff (h : Sized layout options sizes) {size : PoolSize} (hmem : size ∈ sizes) :
    size.count = 0 ↔
      size.type ∉ PoolSizes.types ∧ demand size.type options.builtins.flatten = 0 := by
  obtain ⟨counters, hcounters, hsizes⟩ := h
  rw [PoolSizes.count_of_withBindings hsizes hmem, Nat.add_eq_zero_iff,
    PoolSizes.get_eq_zero_iff hcounters]

theorem count_pos_iff (h : Sized layout options sizes) :
    (∀ size ∈ sizes, 0 < size.count) ↔ ∀ binding ∈ options.builtins.flatten,
      binding.type ∈ PoolSizes.types ∨ 0 < demand binding.type options.builtins.flatten := by
  have hpos {size : PoolSize} (hmem : size ∈ sizes) : 0 < size.count ↔
      size.type ∈ PoolSizes.types ∨ 0 < demand size.type options.builtins.flatten := by
    rw [Nat.pos_iff_ne_zero, Ne, h.count_eq_zero_iff hmem, Nat.pos_iff_ne_zero]
    tauto
  obtain ⟨counters, hcounters, hsizes⟩ := h
  have htypes := PoolSizes.mem_types_withBindings hsizes
  constructor
  · intro hall binding hmem
    obtain ⟨size, hsize, htype⟩ :=
      List.mem_map.mp ((htypes binding.type).mpr (.inr ⟨binding, hmem, rfl⟩))
    exact htype ▸ (hpos hsize).mp (hall size hsize)
  · intro hall size hmem
    refine (hpos hmem).mpr ?_
    rcases (htypes size.type).mp (List.mem_map_of_mem hmem) with hcounted | ⟨binding, hb, htype⟩
    · exact .inl hcounted
    · exact htype ▸ hall binding hb

end Sized

/--
Sizes exist for every layout map and all built-in bindings that can be counted. Whatever comes of
a bind, an entry of a pool that it has asked for is zero exactly if its type has no counter and
the built-in bindings of the type have no descriptors. So no entry is zero exactly if each
built-in binding has a counted type, or one that some built-in binding has a descriptor of.
-/
theorem bind_pool_positive (layout : LayoutMap) (options : BindOptions) :
    let bindings := options.builtins.flatten
    (∀ counters, PoolSizes.ofLayoutMap layout = .ok counters →
      (∀ type, counters.get type + demand type bindings < 2 ^ 32) →
      ∃ sizes, counters.withBindings bindings = .ok sizes) ∧
    ∀ (b b' : Backend) (result : Outcome BindError Binder),
      (bind layout options).exec b = (result, b') →
      ∃ events, b'.trace = b.trace ++ events ∧
        ∀ maxSets sizes r, ⟨.createPool maxSets sizes, r⟩ ∈ events →
          (∀ size ∈ sizes, size.count = 0 ↔
            size.type ∉ PoolSizes.types ∧ demand size.type bindings = 0) ∧
          ((∀ size ∈ sizes, 0 < size.count) ↔ ∀ binding ∈ bindings,
            binding.type ∈ PoolSizes.types ∨ 0 < demand binding.type bindings) := by
  refine ⟨fun counters _ hfits => PoolSizes.exists_withBindings hfits, ?_⟩
  intro b b' result h
  obtain ⟨events, htrace, hevents⟩ := (poolSized_bind.rel h).record
  refine ⟨events, htrace, fun maxSets sizes r hmem => ?_⟩
  have hsized : Sized layout options sizes := hevents _ hmem maxSets sizes rfl
  exact ⟨fun _ => hsized.count_eq_zero_iff, hsized.count_pos_iff⟩

/-- Of two bindings of a type without a counter, one reserves no descriptors. -/
theorem bind_pool_positive_reserved :
    let options : BindOptions :=
      { builtins := [[⟨0, .inputAttachment, 0, .empty⟩], [⟨0, .inputAttachment, 2, .empty⟩]]
        placeholder := { width := 1, height := 1 } }
    let sizes : List PoolSize := [⟨.uniformBuffer, 1⟩, ⟨.uniformBufferDynamic, 1⟩,
      ⟨.storageBuffer, 1⟩, ⟨.storageBufferDynamic, 1⟩, ⟨.combinedImageSampler, 1⟩,
      ⟨.storageImage, 1⟩, ⟨.inputAttachment, 2⟩]
    (∃ counted, PoolSizes.baseline.withBindings options.builtins.flatten = .ok counted) ∧
    ∃ result b', (bind .empty options).exec {} = (result, b') ∧
      ⟨.createPool 8 sizes, .handle 2⟩ ∈ b'.trace ∧ ∀ size ∈ sizes, 0 < size.count := by
  intro options sizes
  have hpool : ⟨.createPool 8 sizes, .handle 2⟩ ∈ ((bind .empty options).exec {}).2.trace := by
    decide +kernel
  have hbuiltins : ∀ binding ∈ options.builtins.flatten,
      binding.type ∈ PoolSizes.types ∨ 0 < demand binding.type options.builtins.flatten := by
    decide
  have hfits (type : DescriptorType) :
      PoolSizes.baseline.get type + demand type options.builtins.flatten < 2 ^ 32 := by
    cases type <;> decide
  rcases hexec : (bind .empty options).exec {} with ⟨result, b'⟩
  rw [hexec] at hpool
  obtain ⟨hexists, hentries⟩ := bind_pool_positive .empty options
  obtain ⟨events, htrace, hevents⟩ := hentries {} b' result hexec
  obtain rfl : b'.trace = events := htrace.trans (List.nil_append _)
  exact ⟨hexists .baseline rfl hfits, result, b', rfl, hpool,
    (hevents 8 sizes _ hpool).2.mpr hbuiltins⟩

/-- A pool is asked for with an entry of zero. -/
theorem bind_pool_zero :
    let options : BindOptions :=
      { builtins := [[⟨0, .inputAttachment, 0, .empty⟩]]
        placeholder := { width := 1, height := 1 } }
    ∃ maxSets sizes r,
      ⟨.createPool maxSets sizes, r⟩ ∈ ((bind .empty options).exec {}).2.trace ∧
        ⟨.inputAttachment, 0⟩ ∈ sizes :=
  ⟨7, [⟨.uniformBuffer, 1⟩, ⟨.uniformBufferDynamic, 1⟩, ⟨.storageBuffer, 1⟩,
    ⟨.storageBufferDynamic, 1⟩, ⟨.combinedImageSampler, 1⟩, ⟨.storageImage, 1⟩,
    ⟨.inputAttachment, 0⟩], .handle 1, by decide +kernel, by decide⟩

end Binder

end ShaderBinding
