import ShaderBinding.Proofs.Binder.Record

/-! # What a successful bind returns

The binder that a successful bind returns has one resource per descriptor of the layout map, one
layout and one set per set index, and a write for every resource on record.
-/

namespace ShaderBinding

open Native

namespace Binder

theorem mem_of_shaderSet? {setCount index : Nat} {sets : List DescriptorSet} {set : DescriptorSet}
    (h : shaderSet? setCount sets index = some set) : set ∈ sets := by
  unfold shaderSet? at h
  split at h
  · exact List.mem_of_getElem? h
  · cases h

theorem writeOf_eq_ok {setCount : Nat} {sets : List DescriptorSet} {bound : BoundResource}
    {write : DescriptorWrite} (h : writeOf setCount sets bound = .ok write) :
    shaderSet? setCount sets bound.key.set = some write.set ∧
      write = ⟨write.set, bound.key.binding, bound.descriptor⟩ := by
  unfold writeOf at h
  split at h <;> cases h
  exact ⟨by assumption, rfl⟩

structure StandsFor (entry : BindingKey × Resource) (bound : BoundResource) : Prop where
  key : bound.key = entry.1
  resource : bound.resource = entry.2
  type : DescriptorType.ofResource? entry.2 = some bound.type

structure Sound (binder : Binder) : Prop where
  nodup : (binder.resources.map (·.key)).Nodup
  set : ∀ bound ∈ binder.resources, ∃ set,
    shaderSet? binder.setCount binder.sets bound.key.set = some set

variable {layout : LayoutMap} {options : BindOptions} {b b' : Backend} {binder : Binder}

structure Built (layout : LayoutMap) (options : BindOptions) (b : Backend) (binder : Binder)
    (b' : Backend) where
  pixels : Bytes
  made : Backend
  laid : Backend
  capacity : Nat
  sizes : List PoolSize
  pooled : Backend
  allocated : Backend
  writes : List DescriptorWrite
  resources : (makeResources options pixels layout).exec b = (.ok binder.resources, made)
  layouts : (makeLayouts (layoutBindings (setCountOf layout) binder.resources
    options.builtins)).exec made = (.ok binder.layouts, laid)
  pool : (createPool capacity sizes).exec laid = (.ok binder.pool, pooled)
  sets : (allocateSets binder.pool (binder.layouts.map (·.handle))).exec pooled =
    (.ok binder.sets, allocated)
  write : binder.resources.mapM (writeOf (setCountOf layout) binder.sets) = .ok writes
  update : (updateSets writes : Native BindError Unit).exec allocated = (.ok (), b')
  setCount : binder.setCount = setCountOf layout
  poolSizes : PoolSizes.ofLayoutMap layout = .ok binder.poolSizes
  fill : options.placeholder.solid options.fill = .ok pixels

theorem built_of_bind (h : (bind layout options).exec b = (.ok binder, b')) :
    Nonempty (Built layout options b binder b') := by
  obtain ⟨poolSizes, _, hpoolSizes, h₁⟩ := exec_bind_eq_ok.mp h
  obtain ⟨hcounted, rfl⟩ := exec_ofChecked_eq_ok.mp hpoolSizes
  obtain ⟨pixels, _, hpixels, h₂⟩ := exec_bind_eq_ok.mp h₁
  obtain ⟨hfill, rfl⟩ := exec_ofChecked_eq_ok.mp hpixels
  obtain ⟨resources, _, hresources, h₃⟩ := exec_bind_eq_ok.mp h₂
  obtain ⟨_, _, hlimits, h₄⟩ := exec_bind_eq_ok.mp (exec_withUndo_eq_ok.mp h₃)
  obtain ⟨-, rfl⟩ := exec_ofExcept_eq_ok.mp hlimits
  obtain ⟨layouts, _, hlayouts, h₅⟩ := exec_bind_eq_ok.mp h₄
  obtain ⟨capacity, _, hcapacity, h₆⟩ := exec_bind_eq_ok.mp (exec_withUndo_eq_ok.mp h₅)
  obtain ⟨-, rfl⟩ := exec_ofChecked_eq_ok.mp hcapacity
  obtain ⟨sizes, _, hsizes, h₇⟩ := exec_bind_eq_ok.mp h₆
  obtain ⟨-, rfl⟩ := exec_ofChecked_eq_ok.mp hsizes
  obtain ⟨pool, pooled, hpool, h₈⟩ := exec_bind_eq_ok.mp h₇
  obtain ⟨sets, _, hsets, h₉⟩ := exec_bind_eq_ok.mp (exec_withUndo_eq_ok.mp h₈)
  obtain ⟨writes, _, hwrites, h₁₀⟩ := exec_bind_eq_ok.mp h₉
  obtain ⟨hwrite, rfl⟩ := exec_ofExcept_eq_ok.mp hwrites
  obtain ⟨_, _, hupdate, h₁₁⟩ := exec_bind_eq_ok.mp h₁₀
  cases h₁₁
  exact ⟨⟨pixels, _, _, capacity, sizes, pooled, _, writes, hresources, hlayouts,
    exec_mapError_eq_ok.mp hpool, exec_mapError_eq_ok.mp hsets, hwrite, hupdate, rfl,
    hcounted, hfill⟩⟩

structure MadeFor (options : BindOptions) (pixels : Bytes) (entry : BindingKey × Resource)
    (bound : BoundResource) (events : List Event) : Prop extends StandsFor entry bound where
  made : ∃ category, entry.2.category? = some category ∧
    Backing.Made options pixels entry.2 category bound.backing events

theorem made_of_makeResources {pixels : Bytes} {resources : List BoundResource}
    (h : (makeResources options pixels layout).exec b = (.ok resources, b')) :
    ∃ steps : List (BoundResource × List Event),
      List.Forall₂ (fun entry step => MadeFor options pixels entry step.1 step.2)
        layout.entries steps ∧
      resources = steps.map (·.1) ∧ b'.trace = b.trace ++ steps.flatMap (·.2) := by
  obtain ⟨steps, hmade, hresources, htrace⟩ := makeAll_eq_ok (R := fun d bound events =>
    bound.key = d.1 ∧ bound.resource = d.2.1 ∧ bound.type = .ofCategory d.2.2 ∧
      Backing.Made options pixels d.2.1 d.2.2 bound.backing events)
    (fun (key, resource, category) bound b b' h => by
      obtain ⟨backing, _, hbacking, h⟩ := exec_bind_eq_ok.mp h
      cases h
      obtain ⟨events, hmade, htrace⟩ := Backing.made_of_make hbacking
      exact ⟨events, ⟨rfl, rfl, rfl, hmade⟩, htrace⟩) h
  refine ⟨steps, ?_, hresources, htrace⟩
  refine forall₂_of_filterMap (fun entry hmem => ?_) hmade fun entry d step hd hstep => ?_
  · simpa using Resource.isSome_category? (layout.keyed entry hmem)
  · obtain ⟨category, hcategory, rfl⟩ := Option.map_eq_some_iff.mp hd
    obtain ⟨hkey, hresource, htype, hmade⟩ := hstep
    exact ⟨⟨hkey, hresource, by rw [DescriptorType.ofResource?, hcategory, htype, Option.map_some]⟩,
      category, hcategory, hmade⟩

theorem made_resources (built : Built layout options b binder b') :
    ∃ steps : List (BoundResource × List Event),
      List.Forall₂ (fun entry step => MadeFor options built.pixels entry step.1 step.2)
        layout.entries steps ∧
      binder.resources = steps.map (·.1) ∧
      built.made.trace = b.trace ++ steps.flatMap (·.2) := made_of_makeResources built.resources

theorem forall₂_resources (built : Built layout options b binder b') :
    List.Forall₂ StandsFor layout.entries binder.resources := by
  obtain ⟨steps, hsteps, hresources, -⟩ := made_resources built
  rw [hresources, List.forall₂_map_right_iff]
  exact hsteps.imp fun _ _ h => h.toStandsFor

theorem keys_resources (built : Built layout options b binder b') :
    binder.resources.map (·.key) = layout.entries.map (·.1) :=
  (map_eq_map_of_forall₂ (forall₂_resources built) fun _ _ h => h.key.symm).symm

theorem sound_of_bind (h : (bind layout options).exec b = (.ok binder, b')) : binder.Sound := by
  obtain ⟨built⟩ := built_of_bind h
  constructor
  · rw [keys_resources built]
    exact layout.nodup_keys
  · intro bound hmem
    obtain ⟨write, -, hwrite⟩ := exists_right_of_forall₂ (Except.mapM_eq_ok.mp built.write) hmem
    exact ⟨write.set, built.setCount ▸ (writeOf_eq_ok hwrite).1⟩

end Binder

end ShaderBinding
