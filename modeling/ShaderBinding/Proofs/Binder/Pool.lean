import ShaderBinding.Proofs.Binder.Backings
import ShaderBinding.Proofs.Binder.Declared
import ShaderBinding.Proofs.Binder.Ownership
import ShaderBinding.Proofs.Descriptor.PoolSizes

/-! # The descriptor pool suffices

The pool is sized from counters and the built-in bindings, and its sets are allocated for layouts
that are made elsewhere. Whatever comes of a bind, the pool that it asks for has room for every
layout that it has made.
-/

namespace ShaderBinding

open Native Backend

variable {ε : Type} {b b' : Backend}

def Call.onSets : Call → Bool
  | createLayout _ | createPool .. | allocateSets .. | updateSets _ => true
  | _ => false

def Call.onPool : Call → Bool
  | createPool .. | allocateSets .. => true
  | _ => false

def Event.Apart (event : Event) : Prop := event.call.onSets = false

namespace Event.Apart

variable {event : Event}

theorem onPool (h : event.Apart) : event.call.onPool = false := by
  obtain ⟨call, result⟩ := event
  cases call <;> first | rfl | cases h

theorem layout? (h : event.Apart) : event.layout? = none := by
  obtain ⟨call, result⟩ := event
  cases call <;> first | rfl | cases h

end Event.Apart

theorem Event.Apart.calls : BackingCalls (Extends Event.Apart) where
  allocateBuffer := .onAllocator fun _ => rfl
  allocateImage := .onAllocator fun _ => rfl
  transferImage := .onAllocator fun _ => rfl
  createView := .onDevice fun _ => rfl
  createSampler := .onDevice fun _ => rfl
  destroy := .destroy (fun _ _ _ => rfl) _ _
  deallocate := .deallocate (fun _ _ _ => rfl) _ _

namespace Binder

theorem leaves_destroyLayouts (layouts : List SetLayout) :
    (destroyLayouts layouts : Native ε Unit).Leaves (Extends Event.Apart) b :=
  .forM (fun _ _ => .destroy (fun _ _ _ => rfl) _ _) _ _

theorem leaves_makeLayouts (bindings : List (List LayoutBinding)) :
    (makeLayouts bindings).Leaves (Extends fun event => event.call.onPool = false) b := by
  refine .makeAll (fun bindings b => ?_) (fun layout b => ?_) _ b
  · exact .bind (.mapError (.onDevice fun _ => rfl)) fun _ _ _ => .pure _
  · exact .destroy (fun _ _ _ => rfl) _ _

end Binder

namespace Device

variable {d : Device}

theorem Valid.setsOf_create (h : d.Valid) (capacity : Nat) (sizes : List PoolSize) :
    (d.create (.pool capacity sizes)).2.setsOf d.next = [] := by
  simp only [setsOf, create, List.filter_append, List.map_append, List.append_eq_nil_iff]
  constructor
  · rw [List.map_eq_nil_iff, List.filter_eq_nil_iff]
    rintro ⟨handle, object⟩ hmem hset
    obtain rfl : object = .set d.next := by simpa using hset
    obtain ⟨entry, hentry, hnext⟩ := List.mem_map.mp (h.pool_live _ _ hmem)
    have hlt := h.lt_next entry (List.mem_of_mem_filter hentry)
    omega
  · simp

theorem Valid.object?_create (h : d.Valid) (object : DeviceObject) :
    (d.create object).2.object? d.next = some object := by
  have hnew : d.objects.find? (·.1 = d.next) = none := by
    rw [List.find?_eq_none]
    intro entry hmem heq
    have hlt := h.lt_next entry hmem
    simp at heq
    omega
  simp [object?, create, hnew]

end Device

namespace Native

theorem allocateSets_of_create {capacity pool : Nat} {sizes : List PoolSize} {layouts : List Nat}
    (hb : b.Valid) (hpool : (createPool capacity sizes).exec b = (.ok pool, b'))
    (hroom : layouts.length ≤ capacity) (error : DeviceError) :
    b'.device.allocateSets pool layouts ≠ .error (.error error) := by
  have hstep := (exec_onDevice_eq_ok hpool).1
  unfold Device.createPool at hstep
  split at hstep
  · cases hstep
  · have hcreate : b.device.create (.pool capacity sizes) = (pool, b'.device) :=
      Except.ok.inj hstep
    have hnext : b.device.next = pool := congrArg Prod.fst hcreate
    have hobject := hb.device.object?_create (.pool capacity sizes)
    have hsets := hb.device.setsOf_create capacity sizes
    rw [hcreate, hnext] at hobject hsets
    unfold Device.allocateSets
    rw [hobject]
    dsimp only
    rw [hsets, if_neg (by simp; omega)]
    generalize b'.device.createSets pool layouts = r
    intro h
    cases r <;> cases h

end Native

namespace Binder

variable {layout : LayoutMap} {options : BindOptions} {resources : List BoundResource}

/-- What is on record once there are layouts: the pool that was asked for, and the sets, which
are refused only by plan. -/
structure PoolEvent (plan : FailurePlan) (capacity : Nat) (sizes : List PoolSize)
    (event : Event) : Prop where
  layout : event.layout? = none
  pool : ∀ capacity' sizes', event.call = .createPool capacity' sizes' →
    capacity' = capacity ∧ sizes' = sizes
  sets : ∀ pool layouts, event = ⟨.allocateSets pool layouts, .failed⟩ →
    ∃ error, plan.Plans .allocateSets error

theorem PoolEvent.mono {plan plan' : FailurePlan} {capacity : Nat} {sizes : List PoolSize}
    {event : Event} (h : PoolEvent plan capacity sizes event)
    (hplan : ∀ kind error, plan.Plans kind error → plan'.Plans kind error) :
    PoolEvent plan' capacity sizes event :=
  ⟨h.layout, h.pool, fun pool layouts heq => (h.sets pool layouts heq).imp (hplan _)⟩

theorem PoolEvent.of_apart {plan : FailurePlan} {capacity : Nat} {sizes : List PoolSize}
    {event : Event} (h : event.Apart) : PoolEvent plan capacity sizes event := by
  have hpool := h.onPool
  obtain ⟨call, result⟩ := event
  constructor
  · exact h.layout?
  · rintro _ _ rfl
    cases hpool
  · rintro _ _ ⟨⟩
    cases hpool

theorem leaves_allocateSets {capacity pool : Nat} {sizes : List PoolSize} {layouts : List Nat}
    (hb : b.Valid) (hpool : (createPool capacity sizes).exec b = (.ok pool, b'))
    (hroom : layouts.length ≤ capacity) :
    (allocateSets pool layouts).Leaves (Extends (PoolEvent b.failures capacity sizes)) b' := by
  have hplan : b.Extends (fun _ => True) b' := by
    have hleaves : (createPool capacity sizes).Leaves (Extends fun _ => True) b :=
      .onDevice fun _ => trivial
    exact hleaves.rel hpool
  have hcounted := (refl b' : b'.Extends (PoolEvent b.failures capacity sizes) b').counted
    .allocateSets
  refine .get_bind ?_
  split
  · exact .pure _
  · refine .attempt hcounted (fun error herror => hcounted.noted ⟨rfl, nofun, fun _ _ _ => ?_⟩)
      fun sets b₁ h => ?_
    · rcases FailurePlan.plans_of_verdict herror with hplans | hrefused
      · exact ⟨error, hplan.plan _ _ hplans⟩
      · have hdevice := onDevice_eq_error hrefused
        exact absurd hdevice (allocateSets_of_create hb hpool hroom error)
    · obtain ⟨⟨_, device⟩, -, heq⟩ := Except.bind_eq_ok.mp h
      cases heq
      exact .noted ⟨hcounted.record, hcounted.plan⟩ ⟨rfl, nofun, nofun⟩

inductive Pooled (layout : LayoutMap) (options : BindOptions) (resources : List BoundResource)
    (made b' : Backend) : Prop
  | before : made.Extends (fun event => event.call.onPool = false) b' →
      Pooled layout options resources made b'
  | reached {layouts : List SetLayout} {laid : Backend} {counters : PoolSizes} {capacity : Nat}
      {sizes : List PoolSize} :
      (makeLayouts (layoutBindings (setCountOf layout) resources options.builtins)).exec made =
        (.ok layouts, laid) →
      PoolSizes.ofLayoutMap layout = .ok counters →
      maxSets counters (setCountOf layout) options.builtins.length = .ok capacity →
      counters.withBindings options.builtins.flatten = .ok sizes →
      laid.Extends (PoolEvent laid.failures capacity sizes) b' →
      Pooled layout options resources made b'

theorem Pooled.extend {made : Backend} {b₁ b₂ : Backend}
    (h : Pooled layout options resources made b₁) (h' : b₁.Extends Event.Apart b₂) :
    Pooled layout options resources made b₂ := by
  cases h with
  | before hb => exact .before (IsTrans.trans _ _ _ hb (h'.mono fun _ => Event.Apart.onPool))
  | reached hlayouts hcounters hcapacity hsizes hb =>
    exact .reached hlayouts hcounters hcapacity hsizes
      (IsTrans.trans _ _ _ hb (h'.mono fun _ => .of_apart))

theorem le_of_maxSets {counters : PoolSizes} {setCount builtins capacity : Nat}
    (hfew : setCount + builtins < Width.word.bound)
    (h : maxSets counters setCount builtins = .ok capacity) : setCount + builtins ≤ capacity := by
  obtain ⟨total, -, hcapacity⟩ := Except.bind_eq_ok.mp h
  obtain ⟨-, rfl⟩ := Checked.add_eq_ok_iff.mp hcapacity
  have hsets : Width.word.wrap setCount = setCount := Nat.mod_eq_of_lt (by omega)
  have hbuiltins : Width.word.wrap builtins = builtins := Nat.mod_eq_of_lt (by omega)
  omega

theorem length_of_makeLayouts {setCount : Nat} {builtins : List (List LayoutBinding)}
    {layouts : List SetLayout}
    (h : (makeLayouts (layoutBindings setCount resources builtins)).exec b = (.ok layouts, b')) :
    layouts.length = setCount + builtins.length := by
  have hlength := congrArg List.length (layouts_of_makeLayouts h).1
  simpa [layoutBindings] using hlength

theorem leaves_pool {α : Type} (hb : b.Valid) {capacity : Nat} {sizes : List PoolSize}
    {layouts : List Nat} (hroom : layouts.length ≤ capacity)
    {rest : Nat → List DescriptorSet → Native BindError α}
    (hrest : ∀ pool sets b₁, (rest pool sets).Leaves
      (Extends (PoolEvent b.failures capacity sizes)) b₁) :
    (do
      let pool ← mapError BindError.device (createPool capacity sizes)
      withUndo (destroy .pool pool) do
        let sets ← mapError BindError.device (allocateSets pool layouts)
        rest pool sets).Leaves (Extends (PoolEvent b.failures capacity sizes)) b := by
  have hpool (r : CallResult) :
      PoolEvent b.failures capacity sizes ⟨.createPool capacity sizes, r⟩ :=
    ⟨rfl, by rintro _ _ ⟨⟩; exact ⟨rfl, rfl⟩, nofun⟩
  refine .bind (.mapError (.onDevice hpool)) fun pool b₁ hexec => ?_
  refine .withUndo ?_ fun _ => .destroy (fun _ _ _ => .of_apart rfl) _ _
  refine .bind (.mapError ?_) fun sets b₂ _ => hrest pool sets b₂
  exact leaves_allocateSets hb (exec_mapError_eq_ok.mp hexec) hroom

/-- Whatever comes of a bind, the pool is asked for after all layouts are made, or not at all. -/
theorem leaves_bind (hb : b.Valid)
    (hfew : setCountOf layout + options.builtins.length < Width.word.bound) :
    (bind layout options).Leaves (fun b b' => b.Extends Event.Apart b' ∨
      ∃ pixels resources made, (makeResources options pixels layout).exec b =
        (.ok resources, made) ∧ Pooled layout options resources made b') b := by
  refine .ofChecked_bind (.inl (refl b)) fun counters hcounters => ?_
  refine .ofChecked_bind (.inl (refl b)) fun pixels _ => ?_
  have hresources := leaves_makeResources (b := b) Event.Apart.calls.fresh options pixels layout
  refine .bind_of (fun _ _ h => .inl (hresources.rel h)) fun resources made hmade => ?_
  have hvalid := ((makes_makeResources options pixels layout hb).of_ok hmade).1.valid
  refine Leaves.mono (R := fun _ => Pooled layout options resources made) ?_
    fun _ h => .inr ⟨pixels, resources, made, hmade, h⟩
  refine .withUndo_of ?_ (fun _ => leaves_disposeResources Event.Apart.calls.fresh resources)
    fun _ _ => Pooled.extend
  refine .ofExcept_bind (.before (refl made)) fun _ _ => ?_
  refine .bind_of (fun _ _ h => .before ((leaves_makeLayouts _).rel h)) fun layouts laid hlaid => ?_
  have hvalid' := ((makes_makeLayouts _ hvalid).of_ok hlaid).1.valid
  refine .withUndo_of ?_ (fun _ => leaves_destroyLayouts layouts) fun _ _ => Pooled.extend
  have hbefore : Pooled layout options resources made laid :=
    .before ((leaves_makeLayouts _).rel hlaid)
  refine .ofChecked_bind hbefore fun capacity hcapacity => ?_
  refine .ofChecked_bind hbefore fun sizes hsizes => ?_
  have hroom : (layouts.map (·.handle)).length ≤ capacity := by
    rw [List.length_map, length_of_makeLayouts hlaid]
    exact le_of_maxSets hfew hcapacity
  refine Leaves.mono (leaves_pool hvalid' hroom fun pool sets b => ?_) fun b' h =>
    Pooled.reached hlaid hcounters hcapacity hsizes h
  refine .ofExcept_bind (refl b) fun writes _ => ?_
  exact .bind (.updateSets fun _ => ⟨rfl, nofun, nofun⟩) fun _ _ _ => .pure _

theorem demand_resources (type : DescriptorType) (resources : List BoundResource) :
    demand type (resources.map (·.layoutBinding)) = resources.countP (·.type = type) := by
  induction resources with
  | nil => rfl
  | cons bound rest ih =>
    rw [List.map_cons, demand_cons, List.countP_cons, ih, Nat.add_comm]
    simp only [decide_eq_true_eq]
    rfl

theorem countP_lt_succ {α : Type} (f : α → Nat) (p : α → Bool) (n : Nat) (xs : List α) :
    xs.countP (fun x => p x && f x < n + 1) =
      xs.countP (fun x => p x && f x < n) + xs.countP (fun x => p x && f x = n) := by
  induction xs with
  | nil => rfl
  | cons x rest ih =>
    rw [List.countP_cons, List.countP_cons, List.countP_cons, ih]
    cases p x with
    | false => simp
    | true =>
      simp only [Bool.true_and, decide_eq_true_eq]
      split <;> split <;> split <;> omega

theorem demand_shader (type : DescriptorType) (resources : List BoundResource) (n : Nat) :
    demand type ((List.range n).map fun index =>
      (resources.filter (·.key.set = index)).map (·.layoutBinding)).flatten =
      resources.countP fun bound => bound.type = type && bound.key.set < n := by
  induction n with
  | zero => simp [demand]
  | succ n ih =>
    rw [List.range_succ, List.map_append, List.flatten_append, demand_append, ih,
      countP_lt_succ]
    simp only [List.map_cons, List.map_nil, List.flatten_singleton]
    rw [demand_resources, List.countP_filter]

theorem mem_countedAs {resource : Resource} {category : Category} {type : DescriptorType}
    (hcategory : resource.category? = some category)
    (htype : DescriptorType.ofResource? resource = some type) :
    type ∈ PoolSizes.countedAs category := by
  rw [DescriptorType.ofResource?, hcategory] at htype
  cases htype
  cases category <;> decide

/-- What the resources demand of a type is counted. -/
theorem countP_resources_le {pixels : Bytes} {counters : PoolSizes}
    (hresources : (makeResources options pixels layout).exec b = (.ok resources, b'))
    (hcounters : PoolSizes.ofLayoutMap layout = .ok counters) (type : DescriptorType) :
    resources.countP (·.type = type) ≤ counters.get type := by
  obtain ⟨steps, hsteps, rfl, -⟩ := made_of_makeResources hresources
  have htypes : (layout.entries.map fun entry => DescriptorType.ofResource? entry.2) =
      (steps.map (·.1)).map fun bound => some bound.type := by
    rw [List.map_map]
    exact map_eq_map_of_forall₂ hsteps fun _ _ h => h.type
  have hcount := congrArg (List.countP (· = some type)) htypes
  rw [List.countP_map, List.countP_map] at hcount
  have hcounted : layout.entries.countP (fun entry => DescriptorType.ofResource? entry.2 =
      some type) ≤ (layout.resources.filterMap (·.category?)).countP
        (type ∈ PoolSizes.countedAs ·) := by
    rw [List.countP_filterMap, LayoutMap.resources, List.countP_map]
    apply List.countP_mono_left
    intro entry _ htype
    have htype : DescriptorType.ofResource? entry.2 = some type := of_decide_eq_true htype
    obtain ⟨category, hcategory, -⟩ := Option.map_eq_some_iff.mp htype
    simp [hcategory, mem_countedAs hcategory htype]
  rw [PoolSizes.get_ofLayoutMap hcounters]
  calc (steps.map (·.1)).countP (·.type = type)
      = layout.entries.countP (fun entry => DescriptorType.ofResource? entry.2 = some type) := by
        rw [Function.comp_def] at hcount
        simpa [Function.comp_def] using hcount.symm
    _ ≤ _ := hcounted
    _ ≤ _ := Nat.le_add_left _ _

/-- A pool has at most one entry per type, and room for each binding and for all layouts. -/
structure Provides (maxSets : Nat) (sizes : List PoolSize) (layouts : List SetLayout) : Prop where
  nodup : (sizes.map (·.type)).Nodup
  entry : ∀ type, 0 < demand type (layouts.flatMap (·.bindings)) →
    ∃ size ∈ sizes, size.type = type ∧ demand type (layouts.flatMap (·.bindings)) ≤ size.count
  sets : layouts.length ≤ maxSets

variable {pixels : Bytes} {made laid : Backend} {layouts : List SetLayout} {counters : PoolSizes}
  {capacity : Nat} {sizes : List PoolSize}

/-- The counters and the bindings of the built-in layouts cover what all layouts demand. -/
theorem demand_le_supply
    (hresources : (makeResources options pixels layout).exec b = (.ok resources, made))
    (hlayouts : (makeLayouts (layoutBindings (setCountOf layout) resources
      options.builtins)).exec made = (.ok layouts, laid))
    (hcounters : PoolSizes.ofLayoutMap layout = .ok counters)
    (hsizes : counters.withBindings options.builtins.flatten = .ok sizes) (type : DescriptorType) :
    demand type (layouts.flatMap (·.bindings)) ≤ supply type sizes := by
  rw [List.flatMap_def, (layouts_of_makeLayouts hlayouts).1, layoutBindings, List.flatten_append,
    demand_append, demand_shader, (PoolSizes.withBindings_eq_ok hsizes).2]
  apply Nat.add_le_add_right
  calc resources.countP (fun bound => bound.type = type && bound.key.set < setCountOf layout)
      ≤ resources.countP (·.type = type) :=
        List.countP_mono_left fun _ _ h => (Bool.and_eq_true_iff.mp h).1
    _ ≤ counters.get type := countP_resources_le hresources hcounters type

theorem provides_of_layouts
    (hfew : setCountOf layout + options.builtins.length < Width.word.bound)
    (hresources : (makeResources options pixels layout).exec b = (.ok resources, made))
    (hlayouts : (makeLayouts (layoutBindings (setCountOf layout) resources
      options.builtins)).exec made = (.ok layouts, laid))
    (hcounters : PoolSizes.ofLayoutMap layout = .ok counters)
    (hcapacity : maxSets counters (setCountOf layout) options.builtins.length = .ok capacity)
    (hsizes : counters.withBindings options.builtins.flatten = .ok sizes) :
    Provides capacity sizes layouts where
  nodup := (PoolSizes.withBindings_eq_ok hsizes).1
  entry type hpos := by
    have hle := demand_le_supply hresources hlayouts hcounters hsizes type
    obtain ⟨size, hmem, htype, hcount⟩ :=
      exists_of_supply (PoolSizes.withBindings_eq_ok hsizes).1 (Nat.lt_of_lt_of_le hpos hle)
    exact ⟨size, hmem, htype, hcount.symm ▸ hle⟩
  sets := by
    rw [length_of_makeLayouts hlayouts]
    exact le_of_maxSets hfew hcapacity

/-- The events of asking for a pool and taking sets from it, in what a bind leaves on record. -/
structure PoolSuffices (layout : LayoutMap) (options : BindOptions) (plan : FailurePlan)
    (events : List Event) : Prop where
  pool : ∀ maxSets sizes r, ⟨.createPool maxSets sizes, r⟩ ∈ events →
    (events.filterMap Event.layout?).length = setCountOf layout + options.builtins.length ∧
      Provides maxSets sizes (events.filterMap Event.layout?)
  sets : ∀ pool layouts, ⟨.allocateSets pool layouts, .failed⟩ ∈ events →
    ∃ error, plan.Plans .allocateSets error

theorem PoolSuffices.of_no_pool {plan : FailurePlan} {events : List Event}
    (h : ∀ event ∈ events, event.call.onPool = false) :
    PoolSuffices layout options plan events where
  pool _ _ _ hmem := absurd (h _ hmem) nofun
  sets _ _ hmem := absurd (h _ hmem) nofun

theorem PoolSuffices.of_reached {plan : FailurePlan} {before after : List Event}
    (hbefore : ∀ event ∈ before, event.Apart)
    (hafter : ∀ event ∈ after, PoolEvent plan capacity sizes event)
    (hlength : layouts.length = setCountOf layout + options.builtins.length)
    (hprovides : Provides capacity sizes layouts) :
    PoolSuffices layout options plan (before ++ (layouts.map (·.event) ++ after)) := by
  have hlayouts : (before ++ (layouts.map (·.event) ++ after)).filterMap Event.layout? =
      layouts := by
    have hmade : (layouts.map (·.event)).filterMap Event.layout? = layouts := by
      rw [List.filterMap_map]
      exact List.filterMap_some
    rw [List.filterMap_append, List.filterMap_append, hmade,
      List.filterMap_eq_nil_iff.mpr fun event hmem => (hbefore event hmem).layout?,
      List.filterMap_eq_nil_iff.mpr fun event hmem => (hafter event hmem).layout,
      List.nil_append, List.append_nil]
  have hmem {event : Event} (hpool : event.call.onPool = true)
      (h : event ∈ before ++ (layouts.map (·.event) ++ after)) : event ∈ after := by
    rcases List.mem_append.mp h with h | h
    · rw [(hbefore event h).onPool] at hpool
      cases hpool
    · rcases List.mem_append.mp h with h | h
      · obtain ⟨layout, -, rfl⟩ := List.mem_map.mp h
        cases hpool
      · exact h
  constructor
  · intro maxSets sizes' r h
    obtain ⟨rfl, rfl⟩ := (hafter _ (hmem rfl h)).pool _ _ rfl
    rw [hlayouts]
    exact ⟨hlength, hprovides⟩
  · intro pool layouts h
    exact (hafter _ (hmem rfl h)).sets _ _ rfl

/--
Whatever comes of a bind, a pool that it has asked for provides for all the layouts that it has
made: one per set index and built-in list. So the sets are never refused but by plan.
-/
theorem bind_pool_suffices (hb : b.Valid)
    (hfew : setCountOf layout + options.builtins.length < Width.word.bound)
    {result : Outcome BindError Binder} (h : (bind layout options).exec b = (result, b')) :
    ∃ events, b'.trace = b.trace ++ events ∧ PoolSuffices layout options b.failures events := by
  have hnone (h : b.Extends (fun event => event.call.onPool = false) b') :
      ∃ events, b'.trace = b.trace ++ events ∧
        PoolSuffices layout options b.failures events := by
    obtain ⟨events, htrace, hevents⟩ := h.record
    exact ⟨events, htrace, .of_no_pool hevents⟩
  rcases (leaves_bind hb hfew).rel h with hapart | ⟨pixels, resources, made, hmade, hpooled⟩
  · exact hnone (hapart.mono fun _ => Event.Apart.onPool)
  · have hresources := (leaves_makeResources Event.Apart.calls.fresh options pixels layout).rel hmade
    cases hpooled with
    | before hbefore =>
      exact hnone (IsTrans.trans _ _ _ (hresources.mono fun _ => Event.Apart.onPool) hbefore)
    | @reached layouts laid counters capacity sizes hlayouts hcounters hcapacity hsizes hreached =>
      have hlaid := (leaves_makeLayouts _).rel hlayouts
      obtain ⟨before, hbefore, hapart⟩ := hresources.record
      obtain ⟨after, hafter, hevents⟩ := hreached.record
      have hevents' : ∀ event ∈ after, PoolEvent b.failures capacity sizes event :=
        fun event hmem => (hevents event hmem).mono fun kind error hplans =>
          hresources.plan _ _ (hlaid.plan _ _ hplans)
      refine ⟨before ++ (layouts.map (·.event) ++ after), ?_, .of_reached hapart hevents'
        (length_of_makeLayouts hlayouts)
        (provides_of_layouts hfew hmade hlayouts hcounters hcapacity hsizes)⟩
      rw [hafter, (layouts_of_makeLayouts hlayouts).2, hbefore, List.append_assoc,
        List.append_assoc]

/-- Two set indices are not declared, and the type of a built-in binding has no counter. -/
theorem bind_pool_suffices_gap :
    let layout := LayoutMap.empty.put ⟨2, 0⟩
      ⟨"block", .descriptor 2 0 .empty .uniformBuffer, .vector .float 4 16⟩ rfl
    let options : BindOptions :=
      { builtins := [[⟨0, .sampler, 3, .empty⟩, ⟨1, .uniformBuffer, 2, .empty⟩]]
        placeholder := { width := 1, height := 1 } }
    let sizes : List PoolSize := [⟨.uniformBuffer, 4⟩, ⟨.uniformBufferDynamic, 2⟩,
      ⟨.storageBuffer, 1⟩, ⟨.storageBufferDynamic, 1⟩, ⟨.combinedImageSampler, 1⟩,
      ⟨.storageImage, 1⟩, ⟨.sampler, 3⟩]
    ∃ result b', (bind layout options).exec {} = (result, b') ∧
      ⟨.createPool 9 sizes, .handle 4⟩ ∈ b'.trace ∧
      Provides 9 sizes (b'.trace.filterMap Event.layout?) := by
  intro layout options sizes
  have hpool : ⟨.createPool 9 sizes, .handle 4⟩ ∈ ((bind layout options).exec {}).2.trace := by
    decide +kernel
  have hfew : setCountOf layout + options.builtins.length < Width.word.bound := by
    decide +kernel
  rcases hexec : (bind layout options).exec {} with ⟨result, b'⟩
  rw [hexec] at hpool
  obtain ⟨events, htrace, hsuffices⟩ := bind_pool_suffices Backend.valid_empty hfew hexec
  obtain rfl : b'.trace = events := htrace.trans (List.nil_append _)
  exact ⟨result, b', rfl, hpool, (hsuffices.pool 9 sizes _ hpool).2⟩

end Binder

end ShaderBinding
