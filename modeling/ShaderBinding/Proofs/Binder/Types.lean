import ShaderBinding.Proofs.Binder.Intact
import ShaderBinding.Proofs.Binder.Limits

/-! # One descriptor type everywhere

A layout, a write, the counters of a pool and the checks of limits each find the type of a
descriptor in their own way: from the type that was noted, from the backing, or from the category.
They agree from the bind on, since a replaced image has a sampler exactly if the old one had.
-/

namespace ShaderBinding

open Native Backend

namespace PoolSizes

theorem mem_countedAs_iff {type : DescriptorType} {category other : Category}
    (h : type ∈ countedAs category) : type ∈ countedAs other ↔ other = category := by
  revert h
  cases category <;> cases other <;> cases type <;> decide

theorem get_of_mem_countedAs {layout : LayoutMap} {sizes : PoolSizes}
    (h : ofLayoutMap layout = .ok sizes) {category : Category} {type : DescriptorType}
    (htype : type ∈ countedAs category) : sizes.get type = 1 + layout.count category := by
  have hbaseline : baseline.get type = 1 := by
    revert htype
    cases category <;> cases type <;> decide
  rw [get_ofLayoutMap h, hbaseline, LayoutMap.count, List.countP_filterMap]
  congr 2
  funext resource
  cases hcategory : resource.category? with
  | none => rfl
  | some other => simp [mem_countedAs_iff htype]

end PoolSizes

namespace Binder

variable {layout : LayoutMap} {options : BindOptions} {binder changed : Binder} {b b' : Backend}

/-- The counters of a category, in a pool and in the checks of limits. -/
structure Counted (layout : LayoutMap) (options : BindOptions) (sizes : PoolSizes)
    (category : Category) : Prop where
  pool : ∀ type ∈ PoolSizes.countedAs category, sizes.get type = 1 + layout.count category
  limits : ∀ kind count limit, (kind, count, limit) ∈ limitChecks layout options →
    kind.category? = some category → count = layout.count category ∧ count ≤ limit
  checked : ∃ kind limit, kind.category? = some category ∧
    (kind, layout.count category, limit) ∈ limitChecks layout options

theorem checkLimits_of_bind (h : (bind layout options).exec b = (.ok binder, b')) :
    checkLimits layout options = .ok () := by
  obtain ⟨_, _, -, h₁⟩ := exec_bind_eq_ok.mp h
  obtain ⟨_, _, -, h₂⟩ := exec_bind_eq_ok.mp h₁
  obtain ⟨_, _, -, h₃⟩ := exec_bind_eq_ok.mp h₂
  obtain ⟨_, _, hlimits, -⟩ := exec_bind_eq_ok.mp (exec_withUndo_eq_ok.mp h₃)
  exact (exec_ofExcept_eq_ok.mp hlimits).1

theorem mem_limitChecks {kind : LimitKind} {category : Category}
    (hcategory : kind.category? = some category) {count limit : Nat} :
    (kind, count, limit) ∈ limitChecks layout options ↔
      count = layout.count category ∧ limit = kind.limit options.limits := by
  have hcount : exactCount layout options kind = layout.count category := by
    rw [exactCount, hcategory]
  have hcounted : kind.category? ≠ none := by
    rw [hcategory]
    exact Option.some_ne_none category
  rw [limitChecks_eq, List.mem_map]
  constructor
  · rintro ⟨_, -, heq⟩
    cases heq
    rw [if_neg hcounted, hcount]
    exact ⟨rfl, rfl⟩
  · rintro ⟨rfl, rfl⟩
    exact ⟨kind, kind.mem_all, by rw [if_neg hcounted, hcount]⟩

theorem counted_of_bind (h : (bind layout options).exec b = (.ok binder, b'))
    (category : Category) : Counted layout options binder.poolSizes category := by
  obtain ⟨built⟩ := built_of_bind h
  refine ⟨fun type => PoolSizes.get_of_mem_countedAs built.poolSizes, ?_, ?_⟩
  · intro kind count limit hmem hcategory
    have hchecked := checkLimits_of_bind h
    unfold checkLimits at hchecked
    split at hchecked
    · cases hchecked
    rename_i hnone
    have hle := List.find?_eq_none.mp hnone _ hmem
    exact ⟨((mem_limitChecks hcategory).mp hmem).1, by simpa using hle⟩
  · have hkind : ∃ kind : LimitKind, kind.category? = some category := by
      cases category
      · exact ⟨.uniformBuffers, rfl⟩
      · exact ⟨.storageBuffers, rfl⟩
      · exact ⟨.sampledImages, rfl⟩
      · exact ⟨.storageImages, rfl⟩
    obtain ⟨kind, hcategory⟩ := hkind
    exact ⟨kind, _, hcategory, (mem_limitChecks hcategory).mpr ⟨rfl, rfl⟩⟩

def Targets (binder : Binder) (bound : BoundResource) (write : DescriptorWrite) : Prop :=
  shaderSet? binder.setCount binder.sets bound.key.set = some write.set ∧
    write.binding = bound.key.binding

def Agrees (binder : Binder) (event : Event) : Prop :=
  ∀ writes, event.update? = some writes → ∀ write ∈ writes,
    ∃ bound ∈ binder.resources, binder.Targets bound write ∧ write.descriptor.type = bound.type

structure Typed (binder : Binder) : Prop extends Sound binder where
  type : ∀ bound ∈ binder.resources, bound.descriptor.type = bound.type

theorem agrees_of_update? {event : Event} (h : event.update? = none) : binder.Agrees event :=
  fun writes hwrites => by
    rw [h] at hwrites
    cases hwrites

theorem Agrees.calls : BackingCalls (Extends (Agrees binder)) where
  allocateBuffer := .onAllocator fun _ => agrees_of_update? rfl
  allocateImage := .onAllocator fun _ => agrees_of_update? rfl
  transferImage := .onAllocator fun _ => agrees_of_update? rfl
  createView := .onDevice fun _ => agrees_of_update? rfl
  createSampler := .onDevice fun _ => agrees_of_update? rfl
  destroy := .destroy (fun _ _ _ => agrees_of_update? rfl) _ _
  deallocate := .deallocate (fun _ _ _ => agrees_of_update? rfl) _ _

/-- An image with a sampler is replaced by one with a sampler, and one without by one without. -/
theorem type_descriptor_replaced {bound : BoundResource} {allocation allocation' : Allocation}
    {info info' : ImageInfo} {view view' : Nat} {sampler sampler' : Option Nat}
    (htype : bound.descriptor.type = bound.type)
    (himage : bound.backing = .image allocation info view sampler)
    (hsampler : sampler'.isSome = sampler.isSome) :
    (BoundResource.descriptor
      { bound with backing := .image allocation' info' view' sampler' }).type = bound.type := by
  rw [← htype]
  unfold BoundResource.descriptor
  rw [himage]
  cases sampler <;> cases sampler' <;> first | rfl | cases hsampler

namespace SameLayout

theorem symm (h : binder.SameLayout changed) : changed.SameLayout binder :=
  ⟨h.setCount.symm, h.layouts.symm, h.pool.symm, h.sets.symm, h.poolSizes.symm, h.resources.symm⟩

theorem exists_bound (h : binder.SameLayout changed) {bound : BoundResource}
    (hmem : bound ∈ binder.resources) : ∃ other ∈ changed.resources,
      other.key = bound.key ∧ other.resource = bound.resource ∧ other.type = bound.type := by
  have hfound : (bound.key, bound.resource, bound.type) ∈
      changed.resources.map fun bound => (bound.key, bound.resource, bound.type) :=
    h.resources ▸ List.mem_map_of_mem hmem
  obtain ⟨other, hother, heq⟩ := List.mem_map.mp hfound
  simp only [Prod.mk.injEq] at heq
  exact ⟨other, hother, heq⟩

theorem agrees (h : binder.SameLayout changed) {event : Event} (ha : binder.Agrees event) :
    changed.Agrees event := by
  intro writes hwrites write hwrite
  obtain ⟨bound, hmem, ⟨hset, hbinding⟩, htype⟩ := ha writes hwrites write hwrite
  obtain ⟨other, hother, hkey, -, hother'⟩ := h.exists_bound hmem
  refine ⟨other, hother, ⟨?_, ?_⟩, htype.trans hother'.symm⟩
  · rw [h.setCount, h.sets, hkey, hset]
  · rw [hkey, hbinding]

end SameLayout

namespace Typed

theorem leaves_op (h : Typed binder) (edit : Edit) :
    (edit.op binder).Leaves (Extends (Agrees binder)) b := by
  cases edit with
  | write key offset data =>
    refine .bind (Binder.leaves_writeBuffer fun bound allocation _ _ => ?_) fun _ _ _ => .pure _
    refine leaves_writeBytes (fun _ _ _ => ?_) (fun _ _ _ => .of_eq rfl rfl) fun _ => ?_
    · exact .onAllocator fun _ => agrees_of_update? rfl
    · exact .performAllocator (agrees_of_update? rfl)
  | replace key info pixels =>
    refine .ofExcept_bind (refl b) fun bound hfind => ?_
    obtain ⟨hmem, rfl⟩ := mem_of_find hfind
    cases hbacking : bound.backing with
    | buffer => exact .fail _
    | image allocation old view sampler =>
      refine .bind (.mapError (.onDevice fun _ => agrees_of_update? rfl)) fun _ b₁ _ => ?_
      refine .bind (Backing.leaves_makeImage Agrees.calls.fresh _ _ _ _) fun backing b₂ hmake => ?_
      obtain ⟨allocation', view', sampler', rfl, hsampler, -⟩ := Backing.makeImage_eq_ok hmake
      refine .ofExcept_bind (refl b₂) fun write hwriteOf => ?_
      obtain ⟨hset, hwrite⟩ := writeOf_eq_ok hwriteOf
      refine .bind (.updateSets fun _ writes hwrites => ?_) fun _ b₃ _ => ?_
      · cases hwrites
        intro other hother
        obtain rfl := List.mem_singleton.mp hother
        refine ⟨bound, hmem, ⟨hset, congrArg (·.binding) hwrite⟩, ?_⟩
        rw [hwrite]
        exact type_descriptor_replaced (h.type bound hmem) hbacking hsampler
      · exact .bind (Backing.leaves_dispose Agrees.calls.fresh _) fun _ _ _ => .pure _

theorem of_op (h : Typed binder) {edit : Edit}
    (hexec : (edit.op binder).exec b = (.ok changed, b')) :
    binder.SameLayout changed ∧ Typed changed := by
  cases edit with
  | write key offset data =>
    obtain ⟨_, _, -, hdone⟩ := exec_bind_eq_ok.mp hexec
    cases hdone
    exact ⟨.refl _, h⟩
  | replace key info pixels =>
    obtain ⟨replaced⟩ := replaced_of_replaceImage hexec
    obtain ⟨allocation, view, sampler, hbacking, hsampler, -⟩ := replaced.trace_eq
    rw [replaced.changed_eq]
    refine ⟨.setBacking binder key replaced.backing, h.setBacking key replaced.backing, ?_⟩
    intro bound hmem
    rcases Intact.mem_setBacking h.toSound replaced.find hmem with rfl | ⟨hmem, -⟩
    · have htype := h.type _ (mem_of_find replaced.find).1
      rw [hbacking]
      exact type_descriptor_replaced htype replaced.image hsampler
    · exact h.type bound hmem

theorem make (h : Typed binder) {edit : Edit}
    (hmake : Edit.make (binder, b) edit = .ok (changed, b')) :
    binder.SameLayout changed ∧ Typed changed ∧ b.Extends (Agrees binder) b' := by
  have hleaves := h.leaves_op edit (b := b)
  unfold Edit.make at hmake
  rcases hexec : (edit.op binder).exec b with ⟨(fault | e) | after, b₁⟩ <;>
    rw [hexec] at hmake <;> cases hmake
  · exact ⟨.refl _, h, hleaves.rel hexec⟩
  · obtain ⟨hsame, htyped⟩ := h.of_op hexec
    exact ⟨hsame, htyped, hleaves.rel hexec⟩

theorem makeAll (h : Typed binder) {edits : List Edit}
    (hmake : Edit.makeAll edits (binder, b) = .ok (changed, b')) :
    binder.SameLayout changed ∧ Typed changed ∧ b.Extends (Agrees binder) b' := by
  induction edits generalizing binder b with
  | nil =>
    cases hmake
    exact ⟨.refl _, h, refl _⟩
  | cons edit rest ih =>
    obtain ⟨⟨middle, b₁⟩, hmiddle, hrest⟩ := Except.bind_eq_ok.mp hmake
    obtain ⟨hsame, htyped, hrecord⟩ := h.make hmiddle
    obtain ⟨hsame', htyped', hrecord'⟩ := ih htyped hrest
    exact ⟨hsame.trans hsame', htyped', IsTrans.trans _ _ _ hrecord
      (hrecord'.mono fun _ => hsame.symm.agrees)⟩

end Typed

theorem typed_of_bind (h : (bind layout options).exec b = (.ok binder, b')) : Typed binder := by
  obtain ⟨built⟩ := built_of_bind h
  refine ⟨sound_of_bind h, fun bound hmem => ?_⟩
  obtain ⟨write, -, hwrites⟩ := exists_right_of_forall₂ (writes_of_built built) hmem
  rw [← hwrites.descriptor]
  exact hwrites.type

/-- Everything about a bound resource has the type of its entry. -/
structure OneType (layout : LayoutMap) (binder : Binder) (events : List Event)
    (bound : BoundResource) : Prop where
  entry : (bound.key, bound.resource) ∈ layout.entries
  type : DescriptorType.ofResource? bound.resource = some bound.type
  declared : ∃ setLayout, binder.layouts[bound.key.set]? = some setLayout ∧
    (∃ slot ∈ setLayout.bindings, slot.binding = bound.key.binding) ∧
    ∀ slot ∈ setLayout.bindings, slot.binding = bound.key.binding → slot.type = bound.type
  submitted : ∃ event ∈ events, ∃ writes, event.update? = some writes ∧
    ∃ write ∈ writes, binder.Targets bound write
  written : ∀ event ∈ events, ∀ writes, event.update? = some writes →
    ∀ write ∈ writes, binder.Targets bound write → write.descriptor.type = bound.type
  counted : ∃ category, bound.resource.category? = some category ∧
    bound.type = .ofCategory category ∧ bound.type ∈ PoolSizes.countedAs category

theorem set_lt_of_sound (hs : binder.Sound) {bound : BoundResource}
    (hmem : bound ∈ binder.resources) : bound.key.set < binder.setCount := by
  obtain ⟨set, hset⟩ := hs.set bound hmem
  unfold shaderSet? at hset
  split at hset
  · assumption
  · cases hset

theorem declared_of_built (built : Built layout options b binder b') (hs : binder.Sound)
    {bound : BoundResource} (hmem : bound ∈ binder.resources) :
    ∃ setLayout, binder.layouts[bound.key.set]? = some setLayout ∧
      (∃ slot ∈ setLayout.bindings, slot.binding = bound.key.binding) ∧
      ∀ slot ∈ setLayout.bindings, slot.binding = bound.key.binding → slot.type = bound.type := by
  obtain ⟨setLayout, hlayout, hdeclares⟩ := shader_layout built (set_lt_of_sound hs hmem)
  obtain ⟨entry, hentry, hstands⟩ := exists_left_of_forall₂ (forall₂_resources built) hmem
  have hkey := hstands.key
  refine ⟨setLayout, hlayout, ?_, fun slot hslot hbinding => ?_⟩
  · have hfilter : entry ∈ layout.entries.filter (·.1.set = bound.key.set) :=
      List.mem_filter.mpr ⟨hentry, by simp [hkey]⟩
    obtain ⟨slot, hslot, hslotEntry⟩ := exists_right_of_forall₂ hdeclares hfilter
    exact ⟨slot, hslot, by rw [hslotEntry.binding, hkey]⟩
  · obtain ⟨other, hother, hslotEntry⟩ := exists_left_of_forall₂ hdeclares hslot
    obtain ⟨hother, hset⟩ := List.mem_filter.mp hother
    have hsame : other.1 = entry.1 := by
      rw [← hkey]
      exact congrArg₂ BindingKey.mk (of_decide_eq_true hset)
        (hslotEntry.binding.symm.trans hbinding)
    have htype := hslotEntry.type
    rw [List.inj_on_of_nodup_map layout.nodup_keys hother hentry hsame, hstands.type] at htype
    exact (Option.some_inj.mp htype).symm

theorem eq_of_targets (hs : binder.Sound) (hdistinct : (binder.sets.map (·.id)).Nodup)
    {bound other : BoundResource} (hmem : bound ∈ binder.resources)
    (hother : other ∈ binder.resources) {write : DescriptorWrite}
    (h : binder.Targets bound write) (h' : binder.Targets other write) : bound = other := by
  have hset : bound.key.set = other.key.set := eq_of_shaderSet? hdistinct h.1 h'.1 rfl
  have hkey : bound.key = other.key := congrArg₂ BindingKey.mk hset (h.2.symm.trans h'.2)
  exact List.inj_on_of_nodup_map hs.nodup hmem hother hkey

theorem Writes.targets {bound : BoundResource} {write : DescriptorWrite}
    (h : binder.Writes bound write) (hs : binder.Sound) (hmem : bound ∈ binder.resources) :
    binder.Targets bound write := by
  refine ⟨?_, h.binding⟩
  rw [shaderSet?, if_pos (set_lt_of_sound hs hmem), h.set]

/-- The one update of a bind writes every resource, as what it is. -/
theorem agrees_of_built (built : Built layout options b binder b') (hs : binder.Sound) :
    ∃ events, b'.trace = b.trace ++ events ∧ (∀ event ∈ events, binder.Agrees event) ∧
      ∀ bound ∈ binder.resources, ∃ event ∈ events, ∃ writes, event.update? = some writes ∧
        ∃ write ∈ writes, binder.Targets bound write := by
  obtain ⟨events, htrace, hrecorded⟩ := recorded_of_built built
  obtain ⟨writes, hupdates, hwrites⟩ := hrecorded.update
  refine ⟨events, htrace, fun event hevent others hothers write hwrite => ?_, fun bound hmem => ?_⟩
  · have hothers' : others ∈ events.filterMap Event.update? :=
      List.mem_filterMap.mpr ⟨event, hevent, hothers⟩
    rw [hupdates, List.mem_singleton] at hothers'
    subst hothers'
    obtain ⟨bound, hmem, hbound⟩ := exists_left_of_forall₂ hwrites hwrite
    exact ⟨bound, hmem, hbound.targets hs hmem, hbound.type⟩
  · have hupdate : writes ∈ events.filterMap Event.update? := hupdates ▸ List.mem_singleton_self _
    obtain ⟨event, hevent, hwritten⟩ := List.mem_filterMap.mp hupdate
    obtain ⟨write, hwrite, hbound⟩ := exists_right_of_forall₂ hwrites hmem
    exact ⟨event, hevent, writes, hwritten, write, hwrite, hbound.targets hs hmem⟩

theorem SameLayout.oneType (h : binder.SameLayout changed) {events : List Event}
    {bound other : BoundResource} (hone : OneType layout binder events bound)
    (hkey : other.key = bound.key) (hresource : other.resource = bound.resource)
    (htype : other.type = bound.type) : OneType layout changed events other := by
  have htargets (write : DescriptorWrite) :
      changed.Targets other write ↔ binder.Targets bound write := by
    rw [Targets, Targets, h.setCount, h.sets, hkey]
  obtain ⟨hentry, hof, hdeclared, hsubmitted, hwritten, hcounted⟩ := hone
  constructor <;> simp only [hkey, hresource, htype, h.layouts, htargets] <;> assumption

/--
After a bind and however many buffers are written and images replaced, the type of a bound resource
is that of its entry in the layout of its set, in every descriptor that was ever written for it,
and in the counters. A pool is made for one more of each category than the limits were checked for.
-/
theorem bind_edits_one_type {b₁ : Backend} (h : (bind layout options).exec b = (.ok binder, b₁))
    {edits : List Edit} (hrun : Edit.makeAll edits (binder, b₁) = .ok (changed, b')) :
    ∃ events, b'.trace = b.trace ++ events ∧
      (∀ bound ∈ changed.resources, OneType layout changed events bound) ∧
      ∀ category, Counted layout options changed.poolSizes category := by
  obtain ⟨built⟩ := built_of_bind h
  have hs := sound_of_bind h
  obtain ⟨hsame, htyped, hlater⟩ := (typed_of_bind h).makeAll hrun
  obtain ⟨events, hevents, hagrees, hsubmitted⟩ := agrees_of_built built hs
  obtain ⟨later, hmore, hagrees'⟩ := hlater.record
  refine ⟨events ++ later, by rw [hmore, hevents, List.append_assoc], fun bound hmem => ?_,
    hsame.poolSizes ▸ counted_of_bind h⟩
  obtain ⟨old, hold, hkey, hresource, htype⟩ := hsame.symm.exists_bound hmem
  suffices hone : OneType layout binder (events ++ later) old from
    hsame.oneType hone hkey.symm hresource.symm htype.symm
  obtain ⟨entry, hentry, hstands⟩ := exists_left_of_forall₂ (forall₂_resources built) hold
  have hof := hstands.type
  rw [← hstands.resource] at hof
  obtain ⟨category, hcategory, hold'⟩ := Option.map_eq_some_iff.mp hof
  refine ⟨?_, hof, declared_of_built built hs hold, ?_, ?_, category, hcategory, hold'.symm,
    mem_countedAs hcategory hof⟩
  · rw [hstands.key, hstands.resource]
    exact hentry
  · obtain ⟨event, hevent, hwritten⟩ := hsubmitted old hold
    exact ⟨event, List.mem_append_left _ hevent, hwritten⟩
  · intro event hevent writes hwrites write hwrite htargets
    obtain ⟨other, hother, hother', hwritten⟩ :=
      (List.mem_append.mp hevent).elim (hagrees event) (hagrees' event) writes hwrites write hwrite
    rw [eq_of_targets hs (sets_of_built built).2 hold hother htargets hother', hwritten]

/-- The types of all descriptors that were written, update by update. -/
def writtenTypes (trace : List Event) : List (List DescriptorType) :=
  (trace.filterMap Event.update?).map fun writes => writes.map (·.descriptor.type)

/-- A buffer and an image that is replaced: three descriptors are written. -/
theorem bind_edits_one_type_replaced :
    let layout := (LayoutMap.empty.put ⟨0, 0⟩
      ⟨"block", .descriptor 0 0 .empty .storageBuffer, .vector .float 4 16⟩ rfl).put ⟨0, 1⟩
      ⟨"image", .descriptor 0 1 .empty .image, .image ⟨.d2, true, false, false, false, ""⟩⟩ rfl
    let options : BindOptions := { placeholder := { width := 1, height := 1 } }
    let edits : List Edit := [.write ⟨0, 0⟩ 4 [1, 2], .replace ⟨0, 1⟩ { width := 1, height := 2 }
      (Bytes.zeros 8)]
    ∃ binder b₁ changed b', (bind layout options).exec {} = (.ok binder, b₁) ∧
      Edit.makeAll edits (binder, b₁) = .ok (changed, b') ∧
      writtenTypes b'.trace = [[.storageBuffer, .combinedImageSampler], [.combinedImageSampler]] ∧
      (∀ bound ∈ changed.resources, OneType layout changed b'.trace bound) ∧
      Counted layout options changed.poolSizes .sampledImage := by
  intro layout options edits
  have hresult : ((bind layout options).exec {}).1.toOption.map (fun binder =>
      (Edit.makeAll edits (binder, ((bind layout options).exec {}).2)).map
        fun current => writtenTypes current.2.trace) =
      some (.ok [[.storageBuffer, .combinedImageSampler], [.combinedImageSampler]]) := by
    decide +kernel
  rcases hexec : (bind layout options).exec {} with ⟨failure | binder, b₁⟩ <;> rw [hexec] at hresult
  · cases hresult
  obtain ⟨⟨changed, b'⟩, hrun, hwritten⟩ := Except.map_eq_ok.mp (Option.some.inj hresult)
  obtain ⟨events, htrace, hone, hcounted⟩ := bind_edits_one_type hexec hrun
  obtain rfl : b'.trace = events := htrace.trans (List.nil_append _)
  exact ⟨binder, b₁, changed, b', rfl, hrun, hwritten, hone, hcounted _⟩

end Binder

end ShaderBinding
