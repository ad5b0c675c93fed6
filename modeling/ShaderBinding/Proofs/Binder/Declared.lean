import Mathlib.Order.Bounds.Defs
import ShaderBinding.Proofs.Binder.Bound
import ShaderBinding.Proofs.Native.Object

/-! # A bound layout map is the declared one

The layouts of a binder are those of the set indices up to the highest one, then the built-ins.
Every descriptor is written once, to the set at the position of its set index.
-/

namespace ShaderBinding

open Native

namespace Event

def layout? : Event → Option SetLayout
  | ⟨.createLayout bindings, .handle handle⟩ => some ⟨handle, bindings⟩
  | _ => none

def buffer? : Event → Option (Nat × BufferUsage × String)
  | ⟨.allocateBuffer size usage name, _⟩ => some (size, usage, name)
  | _ => none

def update? : Event → Option (List DescriptorWrite)
  | ⟨.updateSets writes, _⟩ => some writes
  | _ => none

end Event

def SetLayout.event (layout : SetLayout) : Event :=
  ⟨.createLayout layout.bindings, .handle layout.handle⟩

namespace Binder.MadeFor

variable {options : BindOptions} {pixels : Bytes} {entry : BindingKey × Resource}
  {bound : BoundResource} {events : List Event}

theorem exists_category (h : MadeFor options pixels entry bound events) :
    ∃ category, entry.2.category? = some category ∧ bound.type = .ofCategory category ∧
      Backing.Made options pixels entry.2 category bound.backing events := by
  obtain ⟨category, hcategory, hmade⟩ := h.made
  have htype := h.type
  rw [DescriptorType.ofResource?, hcategory, Option.map_some, Option.some_inj] at htype
  exact ⟨category, hcategory, htype.symm, hmade⟩

theorem layouts (h : MadeFor options pixels entry bound events) :
    events.filterMap Event.layout? = [] := by
  obtain ⟨_, -, hmade⟩ := h.made
  generalize bound.backing = backing at hmade
  cases hmade <;> rfl

theorem updates (h : MadeFor options pixels entry bound events) :
    events.filterMap Event.update? = [] := by
  obtain ⟨_, -, hmade⟩ := h.made
  generalize bound.backing = backing at hmade
  cases hmade <;> rfl

theorem buffers (h : MadeFor options pixels entry bound events) :
    events.filterMap Event.buffer? = entry.2.bufferRequest?.toList := by
  obtain ⟨category, hcategory, hmade⟩ := h.made
  unfold Resource.bufferRequest?
  rw [hcategory]
  generalize bound.backing = backing at hmade
  cases hmade with
  | buffer husage => simp [husage, Event.buffer?]
  | sampled | storage => rfl

theorem type_descriptor (h : MadeFor options pixels entry bound events) :
    bound.descriptor.type = bound.type := by
  obtain ⟨category, -, htype, hmade⟩ := h.exists_category
  unfold BoundResource.descriptor
  rw [htype]
  generalize bound.backing = backing at hmade ⊢
  cases hmade with
  | buffer husage => cases category <;> cases husage <;> rfl
  | sampled | storage => rfl

end Binder.MadeFor

namespace Native

variable {b b' : Backend}

theorem allocateSets_eq_ok {pool : Nat} {layouts : List Nat} {sets : List DescriptorSet}
    (h : (allocateSets pool layouts).exec b = (.ok sets, b')) :
    (∃ next, sets = Device.setsFrom next layouts) ∧ ∃ events, b'.trace = b.trace ++ events ∧
      (events = [] ∨ events = [⟨.allocateSets pool layouts, .sets sets⟩]) := by
  unfold allocateSets at h
  obtain ⟨_, _, hget, h⟩ := exec_bind_eq_ok.mp h
  cases hget
  split at h
  · rename_i hlenient
    cases h
    have hempty : layouts = [] := by simpa using (Bool.and_eq_true_iff.mp hlenient).2
    exact ⟨⟨0, by rw [hempty]; rfl⟩, [], (List.append_nil _).symm, Or.inl rfl⟩
  · obtain ⟨hstep, htrace⟩ := exec_onDevice_eq_ok h
    exact ⟨⟨_, Device.allocateSets_eq_ok hstep⟩, _, htrace, Or.inr rfl⟩

end Native

theorem getLast?_eraseReps {α : Type} [BEq α] [LawfulBEq α] (xs : List α) :
    xs.eraseReps.getLast? = xs.getLast? := by
  have hloop : ∀ (rest : List α) (x : α) (seen : List α),
      (List.eraseRepsBy.loop (· == ·) x rest seen).getLast? = (x :: rest).getLast? := by
    intro rest
    induction rest with
    | nil => simp [List.eraseRepsBy.loop]
    | cons y rest ih =>
      intro x seen
      unfold List.eraseRepsBy.loop
      split
      · rename_i heq
        rw [ih, eq_of_beq heq, List.getLast?_cons_cons]
      · rw [ih, List.getLast?_cons_cons]
  cases xs with
  | nil => rfl
  | cons x rest => exact hloop rest x []

namespace Binder

theorem setCountOf_eq (layout : LayoutMap) :
    (layout.entries = [] ∧ setCountOf layout = 0) ∨
      ∃ highest, IsGreatest {set | ∃ entry ∈ layout.entries, entry.1.set = set} highest ∧
        setCountOf layout = highest + 1 := by
  unfold setCountOf LayoutMap.setIndices
  rw [getLast?_eraseReps, List.getLast?_map]
  have hsorted := layout.sorted
  rcases List.eq_nil_or_concat layout.entries with hnil | ⟨init, last, hlast⟩
  · rw [hnil]
    exact Or.inl ⟨rfl, rfl⟩
  · rw [List.concat_eq_append] at hlast
    rw [hlast] at hsorted ⊢
    rw [List.getLast?_concat]
    refine Or.inr ⟨last.1.set, ⟨⟨last, by simp, rfl⟩, ?_⟩, rfl⟩
    rintro _ ⟨entry, hmem, rfl⟩
    rcases List.mem_append.mp hmem with hinit | hlast
    · have hlt := (List.pairwise_append.mp hsorted).2.2 entry hinit last List.mem_cons_self
      exact (BindingKey.lt_iff.mp hlt).elim Nat.le_of_lt fun h => h.1.le
    · rw [List.mem_singleton.mp hlast]

/-- A binding of a layout declares an entry of a layout map. -/
structure Declares (entry : BindingKey × Resource) (slot : LayoutBinding) : Prop where
  binding : slot.binding = entry.1.binding
  type : DescriptorType.ofResource? entry.2 = some slot.type
  count : slot.count = 1
  stages : slot.stages = entry.2.stages

theorem StandsFor.declares {entry : BindingKey × Resource} {bound : BoundResource}
    (h : StandsFor entry bound) : Declares entry bound.layoutBinding where
  binding := congrArg (·.binding) h.key
  type := h.type
  count := rfl
  stages := congrArg (·.stages) h.resource

variable {layout : LayoutMap} {options : BindOptions} {b b' : Backend} {binder : Binder}

theorem layouts_of_makeLayouts {bindings : List (List LayoutBinding)} {layouts : List SetLayout}
    (h : (makeLayouts bindings).exec b = (.ok layouts, b')) :
    layouts.map (·.bindings) = bindings ∧ b'.trace = b.trace ++ layouts.map (·.event) := by
  obtain ⟨steps, hsteps, hlayouts, htrace⟩ := makeAll_eq_ok (R := fun bindings setLayout events =>
    setLayout.bindings = bindings ∧ events = [SetLayout.event setLayout])
    (fun bindings setLayout b b' h => by
      obtain ⟨handle, _, hhandle, h⟩ := exec_bind_eq_ok.mp h
      cases h
      exact ⟨_, ⟨rfl, rfl⟩, (exec_onDevice_eq_ok (exec_mapError_eq_ok.mp hhandle)).2⟩) h
  have hevents : steps.flatMap (·.2) = layouts.map (·.event) := by
    rw [hlayouts, List.map_map, List.map_eq_flatMap]
    refine List.flatMap_congr fun step hmem => ?_
    obtain ⟨_, -, hstep⟩ := exists_left_of_forall₂ hsteps hmem
    exact hstep.2
  refine ⟨?_, hevents ▸ htrace⟩
  rw [hlayouts, List.map_map, ← List.map_id bindings]
  exact (map_eq_map_of_forall₂ hsteps fun _ _ h => h.1.symm).symm

theorem layouts_of_built (built : Built layout options b binder b') :
    binder.layouts.map (·.bindings) =
        layoutBindings (setCountOf layout) binder.resources options.builtins ∧
      built.laid.trace = built.made.trace ++ binder.layouts.map (·.event) :=
  layouts_of_makeLayouts built.layouts

theorem length_layouts (built : Built layout options b binder b') :
    binder.layouts.length = binder.setCount + options.builtins.length := by
  have hlength := congrArg List.length (layouts_of_built built).1
  simpa [layoutBindings, built.setCount] using hlength

theorem sets_of_built (built : Built layout options b binder b') :
    binder.sets.map (·.layout) = binder.layouts.map (·.handle) ∧
      (binder.sets.map (·.id)).Nodup := by
  obtain ⟨⟨next, hsets⟩, -⟩ := allocateSets_eq_ok built.sets
  rw [hsets, Device.map_layout_setsFrom, Device.map_id_setsFrom]
  exact ⟨rfl, List.nodup_range'⟩

/-- The layout at a set index has the bindings of the entries of the set, in key order. -/
theorem shader_layout (built : Built layout options b binder b') {index : Nat}
    (hindex : index < binder.setCount) :
    ∃ setLayout, binder.layouts[index]? = some setLayout ∧
      List.Forall₂ Declares (layout.entries.filter (·.1.set = index)) setLayout.bindings := by
  rw [built.setCount] at hindex
  have hbindings := congrArg (·[index]?) (layouts_of_built built).1
  rw [List.getElem?_map, layoutBindings, List.getElem?_append_left (by simpa using hindex),
    List.getElem?_map, List.getElem?_range hindex] at hbindings
  obtain ⟨setLayout, hget, hsetLayout⟩ := Option.map_eq_some_iff.mp hbindings
  refine ⟨setLayout, hget, ?_⟩
  rw [hsetLayout, List.forall₂_map_right_iff]
  refine (List.rel_filter (R := StandsFor) ?_ (forall₂_resources built)).imp fun _ _ h => h.declares
  intro entry bound h
  simp only [h.key]

theorem ascending_of_declares {index : Nat} {slots : List LayoutBinding}
    (h : List.Forall₂ Declares (layout.entries.filter (·.1.set = index)) slots) :
    (slots.map (·.binding)).Pairwise (· < ·) := by
  rw [← map_eq_map_of_forall₂ (f := (·.1.binding)) h fun _ _ h => h.binding.symm,
    List.pairwise_map, List.pairwise_filter]
  refine layout.sorted.imp fun {x y} hlt hx hy => ?_
  simp only [decide_eq_true_eq] at hx hy
  rw [BindingKey.lt_iff] at hlt
  omega

theorem id_notMem_builtinSets (hnodup : (binder.sets.map (·.id)).Nodup) {index : Nat}
    {set : DescriptorSet} (h : shaderSet? binder.setCount binder.sets index = some set) :
    set.id ∉ binder.builtinSets.map (·.id) := by
  unfold shaderSet? at h
  split at h
  · rename_i hindex
    rw [← List.take_append_drop binder.setCount binder.sets, List.map_append] at hnodup
    refine List.disjoint_of_nodup_append hnodup (List.mem_map_of_mem ?_)
    exact List.mem_of_getElem? ((List.getElem?_take_of_lt hindex).trans h)
  · cases h

structure Realizes (layout : LayoutMap) (options : BindOptions) (binder : Binder) : Prop where
  setCount : (layout.entries = [] ∧ binder.setCount = 0) ∨
    ∃ highest, IsGreatest {set | ∃ entry ∈ layout.entries, entry.1.set = set} highest ∧
      binder.setCount = highest + 1
  resources : List.Forall₂ StandsFor layout.entries binder.resources
  ascending : (binder.resources.map (·.key)).Pairwise (· < ·)
  length : binder.layouts.length = binder.setCount + options.builtins.length
  shader : ∀ index < binder.setCount, ∃ setLayout, binder.layouts[index]? = some setLayout ∧
    List.Forall₂ Declares (layout.entries.filter (·.1.set = index)) setLayout.bindings ∧
    (setLayout.bindings.map (·.binding)).Pairwise (· < ·)
  builtin : (binder.layouts.drop binder.setCount).map (·.bindings) = options.builtins
  sets : binder.sets.map (·.layout) = binder.layouts.map (·.handle)
  distinct : (binder.sets.map (·.id)).Nodup
  builtinSets : binder.builtinSets <:+ binder.sets ∧
    binder.builtinSets.length = options.builtins.length

/-- A write makes the set at the position of a resource's set index refer to the resource. -/
structure Writes (binder : Binder) (bound : BoundResource) (write : DescriptorWrite) : Prop where
  set : binder.sets[bound.key.set]? = some write.set
  shader : write.set.id ∉ binder.builtinSets.map (·.id)
  binding : write.binding = bound.key.binding
  descriptor : write.descriptor = bound.descriptor
  type : write.descriptor.type = bound.type

/-- The events of a bind: the layouts made, the buffers asked for and the one update. -/
structure Recorded (layout : LayoutMap) (binder : Binder) (events : List Event) : Prop where
  layouts : events.filterMap Event.layout? = binder.layouts
  buffers : events.filterMap Event.buffer? = layout.entries.filterMap (·.2.bufferRequest?)
  update : ∃ writes, events.filterMap Event.update? = [writes] ∧
    List.Forall₂ binder.Writes binder.resources writes

theorem realizes_of_built (built : Built layout options b binder b') :
    binder.Realizes layout options where
  setCount := built.setCount ▸ setCountOf_eq layout
  resources := forall₂_resources built
  ascending := by
    rw [keys_resources built, List.pairwise_map]
    exact layout.sorted
  length := length_layouts built
  shader index hindex := by
    obtain ⟨setLayout, hget, hdeclares⟩ := shader_layout built hindex
    exact ⟨setLayout, hget, hdeclares, ascending_of_declares hdeclares⟩
  builtin := by
    rw [List.map_drop, (layouts_of_built built).1, layoutBindings, built.setCount]
    exact List.drop_left' (by simp)
  sets := (sets_of_built built).1
  distinct := (sets_of_built built).2
  builtinSets := by
    have hlength := congrArg List.length (sets_of_built built).1
    simp only [List.length_map, length_layouts built] at hlength
    refine ⟨List.drop_suffix _ _, ?_⟩
    rw [builtinSets, List.length_drop, hlength, Nat.add_sub_cancel_left]

theorem writes_of_built (built : Built layout options b binder b') :
    List.Forall₂ binder.Writes binder.resources built.writes := by
  obtain ⟨steps, hsteps, hresources, -⟩ := made_resources built
  have htype : ∀ bound ∈ binder.resources, bound.descriptor.type = bound.type := by
    intro bound hmem
    obtain ⟨step, hstep, rfl⟩ := List.mem_map.mp (hresources ▸ hmem)
    obtain ⟨entry, -, hfor⟩ := exists_left_of_forall₂ hsteps hstep
    exact hfor.type_descriptor
  refine ((List.forall₂_and_left ..).mpr ⟨htype, Except.mapM_eq_ok.mp built.write⟩).imp ?_
  rintro bound write ⟨htype, hwrite⟩
  obtain ⟨hset, hwrite⟩ := writeOf_eq_ok hwrite
  rw [← built.setCount] at hset
  have hshader := id_notMem_builtinSets (sets_of_built built).2 hset
  unfold shaderSet? at hset
  split at hset
  · exact ⟨hset, hshader, by rw [hwrite], by rw [hwrite], by rw [hwrite]; exact htype⟩
  · cases hset

theorem record_of_resources (built : Built layout options b binder b') :
    ∃ events, built.made.trace = b.trace ++ events ∧ events.filterMap Event.layout? = [] ∧
      events.filterMap Event.buffer? = layout.entries.filterMap (·.2.bufferRequest?) ∧
      events.filterMap Event.update? = [] := by
  obtain ⟨steps, hsteps, -, hmade⟩ := made_resources built
  refine ⟨steps.flatMap (·.2), hmade, ?_, ?_, ?_⟩
  · rw [List.filterMap_flatMap, List.flatMap_eq_nil_iff]
    intro step hmem
    obtain ⟨entry, -, hfor⟩ := exists_left_of_forall₂ hsteps hmem
    exact hfor.layouts
  · rw [List.filterMap_flatMap, List.filterMap_eq_flatMap_toList, List.flatMap_def,
      List.flatMap_def]
    exact congrArg _ (map_eq_map_of_forall₂ hsteps fun _ _ h => h.buffers.symm).symm
  · rw [List.filterMap_flatMap, List.flatMap_eq_nil_iff]
    intro step hmem
    obtain ⟨entry, -, hfor⟩ := exists_left_of_forall₂ hsteps hmem
    exact hfor.updates

theorem record_of_sets (built : Built layout options b binder b') :
    ∃ events, b'.trace = built.laid.trace ++ events ∧ events.filterMap Event.layout? = [] ∧
      events.filterMap Event.buffer? = [] ∧
      events.filterMap Event.update? = [built.writes] := by
  have hpooled := (exec_onDevice_eq_ok built.pool).2
  obtain ⟨-, allocation, hallocated, hallocation⟩ := allocateSets_eq_ok built.sets
  have htrace := trace_updateSets built.update
  rw [hallocated, hpooled, List.append_assoc, List.append_assoc] at htrace
  refine ⟨_, htrace, ?_⟩
  rcases hallocation with rfl | rfl <;> exact ⟨rfl, rfl, rfl⟩

/-- A successful bind leaves on record what the binder was made of. -/
theorem recorded_of_built (built : Built layout options b binder b') :
    ∃ events, b'.trace = b.trace ++ events ∧ binder.Recorded layout events := by
  obtain ⟨resources, hmade, hresources⟩ := record_of_resources built
  obtain ⟨rest, hrest, hnone⟩ := record_of_sets built
  rw [(layouts_of_built built).2, hmade, List.append_assoc, List.append_assoc] at hrest
  have hlayouts : (binder.layouts.map (·.event)).filterMap Event.layout? = binder.layouts := by
    rw [List.filterMap_map]
    exact List.filterMap_some
  have hothers : (binder.layouts.map (·.event)).filterMap Event.buffer? = [] ∧
      (binder.layouts.map (·.event)).filterMap Event.update? = [] := by
    simp [SetLayout.event, Event.buffer?, Event.update?]
  refine ⟨_, hrest, ?_, ?_, built.writes, ?_, writes_of_built built⟩
  · simp only [List.filterMap_append, hresources, hlayouts, hnone, List.nil_append, List.append_nil]
  · simp only [List.filterMap_append, hresources, hothers, hnone, List.append_nil]
  · simp only [List.filterMap_append, hresources, hothers, hnone, List.nil_append]

/--
A successful bind is exactly the declared layout, and its events show one layout made per set
index and built-in, one buffer asked for per uniform or storage buffer, and one update.
-/
theorem bind_realizes (h : (bind layout options).exec b = (.ok binder, b')) :
    binder.Realizes layout options ∧
      ∃ events, b'.trace = b.trace ++ events ∧ binder.Recorded layout events := by
  obtain ⟨built⟩ := built_of_bind h
  exact ⟨realizes_of_built built, recorded_of_built built⟩

/-- The first set index is not declared, so that its layout is empty. -/
theorem bind_realizes_gap :
    let layout := LayoutMap.empty.put ⟨1, 0⟩
      ⟨"block", .descriptor 1 0 .empty .uniformBuffer, .vector .float 4 16⟩ rfl
    let options : BindOptions := { builtins := [[]], placeholder := { width := 1, height := 1 } }
    ∃ binder b', (bind layout options).exec {} = (.ok binder, b') ∧
      binder.layouts.map (·.bindings) = [[], [⟨0, .uniformBuffer, 1, .empty⟩], []] ∧
      binder.Realizes layout options ∧ binder.Recorded layout b'.trace := by
  intro layout options
  have hresult : ((bind layout options).exec {}).1.map
      (fun binder => binder.layouts.map (·.bindings)) =
        .ok [[], [⟨0, .uniformBuffer, 1, .empty⟩], []] := by decide +kernel
  rcases hexec : (bind layout options).exec {} with ⟨result, b'⟩
  rw [hexec] at hresult
  obtain ⟨binder, rfl, hlayouts⟩ := Except.map_eq_ok.mp hresult
  obtain ⟨hrealizes, events, htrace, hrecorded⟩ := bind_realizes hexec
  obtain rfl : b'.trace = events := htrace.trans (List.nil_append _)
  exact ⟨binder, b', rfl, hlayouts, hrealizes, hrecorded⟩

end Binder

end ShaderBinding
