import ShaderBinding.Proofs.Binder.Contents
import ShaderBinding.Proofs.Binder.Declared
import ShaderBinding.Proofs.Binder.Update

/-! # What is bound stays intact

Bytes are written and images replaced in any order, and every call of an edit may fail. All along
each descriptor refers to what the binder holds for it, all of that is live, and no call uses
anything that is not.
-/

namespace ShaderBinding

open Native Backend Record

namespace Device

/-- The descriptor that was written last to a binding of a set. -/
def written? (d : Device) (set binding : Nat) : Option Descriptor :=
  (d.writes.reverse.find? fun write => write.set.id = set ∧ write.binding = binding).map
    (·.descriptor)

variable {d d' : Device} {writes : List DescriptorWrite} {set binding : Nat}

theorem written?_of_mem (h : d'.writes = d.writes ++ writes) {write : DescriptorWrite}
    (hmem : write ∈ writes) (hall : ∀ other ∈ writes, other.set.id = write.set.id →
      other.binding = write.binding → other.descriptor = write.descriptor) :
    d'.written? write.set.id write.binding = some write.descriptor := by
  unfold written?
  rw [h, List.reverse_append, List.find?_append]
  cases hfind : writes.reverse.find? fun other =>
      other.set.id = write.set.id ∧ other.binding = write.binding with
  | none => simpa using List.find?_eq_none.mp hfind write (List.mem_reverse.mpr hmem)
  | some other =>
    have hother := List.mem_reverse.mp (List.mem_of_find?_eq_some hfind)
    obtain ⟨hset, hbinding⟩ : other.set.id = write.set.id ∧ other.binding = write.binding := by
      simpa using List.find?_some hfind
    exact congrArg some (hall other hother hset hbinding)

theorem written?_of_forall_ne (h : d'.writes = d.writes ++ writes)
    (hnone : ∀ write ∈ writes, ¬ (write.set.id = set ∧ write.binding = binding)) :
    d'.written? set binding = d.written? set binding := by
  have hfind : writes.reverse.find? (fun write => write.set.id = set ∧ write.binding = binding) =
      none := by
    refine List.find?_eq_none.mpr fun write hwrite => ?_
    simpa using hnone write (List.mem_reverse.mp hwrite)
  unfold written?
  rw [h, List.reverse_append, List.find?_append, hfind, Option.none_or]

end Device

namespace Backing

/-- How a backing of a descriptor type was made, and the descriptor that refers to all of it. -/
inductive Serves (trace : List Event) : DescriptorType → Backing → Descriptor → Prop where

  | uniformBuffer {allocation : Allocation} {name : String} :
      ⟨.allocateBuffer allocation.size .uniform name, .handle allocation.handle⟩ ∈ trace →
      allocation.memory = allocation.handle →
      Serves trace .uniformBuffer (.buffer allocation)
        (.uniformBuffer allocation.handle 0 allocation.size)

  | storageBuffer {allocation : Allocation} {name : String} :
      ⟨.allocateBuffer allocation.size .storage name, .handle allocation.handle⟩ ∈ trace →
      allocation.memory = allocation.handle →
      Serves trace .storageBuffer (.buffer allocation)
        (.storageBuffer allocation.handle 0 allocation.size)

  | sampledImage {allocation : Allocation} {info : ImageInfo} {view sampler : Nat} {name : String} :
      ⟨.allocateImage info name, .handle allocation.handle⟩ ∈ trace →
      ⟨.createView allocation.handle info, .handle view⟩ ∈ trace → samplerEvent sampler ∈ trace →
      Serves trace .combinedImageSampler (.image allocation info view (some sampler))
        (.combinedImageSampler sampler view)

  | storageImage {allocation : Allocation} {info : ImageInfo} {view : Nat} {name : String} :
      ⟨.allocateImage info name, .handle allocation.handle⟩ ∈ trace →
      ⟨.createView allocation.handle info, .handle view⟩ ∈ trace →
      Serves trace .storageImage (.image allocation info view none) (.storageImage view)

namespace Serves

variable {trace later : List Event} {type : DescriptorType} {backing : Backing}
  {descriptor : Descriptor}

theorem mono (h : Serves trace type backing descriptor) (htrace : trace ⊆ later) :
    Serves later type backing descriptor := by
  cases h with
  | uniformBuffer hmade hmemory => exact .uniformBuffer (htrace hmade) hmemory
  | storageBuffer hmade hmemory => exact .storageBuffer (htrace hmade) hmemory
  | sampledImage hmade hview hsampler =>
    exact .sampledImage (htrace hmade) (htrace hview) (htrace hsampler)
  | storageImage hmade hview => exact .storageImage (htrace hmade) (htrace hview)

/-- In the place of an image comes one that has a sampler if the old one had. -/
theorem replace {bound : BoundResource} {allocation allocation' : Allocation}
    {info info' : ImageInfo} {view view' : Nat} {sampler sampler' : Option Nat}
    (h : Serves trace bound.type bound.backing descriptor)
    (himage : bound.backing = .image allocation info view sampler)
    (hsampler : sampler'.isSome = sampler.isSome) {name : String} {pixels : Bytes}
    (hmade : imageEvents name info' pixels allocation' view' sampler' ⊆ later) :
    Serves later bound.type (.image allocation' info' view' sampler') (BoundResource.descriptor
      { bound with backing := .image allocation' info' view' sampler' }) := by
  rw [himage] at h
  generalize bound.type = type at h ⊢
  cases h with
  | sampledImage =>
    obtain ⟨sampler', rfl⟩ := Option.isSome_iff_exists.mp hsampler
    exact .sampledImage (hmade List.mem_cons_self) (hmade (by simp [imageEvents]))
      (hmade (by simp [imageEvents]))
  | storageImage =>
    obtain rfl := Option.isNone_iff_eq_none.mp (Option.isSome_eq_false_iff.mp hsampler)
    exact .storageImage (hmade List.mem_cons_self) (hmade (by simp [imageEvents]))

theorem memory_eq {allocation : Allocation}
    (h : Serves trace type (.buffer allocation) descriptor) :
    allocation.memory = allocation.handle := by
  cases h <;> assumption

end Serves

end Backing

theorem BoundResource.objects_descriptor_subset (bound : BoundResource) :
    bound.descriptor.objects ⊆ bound.backing.objects := by
  obtain ⟨key, resource, type, backing⟩ := bound
  rcases backing with _ | ⟨_, _, _, _ | _⟩
  · by_cases htype : type = .storageBuffer <;>
      simp [descriptor, htype, Descriptor.objects, Backing.objects]
  · simp [descriptor, Descriptor.objects, Backing.objects]
  · simp [descriptor, Descriptor.objects, Backing.objects]

namespace Binder

/-- A change of what is bound. -/
inductive Edit where
  | write (key : BindingKey) (offset : Nat) (data : Bytes)
  | replace (key : BindingKey) (info : ImageInfo) (pixels : Bytes)
  deriving DecidableEq, Repr

namespace Edit

def op (binder : Binder) : Edit → Native BindError Binder
  | write key offset data => do
    binder.writeBuffer key offset data
    return binder
  | replace key info pixels => binder.replaceImage key info pixels

/-- Make an edit. One that fails keeps the binder, and a fault ends it all. -/
def make (current : Binder × Backend) (edit : Edit) : Checked (Binder × Backend) :=
  match (edit.op current.1).exec current.2 with
  | (.ok changed, b) => .ok (changed, b)
  | (.error (.error _), b) => .ok (current.1, b)
  | (.error (.fault fault), _) => .error fault

def makeAll (edits : List Edit) (start : Binder × Backend) : Checked (Binder × Backend) :=
  edits.foldlM make start

end Edit

structure SameLayout (binder changed : Binder) : Prop where
  setCount : changed.setCount = binder.setCount
  layouts : changed.layouts = binder.layouts
  pool : changed.pool = binder.pool
  sets : changed.sets = binder.sets
  poolSizes : changed.poolSizes = binder.poolSizes
  resources : changed.resources.map (fun bound => (bound.key, bound.resource, bound.type)) =
    binder.resources.map fun bound => (bound.key, bound.resource, bound.type)

/--
The binding of a resource was last written to refer to what is held for the resource, and all of
that and the set are live.
-/
structure Refers (binder : Binder) (b : Backend) (bound : BoundResource) : Prop where
  objects : ∀ o ∈ bound.backing.objects, o ∈ b.live
  written : ∃ set descriptor, shaderSet? binder.setCount binder.sets bound.key.set = some set ∧
    .set binder.pool set.id ∈ b.live ∧
    b.device.written? set.id bound.key.binding = some descriptor ∧
    bound.backing.Serves b.trace bound.type descriptor

/-- What edits preserve. Besides `base`, the objects of the binder are all that is live. -/
structure Intact (base : Multiset NativeObject) (binder : Binder) (b : Backend) : Prop where
  valid : b.Valid
  sound : binder.Sound
  distinct : (binder.sets.map (·.id)).Nodup
  live_eq : b.live = base + binder.objects
  serves : ∀ bound ∈ binder.resources,
    bound.backing.Serves b.trace bound.type bound.descriptor
  written : ∀ bound ∈ binder.resources, ∀ set,
    shaderSet? binder.setCount binder.sets bound.key.set = some set →
    b.device.written? set.id bound.key.binding = some bound.descriptor

namespace SameLayout

variable {binder changed later : Binder}

theorem refl (binder : Binder) : binder.SameLayout binder := ⟨rfl, rfl, rfl, rfl, rfl, rfl⟩

theorem trans (h : binder.SameLayout changed) (h' : changed.SameLayout later) :
    binder.SameLayout later :=
  ⟨h'.setCount.trans h.setCount, h'.layouts.trans h.layouts, h'.pool.trans h.pool,
    h'.sets.trans h.sets, h'.poolSizes.trans h.poolSizes, h'.resources.trans h.resources⟩

theorem setBacking (binder : Binder) (key : BindingKey) (backing : Backing) :
    binder.SameLayout (binder.setBacking key backing) := by
  refine ⟨rfl, rfl, rfl, rfl, rfl, ?_⟩
  simp only [Binder.setBacking, List.map_map]
  refine List.map_congr_left fun bound _ => ?_
  by_cases h : bound.key = key <;> simp [h]

end SameLayout

variable {base : Multiset NativeObject} {binder changed : Binder} {b b' : Backend}

namespace Intact

theorem mem_live (h : Intact base binder b) {o : NativeObject} (ho : o ∈ binder.objects) :
    o ∈ b.live := h.live_eq ▸ Multiset.mem_add.mpr (Or.inr ho)

theorem objects_live (h : Intact base binder b) {bound : BoundResource}
    (hmem : bound ∈ binder.resources) : ∀ o ∈ bound.backing.objects, o ∈ b.live := by
  intro o ho
  exact h.mem_live (mem_objects_of_resource hmem ho)

theorem set_live (h : Intact base binder b) {index : Nat} {set : DescriptorSet}
    (hset : shaderSet? binder.setCount binder.sets index = some set) :
    .set binder.pool set.id ∈ b.live :=
  h.mem_live (mem_objects_of_shaderSet? hset)

theorem refers (h : Intact base binder b) {bound : BoundResource}
    (hmem : bound ∈ binder.resources) : binder.Refers b bound := by
  obtain ⟨set, hset⟩ := h.sound.set bound hmem
  exact ⟨h.objects_live hmem, set, bound.descriptor, hset, h.set_live hset,
    h.written bound hmem set hset, h.serves bound hmem⟩

theorem kept (h : Intact base binder b) (hb : b.Reaches b') (hlive : b'.live = b.live)
    (hwrites : b'.device.writes = b.device.writes) : Intact base binder b' where
  valid := hb.valid
  sound := h.sound
  distinct := h.distinct
  live_eq := hlive.trans h.live_eq
  serves bound hmem := (h.serves bound hmem).mono hb.trace_subset
  written bound hmem set hset := by
    unfold Device.written?
    rw [hwrites]
    exact h.written bound hmem set hset

end Intact

theorem eq_of_shaderSet? {sets : List DescriptorSet} (hnodup : (sets.map (·.id)).Nodup)
    {setCount index index' : Nat} {set set' : DescriptorSet}
    (h : shaderSet? setCount sets index = some set)
    (h' : shaderSet? setCount sets index' = some set') (hid : set.id = set'.id) :
    index = index' := by
  have hget {index : Nat} {set : DescriptorSet} (h : shaderSet? setCount sets index = some set) :
      (sets.map (·.id))[index]? = some set.id := by
    unfold shaderSet? at h
    split at h
    · rw [List.getElem?_map, h, Option.map_some]
    · cases h
  obtain ⟨hlt, -⟩ := List.getElem?_eq_some_iff.mp (hget h)
  exact (List.getElem?_inj hlt hnodup).mp ((hget h).trans (hid ▸ (hget h').symm))

namespace Intact

section Replaced

variable {key : BindingKey} {info : ImageInfo} {pixels : Bytes}

/-- A replacement is careful: the old image is released last, when no descriptor refers to it. -/
theorem careful_replaced (h : Intact base binder b)
    (replaced : Replaced binder key info pixels b changed b') (hb : b.Reaches b') :
    b.ReachesCarefully b' := by
  obtain ⟨allocation, view, sampler, hbacking, -, htrace⟩ := replaced.trace_eq
  refine hb.carefully htrace ⟨trivial, ?_⟩
  rw [List.nil_append, Record.careful_append]
  refine ⟨careful_imageEvents rfl _ _ _ _ _ _, ?_, ?_⟩
  · intro write hwrite
    obtain rfl := List.mem_singleton.mp hwrite
    simp only [hbacking]
    refine ⟨⟨binder.pool, Or.inl (h.set_live replaced.shader), ?_⟩, fun o ho => ⟨Or.inr ?_, ?_⟩⟩
    · simp [released_imageEvents, released_cons, Event.released?]
    · rw [created_append, created_imageEvents]
      exact List.mem_append_right _ (BoundResource.objects_descriptor_subset _ ho)
    · simp [released_imageEvents, released_cons, Event.released?]
  · refine Backing.careful_dispose fun o ho => ⟨Or.inl ?_, ?_⟩
    · exact h.objects_live (mem_of_find replaced.find).1 o ho
    · simp [released_append, released_imageEvents, released_cons, released_nil, Event.released?]

theorem mem_setBacking (hs : binder.Sound) {bound other : BoundResource}
    (hfind : binder.find key = .ok bound) {backing : Backing}
    (h : other ∈ (binder.setBacking key backing).resources) :
    other = { bound with backing := backing } ∨ other ∈ binder.resources ∧ other.key ≠ key := by
  obtain ⟨hbound, rfl⟩ := mem_of_find hfind
  obtain ⟨old, hold, rfl⟩ := List.mem_map.mp h
  by_cases hkey : old.key = bound.key
  · rw [if_pos hkey, List.inj_on_of_nodup_map hs.nodup hold hbound hkey]
    exact Or.inl rfl
  · rw [if_neg hkey]
    exact Or.inr ⟨hold, hkey⟩

theorem replaced (h : Intact base binder b)
    (replaced : Replaced binder key info pixels b changed b') (hb : b.Reaches b')
    (hlive : b'.live = base + changed.objects) : Intact base changed b' := by
  obtain ⟨hbound, hkey⟩ := mem_of_find replaced.find
  obtain ⟨allocation, view, sampler, hbacking, hsampler, htrace⟩ := replaced.trace_eq
  have hchanged := replaced.changed_eq
  refine ⟨hb.valid, hchanged ▸ h.sound.setBacking _ _, hchanged ▸ h.distinct, hlive, ?_, ?_⟩
  · intro bound hmem
    rcases mem_setBacking h.sound replaced.find (hchanged ▸ hmem) with rfl | ⟨hmem, -⟩
    · have himage : Backing.imageEvents replaced.bound.resource.name
          { info with usage := info.usage ||| replaced.old.usage } pixels allocation view sampler ⊆
            b'.trace := by
        intro event hevent
        rw [htrace]
        simp [hevent]
      rw [hbacking]
      exact (h.serves _ hbound).replace replaced.image hsampler himage
    · exact (h.serves bound hmem).mono hb.trace_subset
  · intro bound hmem set hset
    have hset' : shaderSet? binder.setCount binder.sets bound.key.set = some set := by
      rw [hchanged] at hset
      exact hset
    rcases mem_setBacking h.sound replaced.find (hchanged ▸ hmem) with rfl | ⟨hmem, hne⟩
    · dsimp only at hset' ⊢
      rw [hkey] at hset' ⊢
      obtain rfl := Option.some_inj.mp (replaced.shader.symm.trans hset')
      exact Device.written?_of_mem replaced.writes_eq List.mem_cons_self
        fun other hother _ _ => by rw [List.mem_singleton.mp hother]
    · rw [Device.written?_of_forall_ne replaced.writes_eq]
      · exact h.written bound hmem set hset'
      · intro write hwrite
        obtain rfl := List.mem_singleton.mp hwrite
        rintro ⟨hid, hbinding⟩
        have hindex := eq_of_shaderSet? h.distinct replaced.shader hset' hid
        exact hne (congrArg₂ BindingKey.mk hindex hbinding).symm

end Replaced

theorem leaves_writeBuffer (h : Intact base binder b) (key : BindingKey) (offset : Nat)
    (data : Bytes) : (binder.writeBuffer key offset data).Leaves
      (Extends fun event => event.call.Uses (· ∈ b.live) ∧ event.released? = none) b := by
  refine Binder.leaves_writeBuffer fun bound allocation hfind hbacking => ?_
  have hbound := (mem_of_find hfind).1
  have hserves := h.serves bound hbound
  have hlive := h.objects_live hbound
  rw [hbacking] at hserves hlive
  have huses : ∃ kind : BlockKind, kind.object allocation.memory ∈ b.live :=
    ⟨.buffer, hserves.memory_eq ▸ hlive _ List.mem_cons_self⟩
  refine leaves_writeBytes (fun b₁ start stop => ?_) (fun _ _ _ => .of_eq rfl rfl) fun b₁ => ?_
  · exact Leaves.onAllocator fun _ => ⟨huses, rfl⟩
  · exact Leaves.performAllocator ⟨huses, rfl⟩

theorem writeBuffer (h : Intact base binder b) {key : BindingKey} {offset : Nat} {data : Bytes}
    {r : Outcome BindError Unit} (hexec : (binder.writeBuffer key offset data).exec b = (r, b'))
    (hb : b.Reaches b') (hlive : b'.live = b.live) :
    Intact base binder b' ∧ b.ReachesCarefully b' := by
  obtain ⟨events, htrace, hevents⟩ := ((h.leaves_writeBuffer key offset data).rel hexec).record
  exact ⟨h.kept hb hlive ((leaves_writeBuffer_writes offset data).rel hexec),
    hb.carefully htrace (careful_of_forall rfl hevents)⟩

theorem ends_op (h : Intact base binder b) (hbase : NativeObject.Closed base) (edit : Edit) :
    (edit.op binder).Ends b
      (fun changed b' => binder.SameLayout changed ∧ Intact base changed b' ∧ b.ReachesCarefully b')
      fun _ b' => Intact base binder b' ∧ b.ReachesCarefully b' := by
  cases edit with
  | write key offset data =>
    refine .bind ((makes_writeBuffer binder key offset data h.valid).exec.mono ?_ ?_)
    · rintro _ b' ⟨⟨hb, hlive⟩, hexec⟩
      exact .pure ⟨.refl binder, h.writeBuffer hexec hb (by simpa using hlive)⟩
    · rintro e b' ⟨⟨hb, hlive⟩, hexec⟩
      exact h.writeBuffer hexec hb hlive
  | replace key info pixels =>
    refine (owns_replaceImage h.sound key info pixels h.valid hbase h.live_eq).exec.mono ?_ ?_
    · rintro changed b' ⟨⟨hb, hlive⟩, hexec⟩
      obtain ⟨replaced⟩ := replaced_of_replaceImage hexec
      exact ⟨replaced.changed_eq ▸ .setBacking binder key replaced.backing,
        h.replaced replaced hb hlive, h.careful_replaced replaced hb⟩
    · rintro e b' ⟨⟨hb, hlive⟩, hexec⟩
      obtain ⟨hwrites, events, htrace, hcareful⟩ := replaceImage_eq_error h.sound hexec
      exact ⟨h.kept hb (hlive.trans h.live_eq.symm) hwrites, hb.carefully htrace (hcareful _)⟩

theorem make (h : Intact base binder b) (hbase : NativeObject.Closed base) (edit : Edit) :
    (Edit.make (binder, b) edit).Proper ∧
      ∀ changed b', Edit.make (binder, b) edit = .ok (changed, b') →
        binder.SameLayout changed ∧ Intact base changed b' ∧ b.ReachesCarefully b' := by
  have hends := h.ends_op hbase edit
  unfold Ends at hends
  unfold Edit.make
  rcases hexec : (edit.op binder).exec b with ⟨(fault | e) | changed, b'⟩ <;> rw [hexec] at hends
  · refine ⟨?_, nofun⟩
    rintro _ ⟨⟩
    exact hends
  · refine ⟨nofun, ?_⟩
    rintro _ _ ⟨⟩
    exact ⟨.refl binder, hends⟩
  · refine ⟨nofun, ?_⟩
    rintro _ _ ⟨⟩
    exact hends

/-- What holds of one edit holds of any number of them. -/
theorem makeAll (h : Intact base binder b) (hbase : NativeObject.Closed base) (edits : List Edit) :
    (Edit.makeAll edits (binder, b)).Proper ∧
      ∀ changed b', Edit.makeAll edits (binder, b) = .ok (changed, b') →
        binder.SameLayout changed ∧ Intact base changed b' ∧ b.ReachesCarefully b' := by
  induction edits generalizing binder b with
  | nil =>
    refine ⟨.pure _, ?_⟩
    rintro _ _ ⟨⟩
    exact ⟨.refl _, h, .refl h.valid⟩
  | cons edit rest ih =>
    obtain ⟨hproper, hmade⟩ := h.make hbase edit
    constructor
    · refine .bind_of_eq hproper fun current hcurrent => ?_
      exact (ih (hmade current.1 current.2 hcurrent).2.1).1
    · intro changed b' hrun
      obtain ⟨⟨middle, b₁⟩, hmiddle, hrest⟩ := Except.bind_eq_ok.mp hrun
      obtain ⟨hsame, hintact, hcareful⟩ := hmade middle b₁ hmiddle
      obtain ⟨hsame', hintact', hcareful'⟩ := (ih hintact).2 changed b' hrest
      exact ⟨hsame.trans hsame', hintact', hcareful.trans hcareful' h.valid⟩

end Intact

variable {layout : LayoutMap} {options : BindOptions}

theorem MadeFor.serves {trace events : List Event} {pixels : Bytes} {entry : BindingKey × Resource}
    {bound : BoundResource} (h : MadeFor options pixels entry bound events)
    (hmemory : bound.backing.allocation.memory = bound.backing.allocation.handle)
    (hevents : events ⊆ trace) :
    bound.backing.Serves trace bound.type bound.descriptor := by
  obtain ⟨category, -, htype, hmade⟩ := h.exists_category
  unfold BoundResource.descriptor
  rw [htype]
  generalize bound.backing = backing at hmade hmemory ⊢
  cases hmade with
  | buffer husage hsize =>
    have hmade := hevents List.mem_cons_self
    rw [← hsize] at hmade
    cases category <;> cases husage
    · exact .uniformBuffer hmade hmemory
    · exact .storageBuffer hmade hmemory
  | sampled =>
    exact .sampledImage (hevents List.mem_cons_self) (hevents (by simp [Backing.imageEvents]))
      (hevents (by simp [Backing.imageEvents]))
  | storage =>
    exact .storageImage (hevents List.mem_cons_self) (hevents (by simp [Backing.imageEvents]))

theorem exists_madeFor (built : Built layout options b binder b') {bound : BoundResource}
    (hmem : bound ∈ binder.resources) :
    ∃ entry events, MadeFor options built.pixels entry bound events ∧ events ⊆ b'.trace := by
  obtain ⟨steps, hsteps, hresources, hmade⟩ := made_resources built
  obtain ⟨step, hstep, rfl⟩ := List.mem_map.mp (hresources ▸ hmem)
  obtain ⟨entry, -, hfor⟩ := exists_left_of_forall₂ hsteps hstep
  refine ⟨entry, step.2, hfor, fun event hevent => ?_⟩
  obtain ⟨later, hlater, -⟩ := record_of_sets built
  rw [hlater, (layouts_of_built built).2, hmade]
  have hevents : event ∈ steps.flatMap (·.2) := List.mem_flatMap.mpr ⟨step, hstep, hevent⟩
  simp [hevents]

theorem serves_of_built (hv : b.Valid) (built : Built layout options b binder b') :
    ∀ bound ∈ binder.resources, bound.backing.Serves b'.trace bound.type bound.descriptor := by
  intro bound hmem
  have hmemory : bound.backing.allocation.memory = bound.backing.allocation.handle := by
    obtain ⟨-, -, hstarts⟩ := starts_of_built hv built
    obtain ⟨d, -, entry, hstart⟩ := exists_left_of_forall₂ hstarts hmem
    rw [hstart.allocation]
  obtain ⟨entry, events, hfor, hevents⟩ := exists_madeFor built hmem
  exact hfor.serves hmemory hevents

theorem written_of_built (hs : binder.Sound) (built : Built layout options b binder b') :
    ∀ bound ∈ binder.resources, ∀ set,
      shaderSet? binder.setCount binder.sets bound.key.set = some set →
      b'.device.written? set.id bound.key.binding = some bound.descriptor := by
  intro bound hmem set hset
  have hwrites := Except.mapM_eq_ok.mp built.write
  obtain ⟨write, hmemWrite, hwrite⟩ := exists_right_of_forall₂ hwrites hmem
  obtain ⟨hwriteSet, hwrite⟩ := writeOf_eq_ok hwrite
  rw [← built.setCount, hset] at hwriteSet
  obtain rfl := Option.some_inj.mp hwriteSet
  have hlast := Device.written?_of_mem (writes_updateSets built.update) hmemWrite ?_
  · rw [hwrite] at hlast
    exact hlast
  intro other hmemOther hid hbinding
  obtain ⟨bound', hmem', hother⟩ := exists_left_of_forall₂ hwrites hmemOther
  obtain ⟨hotherSet, hother⟩ := writeOf_eq_ok hother
  rw [← built.setCount] at hotherSet
  have hindex := eq_of_shaderSet? (sets_of_built built).2 hotherSet hset hid
  have hkey : bound'.key = bound.key := by
    rw [hother, hwrite] at hbinding
    exact congrArg₂ BindingKey.mk hindex hbinding
  rw [hother, hwrite, List.inj_on_of_nodup_map hs.nodup hmem' hmem hkey]

theorem intact_of_bind (hv : b.Valid) (h : (bind layout options).exec b = (.ok binder, b')) :
    Intact b.live binder b' ∧ b.Reaches b' := by
  obtain ⟨hb, hlive⟩ := (makes_bind layout options hv).of_ok h
  obtain ⟨built⟩ := built_of_bind h
  have hsound := sound_of_bind h
  exact ⟨⟨hb.valid, hsound, (sets_of_built built).2, hlive, serves_of_built hv built,
    written_of_built hsound built⟩, hb⟩

/--
After a bind, however many buffers are written and images replaced and whichever calls fail, every
binding was last written to refer to what is held for it, which is live, and nothing else came to
stay. Only the backings change, and no call uses an object before it is made or after its release.
-/
theorem bind_edits_intact {binder : Binder} {b b₁ : Backend} (hb : b.Valid)
    (h : (bind layout options).exec b = (.ok binder, b₁)) (edits : List Edit) :
    (Edit.makeAll edits (binder, b₁)).Proper ∧
      ∀ changed b', Edit.makeAll edits (binder, b₁) = .ok (changed, b') →
        binder.SameLayout changed ∧ (∀ bound ∈ changed.resources, changed.Refers b' bound) ∧
        b'.live = b.live + changed.objects ∧ b'.live.Nodup ∧
        ∃ events, b'.trace = b₁.trace ++ events ∧ Record.Careful b₁.live [] events := by
  obtain ⟨hintact, -⟩ := intact_of_bind hb h
  obtain ⟨hproper, hmade⟩ := hintact.makeAll hb.closed edits
  refine ⟨hproper, fun changed b' hrun => ?_⟩
  obtain ⟨hsame, hintact', events, hevents, hcareful⟩ := hmade changed b' hrun
  exact ⟨hsame, fun _ => hintact'.refers, hintact'.live_eq, hintact'.valid.live_nodup, events,
    hevents.trace_eq, hcareful⟩

/-- The first replacement fails when its image has been made, the second one succeeds. -/
theorem bind_edits_intact_replaced :
    let layout := (LayoutMap.empty.put ⟨0, 0⟩
      ⟨"block", .descriptor 0 0 .empty .uniformBuffer, .vector .float 4 16⟩ rfl).put ⟨0, 1⟩
      ⟨"image", .descriptor 0 1 .empty .image, .image ⟨.d2, true, false, false, false, ""⟩⟩ rfl
    let options : BindOptions := { placeholder := { width := 1, height := 1 } }
    let b : Backend := { failures := [⟨.createView, 1, .deviceLost⟩] }
    let info : ImageInfo := { width := 1, height := 2 }
    let edits : List Edit := [.replace ⟨0, 1⟩ info (Bytes.zeros 8), .write ⟨0, 0⟩ 4 [1, 2],
      .replace ⟨0, 1⟩ info (Bytes.zeros 8)]
    ∃ binder b₁ changed b', (bind layout options).exec b = (.ok binder, b₁) ∧
      Edit.makeAll edits (binder, b₁) = .ok (changed, b') ∧
      Record.released b'.trace = [.image 2, .sampler 1, .view 0, .image 1] ∧
      b'.live = changed.objects ∧ ∀ bound ∈ changed.resources, changed.Refers b' bound := by
  intro layout options b info edits
  have hb : b.Valid := ⟨Backend.valid_empty.allocator, Backend.valid_empty.device⟩
  have hresult : ((bind layout options).exec b).1.toOption.map (fun binder =>
      (Edit.makeAll edits (binder, ((bind layout options).exec b).2)).map
        fun current => Record.released current.2.trace) =
      some (.ok [.image 2, .sampler 1, .view 0, .image 1]) := by
    decide +kernel
  rcases hexec : (bind layout options).exec b with ⟨failure | binder, b₁⟩ <;> rw [hexec] at hresult
  · cases hresult
  obtain ⟨⟨changed, b'⟩, hrun, hreleased⟩ := Except.map_eq_ok.mp (Option.some.inj hresult)
  obtain ⟨-, hmade⟩ := bind_edits_intact hb hexec edits
  obtain ⟨-, hrefers, hlive, -⟩ := hmade changed b' hrun
  exact ⟨binder, b₁, changed, b', rfl, hrun, hreleased, hlive.trans (zero_add _), hrefers⟩

end Binder

end ShaderBinding
