import Mathlib.Data.Multiset.UnionInter
import ShaderBinding.Proofs.Native.Exec

/-! # Live objects and their history

The objects of a backend with the descriptor sets among them, which live and die with their
pool. In a valid backend every live handle is one of its own and has been handed out. A history
tells from the record of calls which objects came and went: what is live afterwards is what was
live or created and not released, and nothing is released twice.
-/

namespace ShaderBinding

/-- An object of an allocator or a device by its handle; a descriptor set also by its pool. -/
inductive NativeObject where
  | buffer (handle : Nat)
  | image (handle : Nat)
  | layout (handle : Nat)
  | pool (handle : Nat)
  | set (pool handle : Nat)
  | view (handle : Nat)
  | sampler (handle : Nat)
  | module (handle : Nat)
  deriving DecidableEq, Repr

namespace NativeObject

/-- The object whose release ends the life of an object. -/
def owner : NativeObject → NativeObject
  | set home _ => .pool home
  | object => object

@[simp] theorem owner_owner (o : NativeObject) : o.owner.owner = o.owner := by
  cases o <;> rfl

def ofSets (pool : Nat) (sets : List DescriptorSet) : List NativeObject :=
  sets.map fun set => .set pool set.id

theorem mem_ofSets {pool : Nat} {sets : List DescriptorSet} {set : DescriptorSet} (h : set ∈ sets) :
    NativeObject.set pool set.id ∈ ofSets pool sets := List.mem_map_of_mem h

/-- Every descriptor set comes with its pool. -/
def Closed (objects : Multiset NativeObject) : Prop := ∀ o ∈ objects, o.owner ∈ objects

theorem Closed.zero : Closed 0 := fun o ho => absurd ho (Multiset.notMem_zero o)

theorem Closed.add {s t : Multiset NativeObject} (hs : Closed s) (ht : Closed t) :
    Closed (s + t) := fun o ho =>
  Multiset.mem_add.mpr ((Multiset.mem_add.mp ho).imp (hs o) (ht o))

theorem Closed.of_owner_eq {s : Multiset NativeObject} (h : ∀ o ∈ s, o.owner = o) : Closed s :=
  fun o ho => (h o ho).symm ▸ ho

end NativeObject

def BlockKind.object (handle : Nat) : BlockKind → NativeObject
  | buffer => .buffer handle
  | image => .image handle

def DeviceObject.object (handle : Nat) : DeviceObject → NativeObject
  | layout _ => .layout handle
  | pool .. => .pool handle
  | set home => .set home handle
  | view _ => .view handle
  | sampler => .sampler handle
  | module => .module handle

def ObjectKind.object? (handle : Nat) : ObjectKind → Option NativeObject
  | layout => some (.layout handle)
  | pool => some (.pool handle)
  | set => none
  | view => some (.view handle)
  | sampler => some (.sampler handle)
  | module => some (.module handle)

/-- No object of a device belongs to a block of an allocator. -/
theorem DeviceObject.owner_ne_block (object : DeviceObject) (kind : BlockKind)
    (key handle : Nat) : (object.object key).owner ≠ kind.object handle := by
  cases object <;> cases kind <;>
    simp only [DeviceObject.object, BlockKind.object, NativeObject.owner, ne_eq, reduceCtorEq,
      not_false_eq_true]

theorem BlockKind.owner_ne_object {kind : ObjectKind} {handle : Nat} {o : NativeObject}
    (h : kind.object? handle = some o) (block : BlockKind) (key : Nat) :
    (block.object key).owner ≠ o := by
  cases kind <;> cases h <;> cases block <;>
    simp only [BlockKind.object, NativeObject.owner, ne_eq, reduceCtorEq, not_false_eq_true]

namespace Event

def created : Event → List NativeObject
  | ⟨.allocateBuffer .., .handle handle⟩ => [.buffer handle]
  | ⟨.allocateImage .., .handle handle⟩ => [.image handle]
  | ⟨.createLayout _, .handle handle⟩ => [.layout handle]
  | ⟨.createPool .., .handle handle⟩ => [.pool handle]
  | ⟨.allocateSets pool _, .sets sets⟩ => NativeObject.ofSets pool sets
  | ⟨.createView .., .handle handle⟩ => [.view handle]
  | ⟨.createSampler, .handle handle⟩ => [.sampler handle]
  | ⟨.createModule _, .handle handle⟩ => [.module handle]
  | _ => []

def released? : Event → Option NativeObject
  | ⟨.deallocate kind handle, _⟩ => some (kind.object handle)
  | ⟨.destroy kind handle, _⟩ => kind.object? handle
  | _ => none

theorem owner_of_released? {event : Event} {o : NativeObject} (h : event.released? = some o) :
    o.owner = o := by
  unfold released? at h
  split at h
  · rename_i kind handle _
    cases h
    cases kind <;> rfl
  · rename_i kind handle _
    cases kind <;> cases h <;> rfl
  · cases h

end Event

namespace Record

def created (events : List Event) : List NativeObject := events.flatMap Event.created

def released (events : List Event) : List NativeObject := events.filterMap Event.released?

/-- How often the life of an object was ended: a set's by the release of its pool. -/
def endings (events : List Event) (o : NativeObject) : Nat := (released events).count o.owner

@[simp] theorem created_append (events later : List Event) :
    created (events ++ later) = created events ++ created later := List.flatMap_append

@[simp] theorem released_append (events later : List Event) :
    released (events ++ later) = released events ++ released later := List.filterMap_append

theorem owner_of_mem_released {events : List Event} {o : NativeObject} (h : o ∈ released events) :
    o.owner = o := by
  obtain ⟨event, _, he⟩ := List.mem_filterMap.mp h
  exact Event.owner_of_released? he

end Record

def Allocator.held (a : Allocator) : Multiset NativeObject :=
  ↑(a.blocks.map fun entry => entry.2.kind.object entry.1)

def Device.held (d : Device) : Multiset NativeObject :=
  ↑(d.objects.map fun entry => entry.2.object entry.1)

def Backend.live (b : Backend) : Multiset NativeObject := b.allocator.held + b.device.held

def Backend.Knows (b : Backend) : NativeObject → Prop
  | .buffer handle | .image handle => handle < b.allocator.next
  | .layout handle | .pool handle | .set _ handle | .view handle | .sampler handle
  | .module handle => handle < b.device.next

structure Allocator.Valid (a : Allocator) : Prop where
  nodup : (a.blocks.map (·.1)).Nodup
  lt_next : ∀ entry ∈ a.blocks, entry.1 < a.next

structure Device.Valid (d : Device) : Prop where
  nodup : (d.objects.map (·.1)).Nodup
  lt_next : ∀ entry ∈ d.objects, entry.1 < d.next
  pool_live : ∀ handle pool, (handle, .set pool) ∈ d.objects → pool ∈ d.live .pool

/-- Live handles are told apart and were handed out, and every live set is in a live pool. -/
structure Backend.Valid (b : Backend) : Prop where
  allocator : b.allocator.Valid
  device : b.device.Valid

theorem Backend.valid_empty : ({} : Backend).Valid := ⟨⟨by simp, by simp⟩, by simp, by simp, by simp⟩

namespace Allocator

variable {a a' : Allocator}

theorem mem_held {o : NativeObject} :
    o ∈ a.held ↔ ∃ entry ∈ a.blocks, entry.2.kind.object entry.1 = o := by
  simp [held]

theorem mem_live {kind : BlockKind} {handle : Nat} :
    handle ∈ a.live kind ↔ kind.object handle ∈ a.held := by
  rw [mem_held]
  simp only [live, List.mem_map, List.mem_filter, decide_eq_true_eq]
  constructor
  · rintro ⟨entry, ⟨hmem, rfl⟩, rfl⟩
    exact ⟨entry, hmem, rfl⟩
  · rintro ⟨⟨h, block⟩, hmem, ho⟩
    refine ⟨(h, block), ⟨hmem, ?_⟩, ?_⟩ <;> rcases block with ⟨_ | _, _⟩ <;> cases kind <;>
      simp_all [BlockKind.object]

theorem owner_of_mem_held {o : NativeObject} (h : o ∈ a.held) : o.owner = o := by
  obtain ⟨⟨_, ⟨_ | _, _⟩⟩, _, rfl⟩ := mem_held.mp h <;> rfl

theorem Valid.held_nodup (h : a.Valid) : a.held.Nodup := by
  refine Multiset.coe_nodup.mpr (List.pairwise_map.mpr ?_)
  refine (List.pairwise_map.mp h.nodup).imp ?_
  rintro ⟨_, ⟨_ | _, _⟩⟩ ⟨_, ⟨_ | _, _⟩⟩ hne <;> simp_all [BlockKind.object]

structure SameBlocks (a a' : Allocator) : Prop where
  blocks : a'.blocks.map (fun entry => (entry.1, entry.2.kind)) =
    a.blocks.map fun entry => (entry.1, entry.2.kind)
  next : a'.next = a.next

theorem SameBlocks.held (h : SameBlocks a a') : a'.held = a.held := by
  have hobjects := congrArg (List.map fun entry => entry.2.object entry.1) h.blocks
  simp only [List.map_map] at hobjects
  exact congrArg (fun objects : List NativeObject => (objects : Multiset NativeObject)) hobjects

theorem SameBlocks.valid (h : SameBlocks a a') (hv : a.Valid) : a'.Valid := by
  have hkeys : a'.blocks.map (·.1) = a.blocks.map (·.1) := by
    simpa [Function.comp_def] using congrArg (List.map Prod.fst) h.blocks
  refine ⟨hkeys ▸ hv.nodup, fun entry hmem => ?_⟩
  have hin : entry.1 ∈ a.blocks.map (·.1) := hkeys ▸ List.mem_map_of_mem hmem
  obtain ⟨old, hold, heq⟩ := List.mem_map.mp hin
  exact heq ▸ h.next ▸ hv.lt_next old hold

theorem SameBlocks.withMapped (h : SameBlocks a a') (n : Nat) :
    SameBlocks a { a' with mapped := n } := ⟨h.blocks, h.next⟩

theorem sameBlocks_modifyMemory (a : Allocator) (id : Nat) (f : Memory → Memory) :
    SameBlocks a (a.modifyMemory id f) := by
  refine ⟨?_, rfl⟩
  simp only [modifyMemory, List.map_map]
  refine List.map_congr_left fun entry _ => ?_
  by_cases h : entry.1 = id <;> simp [h]

theorem Valid.push (hv : a.Valid) {block : Block} (hb : a'.blocks = a.blocks ++ [(a.next, block)])
    (hn : a'.next = a.next + 1) : a'.Valid := by
  constructor
  · rw [hb, List.map_append]
    refine List.nodup_append.mpr ⟨hv.nodup, by simp, ?_⟩
    rintro x hx y hy rfl
    obtain ⟨entry, hmem, rfl⟩ := List.mem_map.mp hx
    have := hv.lt_next entry hmem
    simp at hy
    omega
  · rw [hb, hn]
    intro entry hmem
    rcases List.mem_append.mp hmem with hmem | hmem
    · exact Nat.lt_succ_of_lt (hv.lt_next entry hmem)
    · obtain rfl := List.mem_singleton.mp hmem
      exact Nat.lt_succ_self _

theorem Valid.filter (hv : a.Valid) {p : Nat × Block → Bool} (hb : a'.blocks = a.blocks.filter p)
    (hn : a'.next = a.next) : a'.Valid := by
  constructor
  · rw [hb]
    exact hv.nodup.sublist (List.filter_sublist.map _)
  · rw [hb, hn]
    exact fun entry hmem => hv.lt_next entry (List.mem_of_mem_filter hmem)

theorem release_spec (hv : a.Valid) {kind : BlockKind} {handle : Nat}
    (h : kind.object handle ∈ a.held) :
    ∃ a', a.release kind handle = .ok a' ∧
      a'.held = a.held.filter (·.owner ≠ kind.object handle) ∧ a'.Valid ∧ a'.next = a.next := by
  have hlive := mem_live.mpr h
  obtain ⟨old, hold, hobject⟩ := mem_held.mp h
  have hkey : old.1 = handle := by
    obtain ⟨_, ⟨_ | _, _⟩⟩ := old <;> cases kind <;> cases hobject <;> rfl
  refine ⟨_, if_pos hlive, ?_, hv.filter rfl rfl, rfl⟩
  simp only [held, Multiset.filter_coe, List.filter_map]
  congr 2
  refine List.filter_congr fun entry hmem => ?_
  have howner : (entry.2.kind.object entry.1).owner = kind.object handle ↔ entry.1 = handle := by
    constructor
    · obtain ⟨_, ⟨_ | _, _⟩⟩ := entry <;> cases kind <;> rintro ⟨⟩ <;> rfl
    · intro hentry
      rw [List.inj_on_of_nodup_map hv.nodup hmem hold (hentry.trans hkey.symm), hobject]
      cases kind <;> rfl
  simp [howner]

end Allocator

namespace Device

variable {d d' : Device}

theorem mem_held {o : NativeObject} :
    o ∈ d.held ↔ ∃ entry ∈ d.objects, entry.2.object entry.1 = o := by
  simp [held]

theorem mem_live {kind : ObjectKind} {handle : Nat} {o : NativeObject}
    (h : kind.object? handle = some o) : handle ∈ d.live kind ↔ o ∈ d.held := by
  rw [mem_held]
  simp only [live, List.mem_map, List.mem_filter, decide_eq_true_eq]
  constructor
  · rintro ⟨⟨_, object⟩, ⟨hmem, rfl⟩, rfl⟩
    refine ⟨_, hmem, ?_⟩
    cases object <;> cases h <;> rfl
  · rintro ⟨⟨_, object⟩, hmem, rfl⟩
    refine ⟨_, ⟨hmem, ?_⟩, ?_⟩ <;> cases object <;> cases kind <;> cases h <;> rfl

theorem mem_live_set {handle : Nat} : handle ∈ d.live .set ↔ ∃ home, .set home handle ∈ d.held := by
  simp only [mem_held, live, List.mem_map, List.mem_filter, decide_eq_true_eq]
  constructor
  · rintro ⟨⟨_, object⟩, ⟨hmem, hkind⟩, rfl⟩
    cases object <;> cases hkind
    exact ⟨_, _, hmem, rfl⟩
  · rintro ⟨_, ⟨_, object⟩, hmem, ho⟩
    cases object <;> cases ho
    exact ⟨_, ⟨hmem, rfl⟩, rfl⟩

theorem Valid.held_nodup (h : d.Valid) : d.held.Nodup := by
  refine Multiset.coe_nodup.mpr (List.pairwise_map.mpr ?_)
  refine (List.pairwise_map.mp h.nodup).imp ?_
  rintro ⟨_, object⟩ ⟨_, object'⟩ hne
  cases object <;> cases object' <;> simp_all [DeviceObject.object]

theorem Valid.closed (h : d.Valid) : NativeObject.Closed d.held := by
  intro o ho
  obtain ⟨⟨handle, object⟩, hmem, rfl⟩ := mem_held.mp ho
  cases object with
  | set home => exact (mem_live rfl).mp (h.pool_live handle home hmem)
  | _ => exact ho

theorem Valid.object?_eq (h : d.Valid) {handle : Nat} {object : DeviceObject}
    (hmem : (handle, object) ∈ d.objects) : d.object? handle = some object := by
  unfold object?
  cases hfind : d.objects.find? (·.1 = handle) with
  | none => simpa using List.find?_eq_none.mp hfind _ hmem
  | some entry =>
    have hkey : entry.1 = handle := by simpa using List.find?_some hfind
    have heq := List.inj_on_of_nodup_map h.nodup (List.mem_of_find?_eq_some hfind) hmem hkey
    simp [heq]

theorem Valid.push (hv : d.Valid) {news : List (Nat × DeviceObject)}
    (ho : d'.objects = d.objects ++ news) (hn : d'.next = d.next + news.length)
    (hkeys : news.map (·.1) = List.range' d.next news.length)
    (hpool : ∀ handle home, (handle, .set home) ∈ news → home ∈ d.live .pool) : d'.Valid := by
  have hnew : ∀ entry ∈ news, d.next ≤ entry.1 ∧ entry.1 < d'.next := by
    intro entry hmem
    have hin : entry.1 ∈ List.range' d.next news.length := hkeys ▸ List.mem_map_of_mem hmem
    have := List.mem_range'_1.mp hin
    omega
  constructor
  · rw [ho, List.map_append]
    refine List.nodup_append.mpr ⟨hv.nodup, hkeys ▸ List.nodup_range', ?_⟩
    rintro _ hx _ hy rfl
    obtain ⟨entry, hmem, hkey⟩ := List.mem_map.mp hx
    obtain ⟨entry', hmem', hkey'⟩ := List.mem_map.mp hy
    have := hv.lt_next entry hmem
    have := hnew entry' hmem'
    omega
  · intro entry hmem
    rcases List.mem_append.mp (ho ▸ hmem) with hmem | hmem
    · have := hv.lt_next entry hmem
      omega
    · exact (hnew entry hmem).2
  · intro handle home hmem
    have hlive : home ∈ d.live .pool := by
      rcases List.mem_append.mp (ho ▸ hmem) with hmem | hmem
      · exact hv.pool_live handle home hmem
      · exact hpool handle home hmem
    simp only [live, ho, List.filter_append, List.map_append, List.mem_append]
    exact Or.inl hlive

theorem owner_eq_iff (hv : d.Valid) {kind : ObjectKind} {handle : Nat} {o : NativeObject}
    (hk : kind.object? handle = some o) (hlive : handle ∈ d.live kind)
    {entry : Nat × DeviceObject} (hmem : entry ∈ d.objects) :
    (entry.2.object entry.1).owner = o ↔
      entry.1 = handle ∨ kind = .pool ∧ entry.2 = .set handle := by
  obtain ⟨old, hold, hobject⟩ := mem_held.mp ((mem_live hk).mp hlive)
  constructor
  · intro howner
    clear hobject hold hlive
    obtain ⟨_, object⟩ := entry
    cases object <;> cases kind <;> cases hk <;>
      simp_all [DeviceObject.object, NativeObject.owner]
  · rintro (hkey | ⟨rfl, hset⟩)
    · have hold' : old.1 = handle := by
        obtain ⟨_, object⟩ := old
        cases object <;> cases kind <;> cases hk <;> simp_all [DeviceObject.object]
      obtain rfl := List.inj_on_of_nodup_map hv.nodup hmem hold (hkey.trans hold'.symm)
      rw [hobject]
      cases kind <;> cases hk <;> rfl
    · cases hk
      rw [hset]
      rfl

theorem destroy_spec (hv : d.Valid) {kind : ObjectKind} {handle : Nat} {o : NativeObject}
    (hk : kind.object? handle = some o) (ho : o ∈ d.held) :
    ∃ d', d.destroy kind handle = .ok d' ∧ d'.held = d.held.filter (·.owner ≠ o) ∧ d'.Valid ∧
      d'.next = d.next := by
  have hlive := (mem_live hk).mpr ho
  have hheld : Device.held { d with objects := d.objects.filter fun entry =>
      entry.1 ≠ handle ∧ (kind = .pool → entry.2 ≠ .set handle) } =
      d.held.filter (·.owner ≠ o) := by
    simp only [held, Multiset.filter_coe, List.filter_map]
    congr 2
    refine List.filter_congr fun entry hmem => ?_
    have howner := owner_eq_iff hv hk hlive hmem
    simp only [Function.comp_apply, ne_eq, howner]
    by_cases hkey : entry.1 = handle <;> simp [hkey]
  refine ⟨_, if_pos hlive, hheld, ⟨hv.nodup.sublist (List.filter_sublist.map _),
    fun entry hmem => hv.lt_next entry (List.mem_of_mem_filter hmem), ?_⟩, rfl⟩
  intro key home hmem
  rw [mem_live rfl, hheld]
  have hset := Multiset.mem_filter.mp (hheld ▸ mem_held.mpr ⟨_, hmem, rfl⟩)
  exact Multiset.mem_filter.mpr ⟨hv.closed _ hset.1, hset.2⟩

def setsFrom (next : Nat) (layouts : List Nat) : List DescriptorSet :=
  (layouts.zipIdx next).map fun (layout, id) => ⟨id, layout⟩

@[simp] theorem length_setsFrom (next : Nat) (layouts : List Nat) :
    (setsFrom next layouts).length = layouts.length := by simp [setsFrom]

theorem map_id_setsFrom (next : Nat) (layouts : List Nat) :
    (setsFrom next layouts).map (·.id) = List.range' next layouts.length := by
  simp [setsFrom, Function.comp_def, List.zipIdx_map_snd]

theorem map_layout_setsFrom (next : Nat) (layouts : List Nat) :
    (setsFrom next layouts).map (·.layout) = layouts := by
  simp [setsFrom, Function.comp_def, List.zipIdx_map_fst]

def withSets (d : Device) (pool : Nat) (layouts : List Nat) : Device :=
  { d with
    next := d.next + layouts.length
    objects := d.objects ++ (setsFrom d.next layouts).map fun set => (set.id, .set pool) }

theorem createSets_eq {pool : Nat} {layouts : List Nat}
    (h : ∀ layout ∈ layouts, layout ∈ d.live .layout) :
    d.createSets pool layouts = .ok (setsFrom d.next layouts, d.withSets pool layouts) := by
  induction layouts generalizing d with
  | nil => simp [createSets, setsFrom, withSets, pure, Except.pure]
  | cons layout rest ih =>
    obtain ⟨hlayout, hrest⟩ := List.forall_mem_cons.mp h
    have hlive : (d.create (.set pool)).2.live .layout = d.live .layout := by
      simp [create, live, DeviceObject.kind]
    have hnext := ih (d := (d.create (.set pool)).2) (hlive ▸ hrest)
    simp only [createSets, hlayout, not_true_eq_false, if_false, bind, Except.bind, pure,
      Except.pure, hnext]
    simp [setsFrom, withSets, create, Nat.add_assoc, Nat.add_comm 1]

theorem createSets_eq_ok {pool : Nat} {layouts : List Nat} {sets : List DescriptorSet}
    {d' : Device} (h : d.createSets pool layouts = .ok (sets, d')) :
    sets = setsFrom d.next layouts := by
  induction layouts generalizing d sets with
  | nil =>
    cases h
    rfl
  | cons layout rest ih =>
    by_cases hlive : layout ∈ d.live .layout
    · simp only [createSets, hlive, not_true_eq_false, if_false] at h
      obtain ⟨⟨others, d₁⟩, hothers, h⟩ := Except.bind_eq_ok.mp h
      cases h
      rw [ih hothers]
      rfl
    · simp only [createSets, hlive, not_false_eq_true, if_true] at h
      cases h

theorem allocateSets_eq_ok {pool : Nat} {layouts : List Nat} {sets : List DescriptorSet}
    {d' : Device} (h : d.allocateSets pool layouts = .ok (sets, d')) :
    sets = setsFrom d.next layouts := by
  unfold allocateSets at h
  split at h
  · split at h
    · cases h
    · exact createSets_eq_ok (Except.mapError_eq_ok.mp h)
  · cases h

/-- From a live pool sets for live layouts are allocated, unless the pool is too small. -/
theorem allocateSets_cases (hv : d.Valid) {pool : Nat} {layouts : List Nat}
    (hpool : .pool pool ∈ d.held) (hlayouts : ∀ layout ∈ layouts, .layout layout ∈ d.held) :
    (∃ e, d.allocateSets pool layouts = .fail e) ∨
      d.allocateSets pool layouts = .ok (setsFrom d.next layouts, d.withSets pool layouts) := by
  obtain ⟨⟨handle, object⟩, hmem, hobject⟩ := mem_held.mp hpool
  cases object <;> cases hobject
  unfold allocateSets
  rw [hv.object?_eq hmem]
  dsimp only
  split
  · exact Or.inl ⟨_, rfl⟩
  · refine Or.inr (congrArg (Except.mapError Failure.fault) (createSets_eq fun layout hl => ?_))
    exact (mem_live rfl).mpr (hlayouts layout hl)

end Device

end ShaderBinding
