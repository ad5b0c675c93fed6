import ShaderBinding.Proofs.Native.Ownership
import ShaderBinding.Proofs.Proper

/-! # What native calls do to the live objects

A triple for each call of the allocator and the device. A call that creates something makes it
under handles that were not known before, a call that fails changes nothing, and an object that
is live can be released.
-/

namespace ShaderBinding

open NativeObject

theorem Allocator.allocate_eq_ok {a a' : Allocator} {kind : BlockKind} {size : Checked Nat}
    {name : String} {allocation : Allocation}
    (h : a.allocate kind size name = .ok (allocation, a')) :
    ∃ n memory, size = .ok n ∧ Memory.zeroed n = .ok memory ∧
      allocation = ⟨a.next, a.next, n, name⟩ ∧
      a' = { a with next := a.next + 1, blocks := a.blocks ++ [(a.next, ⟨kind, memory⟩)] } := by
  unfold allocate at h
  split at h
  · cases h
  · rcases size with _ | n
    · cases h
    · change Except.bind (Memory.zeroed n |>.mapError Failure.fault) _ = _ at h
      rcases hz : Memory.zeroed n with _ | memory <;> rw [hz] at h <;> cases h
      exact ⟨n, memory, rfl, hz, rfl, rfl⟩

theorem Allocator.sameBlocks_upload {a a' : Allocator} {image : Allocation} {info : ImageInfo}
    {pixels : Bytes} {u : Unit} (h : (a.upload image info pixels).map ((), ·) = .ok (u, a')) :
    SameBlocks a a' := by
  obtain ⟨_, hup, heq⟩ := Except.map_eq_ok.mp h
  obtain ⟨expected, -, hup⟩ := Except.bind_eq_ok.mp hup
  cases heq
  dsimp only at hup
  split at hup <;> cases hup
  have hsame := sameBlocks_modifyMemory a image.memory fun _ => .ofBytes pixels
  exact ⟨hsame.blocks, hsame.next⟩

theorem Allocator.map_eq_ok {a a' : Allocator} {id start stop : Nat}
    (h : a.map id start stop = .ok a') : a' = { a with mapped := a.mapped + 1 } := by
  unfold map at h
  split at h
  · cases h
  · split at h <;> cases h
    rfl

namespace Backend

variable {b b' : Backend}

/-- What is live afterwards was so before or is one of some new objects. -/
structure Grows (b : Backend) (news : List NativeObject) (b' : Backend) : Prop where
  valid : b'.Valid
  trace_eq : b'.trace = b.trace
  live_eq : b'.live = b.live + news
  known : ∀ o, b.Knows o → b'.Knows o
  fresh : ∀ o ∈ news, ¬ b.Knows o

theorem Grows.reaches {news : List NativeObject} (h : Grows b news b') (call : Call)
    (result : CallResult) (hc : Event.created ⟨call, result⟩ = news)
    (hr : Event.released? ⟨call, result⟩ = none) :
    b.Reaches (b'.noted call result) ∧ (b'.noted call result).live = b.live + news := by
  refine ⟨⟨[⟨call, result⟩], .create hr ?_ ⟨h.valid.1, h.valid.2⟩ ?_ h.known (hc ▸ h.fresh)⟩, h.live_eq⟩
  · exact congrArg (· ++ [Event.mk call result]) h.trace_eq
  · rw [hc]
    exact h.live_eq

theorem Grows.of_counted {news : List NativeObject} {kind : CallKind}
    (h : (b.counted kind).Grows news b') : b.Grows news b' :=
  ⟨h.valid, h.trace_eq, h.live_eq, h.known, h.fresh⟩

theorem Valid.counted (h : b.Valid) (kind : CallKind) : (b.counted kind).Valid := ⟨h.1, h.2⟩

theorem mem_live_block {kind : BlockKind} {handle : Nat} :
    kind.object handle ∈ b.live ↔ kind.object handle ∈ b.allocator.held := by
  refine mem_live_iff.trans (or_iff_left fun h => ?_)
  obtain ⟨⟨_, object⟩, _, ho⟩ := Device.mem_held.mp h
  cases object <;> cases kind <;> cases ho

theorem mem_live_object (kind : ObjectKind) {handle : Nat} {o : NativeObject}
    (hk : kind.object? handle = some o) : o ∈ b.live ↔ o ∈ b.device.held := by
  refine mem_live_iff.trans (or_iff_right fun h => ?_)
  obtain ⟨⟨_, ⟨_ | _, _⟩⟩, _, rfl⟩ := Allocator.mem_held.mp h <;> cases kind <;> cases hk

theorem Valid.allocator_same (h : b.Valid) {allocator : Allocator}
    (hs : Allocator.SameBlocks b.allocator allocator) :
    Grows b [] { b with allocator := allocator } where
  valid := ⟨hs.valid h.allocator, h.device⟩
  trace_eq := rfl
  live_eq := by simp [live, hs.held]
  known o ho := ho.mono hs.next.ge le_rfl
  fresh := by simp

theorem Valid.allocator_push (h : b.Valid) {allocator : Allocator} (block : Block)
    (hb : allocator.blocks = b.allocator.blocks ++ [(b.allocator.next, block)])
    (hn : allocator.next = b.allocator.next + 1) :
    Grows b [block.kind.object b.allocator.next] { b with allocator := allocator } where
  valid := ⟨h.allocator.push hb hn, h.device⟩
  trace_eq := rfl
  live_eq := by
    simp only [live, Allocator.held, hb, List.map_append, List.map_cons, List.map_nil,
      ← Multiset.coe_add]
    exact add_right_comm _ _ _
  known o ho := ho.mono (by simp [hn]) le_rfl
  fresh := by
    obtain ⟨_ | _, _⟩ := block <;> simp [BlockKind.object, Knows]

theorem Valid.allocate (h : b.Valid) {kind : BlockKind} {size : Checked Nat} {name : String}
    {allocation : Allocation} {allocator : Allocator}
    (hs : b.allocator.allocate kind size name = .ok (allocation, allocator)) :
    Grows b [kind.object allocation.handle] { b with allocator := allocator } := by
  obtain ⟨n, memory, -, -, rfl, rfl⟩ := Allocator.allocate_eq_ok hs
  exact h.allocator_push ⟨kind, memory⟩ rfl rfl

theorem Valid.device_push (h : b.Valid) {device : Device} (news : List (Nat × DeviceObject))
    (ho : device.objects = b.device.objects ++ news)
    (hn : device.next = b.device.next + news.length)
    (hkeys : news.map (·.1) = List.range' b.device.next news.length)
    (hpool : ∀ handle home, (handle, .set home) ∈ news → home ∈ b.device.live .pool) :
    Grows b (news.map fun entry => entry.2.object entry.1) { b with device := device } where
  valid := ⟨h.allocator, h.device.push ho hn hkeys hpool⟩
  trace_eq := rfl
  live_eq := by
    simp only [live, Device.held, ho, List.map_append, ← Multiset.coe_add]
    exact (add_assoc _ _ _).symm
  known o ho := ho.mono le_rfl (by simp [hn])
  fresh := by
    intro o ho
    obtain ⟨⟨handle, object⟩, hmem, rfl⟩ := List.mem_map.mp ho
    have hin : handle ∈ List.range' b.device.next news.length := hkeys ▸ List.mem_map_of_mem hmem
    have := (List.mem_range'_1.mp hin).1
    cases object <;> simpa [DeviceObject.object, Knows] using this

theorem Valid.device_create (h : b.Valid) {device : Device} {object : DeviceObject}
    (ho : device.objects = b.device.objects ++ [(b.device.next, object)])
    (hn : device.next = b.device.next + 1) (hset : ∀ home, object ≠ .set home) :
    Grows b [object.object b.device.next] { b with device := device } :=
  h.device_push [(b.device.next, object)] ho hn rfl <| by
    rintro handle home hmem
    cases List.mem_singleton.mp hmem
    exact absurd rfl (hset home)

theorem Valid.device_same (h : b.Valid) {device : Device}
    (ho : device.objects = b.device.objects) (hn : device.next = b.device.next) :
    Grows b [] { b with device := device } :=
  h.device_push [] (by simp [ho]) (by simp [hn]) rfl (by simp)

theorem Valid.allocateSets (h : b.Valid) {pool : Nat} (layouts : List Nat)
    (hpool : .pool pool ∈ b.device.held) :
    Grows b (ofSets pool (Device.setsFrom b.device.next layouts))
      { b with device := b.device.withSets pool layouts } := by
  have hobjects : ((Device.setsFrom b.device.next layouts).map fun set =>
      (set.id, DeviceObject.set pool)).map (fun entry => entry.2.object entry.1) =
      ofSets pool (Device.setsFrom b.device.next layouts) := by
    simp [Function.comp_def, DeviceObject.object, ofSets]
  rw [← hobjects]
  refine h.device_push _ rfl (by simp [Device.withSets]) ?_ ?_
  · simp [Function.comp_def, Device.map_id_setsFrom]
  · rintro handle home hmem
    obtain ⟨set, -, heq⟩ := List.mem_map.mp hmem
    cases heq
    exact (Device.mem_live rfl).mpr hpool

end Backend

namespace Native

variable {ε α : Type} {b : Backend}

/-- A call that fails has no effect, and one that succeeds makes what its effect adds. -/
theorem ends_attempt {kind : CallKind} {call : Call} {result : α → CallResult}
    {effect : Backend → Outcome kind.Error (α × Backend)} (objects : α → List NativeObject)
    (hv : b.Valid) (hc : ∀ a, Event.created ⟨call, result a⟩ = objects a)
    (hr : ∀ r, Event.released? ⟨call, r⟩ = none) (hfail : Event.created ⟨call, .failed⟩ = [])
    (hx : (effect (b.counted kind)).Proper)
    (heffect : ∀ a b', effect (b.counted kind) = .ok (a, b') →
      (b.counted kind).Grows (objects a) b') :
    (attempt kind call result effect).Ends b
      (fun a b' => b.Reaches b' ∧ b'.live = b.live + objects a)
      (fun _ b' => b.Reaches b' ∧ b'.live = b.live) := by
  refine .attempt (fun a b' h => ?_) (fun e => ?_) hx
  · exact (heffect a b' h).of_counted.reaches call (result a) (hc a) (hr _)
  · have hsame : b.Grows [] (b.counted kind) :=
      ⟨hv.counted kind, rfl, (add_zero _).symm, fun _ => id, by simp⟩
    simpa using hsame.reaches call .failed hfail (hr _)

/-- A release ends the life of an object and of what it owns, and of nothing else. -/
theorem frees_perform {call : Call} {effect : Backend → Checked Backend} {o : NativeObject}
    {objects : Multiset NativeObject} (hc : Event.created ⟨call, .done⟩ = [])
    (hr : Event.released? ⟨call, .done⟩ = some o) (ho : o ∈ objects)
    (howner : ∀ x ∈ objects, x.owner = o)
    (heffect : ∀ b : Backend, b.Valid → o ∈ b.live → ∃ b', effect b = .ok b' ∧ b'.Valid ∧
      b'.live = b.live.filter (·.owner ≠ o) ∧ b'.trace = b.trace ∧ ∀ x, b.Knows x → b'.Knows x) :
    Frees (perform call effect : Native ε Unit) objects := by
  intro b rest hv hrest hlive
  have hmem : o ∈ b.live := hlive ▸ Multiset.mem_add.mpr (Or.inr ho)
  obtain ⟨b', heq, hvalid, hlive', htrace, hknown⟩ := heffect b hv hmem
  -- The rest is closed, so that something of `o` in it would be there together with `o`.
  have hkeep : ∀ x ∈ rest, x.owner ≠ o := by
    rintro x hx rfl
    have hnodup := hlive ▸ hv.live_nodup
    exact Multiset.disjoint_left.mp (Multiset.nodup_add.mp hnodup).2.2 (hrest x hx) ho
  have hhistory : b.History [⟨call, .done⟩] (b'.noted call .done) :=
    .release hc hr (congrArg (· ++ [Event.mk call .done]) htrace) ⟨hvalid.1, hvalid.2⟩ hmem hlive'
      hknown
  refine ⟨_, exec_perform_eq_ok.mpr ⟨b', heq, rfl⟩, ⟨_, hhistory⟩, ?_⟩
  have hrest' : rest.filter (·.owner ≠ o) = rest := Multiset.filter_eq_self.mpr hkeep
  have hgone : objects.filter (·.owner ≠ o) = 0 :=
    Multiset.filter_eq_nil.mpr fun x hx => not_not_intro (howner x hx)
  change b'.live = rest
  rw [hlive', hlive, Multiset.filter_add, hrest', hgone, add_zero]

section Allocator

theorem proper_onAllocator {step : Allocator → Outcome ε (α × Allocator)}
    (h : (step b.allocator).Proper) : (onAllocator step b).Proper :=
  .bind h fun _ => .pure _

theorem makes_allocateBuffer (size : Nat) (usage : BufferUsage) (name : String) :
    Makes (allocateBuffer size usage name) fun allocation => [.buffer allocation.handle] := by
  intro b hv
  refine ends_attempt _ hv (fun _ => rfl) (fun _ => rfl) rfl
    (proper_onAllocator (Allocator.proper_allocate _ _ (.pure _) _)) fun a b' h => ?_
  obtain ⟨allocator, hs, rfl⟩ := onAllocator_eq_ok h
  exact (hv.counted _).allocate hs

theorem makes_allocateImage (info : ImageInfo) (name : String) :
    Makes (allocateImage info name) fun allocation => [.image allocation.handle] := by
  intro b hv
  refine ends_attempt _ hv (fun _ => rfl) (fun _ => rfl) rfl
    (proper_onAllocator (Allocator.proper_allocate _ _ info.proper_dataSize _)) fun a b' h => ?_
  obtain ⟨allocator, hs, rfl⟩ := onAllocator_eq_ok h
  exact (hv.counted _).allocate hs

theorem makes_transferImage (image : Allocation) (info : ImageInfo) (pixels : Bytes) :
    Makes (transferImage image info pixels) fun _ => [] := by
  intro b hv
  refine ends_attempt _ hv (fun _ => rfl) (fun _ => rfl) rfl
    (proper_onAllocator (.map _ (Allocator.proper_upload _ _ _ _))) fun a b' h => ?_
  obtain ⟨allocator, hs, rfl⟩ := onAllocator_eq_ok h
  exact (hv.counted _).allocator_same (Allocator.sameBlocks_upload hs)

theorem frees_deallocate (kind : BlockKind) (allocation : Allocation) :
    Frees (deallocate kind allocation : Native ε Unit) ↑[kind.object allocation.handle] := by
  refine frees_perform rfl rfl (by simp) (by cases kind <;> simp [BlockKind.object, owner])
    fun b hv ho => ?_
  obtain ⟨allocator, hrelease, hheld, hvalid, hnext⟩ :=
    Allocator.release_spec hv.allocator (Backend.mem_live_block.mp ho)
  refine ⟨_, congrArg (Except.map _) hrelease, ⟨hvalid, hv.device⟩, ?_, rfl,
    fun _ hk => hk.mono hnext.ge le_rfl⟩
  have hdevice : b.device.held.filter (·.owner ≠ kind.object allocation.handle) = b.device.held :=
    Multiset.filter_eq_self.mpr fun x hx => by
      obtain ⟨⟨_, object⟩, _, rfl⟩ := Device.mem_held.mp hx
      exact object.owner_ne_block kind _ _
  simp only [Backend.live, Multiset.filter_add, hheld, hdevice]

end Allocator

section Device

theorem proper_onDevice {step : Device → Outcome ε (α × Device)} (h : (step b.device).Proper) :
    (onDevice step b).Proper := .bind h fun _ => .pure _

theorem makes_create {kind : CallKind} {call : Call} (object : DeviceObject)
    {step : Device → Outcome kind.Error (Nat × Device)} (hset : ∀ home, object ≠ .set home)
    (hc : ∀ handle, Event.created ⟨call, .handle handle⟩ = [object.object handle])
    (hr : ∀ r, Event.released? ⟨call, r⟩ = none) (hfail : Event.created ⟨call, .failed⟩ = [])
    (hstep : ∀ d, (∃ e, step d = .fail e) ∨
      ∃ d' : Device, d'.objects = d.objects ∧ d'.next = d.next ∧ step d = .ok (d'.create object)) :
    Makes (attempt kind call .handle (onDevice step)) fun handle => [object.object handle] := by
  intro b hv
  refine ends_attempt _ hv hc hr hfail (proper_onDevice ?_) fun handle b' h => ?_
  · rcases hstep (b.counted kind).device with ⟨e, hs⟩ | ⟨d', -, -, hs⟩
    · exact hs ▸ .fail e
    · exact hs ▸ .pure _
  · obtain ⟨device, hs, rfl⟩ := onDevice_eq_ok h
    rcases hstep (b.counted kind).device with ⟨e, hs'⟩ | ⟨d', ho, hn, hs'⟩
    · rw [hs'] at hs
      cases hs
    · rw [hs'] at hs
      cases hs
      rw [hn]
      exact (hv.counted kind).device_create (by simp [ho]) (by simp) hset

theorem makes_createLayout (bindings : List LayoutBinding) :
    Makes (createLayout bindings) fun handle => [.layout handle] := by
  refine makes_create (.layout bindings) nofun (fun _ => rfl) (fun _ => rfl) rfl fun d => ?_
  unfold Device.createLayout
  split
  · exact Or.inl ⟨_, rfl⟩
  · exact Or.inr ⟨{ d with layoutsCreated := d.layoutsCreated + 1 }, rfl, rfl, rfl⟩

theorem makes_createPool (maxSets : Nat) (sizes : List PoolSize) :
    Makes (createPool maxSets sizes) fun handle => [.pool handle] := by
  refine makes_create (.pool maxSets sizes) nofun (fun _ => rfl) (fun _ => rfl) rfl fun d => ?_
  unfold Device.createPool
  split
  · exact Or.inl ⟨_, rfl⟩
  · exact Or.inr ⟨_, rfl, rfl, rfl⟩

theorem makes_createView (image : Nat) (info : ImageInfo) :
    Makes (createView image info) fun handle => [.view handle] :=
  makes_create (.view image) nofun (fun _ => rfl) (fun _ => rfl) rfl
    fun d => Or.inr ⟨d, rfl, rfl, rfl⟩

theorem makes_createSampler : Makes createSampler fun handle => [.sampler handle] :=
  makes_create .sampler nofun (fun _ => rfl) (fun _ => rfl) rfl
    fun d => Or.inr ⟨d, rfl, rfl, rfl⟩

theorem makes_createModule (words : List UInt32) :
    Makes (createModule words) fun handle => [.module handle] := by
  refine makes_create .module nofun (fun _ => rfl) (fun _ => rfl) rfl fun d => ?_
  unfold Device.createModule
  split
  · exact Or.inl ⟨_, rfl⟩
  · exact Or.inr ⟨_, rfl, rfl, rfl⟩

theorem makes_waitIdle : Makes waitIdle fun _ => [] := by
  intro b hv
  refine ends_attempt _ hv (fun _ => rfl) (fun _ => rfl) rfl (proper_onDevice (.pure _))
    fun a b' h => ?_
  obtain ⟨device, hs, rfl⟩ := onDevice_eq_ok h
  cases hs
  exact (hv.counted _).device_same rfl rfl

theorem frees_destroy {kind : ObjectKind} {handle : Nat} {o : NativeObject}
    {objects : Multiset NativeObject} (hk : kind.object? handle = some o) (ho : o ∈ objects)
    (howner : ∀ x ∈ objects, x.owner = o) :
    Frees (destroy kind handle : Native ε Unit) objects := by
  refine frees_perform rfl hk ho howner fun b hv hmem => ?_
  obtain ⟨device, hdestroy, hheld, hvalid, hnext⟩ :=
    Device.destroy_spec hv.device hk ((Backend.mem_live_object kind hk).mp hmem)
  refine ⟨_, congrArg (Except.map _) hdestroy, ⟨hv.allocator, hvalid⟩, ?_, rfl,
    fun _ hknown => hknown.mono le_rfl hnext.ge⟩
  have hblocks : b.allocator.held.filter (·.owner ≠ o) = b.allocator.held :=
    Multiset.filter_eq_self.mpr fun x hx => by
      obtain ⟨⟨_, block⟩, _, rfl⟩ := Allocator.mem_held.mp hx
      exact block.kind.owner_ne_object hk _
  simp only [Backend.live, Multiset.filter_add, hheld, hblocks]

theorem frees_destroy_one {kind : ObjectKind} {handle : Nat} {o : NativeObject}
    (hk : kind.object? handle = some o) : Frees (destroy kind handle : Native ε Unit) ↑[o] := by
  refine frees_destroy hk (by simp) fun x hx => ?_
  obtain rfl := List.mem_singleton.mp (Multiset.mem_coe.mp hx)
  cases kind <;> cases hk <;> rfl

theorem owns_allocateSets {pool : Nat} {layouts : List Nat} {m : Multiset NativeObject}
    (hpool : .pool pool ∈ m) (hlayouts : ∀ layout ∈ layouts, .layout layout ∈ m) :
    Owns (allocateSets pool layouts) m
      (fun sets => m + ofSets pool sets) m := by
  intro b rest hv hr hlive
  have hheld (o : NativeObject) (ho : o ∈ m) : o ∈ b.live :=
    hlive ▸ Multiset.mem_add.mpr (Or.inr ho)
  have hcases := Device.allocateSets_cases (hv.counted .allocateSets).device
    ((Backend.mem_live_object .pool rfl).mp (hheld _ hpool)) fun layout hl =>
      (Backend.mem_live_object .layout rfl).mp (hheld _ (hlayouts layout hl))
  unfold allocateSets
  refine .get_bind ?_
  split
  · exact .pure ⟨.refl hv, by simp [hlive, ofSets]⟩
  refine (ends_attempt (ofSets pool) hv (fun _ => rfl) (fun _ => rfl) rfl (proper_onDevice ?_)
    ?_).mono (fun sets b' h => ⟨h.1, by rw [h.2, hlive, add_assoc]⟩)
      fun e b' h => ⟨h.1, h.2.trans hlive⟩
  · rcases hcases with ⟨e, hs⟩ | hs
    · exact hs ▸ .fail e
    · exact hs ▸ .pure _
  · intro sets b' h
    obtain ⟨device, hs', rfl⟩ := onDevice_eq_ok h
    rcases hcases with ⟨e, hs⟩ | hs <;> rw [hs] at hs' <;> cases hs'
    exact (hv.counted .allocateSets).allocateSets layouts
      ((Backend.mem_live_object .pool rfl).mp (hheld _ hpool))

theorem exists_updateSets {writes : List DescriptorWrite} (hv : b.Valid)
    (h : ∀ write ∈ writes, ∃ home, .set home write.set.id ∈ b.live) :
    ∃ b', (updateSets writes : Native ε Unit).exec b = (.ok (), b') ∧ b.Reaches b' ∧
      b'.live = b.live := by
  have hall : writes.all (·.set.id ∈ b.device.live .set) := by
    simp only [List.all_eq_true, decide_eq_true_eq]
    intro write hw
    obtain ⟨home, hset⟩ := h write hw
    refine Device.mem_live_set.mpr ⟨home, (Backend.mem_live_iff.mp hset).resolve_left fun ha => ?_⟩
    exact absurd (Allocator.owner_of_mem_held ha) nofun
  have heffect : b.device.updateSets writes = .ok { b.device with
      updates := b.device.updates + 1, writes := b.device.writes ++ writes } := if_pos hall
  have hgrows : b.Grows [] { b with device := { b.device with
      updates := b.device.updates + 1, writes := b.device.writes ++ writes } } :=
    hv.device_same rfl rfl
  have hreaches := hgrows.reaches (.updateSets writes) .done rfl rfl
  exact ⟨_, exec_perform_eq_ok.mpr ⟨_, congrArg (Except.map _) heffect, rfl⟩, hreaches.1,
    hreaches.2.trans (add_zero _)⟩

theorem owns_updateSets {writes : List DescriptorWrite} {m failed : Multiset NativeObject}
    (h : ∀ write ∈ writes, ∃ home, .set home write.set.id ∈ m) :
    Owns (updateSets writes : Native ε Unit) m (fun _ => m) failed := by
  intro b rest hv hr hlive
  obtain ⟨b', hexec, hb, hlive'⟩ := exists_updateSets (ε := ε) hv fun write hw =>
    (h write hw).imp fun _ hset => hlive ▸ Multiset.mem_add.mpr (Or.inr hset)
  exact .of_exec hexec ⟨hb, hlive'.trans hlive⟩

theorem ends_waitIdle (hv : b.Valid) :
    waitIdle.Ends b (fun _ b' => (b.Reaches b' ∧ b'.live = b.live) ∧
        b'.trace = b.trace ++ [⟨.waitIdle, .done⟩])
      fun _ b' => (b.Reaches b' ∧ b'.live = b.live) ∧
        b' = (b.counted .waitIdle).noted .waitIdle .failed := by
  refine (makes_waitIdle hv).exec.mono ?_ ?_
  · rintro _ b' ⟨⟨hb, hlive⟩, hexec⟩
    exact ⟨⟨hb, by simpa using hlive⟩, (exec_onDevice_eq_ok hexec).2⟩
  · rintro e b' ⟨h, hexec⟩
    exact ⟨h, exec_attempt_eq_error hexec⟩

end Device

theorem makes_mapMemory (memory start stop : Nat) :
    Makes (mapMemory memory start stop) fun _ => [] := by
  intro b hv
  refine ends_attempt _ hv (fun _ => rfl) (fun _ => rfl) rfl (proper_onAllocator (.ofExcept _))
    fun a b' h => ?_
  obtain ⟨allocator, hs, rfl⟩ := onAllocator_eq_ok h
  obtain ⟨_, hmap, heq⟩ := Except.map_eq_ok.mp (Except.mapError_eq_ok.mp hs)
  cases heq
  cases Allocator.map_eq_ok hmap
  exact (hv.counted _).allocator_same ⟨rfl, rfl⟩

theorem mapped_of_mapMemory {memory start stop : Nat} {b' : Backend}
    (h : (mapMemory memory start stop).exec b = (.ok (), b')) : 0 < b'.allocator.mapped := by
  obtain ⟨_, hmap, heq⟩ := Except.map_eq_ok.mp
    (Except.mapError_eq_ok.mp (exec_onAllocator_eq_ok h).1)
  obtain rfl := (Prod.mk.inj heq).2
  rw [Allocator.map_eq_ok hmap]
  exact Nat.succ_pos _

theorem makes_writeBytes (allocation : Allocation) (offset : Nat) (data : Bytes) :
    Makes (writeBytes allocation offset data) fun _ => [] := by
  intro b hv
  unfold writeBytes
  dsimp only
  split
  · exact .fail ⟨.refl hv, rfl⟩
  split
  · exact .pure ⟨.refl hv, by simp⟩
  refine .bind ((makes_mapMemory _ _ _ hv).exec.mono ?_ fun _ _ h => h.1)
  rintro _ b₁ ⟨⟨hb, hlive⟩, hexec⟩
  have hmapped := mapped_of_mapMemory hexec
  -- Copying the bytes and taking the mapping back leave every block in place.
  have hsame := Allocator.sameBlocks_modifyMemory b₁.allocator allocation.memory (·.write offset data)
  have hunmap : (b₁.allocator.modifyMemory allocation.memory (·.write offset data)).unmap = .ok
      { b₁.allocator.modifyMemory allocation.memory (·.write offset data) with
        mapped := b₁.allocator.mapped - 1 } := if_neg hmapped.ne'
  refine .bind (f := fun _ => unmapMemory allocation.memory) (Ends.perform (fun b' h => ?_) ?_)
  · cases (congrArg (Except.map _) hunmap).symm.trans h
    have hreaches := (hb.valid.allocator_same (hsame.withMapped (b₁.allocator.mapped - 1))).reaches
      (.unmapMemory allocation.memory) .done rfl rfl
    exact ⟨hb.trans hreaches.1 hv, hreaches.2.trans (by simp [hlive])⟩
  · exact .map _ (hunmap ▸ .pure _)

end Native

end ShaderBinding
