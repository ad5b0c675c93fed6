import ShaderBinding.Proofs.Binder.Backings
import ShaderBinding.Proofs.Binder.Ownership
import ShaderBinding.Proofs.Native.Careful

/-! # Changing what is bound

A write into a buffer makes and releases nothing, and a replaced image takes the place of the old
one among the objects of the binder. The events that both leave on record are told for every
point of failure: an image that cannot be made is released in the order of its making, last first,
and one that is replaced is released after its descriptor was rewritten.
-/

namespace ShaderBinding

open Native Backend Record

variable {ε : Type} {b b' : Backend}

namespace Binder

theorem makes_writeBuffer (binder : Binder) (key : BindingKey) (offset : Nat) (data : Bytes) :
    Makes (binder.writeBuffer key offset data) fun _ => [] := by
  refine .of_owns (.ofExcept_bind fun bound _ => ?_)
  split
  · exact (makes_writeBytes _ _ _).mapError.owns 0
  · exact .fail

section ReplaceImage

variable {binder : Binder} {key : BindingKey} {bound : BoundResource} {backing : Backing}

theorem mem_of_find (h : binder.find key = .ok bound) :
    bound ∈ binder.resources ∧ bound.key = key := by
  unfold find get? at h
  split at h
  · rename_i found hfind
    cases h
    exact ⟨List.mem_of_find?_eq_some hfind, by simpa using List.find?_some hfind⟩
  · cases h

theorem get?_of_find (h : binder.find key = .ok bound) : binder.get? key = some bound := by
  unfold find at h
  split at h
  · rename_i hget
    rw [hget, Except.ok.inj h]
  · cases h

theorem get?_setBacking (binder : Binder) (key other : BindingKey) (backing : Backing) :
    (binder.setBacking key backing).get? other = (binder.get? other).map fun bound =>
      if bound.key = key then { bound with backing := backing } else bound := by
  have hkeys : ((fun bound : BoundResource => decide (bound.key = other)) ∘ fun bound =>
      if bound.key = key then { bound with backing := backing } else bound) =
      fun bound => decide (bound.key = other) := by
    funext bound
    by_cases hkey : bound.key = key <;> simp [hkey]
  rw [get?, setBacking, List.find?_map, hkeys]
  rfl

theorem keys_setBacking (binder : Binder) (key : BindingKey) (backing : Backing) :
    (binder.setBacking key backing).resources.map (·.key) = binder.resources.map (·.key) := by
  simp only [setBacking, List.map_map]
  refine List.map_congr_left fun bound _ => ?_
  by_cases h : bound.key = key <;> simp [h]

theorem Sound.setBacking (h : binder.Sound) (key : BindingKey) (backing : Backing) :
    (binder.setBacking key backing).Sound := by
  refine ⟨keys_setBacking binder key backing ▸ h.nodup, fun bound hmem => ?_⟩
  have hkey : bound.key ∈ binder.resources.map (·.key) :=
    keys_setBacking binder key backing ▸ List.mem_map_of_mem hmem
  obtain ⟨old, hold, heq⟩ := List.mem_map.mp hkey
  exact heq ▸ h.set old hold

theorem flatMap_replace {resources : List BoundResource}
    (hnodup : (resources.map (·.key)).Nodup) (hmem : bound ∈ resources) (backing : Backing) :
    ((resources.map fun other => if other.key = bound.key then { other with backing := backing }
        else other).flatMap (·.backing.objects) : Multiset NativeObject) + bound.backing.objects =
      resources.flatMap (·.backing.objects) + backing.objects := by
  induction resources with
  | nil => cases hmem
  | cons head rest ih =>
    obtain ⟨hhead, hrest⟩ := List.nodup_cons.mp hnodup
    simp only [List.map_cons, List.flatMap_cons, ← Multiset.coe_add]
    rcases List.mem_cons.mp hmem with rfl | hmem
    · have hsame : (rest.map fun other => if other.key = bound.key then
          { other with backing := backing } else other) = rest := by
        refine (List.map_congr_left fun other hother => if_neg fun heq => ?_).trans rest.map_id
        exact hhead (List.mem_map.mpr ⟨other, hother, heq⟩)
      rw [hsame, if_pos rfl]
      dsimp only
      ac_rfl
    · have hne : head.key ≠ bound.key := fun heq =>
        hhead (List.mem_map.mpr ⟨bound, hmem, heq.symm⟩)
      rw [if_neg hne, add_assoc, ih hrest hmem, add_assoc]

theorem objects_setBacking (hs : binder.Sound) (hmem : bound ∈ binder.resources)
    (backing : Backing) :
    ((binder.setBacking bound.key backing).objects : Multiset NativeObject) +
      bound.backing.objects = binder.objects + backing.objects := by
  have hreplace := congrArg (· + ((binder.layouts.flatMap (·.objects) : Multiset NativeObject) +
    ↑(NativeObject.pool binder.pool :: NativeObject.ofSets binder.pool binder.sets)))
    (flatMap_replace hs.nodup hmem backing)
  simp only [objects, setBacking, ← Multiset.coe_add]
  simpa only [add_assoc, add_comm, add_left_comm] using hreplace

theorem owns_replaceImage (hs : binder.Sound) (key : BindingKey) (info : ImageInfo)
    (pixels : Bytes) :
    Owns (binder.replaceImage key info pixels) binder.objects (fun changed => changed.objects)
      binder.objects := by
  refine .ofExcept_bind fun bound hfind => ?_
  obtain ⟨hmem, rfl⟩ := mem_of_find hfind
  cases hbacking : bound.backing with
  | buffer => exact .fail
  | image allocation old view sampler =>
    refine .idle makes_waitIdle.mapError fun _ => ?_
    refine .make (Backing.makes_makeImage _ _ _ _) fun backing => ?_
    obtain ⟨set, hset⟩ := hs.set bound hmem
    refine .ofExcept_ok (by simp only [writeOf, hset]; rfl) ?_
    refine (owns_updateSets fun write hw => ⟨binder.pool, ?_⟩).bind fun _ => ?_
    · obtain rfl := List.mem_singleton.mp hw
      exact Multiset.mem_add.mpr (Or.inl (mem_objects_of_shaderSet? hset))
    · have hobjects := hbacking ▸ objects_setBacking hs hmem backing
      refine Owns.bind (.congr ((Backing.frees_dispose _).owns (closed_objects _)) hobjects.symm
        (fun _ => rfl) rfl) fun _ => .pure rfl

structure Replaced (binder : Binder) (key : BindingKey) (info : ImageInfo) (pixels : Bytes)
    (b : Backend) (changed : Binder) (b' : Backend) where
  bound : BoundResource
  allocation : Allocation
  old : ImageInfo
  view : Nat
  sampler : Option Nat
  backing : Backing
  set : DescriptorSet
  idle : Backend
  made : Backend
  updated : Backend
  find : binder.find key = .ok bound
  image : bound.backing = .image allocation old view sampler
  wait : waitIdle.exec b = (.ok (), idle)
  make : (Backing.makeImage bound.resource.name { info with usage := info.usage ||| old.usage }
    pixels sampler.isSome).exec idle = (.ok backing, made)
  shader : shaderSet? binder.setCount binder.sets key.set = some set
  update : (updateSets [⟨set, key.binding, BoundResource.descriptor { bound with backing }⟩] :
    Native BindError Unit).exec made = (.ok (), updated)
  dispose : (bound.backing.dispose : Native BindError Unit).exec updated = (.ok (), b')
  changed_eq : changed = binder.setBacking key backing

theorem replaced_of_replaceImage {info : ImageInfo} {pixels : Bytes} {changed : Binder}
    (h : (binder.replaceImage key info pixels).exec b = (.ok changed, b')) :
    Nonempty (Replaced binder key info pixels b changed b') := by
  obtain ⟨bound, _, hlookup, h₁⟩ := exec_bind_eq_ok.mp h
  obtain ⟨hfind, rfl⟩ := exec_ofExcept_eq_ok.mp hlookup
  obtain ⟨-, rfl⟩ := mem_of_find hfind
  cases hbacking : bound.backing with
  | buffer => simp [hbacking] at h₁
  | image allocation old view sampler =>
    rw [hbacking] at h₁
    obtain ⟨_, idle, hwait, h₂⟩ := exec_bind_eq_ok.mp h₁
    obtain ⟨backing, _, hmake, h₃⟩ := exec_bind_eq_ok.mp h₂
    obtain ⟨write, made, hchecked, h₄⟩ := exec_bind_eq_ok.mp h₃
    obtain ⟨hwriteOf, rfl⟩ := exec_ofExcept_eq_ok.mp hchecked
    obtain ⟨hshader, hwrite⟩ := writeOf_eq_ok hwriteOf
    rw [hwrite] at h₄
    obtain ⟨_, updated, hupdate, h₅⟩ := exec_bind_eq_ok.mp h₄
    obtain ⟨_, _, hdispose, h₆⟩ := exec_bind_eq_ok.mp h₅
    cases h₆
    exact ⟨⟨bound, allocation, old, view, sampler, backing, write.set, idle, made, updated, hfind,
      hbacking, exec_mapError_eq_ok.mp hwait, hmake, hshader, hupdate, hbacking ▸ hdispose, rfl⟩⟩

theorem sound_of_replaceImage (hs : binder.Sound) {info : ImageInfo} {pixels : Bytes}
    {changed : Binder} (h : (binder.replaceImage key info pixels).exec b = (.ok changed, b')) :
    changed.Sound := by
  obtain ⟨replaced⟩ := replaced_of_replaceImage h
  exact replaced.changed_eq ▸ hs.setBacking key replaced.backing

end ReplaceImage

end Binder

namespace Native

theorem trace_deallocate {kind : BlockKind} {allocation : Allocation} {u : Unit}
    (h : (deallocate kind allocation : Native ε Unit).exec b = (.ok u, b')) :
    b'.trace = b.trace ++ [⟨.deallocate kind allocation.handle, .done⟩] := by
  obtain ⟨allocator, -, rfl⟩ := exec_perform_allocator_eq_ok h
  rfl

theorem trace_destroy {kind : ObjectKind} {handle : Nat} {u : Unit}
    (h : (destroy kind handle : Native ε Unit).exec b = (.ok u, b')) :
    b'.trace = b.trace ++ [⟨.destroy kind handle, .done⟩] := by
  obtain ⟨device, -, rfl⟩ := exec_perform_device_eq_ok h
  rfl

theorem writes_updateSets {writes : List DescriptorWrite} {u : Unit}
    (h : (updateSets writes : Native ε Unit).exec b = (.ok u, b')) :
    b'.device.writes = b.device.writes ++ writes := by
  obtain ⟨device, hdevice, rfl⟩ := exec_perform_device_eq_ok h
  unfold Device.updateSets at hdevice
  split at hdevice <;> cases hdevice
  rfl

theorem trace_of_attempt_error {α : Type} {kind : CallKind} {call : Call} {result : α → CallResult}
    {effect : Backend → Outcome kind.Error (α × Backend)} {e : kind.Error}
    (h : (attempt kind call result effect).exec b = (.error (.error e), b')) :
    b'.trace = b.trace ++ [⟨call, .failed⟩] := by
  rw [exec_attempt_eq_error h]
  rfl

end Native

namespace Backing

def disposeEvents : Backing → List Event
  | buffer allocation => [⟨.deallocate .buffer allocation.handle, .done⟩]
  | image allocation _ view sampler =>
    (sampler.map fun sampler => (⟨.destroy .sampler sampler, .done⟩ : Event)).toList ++
      [⟨.destroy .view view, .done⟩, ⟨.deallocate .image allocation.handle, .done⟩]

theorem trace_dispose {backing : Backing} {u : Unit}
    (h : (backing.dispose : Native ε Unit).exec b = (.ok u, b')) :
    b'.trace = b.trace ++ backing.disposeEvents := by
  have himage {view : Nat} {allocation : Allocation} {b : Backend}
      (h : (do destroy .view view; deallocate .image allocation : Native ε Unit).exec b =
        (.ok u, b')) : b'.trace = b.trace ++
          [⟨.destroy .view view, .done⟩, ⟨.deallocate .image allocation.handle, .done⟩] := by
    obtain ⟨_, b₁, hview, h⟩ := exec_bind_eq_ok.mp h
    rw [trace_deallocate h, trace_destroy hview, List.append_assoc]
    rfl
  rcases backing with allocation | ⟨allocation, info, view, _ | sampler⟩
  · exact trace_deallocate h
  · exact himage h
  · obtain ⟨_, b₁, hsampler, h⟩ := exec_bind_eq_ok.mp h
    rw [himage h, trace_destroy hsampler, List.append_assoc]
    rfl

theorem released_disposeEvents (backing : Backing) :
    released backing.disposeEvents = backing.objects.reverse := by
  rcases backing with _ | ⟨_, _, _, _ | _⟩ <;> rfl

theorem created_disposeEvents (backing : Backing) : created backing.disposeEvents = [] := by
  rcases backing with _ | ⟨_, _, _, _ | _⟩ <;> rfl

theorem quiet_dispose (backing : Backing) : (backing.dispose : Native ε Unit).Quiet := by
  have himage (view : Nat) (allocation : Allocation) :
      (do destroy .view view; deallocate .image allocation : Native ε Unit).Quiet :=
    .bind .perform fun _ => .perform
  rcases backing with allocation | ⟨allocation, info, view, _ | sampler⟩
  · exact .perform
  · exact himage _ _
  · exact .bind .perform fun _ => himage _ _

inductive ImageFails (name : String) (info : ImageInfo) (pixels : Bytes) : List Event → Prop where

  | allocate : ImageFails name info pixels [⟨.allocateImage info name, .failed⟩]

  | transfer (handle : Nat) : ImageFails name info pixels
      [⟨.allocateImage info name, .handle handle⟩, ⟨.transferImage handle info pixels, .failed⟩,
        ⟨.deallocate .image handle, .done⟩]

  | view (handle : Nat) : ImageFails name info pixels
      [⟨.allocateImage info name, .handle handle⟩, ⟨.transferImage handle info pixels, .done⟩,
        ⟨.createView handle info, .failed⟩, ⟨.deallocate .image handle, .done⟩]

  | sampler (handle view : Nat) : ImageFails name info pixels
      [⟨.allocateImage info name, .handle handle⟩, ⟨.transferImage handle info pixels, .done⟩,
        ⟨.createView handle info, .handle view⟩, ⟨.createSampler, .failed⟩,
        ⟨.destroy .view view, .done⟩, ⟨.deallocate .image handle, .done⟩]

variable {name : String} {info : ImageInfo} {pixels : Bytes} {sampled : Bool}

theorem makeImage_eq_error {e : BindError}
    (h : (makeImage name info pixels sampled).exec b = (.error (.error e), b')) :
    ∃ events, ImageFails name info pixels events ∧ b'.trace = b.trace ++ events := by
  rcases exec_bind_eq_error.mp h with h | ⟨allocation, b₁, hallocate, h⟩
  · obtain ⟨_, -, h⟩ := exec_mapError_eq_error.mp h
    exact ⟨_, .allocate, trace_of_attempt_error h⟩
  have h₁ := (exec_onAllocator_eq_ok (exec_mapError_eq_ok.mp hallocate)).2
  obtain ⟨b₂, h, hundo⟩ := (exec_withUndo_eq_error .perform).mp h
  have hfreed := trace_deallocate hundo
  rcases exec_bind_eq_error.mp h with h | ⟨_, b₃, htransfer, h⟩
  · obtain ⟨_, -, h⟩ := exec_mapError_eq_error.mp h
    refine ⟨_, .transfer allocation.handle, ?_⟩
    rw [hfreed, trace_of_attempt_error h, h₁]
    simp
  have h₃ := (exec_onAllocator_eq_ok (exec_mapError_eq_ok.mp htransfer)).2
  rcases exec_bind_eq_error.mp h with h | ⟨view, b₄, hview, h⟩
  · obtain ⟨_, -, h⟩ := exec_mapError_eq_error.mp h
    refine ⟨_, .view allocation.handle, ?_⟩
    rw [hfreed, trace_of_attempt_error h, h₃, h₁]
    simp
  have h₄ := (exec_onDevice_eq_ok (exec_mapError_eq_ok.mp hview)).2
  obtain ⟨b₅, h, hundo'⟩ := (exec_withUndo_eq_error .perform).mp h
  have hdestroyed := trace_destroy hundo'
  cases sampled with
  | false => cases h
  | true =>
    rcases exec_bind_eq_error.mp h with h | ⟨_, _, -, h⟩
    · rcases exec_bind_eq_error.mp h with h | ⟨_, _, -, h⟩
      · obtain ⟨_, -, h⟩ := exec_mapError_eq_error.mp h
        refine ⟨_, .sampler allocation.handle view, ?_⟩
        rw [hfreed, hdestroyed, trace_of_attempt_error h, h₄, h₃, h₁]
        simp
      · cases h
    · cases h

end Backing

section Careful

variable {live : Multiset NativeObject} {past events : List Event}

theorem created_imageEvents (name : String) (info : ImageInfo) (pixels : Bytes)
    (allocation : Allocation) (view : Nat) (sampler : Option Nat) :
    created (Backing.imageEvents name info pixels allocation view sampler) =
      (Backing.image allocation info view sampler).objects := by
  cases sampler <;> rfl

theorem released_imageEvents (name : String) (info : ImageInfo) (pixels : Bytes)
    (allocation : Allocation) (view : Nat) (sampler : Option Nat) :
    released (Backing.imageEvents name info pixels allocation view sampler) = [] := by
  cases sampler <;> rfl

theorem careful_imageEvents (hpast : released past = []) (name : String) (info : ImageInfo)
    (pixels : Bytes) (allocation : Allocation) (view : Nat) (sampler : Option Nat) :
    Careful live past (Backing.imageEvents name info pixels allocation view sampler) := by
  cases sampler <;>
    simp [Backing.imageEvents, Backing.samplerEvent, Careful, Call.Uses, Alive, created_cons,
      created_nil, Event.created, released_cons, released_nil, Event.released?, hpast]

theorem Backing.ImageFails.careful {name : String} {info : ImageInfo} {pixels : Bytes}
    (h : ImageFails name info pixels events) (hpast : released past = []) :
    Careful live past events := by
  cases h <;>
    simp [Careful, Call.Uses, Alive, created_cons, created_nil, Event.created, released_cons,
      released_nil, Event.released?, hpast, BlockKind.object, ObjectKind.object?,
      NativeObject.owner]

theorem Backing.careful_dispose {backing : Backing} (h : ∀ o ∈ backing.objects, Alive live past o) :
    Careful live past backing.disposeEvents := by
  rcases backing with allocation | ⟨allocation, info, view, _ | sampler⟩ <;>
    simp_all [Backing.objects, disposeEvents, Careful, Call.Uses, Alive, created_append,
      created_cons, created_nil, Event.created, released_append, released_cons, released_nil,
      Event.released?, BlockKind.object, ObjectKind.object?, NativeObject.owner]

end Careful

namespace Native

theorem leaves_writeBytes {R : Backend → Backend → Prop} [IsPreorder Backend R]
    {allocation : Allocation} {offset : Nat} {data : Bytes}
    (hmap : ∀ b start stop, (mapMemory allocation.memory start stop).Leaves R b)
    (hcopy : ∀ b offset data, (copyIn allocation.memory offset data :
      Native MappingError Unit).Leaves R b)
    (hunmap : ∀ b, (unmapMemory allocation.memory : Native MappingError Unit).Leaves R b) :
    (writeBytes allocation offset data).Leaves R b := by
  unfold writeBytes
  dsimp only
  split
  · exact .fail _
  split
  · exact .pure _
  exact .bind (hmap _ _ _) fun _ _ _ => .bind (hcopy _ _ _) fun _ _ _ => hunmap _

end Native

theorem keeps_writes : BackingCalls (Keeps (·.device.writes)) where
  allocateBuffer := .keeps_onAllocator (fun _ _ _ => rfl) fun _ _ _ _ => rfl
  allocateImage := .keeps_onAllocator (fun _ _ _ => rfl) fun _ _ _ _ => rfl
  transferImage := .keeps_onAllocator (fun _ _ _ => rfl) fun _ _ _ _ => rfl
  createView := .keeps_onDevice (fun _ _ _ => rfl) fun _ _ _ h => by cases h; rfl
  createSampler := .keeps_onDevice (fun _ _ _ => rfl) fun _ _ _ h => by cases h; rfl
  destroy := .keeps_performDevice (fun _ _ _ => rfl) fun device hdevice => by
    unfold Device.destroy at hdevice
    split at hdevice <;> cases hdevice
    rfl
  deallocate := .keeps_performAllocator (fun _ _ _ => rfl) fun _ _ => rfl

theorem leaves_waitIdle_writes : waitIdle.Leaves (Keeps (·.device.writes)) b :=
  .keeps_onDevice (fun _ _ _ => rfl) fun _ _ _ h => by cases h; rfl

namespace Binder

variable {binder : Binder} {key : BindingKey}

theorem leaves_writeBuffer {R : Backend → Backend → Prop} [IsPreorder Backend R] {offset : Nat}
    {data : Bytes} (h : ∀ bound allocation, binder.find key = .ok bound →
      bound.backing = .buffer allocation → (writeBytes allocation offset data).Leaves R b) :
    (binder.writeBuffer key offset data).Leaves R b := by
  refine .ofExcept_bind (refl b) fun bound hfind => ?_
  cases hbacking : bound.backing with
  | buffer allocation => exact .mapError (h bound allocation hfind hbacking)
  | image => exact .fail _

theorem leaves_writeBuffer_writes (offset : Nat) (data : Bytes) :
    (binder.writeBuffer key offset data).Leaves (Keeps (·.device.writes)) b := by
  refine leaves_writeBuffer fun _ _ _ _ => leaves_writeBytes (fun _ _ _ => ?_) (fun _ _ _ => rfl)
    fun _ => .keeps_performAllocator (fun _ _ _ => rfl) fun _ _ => rfl
  exact .keeps_onAllocator (fun _ _ _ => rfl) fun _ _ _ _ => rfl

namespace Replaced

variable {info : ImageInfo} {pixels : Bytes} {changed : Binder}

theorem trace_eq (replaced : Replaced binder key info pixels b changed b') :
    ∃ allocation view sampler,
      replaced.backing = .image allocation { info with usage := info.usage ||| replaced.old.usage }
        view sampler ∧ sampler.isSome = replaced.sampler.isSome ∧
      b'.trace = b.trace ++ (⟨.waitIdle, .done⟩ ::
        (Backing.imageEvents replaced.bound.resource.name
          { info with usage := info.usage ||| replaced.old.usage } pixels allocation view sampler ++
        ⟨.updateSets [⟨replaced.set, key.binding,
          BoundResource.descriptor { replaced.bound with backing := replaced.backing }⟩], .done⟩ ::
        replaced.bound.backing.disposeEvents)) := by
  obtain ⟨allocation, view, sampler, hbacking, hsampler, hmade⟩ :=
    Backing.makeImage_eq_ok replaced.make
  refine ⟨allocation, view, sampler, hbacking, hsampler, ?_⟩
  rw [Backing.trace_dispose replaced.dispose, trace_updateSets replaced.update, hmade,
    (exec_onDevice_eq_ok replaced.wait).2]
  simp only [List.append_assoc, List.cons_append, List.nil_append]

theorem writes_eq (replaced : Replaced binder key info pixels b changed b') :
    b'.device.writes = b.device.writes ++ [⟨replaced.set, key.binding,
      BoundResource.descriptor { replaced.bound with backing := replaced.backing }⟩] := by
  have hwait : replaced.idle.device.writes = b.device.writes :=
    leaves_waitIdle_writes.rel replaced.wait
  have hmake : replaced.made.device.writes = replaced.idle.device.writes :=
    (Backing.leaves_makeImage keeps_writes.fresh _ _ _ _).rel replaced.make
  have hdispose : b'.device.writes = replaced.updated.device.writes :=
    (Backing.leaves_dispose keeps_writes.fresh _).rel replaced.dispose
  rw [hdispose, writes_updateSets replaced.update, hmake, hwait]

end Replaced

/-- A replacement fails before anything of the old image is touched, and undoes what it made. -/
theorem replaceImage_eq_error (hs : binder.Sound) {info : ImageInfo} {pixels : Bytes}
    {e : BindError} (h : (binder.replaceImage key info pixels).exec b = (.error (.error e), b')) :
    b'.device.writes = b.device.writes ∧
      ∃ events, b'.trace = b.trace ++ events ∧ ∀ live, Careful live [] events := by
  rcases exec_bind_eq_error.mp h with h | ⟨bound, _, hlookup, h₁⟩
  · obtain rfl : b' = b := by simpa using (congrArg Prod.snd h).symm
    exact ⟨rfl, [], by simp, fun _ => trivial⟩
  obtain ⟨hfind, rfl⟩ := exec_ofExcept_eq_ok.mp hlookup
  obtain ⟨hmem, rfl⟩ := mem_of_find hfind
  cases hbacking : bound.backing with
  | buffer =>
    rw [hbacking] at h₁
    cases h₁
    exact ⟨rfl, [], by simp, fun _ => trivial⟩
  | image allocation old view sampler =>
    rw [hbacking] at h₁
    rcases exec_bind_eq_error.mp h₁ with h₁ | ⟨_, idle, hwait, h₂⟩
    · obtain ⟨_, -, hwait⟩ := exec_mapError_eq_error.mp h₁
      refine ⟨leaves_waitIdle_writes.rel hwait, _, trace_of_attempt_error hwait, fun live => ?_⟩
      exact ⟨trivial, trivial⟩
    have hidle := exec_mapError_eq_ok.mp hwait
    rcases exec_bind_eq_error.mp h₂ with h₂ | ⟨backing, _, hmake, h₃⟩
    · obtain ⟨events, hfails, htrace⟩ := Backing.makeImage_eq_error h₂
      refine ⟨?_, ⟨.waitIdle, .done⟩ :: events, ?_, fun live => ⟨trivial, hfails.careful rfl⟩⟩
      · exact ((Backing.leaves_makeImage keeps_writes.fresh _ _ _ _).rel h₂).trans
          (leaves_waitIdle_writes.rel hidle)
      · rw [htrace, (exec_onDevice_eq_ok hidle).2, List.append_assoc]
        rfl
    obtain ⟨set, hset⟩ := hs.set bound hmem
    rcases exec_bind_eq_error.mp h₃ with h₃ | ⟨write, _, hchecked, h₄⟩
    · simp [writeOf, hset, Except.mapError] at h₃
    rcases exec_bind_eq_error.mp h₄ with h₄ | ⟨_, updated, hupdate, h₅⟩
    · exact absurd h₄ (Quiet.perform _ _ _)
    rcases exec_bind_eq_error.mp h₅ with h₅ | ⟨_, _, -, h₆⟩
    · exact absurd h₅ (Backing.quiet_dispose _ _ _ _)
    · cases h₆

end Binder

end ShaderBinding
