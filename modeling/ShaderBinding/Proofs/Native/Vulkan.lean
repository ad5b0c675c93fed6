import Mathlib.Data.List.Nodup
import ShaderBinding.Native.Vulkan
import ShaderBinding.Proofs.Binder.Bound

/-! # Descriptor updates

An update has its buffer records and its image records in two lists, and its writes refer to them
by position. However buffers and images alternate, every write refers to the record of its own
descriptor, no two writes share one, and every record has its write.
-/

namespace ShaderBinding.Vulkan

/-- What a record says of a descriptor. A sampled image is read in layout 5, which is for reading
only, and a storage image in layout 1, which is for everything. -/
inductive Describes : BufferRecord ⊕ ImageRecord → Descriptor → Prop where

  | uniformBuffer {buffer start stop length : Nat} : start + length = stop →
      Describes (.inl ⟨buffer, start, length⟩) (.uniformBuffer buffer start stop)

  | storageBuffer {buffer start stop length : Nat} : start + length = stop →
      Describes (.inl ⟨buffer, start, length⟩) (.storageBuffer buffer start stop)

  | combinedImageSampler {sampler view : Nat} :
      Describes (.inr ⟨sampler, view, 5⟩) (.combinedImageSampler sampler view)

  | storageImage {view : Nat} : Describes (.inr ⟨0, view, 1⟩) (.storageImage view)

/-- A write as an update has it. It is for one element and refers to one record. -/
structure Update.Encodes (update : Update) (raw : RawWrite) (write : DescriptorWrite) : Prop where
  set : raw.set = write.set.id
  binding : raw.binding = write.binding
  element : raw.element = 0
  count : raw.count = 1
  type : raw.type = descriptorType write.descriptor.type
  record : ∃ record, update.resolve raw.info = some record ∧ Describes record write.descriptor

/-- An update carries out writes, in their order, by records of their own. -/
structure Update.CarriesOut (update : Update) (writes : List DescriptorWrite) : Prop where
  writes : List.Forall₂ update.Encodes update.writes writes
  apart : (update.writes.map (·.info)).Nodup
  used : ∀ ref, (update.resolve ref).isSome ↔ ref ∈ update.writes.map (·.info)

def bufferRecords (writes : List DescriptorWrite) : List BufferRecord :=
  writes.filterMap fun write => bufferRecord? write.descriptor

def imageRecords (writes : List DescriptorWrite) : List ImageRecord :=
  writes.filterMap fun write => imageRecord? write.descriptor

variable {update : Update} {write : DescriptorWrite} {rest writes : List DescriptorWrite}

def RawWrite.of (write : DescriptorWrite) (info : RecordRef) : RawWrite :=
  ⟨write.set.id, write.binding, 0, 1, descriptorType write.descriptor.type, info⟩

/-- What a write is in both passes: it adds a record for a buffer and refers to the next of those,
or it does so for an image. -/
theorem buffer_or_image (write : DescriptorWrite) (rest : List DescriptorWrite) :
    (∃ record, bufferRecords (write :: rest) = record :: bufferRecords rest ∧
      imageRecords (write :: rest) = imageRecords rest ∧
      (hasLength write.descriptor → Describes (.inl record) write.descriptor) ∧
      ∀ i j, refer i j (write :: rest) = .of write (.buffer i) :: refer (i + 1) j rest) ∨
    ∃ record, imageRecords (write :: rest) = record :: imageRecords rest ∧
      bufferRecords (write :: rest) = bufferRecords rest ∧
      Describes (.inr record) write.descriptor ∧
      ∀ i j, refer i j (write :: rest) = .of write (.image j) :: refer i (j + 1) rest := by
  obtain ⟨set, binding, descriptor⟩ := write
  cases descriptor with
  | uniformBuffer buffer start stop =>
    refine Or.inl ⟨⟨buffer, start, stop - start⟩, rfl, rfl, fun h => ?_, fun _ _ => rfl⟩
    exact .uniformBuffer (Nat.add_sub_cancel' (of_decide_eq_true h))
  | storageBuffer buffer start stop =>
    refine Or.inl ⟨⟨buffer, start, stop - start⟩, rfl, rfl, fun h => ?_, fun _ _ => rfl⟩
    exact .storageBuffer (Nat.add_sub_cancel' (of_decide_eq_true h))
  | combinedImageSampler sampler view =>
    exact Or.inr ⟨⟨sampler, view, 5⟩, rfl, rfl, .combinedImageSampler, fun _ _ => rfl⟩
  | storageImage view => exact Or.inr ⟨⟨0, view, 1⟩, rfl, rfl, .storageImage, fun _ _ => rfl⟩

theorem encodes_of {info : RecordRef} {record : BufferRecord ⊕ ImageRecord}
    (hinfo : update.resolve info = some record) (hrecord : Describes record write.descriptor) :
    update.Encodes (.of write info) write :=
  ⟨rfl, rfl, rfl, rfl, rfl, record, hinfo, hrecord⟩

theorem forall₂_refer (buffers : List BufferRecord) (images : List ImageRecord)
    (hwrites : ∀ write ∈ writes, hasLength write.descriptor)
    (hbuffers : update.buffers = buffers ++ bufferRecords writes)
    (himages : update.images = images ++ imageRecords writes) :
    List.Forall₂ update.Encodes (refer buffers.length images.length writes) writes := by
  induction writes generalizing buffers images with
  | nil => exact .nil
  | cons write rest ih =>
    obtain ⟨hwrite, hrest⟩ := List.forall_mem_cons.mp hwrites
    rcases buffer_or_image write rest with
      ⟨record, hbuffer, himage, hrecord, hrefer⟩ | ⟨record, himage, hbuffer, hrecord, hrefer⟩
    · rw [hbuffer, List.append_cons] at hbuffers
      rw [himage] at himages
      rw [hrefer]
      refine .cons (encodes_of ?_ (hrecord hwrite)) ?_
      · simp [Update.resolve, hbuffers]
      · simpa using ih _ _ hrest hbuffers himages
    · rw [himage, List.append_cons] at himages
      rw [hbuffer] at hbuffers
      rw [hrefer]
      refine .cons (encodes_of ?_ hrecord) ?_
      · simp [Update.resolve, himages]
      · simpa using ih _ _ hrest hbuffers himages

theorem refs_perm (writes : List DescriptorWrite) (i j : Nat) :
    ((refer i j writes).map (·.info)).Perm
      ((List.range' i (bufferRecords writes).length).map .buffer ++
        (List.range' j (imageRecords writes).length).map .image) := by
  induction writes generalizing i j with
  | nil => exact .nil
  | cons write rest ih =>
    rcases buffer_or_image write rest with
      ⟨record, hbuffer, himage, -, hrefer⟩ | ⟨record, himage, hbuffer, -, hrefer⟩
    · rw [hrefer, hbuffer, himage]
      exact (ih (i + 1) j).cons _
    · rw [hrefer, hbuffer, himage]
      exact ((ih i (j + 1)).cons _).trans List.perm_middle.symm

theorem nodup_refs (writes : List DescriptorWrite) :
    ((refer 0 0 writes).map (·.info)).Nodup := by
  rw [(refs_perm writes 0 0).nodup_iff]
  have hbuffers := List.nodup_range' (s := 0) (n := (bufferRecords writes).length)
  have himages := List.nodup_range' (s := 0) (n := (imageRecords writes).length)
  refine List.nodup_append.mpr ⟨?_, ?_, ?_⟩
  · exact List.Nodup.map (fun _ _ => RecordRef.buffer.inj) hbuffers
  · exact List.Nodup.map (fun _ _ => RecordRef.image.inj) himages
  · simp

theorem isSome_resolve_iff (writes : List DescriptorWrite) (ref : RecordRef) :
    ((Update.ofWrites writes).resolve ref).isSome ↔ ref ∈ (refer 0 0 writes).map (·.info) := by
  rw [(refs_perm writes 0 0).mem_iff]
  cases ref with
  | buffer i => simp [Update.resolve, Update.ofWrites, bufferRecords]
  | image i => simp [Update.resolve, Update.ofWrites, imageRecords]

theorem carriesOut_ofWrites (hwrites : ∀ write ∈ writes, hasLength write.descriptor) :
    (Update.ofWrites writes).CarriesOut writes where
  writes := forall₂_refer [] [] hwrites rfl rfl
  apart := nodup_refs writes
  used := isSome_resolve_iff writes

theorem update_eq_ok_iff : Vulkan.update writes = .ok update ↔
    (∀ write ∈ writes, hasLength write.descriptor) ∧ update = .ofWrites writes := by
  unfold Vulkan.update
  rw [← List.all_eq_true]
  constructor
  · intro h
    split at h
    · rename_i hall
      cases h
      exact ⟨hall, rfl⟩
    · cases h
  · rintro ⟨hall, rfl⟩
    exact if_pos hall

theorem hasLength_descriptor (bound : BoundResource) : hasLength bound.descriptor := by
  unfold BoundResource.descriptor
  split
  · split <;> simp [hasLength]
  · rfl
  · rfl

/-- The writes for bound resources always go through. -/
theorem update_bound {setCount : Nat} {sets : List DescriptorSet} {resources : List BoundResource}
    (h : resources.mapM (Binder.writeOf setCount sets) = .ok writes) :
    ∃ update, Vulkan.update writes = .ok update ∧ update.CarriesOut writes := by
  have hwrites : ∀ write ∈ writes, hasLength write.descriptor := by
    intro write hwrite
    obtain ⟨bound, -, hbound⟩ := exists_left_of_forall₂ (Except.mapM_eq_ok.mp h) hwrite
    rw [(Binder.writeOf_eq_ok hbound).2]
    exact hasLength_descriptor bound
  exact ⟨_, update_eq_ok_iff.mpr ⟨hwrites, rfl⟩, carriesOut_ofWrites hwrites⟩

theorem exists_call {ε : Type} (b : Backend)
    (h : ∀ write ∈ writes, write.set.id ∈ b.device.live .set) :
    ∃ b', (Native.updateSets writes : Native ε Unit).exec b = (.ok (), b') ∧
      b'.trace = b.trace ++ [⟨.updateSets writes, .done⟩] := by
  have hall : writes.all (·.set.id ∈ b.device.live .set) := by simpa using h
  have heffect : b.device.updateSets writes = .ok { b.device with
      updates := b.device.updates + 1, writes := b.device.writes ++ writes } := if_pos hall
  have hexec : ∃ b', (Native.updateSets writes : Native ε Unit).exec b = (.ok (), b') :=
    ⟨_, Native.exec_perform_eq_ok.mpr ⟨_, congrArg (Except.map _) heffect, rfl⟩⟩
  obtain ⟨b', hb'⟩ := hexec
  exact ⟨b', hb', Native.trace_updateSets hb'⟩

/--
Updating descriptors is one call. Whenever every range of a buffer has a length, it goes through,
and its writes are for the sets, bindings and types of the descriptor writes at their places. Each
refers to one record, which says what its own descriptor does; no record is shared and none is
left over, and no reference leads out of the lists.
-/
theorem update_exact (writes : List DescriptorWrite) :
    ((∃ update, Vulkan.update writes = .ok update) ↔
      ∀ write ∈ writes, hasLength write.descriptor) ∧
    (∀ update, Vulkan.update writes = .ok update → update.CarriesOut writes) ∧
    ∀ (ε : Type) (b : Backend), (∀ write ∈ writes, write.set.id ∈ b.device.live .set) →
      ∃ b', (Native.updateSets writes : Native ε Unit).exec b = (.ok (), b') ∧
        b'.trace = b.trace ++ [⟨.updateSets writes, .done⟩] := by
  refine ⟨⟨?_, ?_⟩, ?_, fun ε b => exists_call b⟩
  · rintro ⟨update, h⟩
    exact (update_eq_ok_iff.mp h).1
  · intro hwrites
    exact ⟨_, update_eq_ok_iff.mpr ⟨hwrites, rfl⟩⟩
  · intro update h
    obtain ⟨hwrites, rfl⟩ := update_eq_ok_iff.mp h
    exact carriesOut_ofWrites hwrites

/-- Images and buffers in turn. -/
example :
    let set : DescriptorSet := ⟨7, 0⟩
    (Vulkan.update [⟨set, 0, .storageImage 10⟩, ⟨set, 1, .uniformBuffer 20 0 64⟩,
      ⟨set, 2, .combinedImageSampler 30 11⟩, ⟨set, 3, .storageBuffer 21 16 48⟩]).map
        (fun update => update.writes.map fun raw => (raw.binding, update.resolve raw.info)) =
      .ok [(0, some (.inr ⟨0, 10, 1⟩)), (1, some (.inl ⟨20, 0, 64⟩)),
        (2, some (.inr ⟨30, 11, 5⟩)), (3, some (.inl ⟨21, 16, 32⟩))] := rfl

end ShaderBinding.Vulkan
