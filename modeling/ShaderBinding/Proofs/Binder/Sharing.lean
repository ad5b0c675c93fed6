import Mathlib.Data.List.Perm.Basic
import ShaderBinding.Proofs.Binder.Errors
import ShaderBinding.Proofs.Binder.Intact
import ShaderBinding.Proofs.Binder.Sparing

/-! # Binders that share a backend

Binders are made, edited and released in any order on one backend, and every call may fail. All
along their objects are all that has come to be live, nothing stays mapped, and behind each of
their descriptors is memory of the size that is on record for it.
-/

namespace ShaderBinding

open Native Backend

variable {start b b' : Backend}

namespace Binder

/-- What is done to binders that share a backend; the latest binder is the first. -/
inductive Act where
  | bind (layout : LayoutMap) (options : BindOptions)
  | edit (index : Nat) (change : Edit)
  | dispose (index : Nat)
  deriving DecidableEq, Repr

namespace Act

def op (binders : List Binder) : Act → Native BindError (List Binder)
  | .bind layout options => do
    let binder ← Binder.bind layout options
    return binder :: binders
  | .edit index change =>
    match binders[index]? with
    | some binder => do
      let changed ← change.op binder
      return binders.set index changed
    | none => return binders
  | .dispose index =>
    match binders[index]? with
    | some binder => do
      binder.dispose
      return binders.eraseIdx index
    | none => return binders

/-- Act on binders. An act that fails keeps them, and a fault ends it all. -/
def make (current : List Binder × Backend) (act : Act) : Checked (List Binder × Backend) :=
  match (act.op current.1).exec current.2 with
  | (.ok binders, b) => .ok (binders, b)
  | (.error (.error _), b) => .ok (current.1, b)
  | (.error (.fault fault), _) => .error fault

def makeAll (acts : List Act) (current : List Binder × Backend) :
    Checked (List Binder × Backend) := acts.foldlM make current

end Act

def allObjects (binders : List Binder) : Multiset NativeObject := binders.flatMap (·.objects)

/-- What acts preserve. -/
structure Shared (start : Backend) (binders : List Binder) (b : Backend) : Prop where
  valid : b.Valid
  live_eq : b.live = start.live + allObjects binders
  mapped : b.allocator.mapped = start.allocator.mapped
  sound : ∀ binder ∈ binders, binder.Sound
  backs : ∀ binder ∈ binders, ∀ bound ∈ binder.resources, b.Backs bound.backing.allocation

variable {binder changed : Binder} {binders others : List Binder}

@[simp] theorem allObjects_cons (binder : Binder) (others : List Binder) :
    allObjects (binder :: others) = binder.objects + allObjects others := by
  simp [allObjects, ← Multiset.coe_add]

theorem mem_allObjects (hmem : binder ∈ binders) {o : NativeObject} (ho : o ∈ binder.objects) :
    o ∈ allObjects binders := Multiset.mem_coe.mpr (List.mem_flatMap.mpr ⟨binder, hmem, ho⟩)

theorem closed_allObjects (binders : List Binder) : NativeObject.Closed (allObjects binders) := by
  induction binders with
  | nil => exact .zero
  | cons binder others ih =>
    rw [allObjects_cons]
    exact (closed_objects binder).add ih

theorem Edit.extends_op (change : Edit) (binder : Binder) :
    (change.op binder).Leaves (Extends fun _ => True) b := by
  cases change with
  | write key offset data =>
    refine .bind (leaves_writeBuffer fun _ _ _ _ => ?_) fun _ _ _ => .pure _
    exact leaves_writeBytes (fun _ _ _ => .onAllocator fun _ => trivial)
      (fun _ _ _ => .of_eq rfl rfl) fun _ => .performAllocator trivial
  | replace key info pixels =>
    exact leaves_replaceImage extendsCalls.fresh extendsLayoutCalls binder key info pixels

theorem Act.extends_op (act : Act) (binders : List Binder) :
    (act.op binders).Leaves (Extends fun _ => True) b := by
  cases act with
  | bind layout options => exact .bind (extends_bind layout options) fun _ _ _ => .pure _
  | edit index change =>
    simp only [Act.op]
    split
    · exact .bind (change.extends_op _) fun _ _ _ => .pure _
    · exact .pure _
  | dispose index =>
    simp only [Act.op]
    split
    · exact .bind (extends_dispose _) fun _ _ _ => .pure _
    · exact .pure _

theorem Act.extends_makeAll {acts : List Act}
    (hrun : Act.makeAll acts (binders, b) = .ok (others, b')) : b.Extends (fun _ => True) b' := by
  induction acts generalizing binders b with
  | nil =>
    cases hrun
    exact refl _
  | cons act rest ih =>
    obtain ⟨⟨middle, b₁⟩, hmiddle, hrest⟩ := Except.bind_eq_ok.mp hrun
    refine IsTrans.trans _ _ _ ?_ (ih hrest)
    unfold Act.make at hmiddle
    rcases hexec : (act.op binders).exec b with ⟨(fault | e) | changed, b₂⟩ <;>
      rw [hexec] at hmiddle <;> cases hmiddle <;> exact (act.extends_op binders).rel hexec

theorem backs_of_bind {layout : LayoutMap} {options : BindOptions} (hv : b.Valid)
    (h : (bind layout options).exec b = (.ok binder, b')) :
    ∀ bound ∈ binder.resources, b'.Backs bound.backing.allocation := by
  obtain ⟨built⟩ := built_of_bind h
  obtain ⟨hnew, -, hstarts⟩ := starts_of_built hv built
  intro bound hmem
  obtain ⟨_, -, _, hstart⟩ := exists_left_of_forall₂ hstarts hmem
  refine ⟨by rw [hstart.allocation], hstart.size, ?_⟩
  rw [(hnew bound hmem).bytes, (hnew bound hmem).size, Option.map_some]

theorem Replaced.backs {key : BindingKey} {info : ImageInfo} {pixels : Bytes}
    (replaced : Replaced binder key info pixels b changed b') (hv : b.Valid)
    (hlive : ∀ o ∈ replaced.backing.objects, o ∈ b'.live) :
    b'.Backs replaced.backing.allocation ∧
      b'.allocator.bytes? replaced.backing.allocation.memory = some pixels := by
  have hidle := ((makes_waitIdle hv).of_ok replaced.wait).1.valid
  obtain ⟨hmade, hmadeLive⟩ := (Backing.makes_makeImage _ _ _ _ hidle).of_ok replaced.make
  obtain ⟨_, _, _, himage, -⟩ := Backing.makeImage_eq_ok replaced.make
  obtain ⟨block, hadded⟩ := Backing.added_of_makeImage hidle.allocator replaced.make
  obtain ⟨hbacks, hbytes⟩ := hadded.backs hidle.allocator
  have hspares : replaced.made.Spares replaced.made.allocator.next b' :=
    IsTrans.trans _ _ _ (Spares.layoutCalls.updateSets.rel replaced.update)
      ((Backing.leaves_dispose Spares.freshCalls _).rel replaced.dispose)
  obtain ⟨kind, hkind⟩ := replaced.backing.exists_mem_objects
  have hkindMade : kind.object replaced.backing.allocation.handle ∈ replaced.made.live :=
    hmadeLive ▸ Multiset.mem_add.mpr (Or.inr hkind)
  refine ⟨hbacks.spared hspares hmade.valid hkindMade (hlive _ hkind), ?_⟩
  rw [hspares.bytes?_eq hmade.valid (hbacks.memory ▸ hkindMade) (hbacks.memory ▸ hlive _ hkind),
    hbytes, himage]
  rfl

namespace Shared

theorem refl (hstart : start.Valid) : Shared start [] start :=
  ⟨hstart, (add_zero _).symm, rfl, by simp, by simp⟩

theorem perm (h : Shared start binders b) (hperm : binders.Perm others) :
    Shared start others b where
  valid := h.valid
  live_eq := h.live_eq.trans (congrArg (start.live + ·)
    (Multiset.coe_eq_coe.mpr (hperm.flatMap_right _)))
  mapped := h.mapped
  sound binder hmem := h.sound binder (hperm.mem_iff.mpr hmem)
  backs binder hmem := h.backs binder (hperm.mem_iff.mpr hmem)

theorem mem_live (h : Shared start binders b) (hmem : binder ∈ binders) {o : NativeObject}
    (ho : o ∈ binder.objects) : o ∈ b.live :=
  h.live_eq ▸ Multiset.mem_add.mpr (Or.inr (mem_allObjects hmem ho))

theorem live_cons (h : Shared start (binder :: others) b) :
    b.live = start.live + allObjects others + binder.objects := by
  rw [h.live_eq, allObjects_cons, add_assoc, add_comm (binder.objects : Multiset NativeObject)]

/-- Memory in use is spared as long as the objects of its resource are live. -/
theorem backs_spared (h : Shared start binders b) (hspares : b.Spares b.allocator.next b')
    (hmem : binder ∈ binders) {bound : BoundResource} (hbound : bound ∈ binder.resources)
    (hlive : ∀ o ∈ bound.backing.objects, o ∈ b'.live) : b'.Backs bound.backing.allocation := by
  obtain ⟨kind, hkind⟩ := bound.backing.exists_mem_objects
  exact (h.backs binder hmem bound hbound).spared hspares h.valid
    (h.mem_live hmem (mem_objects_of_resource hbound hkind)) (hlive _ hkind)

theorem of_spares (h : Shared start binders b) (hspares : b.Spares b.allocator.next b')
    (hv : b'.Valid) (hlive : b'.live = start.live + allObjects others)
    (hothers : ∀ binder ∈ others, binder ∈ binders ∨
      binder.Sound ∧ ∀ bound ∈ binder.resources, b'.Backs bound.backing.allocation) :
    Shared start others b' where
  valid := hv
  live_eq := hlive
  mapped := hspares.mapped.trans h.mapped
  sound binder hmem := (hothers binder hmem).elim (h.sound binder) And.left
  backs binder hmem bound hbound := by
    refine (hothers binder hmem).elim (fun hold => ?_) fun hnew => hnew.2 bound hbound
    refine h.backs_spared hspares hold hbound fun o ho => hlive ▸ Multiset.mem_add.mpr (Or.inr ?_)
    exact mem_allObjects hmem (mem_objects_of_resource hbound ho)

theorem kept (h : Shared start binders b) (hspares : b.Spares b.allocator.next b')
    (hv : b'.Valid) (hlive : b'.live = b.live) : Shared start binders b' :=
  h.of_spares hspares hv (hlive.trans h.live_eq) fun _ => Or.inl

theorem bound (h : Shared start binders b) {layout : LayoutMap} {options : BindOptions}
    (hexec : (bind layout options).exec b = (.ok binder, b')) :
    Shared start (binder :: binders) b' := by
  obtain ⟨hb, hlive⟩ := (makes_bind layout options h.valid).of_ok hexec
  refine h.of_spares ((leaves_bind_of Spares.freshCalls Spares.layoutCalls _ _).rel hexec) hb.valid
    ?_ fun other hmem => ?_
  · rw [hlive, h.live_eq, allObjects_cons, add_assoc, add_comm (allObjects binders)]
  · rcases List.mem_cons.mp hmem with rfl | hmem
    · exact .inr ⟨sound_of_bind hexec, backs_of_bind h.valid hexec⟩
    · exact .inl hmem

theorem replaced (h : Shared start (binder :: others) b) (hstart : start.Valid) {key : BindingKey}
    {info : ImageInfo} {pixels : Bytes}
    (hexec : (binder.replaceImage key info pixels).exec b = (.ok changed, b')) :
    Shared start (changed :: others) b' := by
  have hmem : binder ∈ binder :: others := List.mem_cons_self
  obtain ⟨hb, hlive⟩ := (owns_replaceImage (h.sound binder hmem) key info pixels h.valid
    (hstart.closed.add (closed_allObjects others)) h.live_cons).of_ok hexec
  have hspares : b.Spares b.allocator.next b' :=
    (leaves_replaceImage Spares.freshCalls Spares.layoutCalls _ _ _ _).rel hexec
  refine h.of_spares hspares hb.valid ?_ fun other hother => ?_
  · rw [hlive, allObjects_cons, add_assoc, add_comm (allObjects others)]
  rcases List.mem_cons.mp hother with rfl | hother
  swap
  · exact .inl (List.mem_cons_of_mem _ hother)
  refine .inr ⟨sound_of_replaceImage (h.sound binder hmem) hexec, fun bound hbound => ?_⟩
  have hobjects : ∀ o ∈ bound.backing.objects, o ∈ b'.live := fun o ho =>
    hlive ▸ Multiset.mem_add.mpr (Or.inr (mem_objects_of_resource hbound ho))
  obtain ⟨replaced⟩ := replaced_of_replaceImage hexec
  rcases Intact.mem_setBacking (h.sound binder hmem) replaced.find
    (replaced.changed_eq ▸ hbound) with rfl | ⟨hold, -⟩
  · exact (replaced.backs h.valid hobjects).1
  · exact h.backs_spared hspares hmem hold hobjects

theorem released (h : Shared start (binder :: others) b) (hstart : start.Valid) :
    ∃ b', (binder.dispose : Native BindError Unit).exec b = (.ok (), b') ∧
      Shared start others b' := by
  obtain ⟨b', hexec, hb, hlive⟩ := frees_dispose (ε := BindError) binder h.valid
    (hstart.closed.add (closed_allObjects others)) h.live_cons
  have hspares : b.Spares b.allocator.next b' :=
    (Binder.leaves_dispose Spares.freshCalls binder).rel hexec
  exact ⟨b', hexec, h.of_spares hspares hb.valid hlive fun _ hmem =>
    Or.inl (List.mem_cons_of_mem _ hmem)⟩

theorem ends_writeBuffer (h : Shared start binders b) (hmem : binder ∈ binders) (key : BindingKey)
    (offset : Nat) (data : Bytes) :
    (binder.writeBuffer key offset data).Ends b (fun _ => Shared start binders)
      fun _ => Shared start binders := by
  have hends := writeBuffer_ends key offset data (h.backs binder hmem)
  refine (makes_writeBuffer binder key offset data h.valid).exec.mono ?_ ?_
  · rintro _ b' ⟨⟨hb, hlive⟩, hexec⟩
    rw [hexec] at hends
    cases hends with
    | wrote hbuffer hfits _ hwrote =>
      obtain ⟨bound, hbound, -, hbacking⟩ := exists_of_buffer? hbuffer
      have hwritten := h.backs binder hmem bound hbound
      rw [hbacking] at hwritten
      exact ⟨hb.valid, (hlive.trans (add_zero _)).trans h.live_eq,
        hwrote.mapped.trans h.mapped, h.sound, fun other hother bound hbound =>
          (h.backs other hother bound hbound).wrote hwrote hwritten hfits⟩
  · rintro e b' ⟨⟨hb, hlive⟩, hexec⟩
    rw [hexec] at hends
    refine h.kept (.of_allocator_eq ?_) hb.valid hlive
    cases hends <;> rfl

theorem ends_edit (h : Shared start binders b) (hstart : start.Valid) {index : Nat}
    (hindex : index < binders.length) (change : Edit) :
    (change.op binders[index]).Ends b (fun changed => Shared start (binders.set index changed))
      fun _ => Shared start binders := by
  have hmem : binders[index] ∈ binders := List.getElem_mem hindex
  have hperm := List.getElem_cons_eraseIdx_perm hindex
  cases change with
  | write key offset data =>
    refine .bind ((h.ends_writeBuffer hmem key offset data).mono (fun _ b' h' => ?_) fun _ _ => id)
    exact Ends.pure ((List.set_getElem_self hindex).symm ▸ h')
  | replace key info pixels =>
    have hcons := h.perm hperm.symm
    refine (owns_replaceImage (h.sound _ hmem) key info pixels h.valid
      (hstart.closed.add (closed_allObjects _)) hcons.live_cons).exec.mono ?_ ?_
    · rintro changed b' ⟨-, hexec⟩
      exact (hcons.replaced hstart hexec).perm (List.set_perm_cons_eraseIdx hindex changed).symm
    · rintro e b' ⟨⟨hb, hlive⟩, hexec⟩
      exact h.kept ((leaves_replaceImage Spares.freshCalls Spares.layoutCalls _ _ _ _).rel hexec)
        hb.valid (hlive.trans hcons.live_cons.symm)

/-- Whether an act succeeds or fails, the binders that there are share the backend afterwards. -/
theorem ends_op (h : Shared start binders b) (hstart : start.Valid) (act : Act) :
    (act.op binders).Ends b (Shared start) fun _ => Shared start binders := by
  cases act with
  | bind layout options =>
    refine .bind ((makes_bind layout options h.valid).exec.mono ?_ ?_)
    · rintro binder b' ⟨-, hexec⟩
      exact .pure (h.bound hexec)
    · rintro e b' ⟨⟨hb, hlive⟩, hexec⟩
      exact h.kept ((leaves_bind_of Spares.freshCalls Spares.layoutCalls _ _).rel hexec) hb.valid
        hlive
  | edit index change =>
    cases hget : binders[index]? with
    | none =>
      simp only [Act.op, hget]
      exact .pure h
    | some binder =>
      obtain ⟨hindex, rfl⟩ := List.getElem?_eq_some_iff.mp hget
      simp only [Act.op, hget]
      exact .bind ((h.ends_edit hstart hindex change).mono (fun _ _ => Ends.pure) fun _ _ => id)
  | dispose index =>
    cases hget : binders[index]? with
    | none =>
      simp only [Act.op, hget]
      exact .pure h
    | some binder =>
      obtain ⟨hindex, rfl⟩ := List.getElem?_eq_some_iff.mp hget
      obtain ⟨b', hexec, hreleased⟩ :=
        (h.perm (List.getElem_cons_eraseIdx_perm hindex).symm).released hstart
      simp only [Act.op, hget]
      exact .bind (.of_exec hexec (Ends.pure hreleased))

theorem make (h : Shared start binders b) (hstart : start.Valid) {act : Act}
    (hact : act.make (binders, b) = .ok (others, b')) : Shared start others b' := by
  have hends := h.ends_op hstart act
  unfold Ends at hends
  unfold Act.make at hact
  rcases hexec : (act.op binders).exec b with ⟨(fault | e) | changed, b'⟩ <;>
    rw [hexec] at hends hact <;> cases hact <;> exact hends

theorem makeAll (h : Shared start binders b) (hstart : start.Valid) {acts : List Act}
    (hrun : Act.makeAll acts (binders, b) = .ok (others, b')) : Shared start others b' := by
  induction acts generalizing binders b with
  | nil =>
    cases hrun
    exact h
  | cons act rest ih =>
    obtain ⟨⟨middle, b₁⟩, hmiddle, hrest⟩ := Except.bind_eq_ok.mp hrun
    exact ih (h.make hstart hmiddle) hrest

end Shared

theorem shared_of_makeAll (hstart : start.Valid) {acts : List Act}
    (hrun : Act.makeAll acts ([], start) = .ok (binders, b)) : Shared start binders b :=
  (Shared.refl hstart).makeAll hstart hrun

/--
Whatever was done on a backend before, a write succeeds if a buffer is bound at the key that all of
the data fits into, and if the mapping, which nothing but data needs, is not planned to fail; where
no mapping was planned to fail from the start on, fitting is all that it takes. Then the data is
where it was written, all other bytes of the buffer and all other memory are as they were, and
nothing stays mapped. A write that does not succeed is an error, and changes no memory.
-/
theorem writeBuffer_exact (hstart : start.Valid) {acts : List Act}
    (hrun : Act.makeAll acts ([], start) = .ok (binders, b)) (hmem : binder ∈ binders)
    (key : BindingKey) (offset : Nat) (data : Bytes) :
    ((∃ b', (binder.writeBuffer key offset data).exec b = (.ok (), b')) ↔
      (∃ allocation, binder.buffer? key = some allocation ∧
        offset + data.length ≤ allocation.size) ∧
      (data = [] ∨ b.failures.due? .mapMemory = none)) ∧
    ((∀ e, ¬ start.failures.Plans .mapMemory e) →
      ((∃ b', (binder.writeBuffer key offset data).exec b = (.ok (), b')) ↔
        ∃ allocation, binder.buffer? key = some allocation ∧
          offset + data.length ≤ allocation.size)) ∧
    (∀ b', (binder.writeBuffer key offset data).exec b = (.ok (), b') →
      ∃ allocation bytes bytes', binder.buffer? key = some allocation ∧
        b.allocator.bytes? allocation.memory = some bytes ∧ bytes.length = allocation.size ∧
        b'.allocator.bytes? allocation.memory = some bytes' ∧ bytes'.length = allocation.size ∧
        (∀ i, bytes'[i]? =
          if offset ≤ i ∧ i < offset + data.length then data[i - offset]? else bytes[i]?) ∧
        (∀ id ≠ allocation.memory, b'.allocator.bytes? id = b.allocator.bytes? id) ∧
        b'.live = b.live ∧ b'.allocator.mapped = start.allocator.mapped) ∧
    ∀ failure b', (binder.writeBuffer key offset data).exec b = (.error failure, b') →
      (∃ e, failure = .error e) ∧ b'.allocator = b.allocator ∧ b'.device = b.device := by
  have hshared := shared_of_makeAll hstart hrun
  have hbacks := hshared.backs binder hmem
  have hends := writeBuffer_ends key offset data hbacks
  have hok : (∃ b', (binder.writeBuffer key offset data).exec b = (.ok (), b')) ↔
      (∃ allocation, binder.buffer? key = some allocation ∧
        offset + data.length ≤ allocation.size) ∧
      (data = [] ∨ b.failures.due? .mapMemory = none) := by
    rcases hexec : (binder.writeBuffer key offset data).exec b with ⟨r, b'⟩
    rw [hexec] at hends
    rw [← hends.eq_ok_iff]
    simp
  refine ⟨hok, fun hplan => ?_, fun b' hexec => ?_, fun failure b' hexec => ?_⟩
  · -- A failure that is due now was planned at the start.
    have hdue : b.failures.due? .mapMemory = none := Option.eq_none_iff_forall_ne_some.mpr
      fun e he => hplan e ((Act.extends_makeAll hrun).plan _ e (FailurePlan.plans_of_due? he))
    rw [hok, hdue]
    exact and_iff_left (.inr rfl)
  · obtain ⟨-, hlive⟩ := (makes_writeBuffer binder key offset data hshared.valid).of_ok hexec
    rw [hexec] at hends
    cases hends with
    | wrote hbuffer hfits _ hwrote =>
      obtain ⟨bound, hbound, -, hbacking⟩ := exists_of_buffer? hbuffer
      have hback := hbacks bound hbound
      rw [hbacking] at hback
      obtain ⟨bytes, bytes', hbytes, hlength, hbytes', hlength', hget⟩ :=
        hback.exists_bytes hwrote hfits
      exact ⟨_, bytes, bytes', hbuffer, hbytes, hlength, hbytes', hlength', hget,
        fun id hid => (hwrote.bytes id).trans (if_neg hid), hlive.trans (add_zero _),
        hwrote.mapped.trans hshared.mapped⟩
  · rw [hexec] at hends
    exact hends.of_error

/-- A buffer of 16 bytes holds four bytes at 12, and no two at the end of the address space. -/
theorem writeBuffer_exact_block :
    let layout := LayoutMap.empty.put ⟨0, 0⟩
      ⟨"block", .descriptor 0 0 .empty .uniformBuffer, .vector .float 4 16⟩ rfl
    let options : BindOptions := { placeholder := { width := 1, height := 1 } }
    let acts : List Act := [.bind layout options, .bind layout options, .dispose 1,
      .edit 0 (.write ⟨0, 0⟩ 0 [1, 2])]
    let key : BindingKey := ⟨0, 0⟩
    ∃ binder b, Act.makeAll acts ([], {}) = .ok ([binder], b) ∧
      (∃ b', (binder.writeBuffer key 12 [1, 2, 3, 4]).exec b = (.ok (), b')) ∧
      ¬ ∃ b', (binder.writeBuffer key (2 ^ 64 - 2) [1, 2]).exec b = (.ok (), b') := by
  intro layout options acts key
  have hresult : (Act.makeAll acts ([], {})).map (fun current => current.1.map fun binder =>
      (binder.buffer? key).map (·.size)) = .ok [some 16] := by
    decide +kernel
  obtain ⟨⟨binders, b⟩, hrun, hsizes⟩ := Except.map_eq_ok.mp hresult
  obtain ⟨binder, rfl, hsize⟩ := List.map_eq_singleton_iff.mp hsizes
  obtain ⟨allocation, hbuffer, hsize⟩ := Option.map_eq_some_iff.mp hsize
  have hplan (e : MappingError) : ¬ FailurePlan.Plans [] .mapMemory e := by
    rintro ⟨_, ⟨⟩⟩
  have hok (offset : Nat) (data : Bytes) :
      (∃ b', (binder.writeBuffer key offset data).exec b = (.ok (), b')) ↔
        offset + data.length ≤ 16 := by
    have hexact := writeBuffer_exact Backend.valid_empty hrun List.mem_cons_self key offset data
    rw [hexact.2.1 hplan, hbuffer, ← hsize]
    exact ⟨fun ⟨other, hother, hfits⟩ => Option.some.inj hother ▸ hfits, fun h => ⟨_, rfl, h⟩⟩
  exact ⟨binder, b, hrun, (hok _ _).mpr (by decide), fun h => absurd ((hok _ _).mp h) (by decide)⟩

end Binder

end ShaderBinding
