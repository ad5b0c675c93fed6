import ShaderBinding.Proofs.Binder.Contents
import ShaderBinding.Proofs.Binder.Update

/-! # Memory that is in use

Binding, replacing and releasing upload pixels only to images of their own, so that the bytes of
every other memory object stay as they are until it is released. A write into a buffer changes the
bytes that it names and no others.
-/

namespace ShaderBinding

open Native Backend

namespace Allocator

variable {n id : Nat} {a a' a'' : Allocator}

/-- Memory objects below a bound are left alone or released, and nothing stays mapped. -/
structure Spares (n : Nat) (a a' : Allocator) : Prop where
  next : a.next ≤ a'.next
  mapped : a'.mapped = a.mapped
  bytes : n ≤ a.next → ∀ id < n, a'.bytes? id = a.bytes? id ∨ a'.bytes? id = none

instance : IsPreorder Allocator (Spares n) where
  refl a := ⟨le_rfl, rfl, fun _ _ _ => .inl rfl⟩
  trans a a' a'' h h' := by
    refine ⟨h.next.trans h'.next, h'.mapped.trans h.mapped, fun hn id hid => ?_⟩
    rcases h'.bytes (hn.trans h.next) id hid with heq | hnone
    · rw [heq]
      exact h.bytes hn id hid
    · exact .inr hnone

theorem bytes?_append {entry : Nat × Block} (h : a'.blocks = a.blocks ++ [entry])
    (hid : id ≠ entry.1) : a'.bytes? id = a.bytes? id := by
  have hnone : [entry].find? (fun entry => entry.1 = id) = none := by
    simpa using fun h : entry.1 = id => hid h.symm
  unfold bytes? memory? block?
  rw [h, List.find?_append, hnone, Option.or_none]

theorem bytes?_filter {handle : Nat} (h : a'.blocks = a.blocks.filter (·.1 ≠ handle)) :
    a'.bytes? id = if id = handle then none else a.bytes? id := by
  unfold bytes? memory? block?
  rw [h, List.find?_filter]
  split
  · rename_i hid
    subst hid
    have hnone : a.blocks.find?
        (fun entry => decide (decide (entry.1 ≠ id) ∧ decide (entry.1 = id))) = none := by simp
    rw [hnone]
    rfl
  · rename_i hid
    have hkeys : (fun entry : Nat × Block =>
        decide (decide (entry.1 ≠ handle) ∧ decide (entry.1 = id))) =
        fun entry => decide (entry.1 = id) := by
      funext entry
      by_cases hentry : entry.1 = id <;> simp [hentry, hid]
    rw [hkeys]

theorem spares_of_allocate {kind : BlockKind} {size : Checked Nat} {name : String}
    {allocation : Allocation} (h : a.allocate kind size name = .ok (allocation, a')) :
    a.Spares n a' := by
  obtain ⟨_, memory, -, -, -, rfl⟩ := allocate_eq_ok h
  refine ⟨Nat.le_succ _, rfl, fun hn id hid => .inl (bytes?_append rfl ?_)⟩
  exact (hid.trans_le hn).ne

theorem spares_of_release {kind : BlockKind} {handle : Nat} (h : a.release kind handle = .ok a') :
    a.Spares n a' := by
  unfold release at h
  split at h <;> cases h
  refine ⟨le_rfl, rfl, fun _ id _ => ?_⟩
  rw [bytes?_filter rfl]
  split
  · exact .inr rfl
  · exact .inl rfl

theorem spares_of_upload {info : ImageInfo} {size : Checked Nat} {name : String} {pixels : Bytes}
    {allocation : Allocation} (h : a.allocate .image size name = .ok (allocation, a'))
    (h' : a'.upload allocation info pixels = .ok a'') : a.Spares n a'' := by
  have hallocate : a.Spares n a' := spares_of_allocate h
  obtain ⟨_, memory, -, -, rfl, -⟩ := allocate_eq_ok h
  obtain ⟨expected, -, h'⟩ := Except.bind_eq_ok.mp h'
  dsimp only at h'
  split at h' <;> cases h'
  refine ⟨hallocate.next, hallocate.mapped, fun hn id hid => ?_⟩
  refine (hallocate.bytes hn id hid).imp (Eq.trans ?_) (Eq.trans ?_) <;>
    exact (bytes?_modifyMemory a' a.next (fun _ => .ofBytes pixels) id).trans
      (if_neg (hid.trans_le hn).ne)

theorem isSome_bytes?_iff : (a.bytes? id).isSome ↔ ∃ kind : BlockKind, kind.object id ∈ a.held := by
  unfold bytes? memory? block?
  simp only [Option.isSome_map, List.find?_isSome, decide_eq_true_eq]
  constructor
  · rintro ⟨entry, hmem, rfl⟩
    exact ⟨entry.2.kind, mem_held.mpr ⟨entry, hmem, rfl⟩⟩
  · rintro ⟨kind, hheld⟩
    obtain ⟨entry, hmem, hobject⟩ := mem_held.mp hheld
    refine ⟨entry, hmem, ?_⟩
    obtain ⟨_, ⟨_ | _, _⟩⟩ := entry <;> cases kind <;> cases hobject <;> rfl

end Allocator

namespace Backend

variable {n id : Nat} {b b' : Backend}

def Spares (n : Nat) (b b' : Backend) : Prop := b.allocator.Spares n b'.allocator

instance : IsPreorder Backend (Spares n) where
  refl b := refl b.allocator
  trans b b' b'' h h' := IsTrans.trans b.allocator b'.allocator b''.allocator h h'

theorem Spares.of_allocator_eq (h : b'.allocator = b.allocator) : b.Spares n b' := by
  unfold Spares
  rw [h]
  exact refl _

theorem Spares.attempt {α : Type} {kind : CallKind} {call : Call} {result : α → CallResult}
    {step : Allocator → Outcome kind.Error (α × Allocator)} {a : Allocator}
    (hsame : a.Spares n b.allocator)
    (hstep : ∀ x allocator, step b.allocator = .ok (x, allocator) → a.Spares n allocator) :
    (Native.attempt kind call result (onAllocator step)).Leaves
      (fun _ b' => a.Spares n b'.allocator) b := by
  refine .attempt hsame (fun _ _ => hsame) fun x b' h => ?_
  obtain ⟨allocator, hallocator, rfl⟩ := onAllocator_eq_ok h
  exact hstep x allocator hallocator

theorem leaves_spares_of_keeps {ε α : Type} {x : Native ε α}
    (h : x.Leaves (Keeps (·.allocator)) b) : x.Leaves (Spares n) b :=
  h.mono fun _ => Spares.of_allocator_eq

theorem Spares.freshCalls : FreshCalls (Spares n) where
  allocateBuffer := Spares.attempt (refl _) fun _ _ => Allocator.spares_of_allocate
  allocateImage := Spares.attempt (refl _) fun _ _ => Allocator.spares_of_allocate
  upload h := by
    obtain ⟨hallocate, -⟩ := exec_onAllocator_eq_ok h
    refine Spares.attempt (Allocator.spares_of_allocate hallocate) fun _ allocator hstep => ?_
    obtain ⟨_, hupload, heq⟩ := Except.map_eq_ok.mp hstep
    cases heq
    exact Allocator.spares_of_upload hallocate hupload
  createView := leaves_spares_of_keeps .keeps_allocator
  createSampler := leaves_spares_of_keeps .keeps_allocator
  destroy := leaves_spares_of_keeps .keeps_allocator_perform
  deallocate := .perform_of_ok (refl _) fun b' h => by
    obtain ⟨allocator, hrelease, rfl⟩ := exec_perform_allocator_eq_ok h
    exact Allocator.spares_of_release hrelease

theorem Spares.layoutCalls : LayoutCalls (Spares n) where
  createLayout := leaves_spares_of_keeps .keeps_allocator
  createPool := leaves_spares_of_keeps .keeps_allocator
  allocateSets := .get_bind <| by
    split
    · exact .pure _
    · exact leaves_spares_of_keeps .keeps_allocator
  updateSets := leaves_spares_of_keeps .keeps_allocator_perform
  waitIdle := leaves_spares_of_keeps .keeps_allocator

theorem Valid.lt_next (hv : b.Valid) {kind : BlockKind} (h : kind.object id ∈ b.live) :
    id < b.allocator.next := by
  have hknown := hv.known h
  cases kind <;> exact hknown

theorem isSome_bytes?_iff :
    (b.allocator.bytes? id).isSome ↔ ∃ kind : BlockKind, kind.object id ∈ b.live := by
  rw [Allocator.isSome_bytes?_iff]
  exact exists_congr fun kind => mem_live_block.symm

theorem Spares.bytes?_eq (h : b.Spares b.allocator.next b') (hv : b.Valid) {kind : BlockKind}
    (hlive : kind.object id ∈ b.live) (hlive' : kind.object id ∈ b'.live) :
    b'.allocator.bytes? id = b.allocator.bytes? id := by
  refine (h.bytes le_rfl id (hv.lt_next hlive)).resolve_right fun hnone => ?_
  have hsome := isSome_bytes?_iff.mpr ⟨kind, hlive'⟩
  rw [hnone] at hsome
  cases hsome

/-- Memory whose block is live before and after, or neither, has the same bytes. -/
theorem Spares.bytes?_eq_of_live_iff (h : b.Spares b.allocator.next b') (hv : b.Valid)
    (hlive : ∀ kind : BlockKind, kind.object id ∈ b'.live ↔ kind.object id ∈ b.live) :
    b'.allocator.bytes? id = b.allocator.bytes? id := by
  by_cases hsome : (b.allocator.bytes? id).isSome
  · obtain ⟨kind, hkind⟩ := isSome_bytes?_iff.mp hsome
    exact h.bytes?_eq hv hkind ((hlive kind).mpr hkind)
  · have hsome' : ¬ (b'.allocator.bytes? id).isSome := by
      rwa [isSome_bytes?_iff, exists_congr hlive, ← isSome_bytes?_iff]
    rw [Option.not_isSome_iff_eq_none.mp hsome, Option.not_isSome_iff_eq_none.mp hsome']

end Backend

variable {b b' : Backend}

structure Backend.Backs (b : Backend) (allocation : Allocation) : Prop where
  memory : allocation.memory = allocation.handle
  size_lt : allocation.size < 2 ^ 63
  length : (b.allocator.bytes? allocation.memory).map List.length = some allocation.size

namespace Backend.Backs

variable {allocation : Allocation}

theorem spared (h : b.Backs allocation) (hspares : b.Spares b.allocator.next b') (hv : b.Valid)
    {kind : BlockKind} (hlive : kind.object allocation.handle ∈ b.live)
    (hlive' : kind.object allocation.handle ∈ b'.live) : b'.Backs allocation := by
  refine ⟨h.memory, h.size_lt, ?_⟩
  rw [← h.memory] at hlive hlive'
  rw [hspares.bytes?_eq hv hlive hlive', h.length]

theorem wrote (h : b.Backs allocation) {written : Allocation} {offset : Nat} {data : Bytes}
    (hwrote : Wrote written.memory offset data b b') (hwritten : b.Backs written)
    (hfits : offset + data.length ≤ written.size) : b'.Backs allocation := by
  refine ⟨h.memory, h.size_lt, ?_⟩
  rw [hwrote.bytes]
  split
  · rename_i hmemory
    obtain ⟨bytes, hbytes, hlength⟩ := Option.map_eq_some_iff.mp h.length
    have hsize := hwritten.length
    rw [hmemory] at hbytes
    rw [hbytes] at hsize
    rw [hmemory, hbytes, Option.map_some, Option.map_some,
      Bytes.length_overwrite (Option.some.inj hsize ▸ hfits), hlength]
  · exact h.length

theorem exists_bytes (h : b.Backs allocation) {offset : Nat} {data : Bytes}
    (hwrote : Wrote allocation.memory offset data b b')
    (hfits : offset + data.length ≤ allocation.size) :
    ∃ bytes bytes', b.allocator.bytes? allocation.memory = some bytes ∧
      bytes.length = allocation.size ∧ b'.allocator.bytes? allocation.memory = some bytes' ∧
      bytes'.length = allocation.size ∧ ∀ i, bytes'[i]? =
        if offset ≤ i ∧ i < offset + data.length then data[i - offset]? else bytes[i]? := by
  obtain ⟨bytes, hbytes, hlength⟩ := Option.map_eq_some_iff.mp h.length
  rw [← hlength] at hfits
  refine ⟨bytes, Bytes.overwrite bytes offset data, hbytes, hlength, ?_, ?_,
    Bytes.getElem?_overwrite hfits⟩
  · rw [hwrote.bytes, if_pos rfl, hbytes, Option.map_some]
  · rw [Bytes.length_overwrite hfits, hlength]

theorem writeBytes_ends (h : b.Backs allocation) (offset : Nat) (data : Bytes) :
    WriteBytesEnds allocation offset data b ((writeBytes allocation offset data).exec b) := by
  obtain ⟨bytes, hbytes, hlength⟩ := Option.map_eq_some_iff.mp h.length
  refine Native.writeBytes_ends offset data hbytes hlength.symm ?_
  rw [hlength]
  exact h.size_lt.trans (by decide)

end Backend.Backs

theorem Backing.exists_mem_objects (backing : Backing) :
    ∃ kind : BlockKind, kind.object backing.allocation.handle ∈ backing.objects := by
  cases backing with
  | buffer => exact ⟨.buffer, List.mem_cons_self⟩
  | image => exact ⟨.image, List.mem_cons_self⟩

theorem Backing.eq_of_mem_objects {backing : Backing} {kind : BlockKind} {id : Nat}
    (h : kind.object id ∈ backing.objects) : id = backing.allocation.handle := by
  cases backing <;> cases kind <;> simp_all [objects, BlockKind.object, allocation]

theorem Backing.Added.backs {a : Allocator} {name : String} {bytes : Bytes} {backing : Backing}
    {block : Block} (h : Added a name bytes backing block b.allocator) (hv : a.Valid) :
    b.Backs backing.allocation ∧
      b.allocator.bytes? backing.allocation.memory = some bytes := by
  have hbytes : b.allocator.bytes? a.next = some bytes := by
    rw [(h.adds.valid hv).bytes?_eq (h.adds.blocks ▸ List.mem_append_right _ List.mem_cons_self),
      h.bytes]
  rw [h.allocation]
  exact ⟨⟨rfl, h.size, by rw [hbytes, Option.map_some]⟩, hbytes⟩

namespace Binder

variable {binder : Binder}

def buffer? (binder : Binder) (key : BindingKey) : Option Allocation :=
  (binder.get? key).bind fun bound =>
    match bound.backing with
    | .buffer allocation => some allocation
    | .image .. => none

inductive WriteBufferEnds (binder : Binder) (key : BindingKey) (offset : Nat) (data : Bytes)
    (b : Backend) : Outcome BindError Unit × Backend → Prop where

  | unbound : binder.get? key = none →
      WriteBufferEnds binder key offset data b
        (.error (.error (.unknownBinding key.set key.binding)), b)

  | image {bound : BoundResource} : binder.get? key = some bound → binder.buffer? key = none →
      WriteBufferEnds binder key offset data b
        (.error (.error (.wrongKind key.set key.binding "a buffer")), b)

  | outside {allocation : Allocation} : binder.buffer? key = some allocation →
      allocation.size < offset + data.length →
      WriteBufferEnds binder key offset data b (.error (.error (.mapping (.outOfBounds offset
        (min (offset + data.length) (Width.long.bound - 1)) allocation.size))), b)

  | planned {allocation : Allocation} {e : MappingError} : binder.buffer? key = some allocation →
      offset + data.length ≤ allocation.size → data ≠ [] →
      b.failures.due? .mapMemory = some e →
      WriteBufferEnds binder key offset data b (.error (.error (.mapping e)),
        (b.counted .mapMemory).noted
          (.mapMemory allocation.memory offset (offset + data.length)) .failed)

  | wrote {allocation : Allocation} {b' : Backend} : binder.buffer? key = some allocation →
      offset + data.length ≤ allocation.size →
      data = [] ∨ b.failures.due? .mapMemory = none → Wrote allocation.memory offset data b b' →
      WriteBufferEnds binder key offset data b (.ok (), b')

namespace WriteBufferEnds

variable {key : BindingKey} {offset : Nat} {data : Bytes} {r : Outcome BindError Unit}

theorem eq_ok_iff (h : WriteBufferEnds binder key offset data b (r, b')) :
    r = .ok () ↔ (∃ allocation, binder.buffer? key = some allocation ∧
      offset + data.length ≤ allocation.size) ∧
        (data = [] ∨ b.failures.due? .mapMemory = none) := by
  cases h with
  | unbound hget => simp [buffer?, hget]
  | image _ hbuffer => simp [hbuffer]
  | outside hbuffer houtside => simp [hbuffer, Nat.not_le.mpr houtside]
  | planned hbuffer hfits hdata hdue => simp [hdata, hdue]
  | wrote hbuffer hfits hdue _ => simp [hbuffer, hfits, hdue]

theorem of_error {failure : Failure BindError}
    (h : WriteBufferEnds binder key offset data b (.error failure, b')) :
    (∃ e, failure = .error e) ∧ b'.allocator = b.allocator ∧ b'.device = b.device := by
  cases h <;> exact ⟨⟨_, rfl⟩, rfl, rfl⟩

end WriteBufferEnds

theorem exists_of_buffer? {key : BindingKey} {allocation : Allocation}
    (h : binder.buffer? key = some allocation) :
    ∃ bound ∈ binder.resources, bound.key = key ∧ bound.backing = .buffer allocation := by
  obtain ⟨bound, hget, hbound⟩ := Option.bind_eq_some_iff.mp h
  refine ⟨bound, List.mem_of_find?_eq_some hget, by simpa using List.find?_some hget, ?_⟩
  split at hbound
  · rename_i hbacking
    rw [hbacking, Option.some.inj hbound]
  · cases hbound

theorem writeBuffer_ends (key : BindingKey) (offset : Nat) (data : Bytes)
    (hbacks : ∀ bound ∈ binder.resources, b.Backs bound.backing.allocation) :
    WriteBufferEnds binder key offset data b ((binder.writeBuffer key offset data).exec b) := by
  unfold writeBuffer
  rw [exec_bind, exec_ofExcept, find]
  cases hget : binder.get? key with
  | none => exact .unbound hget
  | some bound =>
    have hbound := hbacks bound (List.mem_of_find?_eq_some hget)
    simp only [Except.mapError]
    cases hbacking : bound.backing with
    | image => exact .image hget (by simp [buffer?, hget, hbacking])
    | buffer allocation =>
      have hbuffer : binder.buffer? key = some allocation := by simp [buffer?, hget, hbacking]
      rw [hbacking] at hbound
      have hends := hbound.writeBytes_ends offset data
      rw [Backing.allocation] at hends
      simp only [exec_mapError]
      generalize (writeBytes allocation offset data).exec b = result at hends ⊢
      cases hends with
      | outside houtside => exact .outside hbuffer houtside
      | planned hfits hdata hdue => exact .planned hbuffer hfits hdata hdue
      | wrote hfits hdue hwrote => exact .wrote hbuffer hfits hdue hwrote

end Binder

end ShaderBinding
