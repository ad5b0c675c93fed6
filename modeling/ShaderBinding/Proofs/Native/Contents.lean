import ShaderBinding.Proofs.Native.Calls
import ShaderBinding.Proofs.Native.Leaves

/-! # Memory contents

An allocation adds one block to those of the allocator, of zeros for a buffer and of the pixels
for an image that these are uploaded to. Bytes that are written into a block that has room for
them are in it afterwards and in no other, unless the mapping was planned to fail.
-/

namespace ShaderBinding

open Native Backend

theorem Memory.lt_of_zeroed {n : Nat} {m : Memory} (h : zeroed n = .ok m) : n < 2 ^ 63 := by
  unfold zeroed at h
  split at h
  · assumption
  · cases h

namespace Allocator

structure Adds (a : Allocator) (block : Block) (a' : Allocator) : Prop where
  blocks : a'.blocks = a.blocks ++ [(a.next, block)]
  next : a'.next = a.next + 1

variable {a a' : Allocator} {block : Block}

theorem Adds.valid (h : a.Adds block a') (hv : a.Valid) : a'.Valid := hv.push h.blocks h.next

/-- The memory of the block that was added last can be changed without touching any other. -/
theorem Adds.modifyMemory (h : a.Adds block a') (hv : a.Valid) (f : Memory → Memory) :
    a.Adds { block with memory := f block.memory } (a'.modifyMemory a.next f) := by
  refine ⟨?_, h.next⟩
  have hothers : a.blocks.map (fun entry => if entry.1 = a.next then
      (a.next, { entry.2 with memory := f entry.2.memory }) else entry) = a.blocks := by
    refine (List.map_congr_left fun entry hmem => if_neg ?_).trans a.blocks.map_id
    exact (hv.lt_next entry hmem).ne
  simp [Allocator.modifyMemory, h.blocks, hothers]

def bytes? (a : Allocator) (id : Nat) : Option Bytes := (a.memory? id).map (·.bytes)

theorem Valid.bytes?_eq (hv : a.Valid) {id : Nat} (hmem : (id, block) ∈ a.blocks) :
    a.bytes? id = some block.memory.bytes := by
  unfold bytes? memory? block?
  cases hfind : a.blocks.find? (·.1 = id) with
  | none => simpa using List.find?_eq_none.mp hfind _ hmem
  | some entry =>
    have hkey : entry.1 = id := by simpa using List.find?_some hfind
    have heq := List.inj_on_of_nodup_map hv.nodup (List.mem_of_find?_eq_some hfind) hmem hkey
    rw [heq]
    rfl

theorem bytes?_modifyMemory (a : Allocator) (id : Nat) (f : Memory → Memory) (other : Nat) :
    (a.modifyMemory id f).bytes? other =
      if other = id then (a.memory? id).map fun m => (f m).bytes else a.bytes? other := by
  have hkeys : ((fun entry : Nat × Block => decide (entry.1 = other)) ∘ fun entry =>
      if entry.1 = id then (id, { entry.2 with memory := f entry.2.memory }) else entry) =
      fun entry => decide (entry.1 = other) := by
    funext entry
    by_cases hid : entry.1 = id <;> simp [hid]
  unfold bytes? memory? block? modifyMemory
  dsimp only
  rw [List.find?_map, hkeys]
  by_cases hother : other = id
  · subst hother
    rw [if_pos rfl]
    cases hfind : a.blocks.find? (·.1 = other) with
    | none => rfl
    | some entry =>
      have hkey : entry.1 = other := by simpa using List.find?_some hfind
      simp [hkey]
  · rw [if_neg hother]
    cases hfind : a.blocks.find? (·.1 = other) with
    | none => rfl
    | some entry =>
      have hkey : entry.1 = other := by simpa using List.find?_some hfind
      simp [hkey, hother]

end Allocator

variable {b b' : Backend}

namespace Native

theorem Leaves.keeps_allocator {α : Type} {kind : CallKind} {call : Call} {result : α → CallResult}
    {step : Device → Outcome kind.Error (α × Device)} :
    (Native.attempt kind call result (Native.onDevice step)).Leaves (Keeps (·.allocator)) b :=
  .keeps_onDevice (fun _ _ _ => rfl) fun _ _ _ _ => rfl

theorem Leaves.keeps_allocator_perform {ε : Type} {call : Call} {step : Backend → Checked Device} :
    (perform call (fun b => do return { b with device := ← step b }) :
      Native ε Unit).Leaves (Keeps (·.allocator)) b :=
  .keeps_performDevice (fun _ _ _ => rfl) fun _ _ => rfl

theorem allocateBuffer_eq_ok {size : Nat} {usage : BufferUsage} {name : String}
    {allocation : Allocation} (h : (allocateBuffer size usage name).exec b = (.ok allocation, b')) :
    size < 2 ^ 63 ∧ allocation = ⟨b.allocator.next, b.allocator.next, size, name⟩ ∧
      ∃ memory, memory.bytes = Bytes.zeros size ∧
        b.allocator.Adds ⟨.buffer, memory⟩ b'.allocator := by
  obtain ⟨n, memory, hsize, hzeroed, rfl, hallocator⟩ :=
    Allocator.allocate_eq_ok (exec_onAllocator_eq_ok h).1
  cases hsize
  exact ⟨Memory.lt_of_zeroed hzeroed, rfl, memory, Memory.bytes_zeroed hzeroed, by rw [hallocator],
    by rw [hallocator]⟩

theorem transferImage_eq_ok {info : ImageInfo} {name : String} {pixels : Bytes}
    {allocation : Allocation} {b₁ : Backend} {u : Unit} (hv : b.allocator.Valid)
    (h : (allocateImage info name).exec b = (.ok allocation, b₁))
    (h' : (transferImage allocation info pixels).exec b₁ = (.ok u, b')) :
    pixels.length < 2 ^ 63 ∧
      allocation = ⟨b.allocator.next, b.allocator.next, pixels.length, name⟩ ∧
      b.allocator.Adds ⟨.image, .ofBytes pixels⟩ b'.allocator := by
  obtain ⟨size, memory, hsize, hzeroed, rfl, hallocator⟩ :=
    Allocator.allocate_eq_ok (exec_onAllocator_eq_ok h).1
  have hadds : b.allocator.Adds ⟨.image, memory⟩ b₁.allocator := by
    constructor <;> rw [hallocator]
  have hchanged := hadds.modifyMemory hv fun _ => .ofBytes pixels
  obtain ⟨uploaded, hup, heq⟩ := Except.map_eq_ok.mp (exec_onAllocator_eq_ok h').1
  obtain ⟨expected, hexpected, hup⟩ := Except.bind_eq_ok.mp hup
  obtain rfl : size = expected :=
    Except.ok.inj (hsize.symm.trans (Except.mapError_eq_ok.mp hexpected))
  rw [← (Prod.mk.inj heq).2]
  dsimp only at hup
  split at hup
  · cases hup
  · rename_i hlength
    cases hup
    rw [not_not.mp hlength]
    exact ⟨Memory.lt_of_zeroed hzeroed, rfl, hchanged.blocks, hchanged.next⟩

theorem exec_mapMemory {memory start stop : Nat} {m : Memory}
    (hm : b.allocator.memory? memory = some m) (hstop : stop ≤ m.length) :
    (mapMemory memory start stop).exec b = match b.failures.due? .mapMemory with
      | some e => (.error (.error e),
          (b.counted .mapMemory).noted (.mapMemory memory start stop) .failed)
      | none => (.ok (), Backend.noted { b.counted .mapMemory with
          allocator := { b.allocator with mapped := b.allocator.mapped + 1 } }
            (.mapMemory memory start stop) .done) := by
  have hmap : b.allocator.map memory start stop =
      .ok { b.allocator with mapped := b.allocator.mapped + 1 } := by
    unfold Allocator.map
    rw [hm]
    exact if_neg (Nat.not_lt.mpr hstop)
  have heffect : onAllocator (fun a => ((a.map memory start stop).map ((), ·)).mapError .error)
      (b.counted .mapMemory) = .ok ((), { b.counted .mapMemory with
        allocator := { b.allocator with mapped := b.allocator.mapped + 1 } }) := by
    unfold onAllocator
    change (((b.allocator.map memory start stop).map ((), ·)).mapError Failure.error >>= _) = _
    rw [hmap]
    rfl
  unfold mapMemory
  rw [exec_attempt, verdict]
  cases b.failures.due? .mapMemory with
  | some e => rfl
  | none =>
    dsimp only
    rw [heffect]

structure Wrote (memory offset : Nat) (data : Bytes) (b b' : Backend) : Prop where
  bytes : ∀ id, b'.allocator.bytes? id = if id = memory then
    (b.allocator.bytes? id).map (·.overwrite offset data) else b.allocator.bytes? id
  mapped : b'.allocator.mapped = b.allocator.mapped
  device : b'.device = b.device

/-- How a write into an allocation ends. The range is checked first, and then it is mapped. -/
inductive WriteBytesEnds (allocation : Allocation) (offset : Nat) (data : Bytes) (b : Backend) :
    Outcome MappingError Unit × Backend → Prop where

  | outside : allocation.size < offset + data.length →
      WriteBytesEnds allocation offset data b (.error (.error (.outOfBounds offset
        (min (offset + data.length) (Width.long.bound - 1)) allocation.size)), b)

  | planned {e : MappingError} : offset + data.length ≤ allocation.size → data ≠ [] →
      b.failures.due? .mapMemory = some e →
      WriteBytesEnds allocation offset data b (.error (.error e), (b.counted .mapMemory).noted
        (.mapMemory allocation.memory offset (offset + data.length)) .failed)

  | wrote {b' : Backend} : offset + data.length ≤ allocation.size →
      data = [] ∨ b.failures.due? .mapMemory = none → Wrote allocation.memory offset data b b' →
      WriteBytesEnds allocation offset data b (.ok (), b')

/-- An allocation that tells the size of its memory can be written wherever it has bytes. -/
theorem writeBytes_ends {allocation : Allocation} {bytes : Bytes} (offset : Nat) (data : Bytes)
    (hbytes : b.allocator.bytes? allocation.memory = some bytes)
    (hsize : allocation.size = bytes.length) (hlong : bytes.length < Width.long.bound) :
    WriteBytesEnds allocation offset data b ((writeBytes allocation offset data).exec b) := by
  obtain ⟨m, hm, rfl⟩ := Option.map_eq_some_iff.mp hbytes
  rw [Memory.length_bytes] at hsize hlong
  unfold writeBytes
  dsimp only
  by_cases hfits : offset + data.length ≤ allocation.size
  swap
  · rw [if_pos (Or.inl (Nat.lt_of_not_le hfits))]
    exact .outside (Nat.lt_of_not_le hfits)
  rw [if_neg (by omega)]
  split
  · rename_i hempty
    obtain rfl := List.isEmpty_iff.mp hempty
    refine .wrote hfits (Or.inl rfl) ⟨fun id => ?_, rfl, rfl⟩
    split
    · simp [Bytes.overwrite]
    · rfl
  rename_i hempty
  rw [exec_bind, exec_mapMemory hm (hsize ▸ hfits)]
  cases hdue : b.failures.due? .mapMemory with
  | some e => exact .planned hfits (by simpa using hempty) hdue
  | none =>
    -- The mapping is taken back, and what remains is the memory object with its new bytes.
    refine .wrote hfits (Or.inr hdue) ⟨fun id => ?_, rfl, rfl⟩
    refine (b.allocator.bytes?_modifyMemory allocation.memory (·.write offset data) id).trans ?_
    split
    · rename_i hid
      rw [hid, hbytes, hm, Option.map_some, Option.map_some, Memory.bytes_write (hsize ▸ hfits)]
    · rfl

theorem ends_writeBytes {allocation : Allocation} {offset : Nat} {bytes data : Bytes}
    (hbytes : b.allocator.bytes? allocation.memory = some bytes)
    (hsize : allocation.size = bytes.length) (hfits : offset + data.length ≤ bytes.length)
    (hlong : bytes.length < Width.long.bound) :
    (writeBytes allocation offset data).Ends b
      (fun _ b' => ∀ id, b'.allocator.bytes? id = if id = allocation.memory then
        some (bytes.overwrite offset data) else b.allocator.bytes? id)
      fun e _ => b.failures.Plans .mapMemory e := by
  have hends := writeBytes_ends offset data hbytes hsize hlong
  unfold Ends
  generalize (writeBytes allocation offset data).exec b = result at hends ⊢
  cases hends with
  | outside houtside => exact absurd (hsize ▸ hfits) (Nat.not_le.mpr houtside)
  | planned _ _ hdue => exact FailurePlan.plans_of_due? hdue
  | wrote _ _ hwrote =>
    intro id
    rw [hwrote.bytes]
    split
    · rename_i hid
      rw [hid, hbytes, Option.map_some]
    · rfl

end Native

end ShaderBinding
