import ShaderBinding.Memory.Basic
import ShaderBinding.Memory.Error

/-! # Allocators

An allocator hands out buffers and images, each with a zeroed memory object of its own. Handles
are consecutive numbers, and a live handle is the key of its block. A released block is gone,
and releasing it again is a fault.
-/

namespace ShaderBinding

/-- A resource with the memory it is bound to. -/
structure Allocation where
  handle : Nat
  memory : Nat
  size : Nat
  name : String
  deriving DecidableEq, Repr

inductive BlockKind where
  | buffer
  | image
  deriving DecidableEq, Repr

structure Block where
  kind : BlockKind
  memory : Memory
  deriving DecidableEq, Repr

/-- With a budget, no more than that many allocations succeed. -/
structure Allocator where
  next : Nat := 0
  budget : Option Nat := none
  blocks : List (Nat × Block) := []
  mapped : Nat := 0
  uploads : List (Nat × Nat) := []
  deriving DecidableEq, Repr

namespace Allocator

def live (a : Allocator) (kind : BlockKind) : List Nat :=
  (a.blocks.filter (·.2.kind = kind)).map (·.1)

def block? (a : Allocator) (id : Nat) : Option Block :=
  (a.blocks.find? (·.1 = id)).map (·.2)

def memory? (a : Allocator) (id : Nat) : Option Memory := (a.block? id).map (·.memory)

def modifyMemory (a : Allocator) (id : Nat) (f : Memory → Memory) : Allocator :=
  { a with blocks := a.blocks.map fun entry =>
      if entry.1 = id then (id, { entry.2 with memory := f entry.2.memory }) else entry }

def exhausted (a : Allocator) : Bool := a.budget.any (· ≤ a.next)

def allocate (a : Allocator) (kind : BlockKind) (size : Checked Nat) (name : String) :
    Outcome AllocationError (Allocation × Allocator) := do
  if a.exhausted then .fail (.outOfMemory .device)
  let size ← size
  let memory ← Memory.zeroed size
  return (⟨a.next, a.next, size, name⟩,
    { a with next := a.next + 1, blocks := a.blocks ++ [(a.next, ⟨kind, memory⟩)] })

def map (a : Allocator) (id start stop : Nat) : Except MappingError Allocator :=
  match a.memory? id with
  | none => .error .failed
  | some memory =>
    if memory.length < stop then .error (.outOfBounds start stop memory.length)
    else .ok { a with mapped := a.mapped + 1 }

def unmap (a : Allocator) : Checked Allocator :=
  if a.mapped = 0 then .error .notMapped else .ok { a with mapped := a.mapped - 1 }

def release (a : Allocator) (kind : BlockKind) (handle : Nat) : Checked Allocator :=
  if handle ∈ a.live kind then .ok { a with blocks := a.blocks.filter (·.1 ≠ handle) }
  else .error .releasedTwice

def upload (a : Allocator) (image : Allocation) (info : ImageInfo) (pixels : Bytes) :
    Outcome TransferError Allocator := do
  let expected ← info.dataSize
  if pixels.length ≠ expected then .fail (.dataSizeMismatch expected pixels.length)
  return { a.modifyMemory image.memory (fun _ => .ofBytes pixels) with
    uploads := a.uploads ++ [(image.handle, pixels.length)] }

def contents (a : Allocator) (id : Nat) : Checked Bytes :=
  match a.memory? id with
  | some memory => .ok memory.bytes
  | none => .error .missingEntry

end Allocator

end ShaderBinding
