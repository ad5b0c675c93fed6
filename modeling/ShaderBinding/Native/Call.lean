import ShaderBinding.Memory.Allocator
import ShaderBinding.Native.Device

/-! # Native calls

The calls made to an allocator and a device, with their arguments and results. The kinds of
calls that can fail are named, each with the type of its errors.
-/

namespace ShaderBinding

inductive Call where
  | allocateBuffer (size : Nat) (usage : BufferUsage) (name : String)
  | allocateImage (info : ImageInfo) (name : String)
  | mapMemory (memory start stop : Nat)
  | unmapMemory (memory : Nat)
  | transferImage (image : Nat) (info : ImageInfo) (pixels : Bytes)
  | deallocate (kind : BlockKind) (handle : Nat)
  | createLayout (bindings : List LayoutBinding)
  | createPool (maxSets : Nat) (sizes : List PoolSize)
  | allocateSets (pool : Nat) (layouts : List Nat)
  | updateSets (writes : List DescriptorWrite)
  | createView (image : Nat) (info : ImageInfo)
  | createSampler
  | createModule (words : List UInt32)
  | destroy (kind : ObjectKind) (handle : Nat)
  | waitIdle
  | pushConstants (stages : StageFlags) (offset : Nat) (data : Bytes)
  deriving DecidableEq, Repr

inductive CallResult where
  | done
  | handle (handle : Nat)
  | sets (sets : List DescriptorSet)
  | failed
  deriving DecidableEq, Repr

structure Event where
  call : Call
  result : CallResult
  deriving DecidableEq, Repr

inductive CallKind where
  | allocateBuffer
  | allocateImage
  | mapMemory
  | transferImage
  | createLayout
  | createPool
  | allocateSets
  | createView
  | createSampler
  | createModule
  | waitIdle
  deriving DecidableEq, Repr

namespace CallKind

@[reducible]
def Error : CallKind → Type
  | allocateBuffer | allocateImage => AllocationError
  | mapMemory => MappingError
  | transferImage => TransferError
  | createLayout | createPool | allocateSets | createView | createSampler | createModule
  | waitIdle => DeviceError

def all : List CallKind :=
  [allocateBuffer, allocateImage, mapMemory, transferImage, createLayout, createPool, allocateSets,
    createView, createSampler, createModule, waitIdle]

end CallKind

/-- A failure to come: some calls of a kind pass, and the next one fails. -/
structure PlannedFailure where
  kind : CallKind
  passing : Nat
  error : kind.Error

/--
Failures to come besides those that the allocator and the device decide on. Those of one kind
follow each other: the calls that one lets pass start after the failure before it.
-/
abbrev FailurePlan := List PlannedFailure

namespace FailurePlan

/-- Plan a failure in place of all others of its kind. -/
def plan (failures : FailurePlan) (failure : PlannedFailure) : FailurePlan :=
  failure :: failures.filter (·.kind ≠ failure.kind)

def due? (kind : CallKind) : FailurePlan → Option kind.Error
  | [] => none
  | failure :: rest =>
    if h : failure.kind = kind then
      if failure.passing = 0 then some (h ▸ failure.error) else none
    else due? kind rest

def advance (kind : CallKind) : FailurePlan → FailurePlan
  | [] => []
  | failure :: rest =>
    if failure.kind ≠ kind then failure :: advance kind rest
    else if failure.passing = 0 then rest
    else { failure with passing := failure.passing - 1 } :: rest

end FailurePlan

end ShaderBinding
