import ShaderBinding.Descriptor.Basic
import ShaderBinding.Native.Error

/-! # Devices

A device creates layouts, pools, descriptor sets, views, samplers and shader modules under
consecutive handles. Every live object is in one table, so a handle names at most one object;
destroying one that is not live is a fault, and a pool takes its sets with it.
-/

namespace ShaderBinding

structure DescriptorSet where
  id : Nat
  layout : Nat
  deriving DecidableEq, Repr

inductive Descriptor where
  | uniformBuffer (buffer start stop : Nat)
  | storageBuffer (buffer start stop : Nat)
  | combinedImageSampler (sampler view : Nat)
  | storageImage (view : Nat)
  deriving DecidableEq, Repr

def Descriptor.type : Descriptor → DescriptorType
  | uniformBuffer .. => .uniformBuffer
  | storageBuffer .. => .storageBuffer
  | combinedImageSampler .. => .combinedImageSampler
  | storageImage _ => .storageImage

structure DescriptorWrite where
  set : DescriptorSet
  binding : Nat
  descriptor : Descriptor
  deriving DecidableEq, Repr

inductive ObjectKind where
  | layout
  | pool
  | set
  | view
  | sampler
  | module
  deriving DecidableEq, Repr

inductive DeviceObject where
  | layout (bindings : List LayoutBinding)
  | pool (maxSets : Nat) (sizes : List PoolSize)
  | set (pool : Nat)
  | view (image : Nat)
  | sampler
  | module
  deriving DecidableEq, Repr

def DeviceObject.kind : DeviceObject → ObjectKind
  | layout _ => .layout
  | pool .. => .pool
  | set _ => .set
  | view _ => .view
  | sampler => .sampler
  | module => .module

/--
A strict device checks that a pool is large enough for the sets allocated from it and that a
module has code. With a layout budget, no more than that many layouts are created.
-/
structure Device where
  strict : Bool := true
  layoutBudget : Option Nat := none
  refusesPools : Bool := false
  next : Nat := 0
  objects : List (Nat × DeviceObject) := []
  layoutsCreated : Nat := 0
  writes : List DescriptorWrite := []
  updates : Nat := 0
  idleWaits : Nat := 0
  deriving DecidableEq, Repr

namespace Device

def object? (d : Device) (handle : Nat) : Option DeviceObject :=
  (d.objects.find? (·.1 = handle)).map (·.2)

def live (d : Device) (kind : ObjectKind) : List Nat :=
  (d.objects.filter (·.2.kind = kind)).map (·.1)

def setsOf (d : Device) (pool : Nat) : List Nat :=
  (d.objects.filter (·.2 = .set pool)).map (·.1)

def create (d : Device) (object : DeviceObject) : Nat × Device :=
  (d.next, { d with next := d.next + 1, objects := d.objects ++ [(d.next, object)] })

def createLayout (d : Device) (bindings : List LayoutBinding) :
    Outcome DeviceError (Nat × Device) := do
  if d.layoutBudget.any (· ≤ d.layoutsCreated) then .fail (.outOfMemory .host)
  return { d with layoutsCreated := d.layoutsCreated + 1 }.create (.layout bindings)

def createPool (d : Device) (maxSets : Nat) (sizes : List PoolSize) :
    Outcome DeviceError (Nat × Device) := do
  if d.refusesPools then .fail (.failed "vkCreateDescriptorPool" "injected failure")
  return d.create (.pool maxSets sizes)

def createSets (d : Device) (pool : Nat) : List Nat → Checked (List DescriptorSet × Device)
  | [] => return ([], d)
  | layout :: rest => do
    if layout ∉ d.live .layout then throw .usedAfterRelease
    let (id, d) := d.create (.set pool)
    let (sets, d) ← createSets d pool rest
    return (⟨id, layout⟩ :: sets, d)

def allocateSets (d : Device) (pool : Nat) (layouts : List Nat) :
    Outcome DeviceError (List DescriptorSet × Device) :=
  match d.object? pool with
  | some (.pool maxSets _) =>
    if d.strict ∧ maxSets < (d.setsOf pool).length + layouts.length then
      .fail (.failed "vkAllocateDescriptorSets" "pool exhausted")
    else createSets d pool layouts
  | _ => throw (.fault .missingEntry)

def updateSets (d : Device) (writes : List DescriptorWrite) : Checked Device :=
  if writes.all (·.set.id ∈ d.live .set) then
    .ok { d with updates := d.updates + 1, writes := d.writes ++ writes }
  else .error .usedAfterRelease

def createModule (d : Device) (words : List UInt32) : Outcome DeviceError (Nat × Device) := do
  if d.strict ∧ words.isEmpty then .fail (.failed "vkCreateShaderModule" "empty code")
  return d.create .module

/-- Destroy a live object of a kind; a pool is destroyed with its sets. -/
def destroy (d : Device) (kind : ObjectKind) (handle : Nat) : Checked Device :=
  if handle ∈ d.live kind then
    .ok { d with objects := d.objects.filter fun entry =>
            entry.1 ≠ handle ∧ (kind = .pool → entry.2 ≠ .set handle) }
  else .error .releasedTwice

end Device

end ShaderBinding
