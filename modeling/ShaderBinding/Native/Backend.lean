import ShaderBinding.Native.Call

/-! # Backends

A backend is an allocator and a device together with the record of all calls made to them.
`Native` computations call it one call after the other. A call that fails has no effect but its
line in the record, and a fault leaves no line.
-/

namespace ShaderBinding

structure Backend where
  allocator : Allocator := {}
  device : Device := {}
  failures : FailurePlan := []
  trace : List Event := []

/-- A computation on a backend that can fault or report an error. -/
abbrev Native (ε : Type) := ExceptT (Failure ε) (StateM Backend)

namespace Native

variable {ε δ α : Type}

def fail (error : ε) : Native ε α := throw (.error error)

def mapError (f : ε → δ) (x : Native ε α) : Native δ α :=
  ExceptT.mk do return (← x.run).mapError (Failure.map f)

/-- Undo what was done before, if an error is reported. A fault ends it all. -/
def withUndo (undo : Native ε Unit) (x : Native ε α) : Native ε α :=
  ExceptT.mk do
    match ← x.run with
    | .error (.error error) =>
      match ← undo.run with
      | .ok () => return .error (.error error)
      | .error failure => return .error failure
    | result => return result

/-- Make one thing per item. If one cannot be made, those before it are undone, last first. -/
def makeAll {β : Type} (make : α → Native ε β) (undo : β → Native ε Unit) :
    List α → Native ε (List β)
  | [] => return []
  | a :: rest => do
    let b ← make a
    let others ← withUndo (undo b) (makeAll make undo rest)
    return b :: others

def ofChecked (x : Checked α) : Native ε α := ExceptT.mk (pure (x.mapError .fault))

instance : MonadLift Checked (Native ε) := ⟨ofChecked⟩

def ofOutcome (x : Outcome ε α) : Native ε α := ExceptT.mk (pure x)

def ofExcept (x : Except ε α) : Native ε α := ExceptT.mk (pure (x.mapError .error))

def record (call : Call) (result : CallResult) : Native ε Unit :=
  modify fun b => { b with trace := b.trace ++ [⟨call, result⟩] }

/--
Make a call that can fail: by plan, or because `effect` refuses it. The call is recorded with its
result, and only a successful one changes the backend otherwise.
-/
def attempt (kind : CallKind) (call : Call) (result : α → CallResult)
    (effect : Backend → Outcome kind.Error (α × Backend)) : Native kind.Error α := do
  let due := (← get).failures.due? kind
  modify fun b => { b with failures := b.failures.advance kind }
  let outcome : Outcome kind.Error (α × Backend) ← match due with
    | some error => pure (.error (.error error))
    | none => effect <$> get
  match outcome with
  | .ok (a, b) => do
    set b
    record call (result a)
    return a
  | .error (.error error) => do
    record call .failed
    fail error
  | .error (.fault fault) => throw (.fault fault)

def perform (call : Call) (effect : Backend → Checked Backend) : Native ε Unit := do
  set (← ofChecked (effect (← get)))
  record call .done

def onAllocator (step : Allocator → Outcome ε (α × Allocator)) (b : Backend) :
    Outcome ε (α × Backend) := do
  let (a, allocator) ← step b.allocator
  return (a, { b with allocator := allocator })

def allocateBuffer (size : Nat) (usage : BufferUsage) (name : String) :
    Native AllocationError Allocation :=
  attempt .allocateBuffer (.allocateBuffer size usage name) (.handle ·.handle)
    (onAllocator (·.allocate .buffer (.ok size) name))

def allocateImage (info : ImageInfo) (name : String) : Native AllocationError Allocation :=
  attempt .allocateImage (.allocateImage info name) (.handle ·.handle)
    (onAllocator (·.allocate .image info.dataSize name))

def mapMemory (memory start stop : Nat) : Native MappingError Unit :=
  attempt .mapMemory (.mapMemory memory start stop) (fun _ => .done)
    (onAllocator fun a => ((a.map memory start stop).map ((), ·)).mapError .error)

def unmapMemory (memory : Nat) : Native ε Unit :=
  perform (.unmapMemory memory) fun b => do
    return { b with allocator := ← b.allocator.unmap }

def transferImage (image : Allocation) (info : ImageInfo) (pixels : Bytes) :
    Native TransferError Unit :=
  attempt .transferImage (.transferImage image.handle info pixels) (fun _ => .done)
    (onAllocator fun a => (a.upload image info pixels).map ((), ·))

def deallocate (kind : BlockKind) (allocation : Allocation) : Native ε Unit :=
  perform (.deallocate kind allocation.handle) fun b => do
    return { b with allocator := ← b.allocator.release kind allocation.handle }

/-- Write into a mapped range; mapping it is the caller's duty. -/
def copyIn (memory offset : Nat) (data : Bytes) : Native ε Unit :=
  modify fun b => { b with allocator := b.allocator.modifyMemory memory (·.write offset data) }

/--
Write bytes into an allocation through a temporary mapping. The range has to lie inside the
allocation; writing nothing there needs no mapping.
-/
def writeBytes (allocation : Allocation) (offset : Nat) (data : Bytes) :
    Native MappingError Unit := do
  let stop := offset + data.length
  if allocation.size < stop ∨ Width.long.bound ≤ stop then
    fail (.outOfBounds offset (min stop (Width.long.bound - 1)) allocation.size)
  else if data.isEmpty then return ()
  else do
    mapMemory allocation.memory offset stop
    copyIn allocation.memory offset data
    unmapMemory allocation.memory

def onDevice (step : Device → Outcome ε (α × Device)) (b : Backend) : Outcome ε (α × Backend) := do
  let (a, device) ← step b.device
  return (a, { b with device := device })

def createLayout (bindings : List LayoutBinding) : Native DeviceError Nat :=
  attempt .createLayout (.createLayout bindings) .handle (onDevice (·.createLayout bindings))

def createPool (maxSets : Nat) (sizes : List PoolSize) : Native DeviceError Nat :=
  attempt .createPool (.createPool maxSets sizes) .handle (onDevice (·.createPool maxSets sizes))

def allocateSets (pool : Nat) (layouts : List Nat) : Native DeviceError (List DescriptorSet) := do
  if !(← get).device.strict && layouts.isEmpty then return []
  else
    attempt .allocateSets (.allocateSets pool layouts) .sets (onDevice (·.allocateSets pool layouts))

def updateSets (writes : List DescriptorWrite) : Native ε Unit :=
  perform (.updateSets writes) fun b => do
    return { b with device := ← b.device.updateSets writes }

def createView (image : Nat) (info : ImageInfo) : Native DeviceError Nat :=
  attempt .createView (.createView image info) .handle
    (onDevice fun d => .ok (d.create (.view image)))

def createSampler : Native DeviceError Nat :=
  attempt .createSampler .createSampler .handle (onDevice fun d => .ok (d.create .sampler))

def createModule (words : List UInt32) : Native DeviceError Nat :=
  attempt .createModule (.createModule words) .handle (onDevice (·.createModule words))

def destroy (kind : ObjectKind) (handle : Nat) : Native ε Unit :=
  perform (.destroy kind handle) fun b => do
    return { b with device := ← b.device.destroy kind handle }

def waitIdle : Native DeviceError Unit :=
  attempt .waitIdle .waitIdle (fun _ => .done)
    (onDevice fun d => .ok ((), { d with idleWaits := d.idleWaits + 1 }))

def pushConstants (data : List (StageFlags × Nat × Bytes)) : Native ε Unit :=
  data.forM fun (stages, offset, bytes) => perform (.pushConstants stages offset bytes) pure

end Native

end ShaderBinding
