import ShaderBinding.Binder.Bind

/-! # Changing what is bound

Bytes are written into a bound buffer, and a bound image is replaced by another. Layouts, sets
and all other resources stay as they are, and a failed replacement keeps the old image.
-/

namespace ShaderBinding.Binder

open Native

def find (binder : Binder) (key : BindingKey) : Except BindError BoundResource :=
  match binder.get? key with
  | some bound => .ok bound
  | none => .error (.unknownBinding key.set key.binding)

def setBacking (binder : Binder) (key : BindingKey) (backing : Backing) : Binder :=
  { binder with resources := binder.resources.map fun bound =>
      if bound.key = key then { bound with backing := backing } else bound }

def writeBuffer (binder : Binder) (key : BindingKey) (offset : Nat) (data : Bytes) :
    Native BindError Unit := do
  let bound ← ofExcept (binder.find key)
  match bound.backing with
  | .buffer allocation => mapError .mapping (writeBytes allocation offset data)
  | .image .. => fail (.wrongKind key.set key.binding "a buffer")

/-- Replace an image. The new one keeps the usage of the old one and has a sampler if that had. -/
def replaceImage (binder : Binder) (key : BindingKey) (info : ImageInfo) (pixels : Bytes) :
    Native BindError Binder := do
  let bound ← ofExcept (binder.find key)
  match bound.backing with
  | .buffer _ => fail (.wrongKind key.set key.binding "an image")
  | .image _ old _ sampler => do
    mapError .device waitIdle
    let info := { info with usage := info.usage ||| old.usage }
    let backing ← Backing.makeImage bound.resource.name info pixels sampler.isSome
    let changed := { bound with backing := backing }
    updateSets [← ofExcept (writeOf binder.setCount binder.sets changed)]
    bound.backing.dispose
    return binder.setBacking key backing

end ShaderBinding.Binder
