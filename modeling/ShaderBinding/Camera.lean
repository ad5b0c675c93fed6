import ShaderBinding.ThirdParty.Libraries

/-! # Cameras

The matrices that a view of a scene is drawn with: from the world into view space, and from
there into clip space by a perspective projection.
-/

namespace ShaderBinding

/-- The parameters of a view; the field of view is vertical and in radians. -/
structure View where
  aspectRatio : Single := .one
  fovY : Single := ⟨0x3F490FDB⟩
  near : Single := .one
  far : Single := ⟨0x42C80000⟩
  distance : Single := ⟨0x41200000⟩
  deriving DecidableEq, Repr

/-- The default view onto a target of some width and height; a height of zero counts as one. -/
def View.ofExtent (width height : Nat) : View :=
  { aspectRatio := .ofNat width / .ofNat (max height 1) }

structure Camera where
  view : Matrix
  proj : Matrix
  deriving DecidableEq, Repr

def Camera.ofView [Libraries] (view : View) : Checked Camera := do
  let proj ← Libraries.perspective view.aspectRatio view.fovY view.near view.far
  return ⟨Libraries.awayFromViewer view.distance, proj⟩

end ShaderBinding
