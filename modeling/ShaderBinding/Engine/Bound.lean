import ShaderBinding.Binder.Update
import ShaderBinding.Config
import ShaderBinding.Engine.Error
import ShaderBinding.Seed

/-! # Bound models

Everything that exists for one model: its binder, its push constants with their data, and the
modules of its shaders. Uniform data and push constants start out with the camera's matrices.
-/

namespace ShaderBinding

open Native

structure StageModule where
  stage : Stage
  entry : String
  handle : Nat
  deriving DecidableEq, Repr

structure BoundModel where
  binder : Binder
  pushConstants : PushConstants
  modules : List StageModule
  deriving DecidableEq, Repr

namespace PushConstants

def ofModel (model : Model) : Checked PushConstants :=
  ofBlocks (.ofList (model.pushConstants.map fun (stage, block) => (stage, block.type.size)))

def seed (camera : Camera) (p : PushConstants) (blocks : List (Stage × Resource)) :
    Outcome PushConstantError PushConstants :=
  blocks.foldlM (fun p (stage, block) => do
    match ← block.type.defaultData camera with
    | some data => (p.write stage 0 data).mapError .error
    | none => return p) p

end PushConstants

namespace Binder

def seed (binder : Binder) (camera : Camera) : Native BindError Unit :=
  binder.resources.forM fun bound => do
    match bound.backing with
    | .buffer _ =>
      match ← ofChecked (bound.resource.type.defaultData camera) with
      | some data => binder.writeBuffer bound.key 0 data
      | none => return ()
    | .image .. => return ()

end Binder

namespace BoundModel

def destroyModules {ε : Type} (modules : List StageModule) : Native ε Unit :=
  modules.reverse.forM fun entry => destroy .module entry.handle

def makeModules (shaders : ShaderSet) : Native DeviceError (List StageModule) :=
  makeAll (fun shader => do return ⟨shader.stage, shader.entry, ← createModule shader.words⟩)
    (fun entry => destroy .module entry.handle) shaders.values

def dispose {ε : Type} (bound : BoundModel) : Native ε Unit := do
  destroyModules bound.modules
  bound.binder.dispose

/-- Bind a model, seed its data and create its shader modules; all of it or nothing. -/
def make [Libraries] (config : Config) (shaders : ShaderSet) (model : Model) (limits : Limits) :
    Native EngineError BoundModel := do
  let binder ← mapError .bind (Binder.bind model.layout (config.bindOptions limits))
  withUndo binder.dispose do
    let zeroed ← PushConstants.ofModel model
    let camera ← Camera.ofView config.view
    mapError .bind (binder.seed camera)
    let pushConstants ← ofOutcome
      ((zeroed.seed camera model.pushConstants).mapFailure fun e => .bind (.pushConstant e))
    let modules ← mapError .device (makeModules shaders)
    return ⟨binder, pushConstants, modules⟩

end BoundModel

end ShaderBinding
