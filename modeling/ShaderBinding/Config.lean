import ShaderBinding.Binder.Bind
import ShaderBinding.Camera
import ShaderBinding.Shader.Basic

/-! # Configuration

Where an engine finds its shaders, what it fills new images with, which layouts are reserved,
and the view that initial data is computed from.
-/

namespace ShaderBinding

structure ClearColor where
  red : Single
  green : Single
  blue : Single
  alpha : Single
  deriving DecidableEq, Repr

namespace ClearColor

def opaqueBlack : ClearColor := ⟨.zero, .zero, .zero, .one⟩

/-- Shown while the engine is not valid. -/
def error : ClearColor := ⟨.one, .zero, .one, .one⟩

end ClearColor

def Stage.defaultName (stage : Stage) : String := s!"shader.{stage.ext}.spv"

structure Config where
  dir : String := "shaders"
  names : StageMap String := .ofList (Stage.all.map fun stage => (stage, stage.defaultName))
  entry : String := "main"
  placeholder : ImageInfo := {}
  fill : Color := .white
  builtinLayouts : List (List LayoutBinding) := []
  view : View := {}
  clearColor : ClearColor := .opaqueBlack
  deriving DecidableEq, Repr

namespace Config

def withShader (config : Config) (stage : Stage) (name : String) : Config :=
  { config with names := config.names.insert stage name }

def withoutShader (config : Config) (stage : Stage) : Config :=
  { config with names := config.names.erase stage }

def withBuiltinLayout (config : Config) (bindings : List LayoutBinding) : Config :=
  { config with builtinLayouts := config.builtinLayouts ++ [bindings] }

def source (config : Config) : ShaderSource := ⟨config.dir, config.names, config.entry⟩

def bindOptions (config : Config) (limits : Limits) : BindOptions :=
  ⟨config.builtinLayouts, config.placeholder, config.fill, limits⟩

end Config

end ShaderBinding
