import ShaderBinding.Model
import ShaderBinding.Shader.Files
import ShaderBinding.Spirv.Binary
import ShaderBinding.Spirv.Reflect

/-! # Shaders

Shader binaries with their stage and entry point, the set of them that a pipeline uses, and
loading such a set from files.
-/

namespace ShaderBinding

variable [Libraries]

structure Shader where
  words : List UInt32
  stage : Stage
  entry : String
  deriving DecidableEq, Repr

namespace Shader

def ofBytes (bytes : Bytes) (stage : Stage) (entry : String) : Except ShaderError Shader := do
  return ⟨← Spirv.readWords bytes, stage, entry⟩

/-- The interface of the binary, which has to be of the shader's stage. -/
def interface (shader : Shader) : Outcome ReflectError Interface := do
  let interface ← Spirv.reflect shader.words
  if interface.stage = shader.stage then return { interface with entryPoint := shader.entry }
  else .fail (.stageMismatch shader.stage interface.stage)

def reflect (shader : Shader) : Outcome ReflectError Reflection := do
  (← shader.interface).classify

def notices (shader : Shader) : List Notice :=
  match shader.interface with
  | .ok interface => interface.notices
  | .error _ => []

end Shader

abbrev ShaderSet := StageMap Shader

namespace ShaderSet

def add (set : ShaderSet) (shader : Shader) : ShaderSet := set.insert shader.stage shader

def reflectAll (shaders : List Shader) : Outcome ReflectError (List (Stage × Reflection)) :=
  shaders.mapM fun shader => return (shader.stage, ← shader.reflect)

def reflect (set : ShaderSet) : Outcome ReflectError Model := do
  let reflections ← reflectAll set.values
  (Model.ofStages (.ofList reflections)).mapError .error

def noticesOf : List Shader → List Notice
  | [] => []
  | shader :: rest =>
    shader.notices ++
      match shader.reflect with
      | .ok _ => noticesOf rest
      | .error _ => []

/-- What reflecting the set logs, up to the shader that cannot be reflected. -/
def notices (set : ShaderSet) : List Notice := noticesOf set.values

end ShaderSet

/-- Where the binaries of a shader set are. -/
structure ShaderSource where
  dir : String
  names : StageMap String
  entry : String
  deriving DecidableEq, Repr

namespace ShaderSource

def read (source : ShaderSource) (files : FileTree) (stage : Stage) (name : String) :
    Except ShaderError (Option Shader) := do
  let path := FileTree.join source.dir name
  if files.isFile path then
    let bytes ← (files.read path).mapError fun e => .io path e.message
    return some (← Shader.ofBytes bytes stage source.entry)
  else return none

/-- Read the binaries of all stages; a stage without a file is left out. -/
def load (source : ShaderSource) (files : FileTree) : Except ShaderError ShaderSet := do
  let found ← source.names.toList.mapM fun (stage, name) => source.read files stage name
  return (found.filterMap id).foldl ShaderSet.add StageMap.empty

end ShaderSource

end ShaderBinding
