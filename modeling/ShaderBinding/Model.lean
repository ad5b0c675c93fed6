import ShaderBinding.LayoutMap
import ShaderBinding.Link

/-! # Shader models

The reflections of a whole set of stages together with their merged descriptors.
-/

namespace ShaderBinding

structure Model where
  stages : StageMap Reflection
  layout : LayoutMap
  deriving DecidableEq, Repr

namespace Model

def ofStages (stages : StageMap Reflection) : Except ReflectError Model := do
  return ⟨stages, ← LayoutMap.merge stages⟩

/-- Classify interfaces one after the other; each stage can be declared once. -/
def classifyAll : StageMap Reflection → List Interface → Outcome ReflectError (StageMap Reflection)
  | stages, [] => return stages
  | stages, interface :: rest => do
    let reflection ← interface.classify
    if stages.contains interface.stage then
      .fail (.general s!"{interface.stage} shader declared twice")
    else classifyAll (stages.insert interface.stage reflection) rest

def ofInterfaces (interfaces : List Interface) : Outcome ReflectError Model := do
  let stages ← classifyAll .empty interfaces
  (ofStages stages).mapError .error

/-- What classifying the interfaces logs, up to the one that ends it. -/
def noticesFrom : List Stage → List Interface → List Notice
  | _, [] => []
  | seen, interface :: rest =>
    interface.notices ++
      match interface.classify with
      | .ok _ => if interface.stage ∈ seen then [] else noticesFrom (interface.stage :: seen) rest
      | .error _ => []

def notices (interfaces : List Interface) : List Notice := noticesFrom [] interfaces

def link (model : Model) (limits : Limits) : Outcome LinkErrors Unit :=
  ShaderBinding.link model.stages limits

def stageFlags (model : Model) : StageFlags := model.stages.flags

def pushConstants (model : Model) : List (Stage × Resource) := pushConstantBlocks model.stages

def inputAttributes (model : Model) : List Resource :=
  match model.stages.get? .vertex with
  | some vertex => vertex.inputAttributes
  | none => []

end Model

end ShaderBinding
