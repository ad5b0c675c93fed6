import ShaderBinding.Interface
import ShaderBinding.Resource
import ShaderBinding.Severity
import ShaderBinding.Type.Reflect

/-! # Reflections

The classified resources of one stage, worked out from its interface: every declaration is
typed, variables are sorted by location, and descriptors are bucketed by category.
-/

namespace ShaderBinding

inductive RetrievalKind where
  | module
  | inputVariables
  | outputVariables
  | descriptorBindings
  | pushConstants
  deriving DecidableEq, Repr

namespace RetrievalKind

def label : RetrievalKind → String
  | module => "shader module"
  | inputVariables => "input variables"
  | outputVariables => "output variables"
  | descriptorBindings => "descriptor bindings"
  | pushConstants => "push constants"

def name : RetrievalKind → String
  | module => "Module"
  | inputVariables => "InputVariables"
  | outputVariables => "OutputVariables"
  | descriptorBindings => "DescriptorBindings"
  | pushConstants => "PushConstants"

instance : Named RetrievalKind :=
  ⟨[module, inputVariables, outputVariables, descriptorBindings, pushConstants], name⟩

end RetrievalKind

inductive ReflectError where
  | retrieval (kind : RetrievalKind) (text : String)
  | general (text : String)
  | type (error : TypeError)
  | unsupportedResource (stage : Stage) (name : String) (kind : BindingKind)
  | multiplePushConstantBlocks (stage : Stage)
  | stageMismatch (expected found : Stage)
  | incompatibleBinding (set binding : Nat) (stage : Stage)
  deriving DecidableEq, Repr

namespace ReflectError

def code : ReflectError → String
  | retrieval kind _ => s!"Retrieval.{kind.name}"
  | general _ => "General"
  | type error => s!"Type.{error.code}"
  | unsupportedResource .. => "UnsupportedResource"
  | multiplePushConstantBlocks _ => "MultiplePushConstantBlocks"
  | stageMismatch .. => "StageMismatch"
  | incompatibleBinding .. => "IncompatibleBinding"

def message : ReflectError → String
  | retrieval kind text => s!"failed to get {kind.label} from shader: {text}"
  | general text => text
  | type error => error.message
  | unsupportedResource stage name kind =>
    s!"{stage} shader: resource '{name}' of kind {kind.name} is not supported"
  | multiplePushConstantBlocks stage => s!"{stage} shader: more than one push constant block"
  | stageMismatch expected found => s!"expected a {expected} shader, binary declares {found}"
  | incompatibleBinding set binding stage =>
    s!"{stage} shader: incompatible resource at set {set} binding {binding}"

def severity : ReflectError → Severity
  | unsupportedResource .. | multiplePushConstantBlocks _ | stageMismatch .. => .warning
  | retrieval .. | general _ | type _ | incompatibleBinding .. => .critical

instance : Diagnostic ReflectError := ⟨code, message, fun e => some e.severity⟩

end ReflectError

structure Reflection where
  stage : Stage
  entryPoint : String
  inputs : List Variable
  outputs : List Variable
  inputAttributes : List Resource
  uniformBuffers : List Resource
  storageBuffers : List Resource
  sampledImages : List Resource
  storageImages : List Resource
  pushConstant : Option Resource
  deriving DecidableEq, Repr

def Reflection.descriptors (reflection : Reflection) : List Resource :=
  reflection.uniformBuffers ++ reflection.storageBuffers ++ reflection.sampledImages ++
    reflection.storageImages

def reflectType (desc : TypeDescription) : Outcome ReflectError ShaderType :=
  (ShaderType.ofDescription desc).mapFailure .type

namespace VariableDeclaration

def reflect (decl : VariableDeclaration) : Outcome ReflectError Variable :=
  return ⟨decl.name, decl.location, ← reflectType decl.type⟩

/-- The user-declared variables, ascending by location and then in declaration order. -/
def reflectAll (decls : List VariableDeclaration) : Outcome ReflectError (List Variable) := do
  let reflected ← (decls.filter (!·.builtin)).mapM reflect
  return reflected.mergeSort (·.location ≤ ·.location)

end VariableDeclaration

/-- The kind a binding is bound through, and for images whether they are sampled. -/
def BindingKind.descriptor? : BindingKind → Option (DescriptorKind × Option Bool)
  | uniformBuffer => some (.uniformBuffer, none)
  | storageBuffer => some (.storageBuffer, none)
  | sampledImage | combinedImageSampler => some (.image, some true)
  | storageImage => some (.image, some false)
  | _ => none

def ShaderType.withSampled : Option Bool → ShaderType → ShaderType
  | some sampled, image shape => image { shape with sampled }
  | _, type => type

namespace BindingDeclaration

/-- An array of descriptors is bound as a single one. -/
def reflect (stage : Stage) (decl : BindingDeclaration) : Outcome ReflectError Resource :=
  match decl.kind.descriptor? with
  | none => .fail (.unsupportedResource stage decl.name decl.kind)
  | some (kind, sampled) => do
    let type ← reflectType decl.type.element
    return ⟨decl.name, .descriptor decl.set decl.binding stage.flag kind, type.withSampled sampled⟩

def arrayNotice (stage : Stage) (decl : BindingDeclaration) : Notice :=
  let dims := ", ".intercalate (decl.type.arrayDims.map toString)
  ⟨.warning, s!"{stage} shader: descriptor array '{decl.name}' [{dims}] " ++
    "is bound as a single descriptor"⟩

/-- What is logged for a binding: an array of a supported kind is worth a warning. -/
def notices (stage : Stage) (decl : BindingDeclaration) : List Notice :=
  if decl.kind.descriptor?.isSome && !decl.type.arrayDims.isEmpty then [decl.arrayNotice stage]
  else []

/-- The notices of the bindings up to the first that cannot be reflected. -/
def noticesOfAll (stage : Stage) : List BindingDeclaration → List Notice
  | [] => []
  | decl :: rest =>
    decl.notices stage ++
      match decl.reflect stage with
      | .ok _ => noticesOfAll stage rest
      | .error _ => []

end BindingDeclaration

namespace Interface

def reflectPushConstant (interface : Interface) : Outcome ReflectError (Option Resource) :=
  match interface.pushConstants with
  | [] => return none
  | [block] => return some ⟨block.name, .pushConstant interface.stage, ← reflectType block.type⟩
  | _ => .fail (.multiplePushConstantBlocks interface.stage)

def reflectionOf (interface : Interface) (inputs outputs : List Variable)
    (descriptors : List Resource) (pushConstant : Option Resource) : Reflection :=
  let bucket (category : Category) := descriptors.filter (·.category? = some category)
  { stage := interface.stage
    entryPoint := interface.entryPoint
    inputs
    outputs
    inputAttributes :=
      if interface.stage = .vertex then
        inputs.map fun input => ⟨input.name, .inputAttribute input.location, input.type⟩
      else []
    uniformBuffers := bucket .uniformBuffer
    storageBuffers := bucket .storageBuffer
    sampledImages := bucket .sampledImage
    storageImages := bucket .storageImage
    pushConstant }

def classify (interface : Interface) : Outcome ReflectError Reflection := do
  let inputs ← VariableDeclaration.reflectAll interface.inputs
  let outputs ← VariableDeclaration.reflectAll interface.outputs
  let descriptors ← interface.bindings.mapM (·.reflect interface.stage)
  let pushConstant ← interface.reflectPushConstant
  return interface.reflectionOf inputs outputs descriptors pushConstant

def notices (interface : Interface) : List Notice :=
  match VariableDeclaration.reflectAll interface.inputs,
      VariableDeclaration.reflectAll interface.outputs with
  | .ok _, .ok _ => BindingDeclaration.noticesOfAll interface.stage interface.bindings
  | _, _ => []

end Interface

end ShaderBinding
