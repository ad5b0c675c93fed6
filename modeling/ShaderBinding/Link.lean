import ShaderBinding.Limits
import ShaderBinding.Reflection
import ShaderBinding.Stage.Map
import ShaderBinding.Type.Matching

/-! # Linking

The rules between consecutive stages and against the device limits. Every violated rule is
reported, except that a missing vertex stage is reported alone.
-/

namespace ShaderBinding

inductive LinkError where
  | missingVertexStage
  | unpairedTessellation
  | tooManyVertexAttributes (count limit : Nat)
  | tooManyFragmentOutputs (count limit : Nat)
  | pushConstantsTooLarge (size limit : Nat)
  | countMismatch (source target : Stage) (outputs inputs : Nat)
  | noMatchingInput (source target : Stage) (location : Nat) (name : String)
  | typeMismatch (source target : Stage) (location : Nat)
  deriving DecidableEq, Repr

namespace LinkError

def code : LinkError → String
  | missingVertexStage => "MissingVertexStage"
  | unpairedTessellation => "UnpairedTessellation"
  | tooManyVertexAttributes .. => "TooManyVertexAttributes"
  | tooManyFragmentOutputs .. => "TooManyFragmentOutputs"
  | pushConstantsTooLarge .. => "PushConstantsTooLarge"
  | countMismatch .. => "CountMismatch"
  | noMatchingInput .. => "NoMatchingInput"
  | typeMismatch .. => "TypeMismatch"

def message : LinkError → String
  | missingVertexStage => "vertex shader is required"
  | unpairedTessellation =>
    "tessellation control and evaluation shaders must be used together"
  | tooManyVertexAttributes count limit =>
    s!"vertex shader declares {count} input attributes, device limit is {limit}"
  | tooManyFragmentOutputs count limit =>
    s!"fragment shader declares {count} outputs, device limit is {limit}"
  | pushConstantsTooLarge size limit =>
    s!"push constants take {size} bytes, device limit is {limit}"
  | countMismatch source target outputs inputs =>
    s!"{source} shader has {outputs} outputs but {target} shader has {inputs} inputs"
  | noMatchingInput source target location name =>
    s!"{source} shader output '{name}' at location {location} has no matching " ++
      s!"{target} shader input"
  | typeMismatch source target location =>
    s!"{source} -> {target} shader: type mismatch at location {location}"

def severity : LinkError → Severity
  | missingVertexStage => .warning
  | _ => .critical

instance : Diagnostic LinkError := ⟨code, message, fun e => some e.severity⟩

end LinkError

/-- All problems of one linking pass. -/
structure LinkErrors where
  errors : List LinkError
  deriving DecidableEq, Repr

namespace LinkErrors

def message (e : LinkErrors) : String :=
  s!"{e.errors.length} link error(s)" ++ String.join (e.errors.map fun error =>
    s!"\n  {error.message}")

def severity (e : LinkErrors) : Severity := .worst (e.errors.map (·.severity))

instance : Diagnostic LinkErrors := ⟨fun _ => "LinkErrors", message, fun e => some e.severity⟩

end LinkErrors

/--
Variables by location. They are entered one after the other, and a later one
replaces an earlier one of the same location.
-/
def Variable.byLocation (vars : List Variable) : Nat → Option Variable :=
  vars.foldl (fun table entry location =>
    if location = entry.location then some entry else table location) fun _ => none

namespace Reflection

/-- What is wrong with one output of a stage as seen by the next stage. -/
def outputErrors (source target : Reflection) (inputs : Nat → Option Variable)
    (output : Variable) : List LinkError :=
  match inputs output.location with
  | none => [.noMatchingInput source.stage target.stage output.location output.name]
  | some input =>
    if output.type.feeds input.type then []
    else [.typeMismatch source.stage target.stage output.location]

def pairErrors (source target : Reflection) : List LinkError :=
  if source.outputs.length = target.inputs.length then
    source.outputs.flatMap (source.outputErrors target (Variable.byLocation target.inputs))
  else
    [.countMismatch source.stage target.stage source.outputs.length target.inputs.length]

/-- The problems of each two neighbours in a list of present stages. -/
def chainErrors : List Reflection → List LinkError
  | source :: target :: rest => source.pairErrors target ++ chainErrors (target :: rest)
  | _ => []

end Reflection

def pushConstantBlocks (stages : StageMap Reflection) : List (Stage × Resource) :=
  stages.toList.filterMap fun entry => entry.2.pushConstant.map (entry.1, ·)

def tessellationErrors (stages : StageMap Reflection) : List LinkError :=
  if stages.contains .tessControl = stages.contains .tessEval then [] else [.unpairedTessellation]

/-- Attributes are counted in 32 bits, and so are fragment outputs. -/
def attributeErrors (limits : Limits) (vertex : Reflection) : List LinkError :=
  let count := Width.word.wrap vertex.inputAttributes.length
  let limit := limits.maxVertexInputAttributes
  if count > limit then [.tooManyVertexAttributes count limit] else []

def fragmentErrors (limits : Limits) : Option Reflection → List LinkError
  | none => []
  | some fragment =>
    let count := Width.word.wrap fragment.outputs.length
    let limit := limits.maxFragmentOutputAttachments
    if count > limit then [.tooManyFragmentOutputs count limit] else []

def pushConstantErrors (limits : Limits) (total : Nat) : List LinkError :=
  let limit := limits.maxPushConstantsSize
  if total > limit then [.pushConstantsTooLarge total limit] else []

/-- All that is wrong with stages of which one is a vertex stage, rule after rule. -/
def linkErrors (stages : StageMap Reflection) (limits : Limits) (vertex : Reflection)
    (total : Nat) : List LinkError :=
  tessellationErrors stages ++ attributeErrors limits vertex ++
    fragmentErrors limits (stages.get? .fragment) ++ pushConstantErrors limits total ++
    Reflection.chainErrors stages.values

def link (stages : StageMap Reflection) (limits : Limits) : Outcome LinkErrors Unit :=
  match stages.get? .vertex with
  | none => .fail ⟨[.missingVertexStage]⟩
  | some vertex => do
    let total ← Checked.sum32 ((pushConstantBlocks stages).map (·.2.type.size))
    let errors := linkErrors stages limits vertex total
    if errors.isEmpty then return () else .fail ⟨errors⟩

end ShaderBinding
