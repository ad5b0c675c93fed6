import ShaderBinding.Engine.Bound
import ShaderBinding.Reload

/-! # Engines

An engine owns the current model and everything bound for it. A pass replaces or validates the
model; whatever can be refused beforehand is refused before the old model is torn down. After a
failed pass the engine is invalid until a later pass succeeds.
-/

namespace ShaderBinding

structure Engine where
  config : Config
  shaders : ShaderSet := .empty
  model : Option Model := none
  bound : Option BoundModel := none
  valid : Bool := false
  pending : ReloadFlags := .empty
  log : List Notice := []

/-- An operation of an engine on a backend. A failed one keeps what it did to both. -/
abbrev EngineM := ExceptT (Failure EngineError) (StateT Engine (StateM Backend))

structure PipelineInputs where
  setLayouts : List Nat
  sets : List DescriptorSet
  pushConstantRanges : List PushRange
  resources : List BoundResource
  pushConstants : PushConstants
  inputAttributes : List Resource
  stages : List StageModule

namespace Engine

variable [Libraries]

def native {α : Type} (x : Native EngineError α) : EngineM α :=
  ExceptT.mk fun engine b =>
    let (result, b) := (x.run b).run
    ((result, engine), b)

def ofOutcome {α : Type} (x : Outcome EngineError α) : EngineM α := ExceptT.mk (pure x)

def clearColor (engine : Engine) : ClearColor :=
  if engine.valid then engine.config.clearColor else .error

/-- Only a valid engine has inputs for a pipeline. -/
def pipelineInputs (engine : Engine) : Option PipelineInputs := do
  guard engine.valid
  let bound ← engine.bound
  let model ← engine.model
  return {
    setLayouts := bound.binder.layouts.map (·.handle)
    sets := bound.binder.sets
    pushConstantRanges := bound.pushConstants.ranges.map (·.2)
    resources := bound.binder.resources
    pushConstants := bound.pushConstants
    inputAttributes := model.inputAttributes
    stages := bound.modules }

/-- Hand out the invalidated parts collected since the last time. -/
def takePending (engine : Engine) : ReloadFlags × Engine :=
  (engine.pending, { engine with pending := .empty })

def setConfig (engine : Engine) (config : Config) : Engine := { engine with config := config }

def setView (engine : Engine) (view : View) : Engine :=
  { engine with config := { engine.config with view := view } }

def tearDown : EngineM Unit := do
  match (← get).bound with
  | some bound => native bound.dispose
  | none => pure ()
  modify fun engine => { engine with bound := none, model := none, shaders := .empty }

def link (model : Model) (limits : Limits) : EngineM Unit :=
  ofOutcome ((model.link limits).mapFailure .link)

def bindModel (shaders : ShaderSet) (model : Model) (limits : Limits) : EngineM Unit := do
  tearDown
  let bound ← native (BoundModel.make (← get).config shaders model limits)
  modify fun engine => { engine with bound := some bound, model := some model, shaders := shaders }

/-- Replace the model. The old one stays if the new one does not link or the device is not idle. -/
def replaceModel (shaders : ShaderSet) (model : Model) (validate : Bool) (limits : Limits) :
    EngineM Unit := do
  if validate then link model limits
  native (Native.mapError .device Native.waitIdle)
  bindModel shaders model limits

/--
The engine after a pass. A successful one makes the engine valid if anything is bound, and the
parts it invalidated become pending; a failed one is logged.
-/
def settled (engine : Engine) (flags : ReloadFlags) : Outcome EngineError Unit → Engine
  | .ok () => { engine with
      valid := engine.bound.isSome
      pending := engine.pending ||| (flags &&& (.renderPass ||| .pipeline)) }
  | .error (.error error) =>
    { engine with valid := false, log := engine.log ++ [error.notice] }
  | .error (.fault _) => engine

def finish (flags : ReloadFlags) (pass : EngineM Unit) : EngineM Unit :=
  ExceptT.mk do
    let result ← pass.run
    modify (·.settled flags result)
    return result

/-- Replace the model by one that was reflected elsewhere. -/
def install (shaders : ShaderSet) (model : Model) (limits : Limits) : EngineM Unit :=
  finish .reloadShaders (replaceModel shaders model true limits)

def loadModel (files : FileTree) : EngineM (ShaderSet × Model) := do
  let source := (← get).config.source
  let shaders ← ofOutcome ((source.load files).mapError fun e => .error (.shader e))
  modify fun engine => { engine with log := engine.log ++ shaders.notices }
  return (shaders, ← ofOutcome (shaders.reflect.mapFailure .reflect))

def reloadParts (flags : ReloadFlags) (files : FileTree) (limits : Limits) : EngineM Unit := do
  if flags.contains ReloadFlags.shaders then
    let (shaders, model) ← loadModel files
    replaceModel shaders model (flags.contains ReloadFlags.validation) limits
  else if flags.contains ReloadFlags.validation then
    match (← get).model with
    | some model => link model limits
    | none => throw (.error .invalid)

/-- Run a pass for the given parts and those that they invalidate. -/
def reload (flags : ReloadFlags) (files : FileTree) (limits : Limits) : EngineM Unit :=
  finish flags.withImplied (reloadParts flags.withImplied files limits)

def boundModel : EngineM BoundModel := do
  match (← get).bound with
  | some bound => return bound
  | none => throw (.error .invalid)

def writeBuffer (key : BindingKey) (offset : Nat) (data : Bytes) : EngineM Unit := do
  let bound ← boundModel
  native (Native.mapError .bind (bound.binder.writeBuffer key offset data))

def replaceImage (key : BindingKey) (info : ImageInfo) (pixels : Bytes) : EngineM Unit := do
  let bound ← boundModel
  let binder ← native (Native.mapError .bind (bound.binder.replaceImage key info pixels))
  modify fun engine => { engine with bound := some { bound with binder := binder } }

def writePushConstants (stage : Stage) (offset : Nat) (data : Bytes) : EngineM Unit := do
  let bound ← boundModel
  let pushConstants ← ofOutcome ((bound.pushConstants.write stage offset data).mapError
    fun e => .error (.bind (.pushConstant e)))
  modify fun engine => { engine with bound := some { bound with pushConstants := pushConstants } }

def recordPushConstants : EngineM (List (PushRange × Bytes)) :=
  return (← boundModel).pushConstants.record

def dispose : EngineM Unit := tearDown

end Engine

end ShaderBinding
