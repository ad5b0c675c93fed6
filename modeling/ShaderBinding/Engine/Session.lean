import ShaderBinding.Engine.Basic

/-! # Sessions

An engine together with the backend it works on, and the requests that it gets one after the
other. A refused request leaves a session that goes on; a fault ends it.
-/

namespace ShaderBinding

variable [Libraries]

structure Session where
  engine : Engine
  backend : Backend

def EngineM.exec {α : Type} (op : EngineM α) (s : Session) : Outcome EngineError α × Session :=
  let ((result, engine), backend) := (op.run s.engine).run s.backend
  (result, ⟨engine, backend⟩)

/-- The requests that may replace the model. -/
inductive Pass where
  | install (shaders : ShaderSet) (model : Model) (limits : Limits)
  | reload (flags : ReloadFlags) (files : FileTree) (limits : Limits)

/-- With `plan`, it is not the engine but the backend that is told which calls are to fail. -/
inductive Request where
  | pass (p : Pass)
  | setConfig (config : Config)
  | setView (view : View)
  | takePending
  | writeBuffer (key : BindingKey) (offset : Nat) (data : Bytes)
  | replaceImage (key : BindingKey) (info : ImageInfo) (pixels : Bytes)
  | writePushConstants (stage : Stage) (offset : Nat) (data : Bytes)
  | recordPushConstants
  | plan (failures : FailurePlan)

inductive Reply where
  | done
  | pending (parts : ReloadFlags)
  | recorded (data : List (PushRange × Bytes))

def Pass.op : Pass → EngineM Unit
  | install shaders model limits => Engine.install shaders model limits
  | reload flags files limits => Engine.reload flags files limits

def Request.op : Request → EngineM Reply
  | pass p => do
    p.op
    return .done
  | setConfig config => do
    modify (·.setConfig config)
    return .done
  | setView view => do
    modify (·.setView view)
    return .done
  | takePending => do
    let (parts, engine) := (← get).takePending
    set engine
    return .pending parts
  | writeBuffer key offset data => do
    Engine.writeBuffer key offset data
    return .done
  | replaceImage key info pixels => do
    Engine.replaceImage key info pixels
    return .done
  | writePushConstants stage offset data => do
    Engine.writePushConstants stage offset data
    return .done
  | recordPushConstants => return .recorded (← Engine.recordPushConstants)
  | plan failures => do
    Engine.native (modify fun b => { b with failures := failures })
    return .done

namespace Session

def start (config : Config) (backend : Backend) : Session := ⟨{ config := config }, backend⟩

def step (s : Session) (request : Request) : Checked (Except EngineError Reply × Session) :=
  match request.op.exec s with
  | (.ok reply, s') => .ok (.ok reply, s')
  | (.error (.error error), s') => .ok (.error error, s')
  | (.error (.fault fault), _) => .error fault

/-- Serve requests until one faults. -/
def run (s : Session) : List Request → Checked (List (Except EngineError Reply) × Session)
  | [] => return ([], s)
  | request :: rest => do
    let (reply, s) ← s.step request
    let (replies, s) ← s.run rest
    return (reply :: replies, s)

end Session

end ShaderBinding
