import ShaderBinding.Binder.Error
import ShaderBinding.Model
import ShaderBinding.Spirv.Binary

/-! # Engine errors

Why a pass or an edit failed: the error of the part that failed, or that there is no valid model.
-/

namespace ShaderBinding

inductive EngineError where
  | shader (error : ShaderError)
  | reflect (error : ReflectError)
  | link (errors : LinkErrors)
  | bind (error : BindError)
  | device (error : DeviceError)
  | invalid
  deriving DecidableEq, Repr

namespace EngineError

def code : EngineError → String
  | shader error => s!"Shader.{error.code}"
  | reflect error => s!"Reflect.{error.code}"
  | link _ => "Link.LinkErrors"
  | bind error => s!"Bind.{error.code}"
  | device error => s!"Device.{error.code}"
  | invalid => "Invalid"

def message : EngineError → String
  | shader error => error.message
  | reflect error => error.message
  | link errors => errors.message
  | bind error => error.message
  | device error => error.message
  | invalid => "resource model is not valid"

def severity : EngineError → Severity
  | shader error => error.severity
  | reflect error => error.severity
  | link errors => errors.severity
  | bind error => error.severity
  | device _ => .critical
  | invalid => .warning

instance : Diagnostic EngineError := ⟨code, message, fun error => some error.severity⟩

def notice (error : EngineError) : Notice := ⟨error.severity, error.message⟩

end EngineError

end ShaderBinding
