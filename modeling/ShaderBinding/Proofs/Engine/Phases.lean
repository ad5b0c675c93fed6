import ShaderBinding.Proofs.Engine.Exec

/-! # The two phases of a pass

Every pass prepares before it binds. While it prepares it loads, reflects, checks and waits, and
nothing that is bound is touched; what it then binds is what it has prepared.
-/

namespace ShaderBinding

/-- New shaders are always validated, whichever flags they are asked for with. -/
theorem ReloadFlags.contains_validation {flags : ReloadFlags}
    (h : flags.withImplied.contains shaders = true) :
    flags.withImplied.contains validation = true := by
  have hall : ∀ bits : BitVec 4, (withImplied ⟨bits⟩).contains shaders = true →
      (withImplied ⟨bits⟩).contains validation = true := by decide
  exact hall flags.bits h

namespace Engine

/-- A model can be bound once it has linked and the device is idle. -/
def accept (shaders : ShaderSet) (model : Model) (limits : Limits) :
    EngineM (Option (ShaderSet × Model)) := do
  link model limits
  native (Native.mapError .device Native.waitIdle)
  return some (shaders, model)

/-- What a reload does before it binds anything. -/
def prepareParts [Libraries] (flags : ReloadFlags) (files : FileTree) (limits : Limits) :
    EngineM (Option (ShaderSet × Model)) := do
  if flags.contains ReloadFlags.shaders then
    let (shaders, model) ← loadModel files
    accept shaders model limits
  else if flags.contains ReloadFlags.validation then
    match (← get).model with
    | some model => do
      link model limits
      return none
    | none => throw (.error .invalid)
  else return none

end Engine

namespace Pass

def limits : Pass → Limits
  | install _ _ limits => limits
  | reload _ _ limits => limits

def parts : Pass → ReloadFlags
  | install .. => .reloadShaders
  | reload flags _ _ => flags.withImplied

def replaces (p : Pass) : Bool := p.parts.contains ReloadFlags.shaders

def validates (p : Pass) : Bool := p.parts.contains ReloadFlags.validation

theorem validates_of_replaces {p : Pass} (h : p.replaces = true) : p.validates = true := by
  cases p with
  | install => exact (by decide : ReloadFlags.reloadShaders.contains ReloadFlags.validation = true)
  | reload flags files limits => exact ReloadFlags.contains_validation h

/-- The first phase finds out what the pass is going to bind, if anything. -/
def prepare [Libraries] : Pass → EngineM (Option (ShaderSet × Model))
  | install shaders model limits => Engine.accept shaders model limits
  | reload flags files limits => Engine.prepareParts flags.withImplied files limits

def bindPrepared [Libraries] (p : Pass) : Option (ShaderSet × Model) → EngineM Unit
  | some (shaders, model) => Engine.bindModel shaders model p.limits
  | none => pure ()

/-- A pass is its two phases, one after the other. -/
theorem op_eq [Libraries] (p : Pass) : p.op = Engine.finish p.parts
    (p.prepare >>= p.bindPrepared) := by
  cases p with
  | install shaders model limits =>
    have hphases : Engine.replaceModel shaders model true limits =
        Engine.accept shaders model limits >>= (install shaders model limits).bindPrepared := by
      simp only [Engine.replaceModel, Engine.accept, bind_assoc, pure_bind, if_true]
      rfl
    exact congrArg (Engine.finish .reloadShaders) hphases
  | reload flags files limits =>
    have hphases : Engine.reloadParts flags.withImplied files limits =
        Engine.prepareParts flags.withImplied files limits >>=
          (reload flags files limits).bindPrepared := by
      unfold Engine.reloadParts Engine.prepareParts
      by_cases hshaders : flags.withImplied.contains ReloadFlags.shaders = true
      · rw [if_pos hshaders, if_pos hshaders, ReloadFlags.contains_validation hshaders]
        simp only [Engine.replaceModel, Engine.accept, bind_assoc, pure_bind, if_true]
        rfl
      · rw [if_neg hshaders, if_neg hshaders]
        split
        · rw [bind_assoc]
          refine congrArg (fun f : Engine → EngineM Unit => get >>= f) (funext fun engine => ?_)
          cases engine.model with
          | none => rfl
          | some model => simp [bindPrepared]
        · rfl
    exact congrArg (Engine.finish flags.withImplied) hphases

end Pass

end ShaderBinding
