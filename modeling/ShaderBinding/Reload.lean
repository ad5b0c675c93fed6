import ShaderBinding.Flags

/-! # Reload flags

Which parts of the pipeline a reload pass rebuilds, and what rebuilding one part implies.
-/

namespace ShaderBinding

abbrev ReloadFlags := Flags 4

namespace ReloadFlags

def shaders : ReloadFlags := ⟨0b0001⟩
def renderPass : ReloadFlags := ⟨0b0010⟩
def pipeline : ReloadFlags := ⟨0b0100⟩
def validation : ReloadFlags := ⟨0b1000⟩

/-- New shaders invalidate the pipeline and have to be validated. -/
def reloadShaders : ReloadFlags := shaders ||| pipeline ||| validation

/-- A new render pass invalidates the pipeline. -/
def reloadRenderPass : ReloadFlags := renderPass ||| pipeline

def withImplied (flags : ReloadFlags) : ReloadFlags :=
  let flags := if flags.contains shaders then flags ||| reloadShaders else flags
  if flags.contains renderPass then flags ||| reloadRenderPass else flags

def names : List (String × ReloadFlags) :=
  [("SHADERS", shaders), ("RENDER_PASS", renderPass), ("PIPELINE", pipeline),
    ("VALIDATION", validation), ("RELOAD_SHADERS", reloadShaders),
    ("RELOAD_RENDER_PASS", reloadRenderPass)]

def text (flags : ReloadFlags) : String := flags.describe names

end ReloadFlags

end ShaderBinding
