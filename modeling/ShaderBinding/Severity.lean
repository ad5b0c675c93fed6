/-! # Severity

How bad an error is for its owner, and the lines logged at that level.
-/

namespace ShaderBinding

/-- A warning discards the model and goes on; a critical error aborts the pass. -/
inductive Severity where
  | warning
  | critical
  deriving DecidableEq, Repr

namespace Severity

def text : Severity → String
  | warning => "warning"
  | critical => "critical"

def max : Severity → Severity → Severity
  | warning, b => b
  | critical, _ => critical

/-- The worst of a list; nothing is a warning. -/
def worst (levels : List Severity) : Severity := levels.foldl max warning

theorem foldl_max_eq_warning_iff (levels : List Severity) (start : Severity) :
    levels.foldl max start = warning ↔ start = warning ∧ ∀ level ∈ levels, level = warning := by
  induction levels generalizing start with
  | nil => simp
  | cons level rest ih =>
    rw [List.foldl_cons, ih, List.forall_mem_cons, ← and_assoc]
    cases start <;> simp [max]

theorem worst_eq_warning_iff (levels : List Severity) :
    worst levels = warning ↔ ∀ level ∈ levels, level = warning := by
  simp [worst, foldl_max_eq_warning_iff]

end Severity

/--
What an error tells about itself. The code names the cause from the outermost error inwards; an
error without a severity only occurs inside others.
-/
class Diagnostic (ε : Type) where
  code : ε → String
  message : ε → String
  severity? : ε → Option Severity

structure Notice where
  level : Severity
  text : String
  deriving DecidableEq, Repr

def Notice.render (notice : Notice) : String :=
  match notice.level with
  | .warning => s!"WARN {notice.text}"
  | .critical => s!"ERROR {notice.text}"

/-- The first line of what is logged; a carriage return at its end belongs to the line break. -/
def Notice.headline (notice : Notice) : String :=
  let line := notice.render.toList.takeWhile (· ≠ '\n')
  .ofList (if line.getLast? = some '\r' then line.dropLast else line)

end ShaderBinding
