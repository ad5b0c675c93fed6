import ShaderBinding.Bytes
import ShaderBinding.Resource
import ShaderBinding.Severity
import ShaderBinding.Stage.Map

/-! # Push constants

Each stage with a push constant block gets a range of its own. Ranges follow pipeline order
without gaps, and every range has its block's data, which starts out zeroed.
-/

namespace ShaderBinding

structure PushRange where
  stages : StageFlags
  offset : Nat
  size : Nat
  deriving DecidableEq, Repr

inductive PushConstantError where
  | noBlock (stage : Stage)
  | outOfBounds (stage : Stage) (offset length size : Nat)
  deriving DecidableEq, Repr

namespace PushConstantError

def code : PushConstantError → String
  | noBlock _ => "NoBlock"
  | outOfBounds .. => "OutOfBounds"

def message : PushConstantError → String
  | noBlock stage => s!"{stage} shader has no push constant block"
  | outOfBounds stage offset length size =>
    s!"write of {length} bytes at offset {offset} exceeds {stage} shader push constants of " ++
      s!"{size} bytes"

instance : Diagnostic PushConstantError := ⟨code, message, fun _ => none⟩

end PushConstantError

abbrev PushBlocks := StageMap Nat

structure PushConstants where
  ranges : List (Stage × PushRange)
  data : StageMap Bytes
  deriving DecidableEq, Repr

namespace PushConstants

def empty : PushConstants := ⟨[], .empty⟩

instance : Inhabited PushConstants := ⟨empty⟩

def layOut (offset : Nat) : List (Stage × Nat) → Checked (List (Stage × PushRange))
  | [] => return []
  | (stage, size) :: rest => do
    let stop ← Checked.add32 offset size
    return (stage, ⟨stage.flag, offset, size⟩) :: (← layOut stop rest)

def ofBlocks (blocks : PushBlocks) : Checked PushConstants := do
  let ranges ← layOut 0 blocks.toList
  return ⟨ranges, blocks.map fun _ size => Bytes.zeros size⟩

def isEmpty (p : PushConstants) : Bool := p.ranges.isEmpty

def range? (p : PushConstants) (stage : Stage) : Option PushRange :=
  (p.ranges.find? (·.1 = stage)).map (·.2)

def totalSize (p : PushConstants) : Checked Nat := Checked.sum32 (p.ranges.map (·.2.size))

def write (p : PushConstants) (stage : Stage) (offset : Nat) (bytes : Bytes) :
    Except PushConstantError PushConstants :=
  match p.data.get? stage with
  | none => .error (.noBlock stage)
  | some data =>
    if data.length < offset + bytes.length then
      .error (.outOfBounds stage offset bytes.length data.length)
    else .ok { p with data := p.data.insert stage (data.overwrite offset bytes) }

/-- What a command stream receives: the data of every range, in pipeline order. -/
def record (p : PushConstants) : List (PushRange × Bytes) :=
  p.ranges.filterMap fun (stage, range) => (p.data.get? stage).map (range, ·)

end PushConstants

end ShaderBinding
