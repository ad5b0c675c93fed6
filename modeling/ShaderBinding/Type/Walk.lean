import ShaderBinding.Type.Basic

/-! # Walking a type

The leaves of a type, each with its path and absolute byte offset, in layout order. Arrays are
visited element by element. An offset that leaves 32 bits ends the walk with a fault.
-/

namespace ShaderBinding

structure Leaf where
  path : String
  offset : Nat
  type : ShaderType
  deriving DecidableEq, Repr

/-- The leaves visited, and the fault that ended the visit if there was one. -/
structure Trail where
  leaves : List Leaf
  fault : Option Fault
  deriving DecidableEq, Repr

namespace Trail

def nothing : Trail := ⟨[], none⟩

def after {α : Type} (x : Checked α) (next : α → Trail) : Trail :=
  match x with
  | .ok a => next a
  | .error fault => ⟨[], some fault⟩

def andThen (trail : Trail) (next : Unit → Trail) : Trail :=
  match trail.fault with
  | none =>
    let rest := next ()
    ⟨trail.leaves ++ rest.leaves, rest.fault⟩
  | some _ => trail

/--
The trails of `count` indices from `index` on, one after the other. The leaves seen before are
given in reverse.
-/
def indices (visit : Nat → Trail) (seen : List Leaf) (index : Nat) : Nat → Trail
  | 0 => ⟨seen.reverse, none⟩
  | count + 1 =>
    let trail := visit index
    let seen := trail.leaves.reverse ++ seen
    match trail.fault with
    | none => indices visit seen (index + 1) count
    | some fault => ⟨seen.reverse, some fault⟩

def toChecked (trail : Trail) : Checked (List Leaf) :=
  match trail.fault with
  | none => .ok trail.leaves
  | some fault => .error fault

end Trail

namespace ShaderType

/-- The path of a member; at the root it is the member's own name. -/
def memberPath (path name : String) : String :=
  if path.isEmpty then name else s!"{path}.{name}"

mutual

def trail (path : String) (offset : Nat) : ShaderType → Trail
  | struct fields _ => trailFields path offset fields
  | array dims element stride _ =>
    .after (elementCount dims) <| .indices (fun index =>
      .after (Checked.mul32 index stride) fun distance =>
        .after (Checked.add32 offset distance) fun here =>
          element.trail s!"{path}[{index}]" here) [] 0
  | leaf => ⟨[⟨path, offset, leaf⟩], none⟩

def trailFields (path : String) (offset : Nat) : Fields → Trail
  | .nil => .nothing
  | .cons name position type rest =>
    (Trail.after (Checked.add32 offset position) (type.trail (memberPath path name))).andThen
      fun _ => trailFields path offset rest

end

def walk (path : String) (offset : Nat) (type : ShaderType) : Checked (List Leaf) :=
  (type.trail path offset).toChecked

end ShaderType

end ShaderBinding
