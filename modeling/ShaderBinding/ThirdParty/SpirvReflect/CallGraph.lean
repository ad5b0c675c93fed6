import ShaderBinding.ThirdParty.SpirvReflect.Node
import ShaderBinding.ThirdParty.SpirvReflect.Order

/-! # Call graphs

The functions a module defines and the calls between them, both in the order of their ids. A
function without a body is not defined. Calls may not recurse, which shows as a chain longer than
there are functions.
-/

namespace ShaderBinding.Spirv

structure Function where
  id : UInt32
  callees : List UInt32
  deriving DecidableEq, Repr

namespace Function

def calleesOf (body : List Node) : Parse (List UInt32) := do
  let calls := (body.takeWhile (·.opcode ≠ .functionEnd)).filter (·.opcode = .functionCall)
  return (sortBy wrappedLe (← calls.mapM (·.word 3))).eraseReps

/-- The defined functions; `head` is the function whose body has not been found yet. -/
def allFrom (head : Option UInt32) : List Node → Parse (List Function)
  | [] => return []
  | node :: rest =>
    match head, node.opcode with
    | none, .function => allFrom (some node.id) rest
    | some id, .label => do
      return ⟨id, ← calleesOf rest⟩ :: (← allFrom none rest)
    | some _, .functionEnd => allFrom none rest
    | head, _ => allFrom head rest

def find? (functions : List Function) (id : UInt32) : Option Function :=
  functions.find? (·.id = id)

/-- Whether the callees are found among the functions, each no earlier than the one before. -/
def areDefined : List UInt32 → List Function → Bool
  | [], _ => true
  | id :: rest, functions =>
    match functions.dropWhile (·.id ≠ id) with
    | [] => false
    | found => areDefined rest found

def checkCallees (functions : List Function) : Parse Unit :=
  if functions.all fun f => areDefined f.callees functions then .ok ()
  else .error .invalidIdReference

def all (nodes : List Node) : Parse (List Function) := do
  let functions := sortBy (fun f g => wrappedLe f.id g.id) (← allFrom none nodes)
  checkCallees functions
  return functions

/-- Whether some chain of calls from a function is longer than `depth`. -/
def callsDeeper (functions : List Function) : Nat → Function → Bool
  | 0, _ => true
  | depth + 1, f =>
    f.callees.any fun id =>
      match find? functions id with
      | some callee => callsDeeper functions depth callee
      | none => false

end Function

end ShaderBinding.Spirv
