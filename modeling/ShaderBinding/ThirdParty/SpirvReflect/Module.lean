import ShaderBinding.ThirdParty.SpirvReflect.Block
import ShaderBinding.ThirdParty.SpirvReflect.CallGraph

/-! # Modules

What a module offers to a pipeline: descriptor bindings, push constant blocks, and the interface
variables of its first entry point.
-/

namespace ShaderBinding.Spirv

inductive ResourceKind where
  | sampler
  | combinedImageSampler
  | sampledImage
  | storageImage
  | uniformTexelBuffer
  | storageTexelBuffer
  | uniformBuffer
  | storageBuffer
  | inputAttachment
  | accelerationStructure
  | undefined
  deriving DecidableEq, Repr

structure Binding where
  id : UInt32
  name : String
  set : UInt32
  binding : UInt32
  kind : ResourceKind
  type : TypeRecord
  block : BlockVariable

structure PushConstant where
  type : TypeRecord
  block : BlockVariable

structure InterfaceVariable where
  name : String
  location : UInt32
  builtIn : Bool
  arrayDims : List UInt32
  type : TypeRecord

structure EntryPoint where
  model : UInt32
  name : String
  inputs : List InterfaceVariable
  outputs : List InterfaceVariable

structure Module where
  entryPoint? : Option EntryPoint
  bindings : List Binding
  pushConstants : List PushConstant

/-- The storage classes that reflection looks at. -/
inductive StorageClass where
  | uniformConstant
  | input
  | uniform
  | output
  | pushConstant
  deriving DecidableEq, Repr

def StorageClass.number : StorageClass → UInt32
  | uniformConstant => 0
  | input => 1
  | uniform => 2
  | output => 3
  | pushConstant => 9

def Node.isIn (node : Node) (storage : StorageClass) : Bool :=
  node.storageClass? = some storage.number

namespace ResourceKind

def ofTexelBuffer (sampled : UInt32) : ResourceKind :=
  if sampled = 1 then uniformTexelBuffer
  else if sampled = 2 then storageTexelBuffer
  else undefined

/-- The kind of a binding of a type; dimensionality 5 is a buffer and 6 an attachment. -/
def ofTraits (t : TypeTraits) : ResourceKind :=
  let kinds := t.kinds
  if kinds.image then
    if t.image.dim = 5 then ofTexelBuffer t.image.sampled
    else if kinds.sampledImage then combinedImageSampler
    else if t.image.dim = 6 then inputAttachment
    else if t.image.sampled = 1 then sampledImage
    else if t.image.sampled = 2 then storageImage
    else undefined
  else if kinds.sampler then sampler
  else if kinds.struct then
    if t.block then uniformBuffer else if t.bufferBlock then storageBuffer else undefined
  else if kinds.accelerationStructure then accelerationStructure
  else undefined

end ResourceKind

namespace Binding

def isDeclaredBy (node : Node) : Bool :=
  node.opcode = .variableDef && (node.isIn .uniform || node.isIn .uniformConstant) &&
    node.decorations.set ≠ undecorated && node.decorations.binding ≠ undecorated

def ofNode (nodes : List Node) (records : List TypeRecord) (node : Node) : Parse Binding := do
  let record ← TypeRecord.ofVariable nodes records node
  let kind := ResourceKind.ofTraits record.traits
  let name := node.name.getD ""
  let block ← match kind with
    | .uniformBuffer => BlockVariable.ofType nodes records false record
    | .storageBuffer => BlockVariable.ofStorage nodes records record
    | _ => pure .empty
  return {
    id := node.id
    name
    set := node.decorations.set
    binding := node.decorations.binding
    kind
    type := record
    block := block.withName name }

/-- Bindings are compared by binding number and then by id, whatever their set. -/
def le (a b : Binding) : Bool :=
  if a.binding = b.binding then wrappedLe a.id b.id else wrappedLe a.binding b.binding

def sort (bindings : List Binding) : List Binding := sortBy le bindings

end Binding

namespace PushConstant

def isDeclaredBy (node : Node) : Bool := node.opcode = .variableDef && node.isIn .pushConstant

def ofNode (nodes : List Node) (records : List TypeRecord) (node : Node) : Parse PushConstant := do
  let type ← TypeRecord.ofVariable nodes records node
  return ⟨type, ← BlockVariable.ofType nodes records false type⟩

end PushConstant

namespace InterfaceVariable

def ofNode (nodes : List Node) (records : List TypeRecord) (node : Node) :
    Parse InterfaceVariable := do
  let record ← TypeRecord.ofVariable nodes records node
  let type ← find nodes record.traits.id
  let inner ← record.hasBuiltIn nodes
  return {
    name := node.name.getD ""
    location := node.decorations.location
    builtIn := node.decorations.builtIn || type.decorations.builtIn || inner
    arrayDims := if record.traits.opcode = .typeArray then record.traits.arrayDims else []
    type := record }

end InterfaceVariable

namespace EntryPoint

/--
Words of a text with its final zero byte, counted from a word of an instruction. The text may be
as long as the whole instruction.
-/
def textLength (node : Node) (i : Nat) : Parse Nat :=
  let bytes := Bytes.ofWords ((node.words.drop i).take node.length)
  let length := (bytes.takeWhile (· ≠ 0)).length
  if length < bytes.length then .ok (length / 4 + 1) else .error .unexpectedEnd

/-- The ids after the name; a name that goes past the instruction makes them too many. -/
def interfaceIds (node : Node) : Parse (List UInt32) := do
  let start := 3 + (← textLength node 3)
  checkTable (node.length.toUInt32 - start.toUInt32).toNat 4
  return (node.words.take node.length).drop start

def ofNode (nodes : List Node) (records : List TypeRecord) (functions : List Function)
    (node : Node) : Parse EntryPoint := do
  let model ← node.word 1
  let id ← node.word 2
  let ids ← interfaceIds node
  let declared ← ids.mapM fun id => find nodes id
  let typed ← declared.mapM fun v => do return (v, ← InterfaceVariable.ofNode nodes records v)
  match Function.find? functions id with
  | none => throw .invalidIdReference
  | some f =>
    if Function.callsDeeper functions (functions.length + 1) f then throw .recursion
    return {
      model
      name := node.text 3
      inputs := (typed.filter (·.1.isIn .input)).map (·.2)
      outputs := (typed.filter (·.1.isIn .output)).map (·.2) }

end EntryPoint

namespace Module

def magicNumber : UInt32 := 0x07230203

def maxSets : Nat := 64

def countSets (bindings : List Binding) : Nat := (bindings.map (·.set)).eraseDups.length

def annotate (nodes : List Node) : Parse (List Node) := do
  let named ← nodes.foldlM applyName (← countMembers nodes)
  nodes.foldlM applyDecoration named

def readNodes (words : List UInt32) : Parse (List Node) := do
  if words.length < 5 then throw .invalidCodeSize
  if words.head? ≠ some magicNumber then throw .invalidMagicNumber
  let nodes ← nodesFrom 0 (words.drop 5)
  if nodes.isEmpty then throw .unexpectedEnd
  return nodes

def ofWords (words : List UInt32) : Parse Module := do
  let instructions ← readNodes words
  let functions ← Function.all instructions
  let nodes ← annotate instructions
  let records ← TypeRecord.all nodes
  let bindings ← (nodes.filter Binding.isDeclaredBy).mapM (Binding.ofNode nodes records)
  let pushConstants ← (nodes.filter PushConstant.isDeclaredBy).mapM
    (PushConstant.ofNode nodes records)
  let entryPoints ← (nodes.filter (·.opcode = .entryPoint)).mapM
    (EntryPoint.ofNode nodes records functions)
  if countSets bindings > maxSets then throw .internal
  return {
    entryPoint? := entryPoints.head?
    bindings := Binding.sort bindings
    pushConstants }

def types (m : Module) : List TypeRecord :=
  let ofEntryPoint (entryPoint : EntryPoint) : List TypeRecord :=
    (entryPoint.inputs ++ entryPoint.outputs).map (·.type)
  (m.entryPoint?.map ofEntryPoint).getD [] ++ m.bindings.map (·.type) ++
    m.pushConstants.map (·.type)

end Module

end ShaderBinding.Spirv
