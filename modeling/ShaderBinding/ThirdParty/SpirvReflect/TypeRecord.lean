import ShaderBinding.ThirdParty.SpirvReflect.Node

/-! # Type records

What a module says about one of its types. Vectors, matrices, arrays, pointers and sampled images
describe their element into the same record; the members of a struct have records of their own.
-/

namespace ShaderBinding.Spirv

/-- The kinds of all types described into one record. -/
structure TypeKinds where
  bool : Bool := false
  int : Bool := false
  float : Bool := false
  vector : Bool := false
  matrix : Bool := false
  image : Bool := false
  sampledImage : Bool := false
  sampler : Bool := false
  struct : Bool := false
  accelerationStructure : Bool := false
  deriving DecidableEq, Repr

structure ImageOperands where
  dim : UInt32 := 0
  depth : UInt32 := 0
  arrayed : UInt32 := 0
  multisampled : UInt32 := 0
  sampled : UInt32 := 0
  format : UInt32 := 0
  deriving DecidableEq, Repr

def noId : UInt32 := 0xFFFFFFFF

/--
The record of a type but for its members. `id` and `opcode` are those of the outermost type that
has an id; array dimensions stand outermost first. The last field is the name of the type as a
member of a struct.
-/
structure TypeTraits where
  id : UInt32 := 0
  opcode : Opcode := .other
  kinds : TypeKinds := {}
  block : Bool := false
  bufferBlock : Bool := false
  width : UInt32 := 0
  signedness : UInt32 := 0
  componentCount : UInt32 := 0
  columnCount : UInt32 := 0
  rowCount : UInt32 := 0
  matrixStride : UInt32 := 0
  image : ImageOperands := {}
  arrayDims : List UInt32 := []
  arrayStride : UInt32 := 0
  typeName : Option String := none
  memberName : String := ""

inductive TypeRecord where
  | mk (traits : TypeTraits) (members : List TypeRecord)

namespace TypeRecord

def traits : TypeRecord → TypeTraits
  | mk traits _ => traits

def members : TypeRecord → List TypeRecord
  | mk _ members => members

/-- The record of a member that a struct does not declare. -/
def blank : TypeRecord := mk {} []

/-- The record that a type is described into, of which only the id and the operation are known. -/
def start (id : UInt32) (opcode : Opcode) : TypeRecord := mk { id, opcode } []

def modifyTraits (f : TypeTraits → TypeTraits) (record : TypeRecord) : TypeRecord :=
  mk (f record.traits) record.members

def modifyKinds (f : TypeKinds → TypeKinds) : TypeRecord → TypeRecord :=
  modifyTraits fun t => { t with kinds := f t.kinds }

/--
What every type adds to the record it is described into before its operands are read. A record
without an id takes that of the type and forgets what decorated the types around it.
-/
def enter (node : Node) (record : TypeRecord) : TypeRecord :=
  let members :=
    if node.memberCount > 0 then List.replicate node.memberCount blank else record.members
  let traits :=
    if record.traits.id = noId then
      { record.traits with id := node.id, opcode := node.opcode, block := false, bufferBlock := false }
    else record.traits
  mk { traits with
    block := traits.block || node.decorations.block
    bufferBlock := traits.bufferBlock || node.decorations.bufferBlock } members

/-- The name of the innermost named type stays, even if it is an empty one. -/
def leave (node : Node) : TypeRecord → TypeRecord :=
  modifyTraits fun t => { t with typeName := t.typeName.or node.name }

def memberBytes : Nat := 232

def describe (nodes : List Node) :
    Nat → Node → Option Decorations → TypeRecord → Parse TypeRecord
  | 0, _, _, _ => throw .invalidIdReference
  | fuel + 1, node, member, record => do
    let next (record : TypeRecord) (id : UInt32) : Parse TypeRecord := do
      describe nodes fuel (← find nodes id) none record
    checkTable node.memberCount memberBytes
    let record := record.enter node
    let record ← match node.opcode with
      | .typeBool => pure (record.modifyKinds ({ · with bool := true }))
      | .typeInt => do
        let width ← node.word 2
        let signedness ← node.word 3
        pure ((record.modifyKinds ({ · with int := true })).modifyTraits
          ({ · with width, signedness }))
      | .typeFloat => do
        let width ← node.word 2
        pure ((record.modifyKinds ({ · with float := true })).modifyTraits ({ · with width }))
      | .typeVector => do
        let componentCount ← node.word 3
        next ((record.modifyKinds ({ · with vector := true })).modifyTraits
          ({ · with componentCount })) (← node.word 2)
      | .typeMatrix => do
        let columnCount ← node.word 3
        let record ← next ((record.modifyKinds ({ · with matrix := true })).modifyTraits
          ({ · with columnCount })) (← node.word 2)
        pure (record.modifyTraits fun t => { t with
          rowCount := t.componentCount
          matrixStride := (member.getD node.decorations).matrixStride })
      | .typeImage => do
        let image : ImageOperands := {
          dim := ← node.word 3, depth := ← node.word 4, arrayed := ← node.word 5
          multisampled := ← node.word 6, sampled := ← node.word 7, format := ← node.word 8 }
        pure ((record.modifyKinds ({ · with image := true })).modifyTraits ({ · with image }))
      | .typeSampler => pure (record.modifyKinds ({ · with sampler := true }))
      | .typeSampledImage => do
        next (record.modifyKinds ({ · with sampledImage := true })) (← node.word 2)
      | .typeArray => do
        let length ← (← find nodes (← node.word 3)).word 3
        let record := record.modifyTraits fun t => { t with
          arrayDims := t.arrayDims ++ [length]
          arrayStride := node.decorations.arrayStride }
        match find? nodes (← node.word 2) with
        | some element => describe nodes fuel element none record
        | none => pure record
      | .typeRuntimeArray => do next record (← node.word 2)
      | .typeStruct => do
        let members ← ((node.words.take node.length).drop 2).zipIdx.mapM fun (id, i) => do
          let type ← find nodes id
          let member ← describe nodes fuel type (some (node.memberDecoration i.toUInt32))
            (start id type.opcode)
          pure (member.modifyTraits ({ · with memberName := node.memberName i.toUInt32 }))
        let record := record.modifyKinds ({ · with struct := true })
        pure (mk record.traits (members ++ record.members.drop members.length))
      | .typePointer => do next record (← node.word 3)
      | .typeAccelerationStructure =>
        pure (record.modifyKinds ({ · with accelerationStructure := true }))
      | _ => pure record
    pure (record.leave node)

def all (nodes : List Node) : Parse (List TypeRecord) :=
  (nodes.filter (·.opcode.isType)).mapM fun node =>
    describe nodes (nodes.length + 1) node none (start noId .other)

def find (records : List TypeRecord) (id : UInt32) : Parse TypeRecord :=
  match records.find? (·.traits.id = id) with
  | some record => .ok record
  | none => .error .invalidIdReference

/-- The type of a variable; a pointer stands for the type it points to. -/
def ofVariable (nodes : List Node) (records : List TypeRecord) (node : Node) :
    Parse TypeRecord := do
  let record ← find records (← node.typeId)
  if record.traits.opcode = .typePointer then
    find records (← (← Spirv.find nodes record.traits.id).typeId)
  else return record

def hasFormat (kinds : TypeKinds) : Bool :=
  kinds.float || kinds.int || kinds.bool || (kinds.struct && !kinds.vector)

mutual

/--
Whether some member is built in, at any depth; every type on the way has to have a format. Only
the members of a type's own declaration count, so an array hides those of its elements.
-/
def hasBuiltIn (nodes : List Node) : TypeRecord → Parse Bool
  | mk traits members => do
    let inner ← anyBuiltIn nodes (← Spirv.find nodes traits.id) 0 members
    if hasFormat traits.kinds then return inner else throw .internal

def anyBuiltIn (nodes : List Node) (node : Node) (i : Nat) : List TypeRecord → Parse Bool
  | [] => return false
  | member :: rest => do
    if node.memberCount ≤ i then return false
    else
      let inner ← hasBuiltIn nodes member
      let others ← anyBuiltIn nodes node (i + 1) rest
      return (node.memberDecoration i.toUInt32).builtIn || inner || others

end

end TypeRecord

end ShaderBinding.Spirv
