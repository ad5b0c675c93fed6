import ShaderBinding.ThirdParty.SpirvReflect.TypeRecord

/-! # Block variables

The memory layout of uniform, storage and push constant blocks. Names and offsets are declared;
sizes are worked out from the types, and arithmetic is modulo 2^32.
-/

namespace ShaderBinding.Spirv

/-- `matrixStride` and the array fields are zero or empty where the type has none. -/
structure BlockTraits where
  name : String := ""
  offset : UInt32 := 0
  size : UInt32 := 0
  rowMajor : Bool := false
  columnMajor : Bool := false
  matrixStride : UInt32 := 0
  arrayDims : List UInt32 := []
  arrayStride : UInt32 := 0
  type : Option TypeTraits := none

inductive BlockVariable where
  | mk (traits : BlockTraits) (members : List BlockVariable)

namespace BlockVariable

def traits : BlockVariable → BlockTraits
  | mk traits _ => traits

def members : BlockVariable → List BlockVariable
  | mk _ members => members

def empty : BlockVariable := mk {} []

def withSize (size : UInt32) : BlockVariable → BlockVariable
  | mk traits members => mk { traits with size } members

def withName (name : String) : BlockVariable → BlockVariable
  | mk traits members => mk { traits with name } members

/-- The innermost element of an array type, whose members are those of the array's block. -/
def elementNode (nodes : List Node) (records : List TypeRecord) : Nat → Node → Parse Node
  | 0, _ => throw .invalidIdReference
  | fuel + 1, node => do
    match node.opcode with
    | .typeArray => elementNode nodes records fuel (← find nodes (← node.word 2))
    | .typeRuntimeArray =>
      let element ← TypeRecord.find records (← node.word 2)
      elementNode nodes records fuel (← find nodes element.traits.id)
    | _ => return node

def ofMember (node : Node) (i : UInt32) (type : TypeTraits) (members : List BlockVariable) :
    BlockVariable :=
  let decorations := node.memberDecoration i
  let isArray := type.opcode = .typeArray
  mk {
    name := node.memberName i
    offset := decorations.offset
    rowMajor := decorations.rowMajor
    columnMajor := decorations.columnMajor
    matrixStride := type.matrixStride
    arrayDims := if isArray then type.arrayDims else []
    arrayStride := if isArray then type.arrayStride else 0
    type := some type } members

mutual

def declared (nodes : List Node) (records : List TypeRecord) :
    TypeRecord → Parse (List BlockVariable)
  | .mk type members => do
    if members.isEmpty then return []
    else
      let node ← elementNode nodes records (nodes.length + 1) (← find nodes type.id)
      declaredFrom nodes records node 0 members

def declaredFrom (nodes : List Node) (records : List TypeRecord) (node : Node) (i : Nat) :
    List TypeRecord → Parse (List BlockVariable)
  | [] => return []
  | member :: rest => do
    let inner ← if member.traits.kinds.struct then declared nodes records member else pure []
    return ofMember node i.toUInt32 member.traits inner ::
      (← declaredFrom nodes records node (i + 1) rest)

end

def product (dims : List UInt32) : UInt32 := if dims.isEmpty then 0 else dims.foldl (· * ·) 1

def roundUp16 (n : UInt32) : UInt32 := (n + 15) &&& 0xFFFFFFF0

def leafSize (b : BlockTraits) (t : TypeTraits) : UInt32 :=
  match t.opcode with
  | .typeBool => 4
  | .typeInt | .typeFloat => t.width / 8
  | .typeVector => t.componentCount * (t.width / 8)
  | .typeMatrix =>
    if b.columnMajor then t.columnCount * b.matrixStride
    else if b.rowMajor then t.rowCount * b.matrixStride
    else 0
  | .typeArray => product b.arrayDims * b.arrayStride
  | _ => 0

/--
Bound the members' sizes by the room they have, and give the size of the whole. The last member
has room up to a multiple of 16, unless the struct is `packed`.
-/
def settle (packed : Bool) : List BlockVariable → List BlockVariable × UInt32
  | [] => ([], 0)
  | [last] =>
    let { offset, size, .. } := last.traits
    let room := roundUp16 (offset + size) - offset
    let size := min size room
    ([last.withSize size], offset + if packed then size else room)
  | member :: next :: rest =>
    let room := next.traits.offset - member.traits.offset
    let (settled, total) := settle packed (next :: rest)
    (member.withSize (min member.traits.size room) :: settled, total)

mutual

/--
A member with its size. A struct and an array of structs settle their own members, and a
runtime-sized array packs everything below it.
-/
def sized (packed : Bool) : BlockVariable → BlockVariable
  | mk b members =>
    match b.type with
    | none => mk b members
    | some t =>
      let packed := packed || t.opcode = .typeRuntimeArray
      let (inner, total) := settle packed (sizedAll packed members)
      match t.opcode with
      | .typeStruct | .typeRuntimeArray => mk { b with size := total } inner
      | .typeArray => mk { b with size := leafSize b t } inner
      | _ => mk { b with size := leafSize b t } members

def sizedAll (packed : Bool) : List BlockVariable → List BlockVariable
  | [] => []
  | member :: rest => sized packed member :: sizedAll packed rest

end

/-- The type of a whole block; a runtime-sized array of structs stands for its elements. -/
def typeOf (nodes : List Node) (records : List TypeRecord) (record : TypeRecord) :
    Parse TypeTraits := do
  if record.members.isEmpty then return record.traits
  else
    let node ← find nodes record.traits.id
    match node.opcode with
    | .typeRuntimeArray => return (← TypeRecord.find records (← node.word 2)).traits
    | _ => return record.traits

def ofType (nodes : List Node) (records : List TypeRecord) (packed : Bool) (record : TypeRecord) :
    Parse BlockVariable := do
  let (members, size) := settle packed (sizedAll packed (← declared nodes records record))
  let type ← typeOf nodes records record
  return mk { name := type.typeName.getD "", size, type := some type } members

/-- The block of a storage buffer; its size depends on the buffer bound to it. -/
def ofStorage (nodes : List Node) (records : List TypeRecord) (record : TypeRecord) :
    Parse BlockVariable :=
  return (← ofType nodes records true record).withSize 0

end BlockVariable

end ShaderBinding.Spirv
