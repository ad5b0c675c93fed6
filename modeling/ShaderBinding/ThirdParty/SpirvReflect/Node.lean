import ShaderBinding.Bytes
import ShaderBinding.Text.Utf8

/-! # Annotated nodes

The instructions of a module as nodes, with the names and decorations that other instructions
give them. An id finds the first node that has it; instructions without a result have id 0.
-/

namespace ShaderBinding.Spirv

inductive ModuleError where
  | invalidCodeSize
  | invalidMagicNumber
  | unexpectedEnd
  | invalidIdReference
  | rangeExceeded
  | outOfMemory
  | internal
  | recursion
  deriving DecidableEq, Repr

def ModuleError.message : ModuleError → String
  | invalidCodeSize => "Invalid Code Size"
  | invalidMagicNumber => "Invalid Magic Number"
  | unexpectedEnd => "Unexpected EoF"
  | invalidIdReference => "Invalid ID Reference"
  | rangeExceeded => "Range Exceeded"
  | outOfMemory => "Alloc Failed"
  | internal => "Internal Error"
  | recursion => "Spirv Recursion"

abbrev Parse := Except ModuleError

def maxTableBytes : Nat := 0x400000000

def checkTable (count entryBytes : Nat) : Parse Unit :=
  if count * entryBytes > maxTableBytes then .error .outOfMemory else .ok ()

inductive Opcode where
  | name
  | memberName
  | entryPoint
  | typeVoid
  | typeBool
  | typeInt
  | typeFloat
  | typeVector
  | typeMatrix
  | typeImage
  | typeSampler
  | typeSampledImage
  | typeArray
  | typeRuntimeArray
  | typeStruct
  | typePointer
  | typeAccelerationStructure
  | typeOther
  | forwardPointer
  | constant
  | function
  | functionEnd
  | functionCall
  | variableDef
  | load
  | decorate
  | memberDecorate
  | label
  | other
  deriving DecidableEq, Repr

namespace Opcode

def ofNumber : Nat → Opcode
  | 5 => name
  | 6 => memberName
  | 15 => entryPoint
  | 19 => typeVoid
  | 20 => typeBool
  | 21 => typeInt
  | 22 => typeFloat
  | 23 => typeVector
  | 24 => typeMatrix
  | 25 => typeImage
  | 26 => typeSampler
  | 27 => typeSampledImage
  | 28 => typeArray
  | 29 => typeRuntimeArray
  | 30 => typeStruct
  | 32 => typePointer
  | 31 | 33 | 34 | 35 | 36 | 37 | 38 => typeOther
  | 39 => forwardPointer
  | 41 | 42 | 43 | 44 | 45 | 46 => constant
  | 54 => function
  | 56 => functionEnd
  | 57 => functionCall
  | 59 => variableDef
  | 61 => load
  | 71 | 332 | 5632 | 5633 => decorate
  | 72 => memberDecorate
  | 248 => label
  | 5341 => typeAccelerationStructure
  | _ => other

def isType : Opcode → Bool
  | typeVoid | typeBool | typeInt | typeFloat | typeVector | typeMatrix | typeImage | typeSampler
  | typeSampledImage | typeArray | typeRuntimeArray | typeStruct | typePointer
  | typeAccelerationStructure | typeOther | forwardPointer => true
  | _ => false

def idWord? : Opcode → Option Nat
  | constant | function | variableDef | load => some 2
  | opcode => if opcode.isType then some 1 else none

end Opcode

def undecorated : UInt32 := 0xFFFFFFFF

structure Decorations where
  block : Bool := false
  bufferBlock : Bool := false
  rowMajor : Bool := false
  columnMajor : Bool := false
  builtIn : Bool := false
  arrayStride : UInt32 := 0
  matrixStride : UInt32 := 0
  offset : UInt32 := 0
  location : UInt32 := undecorated
  binding : UInt32 := undecorated
  set : UInt32 := undecorated
  deriving DecidableEq, Repr

/--
`words` holds everything from the first word of the instruction to the end of the module. The
members of a struct are as many as it declares or as annotations mention.
-/
structure Node where
  opcode : Opcode
  length : Nat
  words : List UInt32
  id : UInt32 := 0
  name : Option String := none
  decorations : Decorations := {}
  memberCount : Nat := 0
  memberNames : List (UInt32 × String) := []
  memberDecorations : List (UInt32 × Decorations) := []

namespace Node

def word (node : Node) (i : Nat) : Parse UInt32 :=
  match node.words[i]? with
  | some w => .ok w
  | none => .error .unexpectedEnd

def text (node : Node) (i : Nat) : String :=
  Utf8.decode (Bytes.ofText (node.words.drop i))

/-- The id of a variable's or pointer's type; a forward pointer does not tell one. -/
def typeId (node : Node) : Parse UInt32 :=
  match node.opcode with
  | .variableDef => node.word 1
  | .typePointer => node.word 3
  | _ => .ok 0

def storageClass? (node : Node) : Option UInt32 :=
  match node.opcode with
  | .variableDef => node.words[3]?
  | .typePointer | .forwardPointer => node.words[2]?
  | _ => none

def memberName (node : Node) (i : UInt32) : String := (node.memberNames.lookup i).getD ""

def memberDecoration (node : Node) (i : UInt32) : Decorations :=
  (node.memberDecorations.lookup i).getD {}

def nameMember (i : UInt32) (name : String) (node : Node) : Node :=
  { node with memberNames := (i, name) :: node.memberNames }

def decorateMember (i : UInt32) (f : Decorations → Decorations) (node : Node) : Node :=
  { node with memberDecorations := (i, f (node.memberDecoration i)) :: node.memberDecorations }

def ofInstruction (first : UInt32) (rest : List UInt32) : Parse Node :=
  let length := first.toNat / 0x10000
  let opcode := Opcode.ofNumber (first.toNat % 0x10000)
  let node : Node := {
    opcode, length, words := first :: rest
    memberCount := if opcode = .typeStruct then (length.toUInt32 - 2).toNat else 0 }
  match opcode.idWord? with
  | none => .ok node
  | some i => do return { node with id := ← node.word i }

end Node

/-- Cut words into nodes, after skipping as many words as the last instruction has left. -/
def nodesFrom : Nat → List UInt32 → Parse (List Node)
  | _, [] => return []
  | skip + 1, _ :: rest => nodesFrom skip rest
  | 0, first :: rest => do
    let node ← Node.ofInstruction first rest
    return node :: (← nodesFrom (node.length - 1) rest)

def find? (nodes : List Node) (id : UInt32) : Option Node := nodes.find? (·.id = id)

def find (nodes : List Node) (id : UInt32) : Parse Node :=
  match find? nodes id with
  | some node => .ok node
  | none => .error .invalidIdReference

def update (id : UInt32) (f : Node → Node) : List Node → List Node
  | [] => []
  | node :: rest => if node.id = id then f node :: rest else node :: update id f rest

/-- Raise the member count of the node named by a tag of one of its members. -/
def countMember (nodes : List Node) (tag : Node) : Parse (List Node) :=
  if tag.opcode = .memberName || tag.opcode = .memberDecorate then do
    let target ← tag.word 1
    let member ← tag.word 2
    if (find? nodes target).isNone then return nodes
    else if member = undecorated then throw .rangeExceeded
    else
      let raise (node : Node) := { node with memberCount := max node.memberCount (member.toNat + 1) }
      return update target raise nodes
  else return nodes

def decorationBytes : Nat := 88

def countMembers (nodes : List Node) : Parse (List Node) := do
  let counted ← nodes.foldlM countMember nodes
  counted.forM fun node => checkTable node.memberCount decorationBytes
  return counted

def applyName (nodes : List Node) (tag : Node) : Parse (List Node) :=
  match tag.opcode with
  | .name => do
    let target ← tag.word 1
    return update target (fun node => { node with name := some (tag.text 2) }) nodes
  | .memberName => do
    let target ← tag.word 1
    let member ← tag.word 2
    return update target (Node.nameMember member (tag.text 3)) nodes
  | _ => return nodes

/-- What a decoration changes, given the words after its number; others do not matter. -/
def Decorations.change? (decoration : UInt32) (value : Parse UInt32) :
    Option (Parse (Decorations → Decorations)) :=
  match decoration.toNat with
  | 2 => some (return fun d => { d with block := true })
  | 3 => some (return fun d => { d with bufferBlock := true })
  | 4 => some (return fun d => { d with rowMajor := true })
  | 5 => some (return fun d => { d with columnMajor := true })
  | 6 => some do let v ← value; return fun d => { d with arrayStride := v }
  | 7 => some do let v ← value; return fun d => { d with matrixStride := v }
  | 11 => some do let _ ← value; return fun d => { d with builtIn := true }
  | 13 | 14 | 24 | 5635 => some (return id)
  | 30 => some do let v ← value; return fun d => { d with location := v }
  | 33 => some do let v ← value; return fun d => { d with binding := v }
  | 34 => some do let v ← value; return fun d => { d with set := v }
  | 35 => some do let v ← value; return fun d => { d with offset := v }
  | 43 | 5634 => some do let _ ← value; return id
  | _ => none

def applyDecoration (nodes : List Node) (tag : Node) : Parse (List Node) :=
  let decorateFrom (i : Nat) (place : (Decorations → Decorations) → Parse (Node → Node)) :
      Parse (List Node) := do
    match Decorations.change? (← tag.word i) (tag.word (i + 1)) with
    | none => return nodes
    | some change =>
      let target ← tag.word 1
      let _ ← find nodes target
      return update target (← place (← change)) nodes
  match tag.opcode with
  | .decorate => decorateFrom 2 fun f =>
    return fun node => { node with decorations := f node.decorations }
  | .memberDecorate => decorateFrom 3 fun f => return Node.decorateMember (← tag.word 2) f
  | _ => return nodes

end ShaderBinding.Spirv
