import ShaderBinding.Reflection
import ShaderBinding.ThirdParty.Libraries

/-! # The interface of a module

A module's variables, bindings and blocks as declarations of the stage it is for. Array
dimensions are turned around, so that the innermost stands first.
-/

namespace ShaderBinding.Spirv

def innermostFirst (dims : List UInt32) : List Nat := (dims.map (·.toNat)).reverse

/-- The base of a type; an image or struct within it counts before its numbers. -/
def TypeTraits.base (t : TypeTraits) : BaseKind :=
  if t.kinds.sampledImage then .sampledImage
  else if t.kinds.image then .image
  else if t.kinds.sampler then .sampler
  else if t.kinds.struct then .struct
  else if t.kinds.float then
    if t.width = 16 then .half else if t.width = 64 then .double else .float
  else if t.kinds.int then
    if t.width = 8 then if t.signedness = 0 then .uint8 else .int8
    else if t.width = 16 then if t.signedness = 0 then .uint16 else .int16
    else if t.width = 64 then if t.signedness = 0 then .uint64 else .int64
    else if t.signedness = 0 then .uint else .int
  else if t.kinds.bool then .bool
  else .unknown

def imageFormats : List String :=
  ["Undefined", "RGBA32_FLOAT", "RGBA16_FLOAT", "R32_FLOAT", "RGBA8", "RGBA8_SNORM", "RG32_FLOAT",
    "RG16_FLOAT", "R11G11B10_FLOAT", "R16_FLOAT", "RGBA16", "RGB10A2", "RG16", "RG8", "R16", "R8",
    "RGBA16_SNORM", "RG16_SNORM", "RG8_SNORM", "R16_SNORM", "R8_SNORM", "RGBA32_INT",
    "RGBA16_INT", "RGBA8_INT", "R32_INT", "RG32_INT", "RG16_INT", "RG8_INT", "R16_INT", "R8_INT",
    "RGBA32_UINT", "RGBA16_UINT", "RGBA8_UINT", "R32_UINT", "RGB10A2_UINT", "RG32_UINT",
    "RG16_UINT", "RG8_UINT", "R16_UINT", "R8_UINT"]

/-- Whether an image is one of the seven dimensionalities and has one of the formats. -/
def ImageOperands.isKnown (image : ImageOperands) : Bool :=
  image.dim ≤ 6 && image.format.toNat < imageFormats.length

def maxArrayDims : Nat := 32

/-- Why a type cannot be described, its members aside. -/
def TypeTraits.fault? (t : TypeTraits) : Option Fault :=
  if !t.image.isKnown then some .unknownImage
  else if t.arrayDims.length > maxArrayDims then
    some (.lengthExceeded maxArrayDims t.arrayDims.length)
  else none

mutual

def TypeRecord.fault? : TypeRecord → Option Fault
  | mk traits members => traits.fault?.or (firstFault? members)

def TypeRecord.firstFault? : List TypeRecord → Option Fault
  | [] => none
  | type :: rest => (fault? type).or (firstFault? rest)

end

def ImageOperands.traits (image : ImageOperands) : ImageTraits where
  dim :=
    match image.dim.toNat with
    | 0 => .d1
    | 2 => .d3
    | 3 => .cube
    | 4 => .rect
    | 5 => .buffer
    | 6 => .subpassData
    | _ => .d2
  sampled := image.sampled.toNat
  multisampled := image.multisampled = 1
  depth := image.depth = 1
  arrayed := image.arrayed = 1
  format := imageFormats.getD image.format.toNat "Undefined"

def TypeTraits.description (t : TypeTraits) : TypeDescription :=
  let base := t.base
  { name := t.memberName
    base
    vectorSize := if t.kinds.matrix then t.rowCount.toNat else max t.componentCount.toNat 1
    columns := if t.kinds.matrix then t.columnCount.toNat else 1
    matrixStride := if t.kinds.matrix then t.matrixStride.toNat else 0
    arrayDims := innermostFirst t.arrayDims
    arrayStride := t.arrayStride.toNat
    image := if base.isImage then some t.image.traits else none }

def unknownType : TypeDescription := { base := .unknown }

/-- An interface variable lists the members of its type, but not theirs. -/
def InterfaceVariable.description (v : InterfaceVariable) : TypeDescription :=
  let type := v.type.traits.description
  { type with
    name := v.name
    arrayDims := if type.arrayDims.isEmpty then innermostFirst v.arrayDims else type.arrayDims
    members := v.type.members.map fun m => m.traits.description }

def InterfaceVariable.declaration (v : InterfaceVariable) : VariableDeclaration where
  name := v.name
  location := v.location.toNat
  builtin := v.builtIn
  type := v.description

/-- A description with the block's own layout; a struct in an array is as large as its stride. -/
def BlockTraits.description (b : BlockTraits) (members : List TypeDescription) : TypeDescription :=
  let type : TypeDescription :=
    match b.type with
    | some t => t.description
    | none => unknownType
  let stride := b.arrayStride.toNat
  { type with
    name := b.name
    offset := b.offset.toNat
    arrayDims := innermostFirst b.arrayDims
    arrayStride := stride
    matrixStride := if b.matrixStride > 0 then b.matrixStride.toNat else type.matrixStride
    base := if members.isEmpty then type.base else .struct
    members
    size :=
      if members.isEmpty then 0
      else if !b.arrayDims.isEmpty && stride > 0 then stride
      else b.size.toNat }

namespace BlockVariable

/-- A block without a name goes by the name of its type. -/
def displayName (block : BlockVariable) : String :=
  match block.traits.type with
  | some t => if block.traits.name.isEmpty then t.typeName.getD "" else block.traits.name
  | none => block.traits.name

mutual

def description : BlockVariable → TypeDescription
  | mk b members => BlockTraits.description b (descriptions members)

def descriptions : List BlockVariable → List TypeDescription
  | [] => []
  | block :: rest => description block :: descriptions rest

end

end BlockVariable

namespace Binding

def bindingKind? : ResourceKind → Option BindingKind
  | .sampler => some .sampler
  | .combinedImageSampler => some .combinedImageSampler
  | .sampledImage => some .sampledImage
  | .storageImage => some .storageImage
  | .uniformTexelBuffer => some .uniformTexelBuffer
  | .storageTexelBuffer => some .storageTexelBuffer
  | .uniformBuffer => some .uniformBuffer
  | .storageBuffer => some .storageBuffer
  | .inputAttachment => some .inputAttachment
  | .accelerationStructure => some .accelerationStructure
  | .undefined => none

def description (kind : BindingKind) (binding : Binding) : TypeDescription :=
  let image := some binding.type.traits.image.traits
  match kind with
  | .uniformBuffer | .storageBuffer => binding.block.description
  | .combinedImageSampler => { base := .sampledImage, image }
  | .sampler => { base := .sampler, image }
  | _ => { base := .image, image }

def declaration (binding : Binding) : Except ReflectError BindingDeclaration :=
  match bindingKind? binding.kind with
  | none =>
    .error (.general (s!"binding '{binding.name}' at set {binding.set} binding " ++
      s!"{binding.binding} has undefined descriptor type"))
  | some kind =>
    let name := if binding.name.isEmpty then binding.block.displayName else binding.name
    .ok {
      name
      set := binding.set.toNat
      binding := binding.binding.toNat
      kind
      type := { binding.description kind with
        name, arrayDims := innermostFirst binding.type.traits.arrayDims } }

end Binding

/-- Names of the execution models that no graphics stage stands for. -/
def modelName (model : UInt32) : String :=
  match model.toNat with
  | 5 => "COMPUTE"
  | 5313 => "RAYGEN_BIT_NV"
  | 5314 => "INTERSECTION_BIT_NV"
  | 5315 => "ANY_HIT_BIT_NV"
  | 5316 => "CLOSEST_HIT_BIT_NV"
  | 5317 => "MISS_BIT_NV"
  | 5318 => "CALLABLE_BIT_NV"
  | _ => "UNDEFINED"

def EntryPoint.stage (entryPoint : EntryPoint) : Except ReflectError Stage :=
  match Stage.ofIndex? entryPoint.model.toNat with
  | some stage => .ok stage
  | none => .error (.general s!"unsupported shader stage {modelName entryPoint.model}")

namespace Module

def interface (m : Module) : Outcome ReflectError Interface :=
  match m.entryPoint? with
  | none => .fail (.general "unsupported shader stage UNDEFINED")
  | some entryPoint => do
    let stage ← entryPoint.stage.mapError .error
    if let some fault := TypeRecord.firstFault? m.types then throw (.fault fault)
    let bindings ← (m.bindings.mapM Binding.declaration).mapError .error
    return {
      stage
      entryPoint := entryPoint.name
      inputs := entryPoint.inputs.map (·.declaration)
      outputs := entryPoint.outputs.map (·.declaration)
      bindings
      pushConstants := m.pushConstants.map fun p => ⟨p.block.displayName, p.block.description⟩ }

end Module

def reflect [Libraries] (words : List UInt32) : Outcome ReflectError Interface :=
  match Libraries.reflectModule words with
  | .ok m => m.interface
  | .error e => .fail (.retrieval .module e.message)

end ShaderBinding.Spirv
