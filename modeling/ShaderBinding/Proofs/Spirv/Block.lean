import ShaderBinding.Proofs.Type.Reflected
import ShaderBinding.Spirv.Reflect

/-! # The layout of a block

A block reflects to the type that the compiler lays out: its array dimensions in the order in which
the compiler lists them, its strides and sizes, and its members with their names and offsets.
-/

namespace ShaderBinding

namespace ShaderType

/-- The sizes that are worked out for a node have the width of a size; those of a struct and an
image are not. -/
def SizeFits : ShaderType → Prop
  | vector _ _ size | matrix _ _ _ size => size < Width.word.bound
  | array dims _ _ size => (dims.map (·.length)).prod < Width.word.bound ∧ size < Width.word.bound
  | image _ | struct .. => True

instance : DecidablePred SizeFits
  | vector .. | matrix .. => inferInstanceAs (Decidable (_ < _))
  | array .. => inferInstanceAs (Decidable (_ ∧ _))
  | image _ | struct .. => inferInstanceAs (Decidable True)

open TypeDescription

mutual

theorem sizesFit_iff_of_describes : ∀ {desc : TypeDescription} {type : ShaderType},
    desc.Describes type → (desc.SizesFit ↔ ∀ node ∈ type.nodes, node.SizeFits)
  | desc, _, .image himage _ => by
    have hbase : desc.base ≠ .struct := fun h => by simp [h, BaseKind.isImage] at himage
    simp [sizesFit_iff, NodeFits, himage, hbase, nodes, SizeFits]
  | desc, _, .single helement hdims => by
    rw [sizesFit_iff, NodeFits, ← elementFits_iff_of_describes helement]
    simp [helement.isImage_eq, hdims]
  | desc, _, .array helement hdims hlengths hstride => by
    rw [sizesFit_iff, NodeFits, nodes, List.forall_mem_cons, SizeFits,
      ← elementFits_iff_of_describes helement, hstride, stride_eq helement, hlengths,
      prod_ofDeclared]
    simp only [helement.isImage_eq, hdims, ne_eq, not_false_eq_true, forall_const]
    tauto

theorem elementFits_iff_of_describes : ∀ {desc : TypeDescription} {element : ShaderType},
    desc.DescribesElement element →
      (((desc.base ≠ .struct → desc.elementSize < Width.word.bound) ∧
        (desc.base = .struct → ∀ node ∈ nodesOfMembers desc.members, node.NodeFits)) ↔
          ∀ node ∈ element.nodes, node.SizeFits)
  | desc, _, .struct hbase _ hfields => by
    rw [nodes, List.forall_mem_cons, SizeFits, ← membersFit_iff_of_describes hfields]
    simp [hbase]
  | desc, _, .matrix himage hbase hcolumns => by
    have helement : desc.DescribesElement _ := .matrix himage hbase hcolumns
    rw [← helement.size_eq]
    simp [hbase, nodes, SizeFits, size]
  | desc, _, .vector himage hbase hcolumns => by
    have helement : desc.DescribesElement _ := .vector himage hbase hcolumns
    rw [← helement.size_eq]
    simp [hbase, nodes, SizeFits, size]

theorem membersFit_iff_of_describes : ∀ {members : List TypeDescription} {fields : Fields},
    DescribesMembers members fields →
      ((∀ node ∈ TypeDescription.nodesOfMembers members, node.NodeFits) ↔
        ∀ node ∈ nodesOfFields fields, node.SizeFits)
  | _, _, .nil => by simp [TypeDescription.nodesOfMembers, nodesOfFields]
  | _, _, .cons hmember hrest => by
    rw [TypeDescription.nodesOfMembers, nodesOfFields, List.forall_mem_append,
      List.forall_mem_append, ← membersFit_iff_of_describes hrest]
    exact and_congr_left' (sizesFit_iff_of_describes hmember)

end

end ShaderType

def BaseKind.isNumeric : BaseKind → Bool
  | image | sampledImage | sampler | struct | unknown => false
  | _ => true

theorem BaseKind.isImage_of_isNumeric {base : BaseKind} (h : base.isNumeric) :
    base.isImage = false := by
  cases base <;> first | rfl | cases h

theorem BaseKind.ne_struct_of_isNumeric {base : BaseKind} (h : base.isNumeric) :
    base ≠ .struct := by
  rintro rfl
  cases h

namespace Spirv

namespace BlockTraits

/-- The compiler lists the outermost dimension first, and 0 is one sized at run time. -/
def dims (b : BlockTraits) : List ArrayDim :=
  b.arrayDims.map fun length => if length = 0 then ⟨1, true⟩ else ⟨length.toNat, false⟩

/-- The step between elements; without a declared one they are packed. -/
def elementStride (b : BlockTraits) (element : ShaderType) : Nat :=
  if 0 < b.arrayStride then b.arrayStride.toNat else element.size

/-- The compiler gives an array of structs the size of all elements, and each takes a stride. -/
def structSize (b : BlockTraits) : Nat :=
  if b.arrayDims ≠ [] ∧ 0 < b.arrayStride then b.arrayStride.toNat else b.size.toNat

def columnStride (b : BlockTraits) (t : TypeTraits) : Nat :=
  if 0 < b.matrixStride then b.matrixStride.toNat else t.matrixStride.toNat

def matrixSize (b : BlockTraits) (t : TypeTraits) : Nat :=
  if 0 < b.columnStride t then b.columnStride t * t.columnCount.toNat
  else t.base.byteWidth * t.rowCount.toNat * t.columnCount.toNat

end BlockTraits

namespace BlockVariable

mutual

/-- A block is laid out as a type. -/
inductive Lays : BlockVariable → ShaderType → Prop where

  | single {block : BlockVariable} {type : ShaderType} : LaysElement block type →
      block.traits.arrayDims = [] → Lays block type

  | array {block : BlockVariable} {element : ShaderType} {stride : Nat} :
      LaysElement block element → block.traits.arrayDims ≠ [] →
      stride = block.traits.elementStride element →
      Lays block (.array block.traits.dims element stride
        (stride * (block.traits.dims.map (·.length)).prod))

inductive LaysElement : BlockVariable → ShaderType → Prop where

  | struct {b : BlockTraits} {members : List BlockVariable} {fields : Fields} : members ≠ [] →
      LaysMembers members fields → LaysElement (mk b members) (.struct fields b.structSize)

  | matrix {b : BlockTraits} {t : TypeTraits} : b.type = some t → t.base.isNumeric →
      t.kinds.matrix → 2 ≤ t.columnCount →
      LaysElement (mk b []) (.matrix t.base t.rowCount.toNat t.columnCount.toNat (b.matrixSize t))

  | vector {b : BlockTraits} {t : TypeTraits} {length : Nat} : b.type = some t →
      t.base.isNumeric → t.kinds.matrix = false → length = max t.componentCount.toNat 1 →
      LaysElement (mk b []) (.vector t.base length (t.base.byteWidth * length))

inductive LaysMembers : List BlockVariable → Fields → Prop where

  | nil : LaysMembers [] .nil

  | cons {block : BlockVariable} {rest : List BlockVariable} {type : ShaderType}
      {fields : Fields} : Lays block type → LaysMembers rest fields →
      LaysMembers (block :: rest) (.cons block.traits.name block.traits.offset.toNat type fields)

end

/-- The blocks that the compiler builds: structs list their members, and all else has the type of a
scalar, a vector or a matrix of at least two columns. -/
inductive Regular : BlockVariable → Prop where

  | struct {b : BlockTraits} {members : List BlockVariable} : members ≠ [] →
      (∀ member ∈ members, Regular member) → Regular (mk b members)

  | numeric {b : BlockTraits} {t : TypeTraits} : b.type = some t → t.base.isNumeric →
      (t.kinds.matrix → 2 ≤ t.columnCount) → Regular (mk b [])

variable {block : BlockVariable} {type element : ShaderType}

theorem exists_lays_of_element (h : block.LaysElement element) : ∃ type, block.Lays type := by
  by_cases hdims : block.traits.arrayDims = []
  · exact ⟨element, .single h hdims⟩
  · exact ⟨_, .array h hdims rfl⟩

theorem exists_laysMembers {members : List BlockVariable}
    (h : ∀ member ∈ members, ∃ type, Lays member type) : ∃ fields, LaysMembers members fields := by
  induction members with
  | nil => exact ⟨.nil, .nil⟩
  | cons member rest ih =>
    obtain ⟨⟨type, htype⟩, hrest⟩ := List.forall_mem_cons.mp h
    obtain ⟨fields, hfields⟩ := ih hrest
    exact ⟨_, .cons htype hfields⟩

theorem Regular.exists_lays (h : block.Regular) : ∃ type, block.Lays type := by
  induction h with
  | struct hmembers _ ih =>
    obtain ⟨fields, hfields⟩ := exists_laysMembers ih
    exact exists_lays_of_element (.struct hmembers hfields)
  | @numeric b t htype hnumeric hcolumns =>
    cases hmatrix : t.kinds.matrix with
    | true => exact exists_lays_of_element (.matrix htype hnumeric hmatrix (hcolumns hmatrix))
    | false => exact exists_lays_of_element (.vector htype hnumeric hmatrix rfl)

@[simp]
theorem descriptions_eq_nil {members : List BlockVariable} :
    descriptions members = [] ↔ members = [] := by
  cases members <;> simp [descriptions]

@[simp]
theorem name_description (block : BlockVariable) :
    block.description.name = block.traits.name := by
  cases block
  rfl

@[simp]
theorem offset_description (block : BlockVariable) :
    block.description.offset = block.traits.offset.toNat := by
  cases block
  rfl

@[simp]
theorem arrayDims_description (block : BlockVariable) :
    block.description.arrayDims = innermostFirst block.traits.arrayDims := by
  cases block
  rfl

@[simp]
theorem arrayStride_description (block : BlockVariable) :
    block.description.arrayStride = block.traits.arrayStride.toNat := by
  cases block
  rfl

theorem ofDeclared_innermostFirst (b : BlockTraits) :
    (innermostFirst b.arrayDims).reverse.map ArrayDim.ofDeclared = b.dims := by
  rw [innermostFirst, List.reverse_reverse, List.map_map]
  refine List.map_congr_left fun length _ => ?_
  simp [ArrayDim.ofDeclared, ← UInt32.toNat_inj]

theorem toNat_pos_iff {n : UInt32} : 0 < n.toNat ↔ 0 < n := by
  rw [UInt32.lt_iff_toNat_lt]
  rfl

theorem elementStride_eq (b : BlockTraits) (element : ShaderType) :
    b.elementStride element =
      if 0 < b.arrayStride.toNat then b.arrayStride.toNat else element.size := by
  rw [BlockTraits.elementStride]
  exact if_congr toNat_pos_iff.symm rfl rfl

section Leaves

variable {b : BlockTraits} {t : TypeTraits}

theorem description_leaf (htype : b.type = some t) : (mk b []).description = { t.description with
    name := b.name
    offset := b.offset.toNat
    arrayDims := innermostFirst b.arrayDims
    arrayStride := b.arrayStride.toNat
    matrixStride := if 0 < b.matrixStride then b.matrixStride.toNat else t.description.matrixStride
    members := []
    size := 0 } := by
  simp only [description, descriptions, BlockTraits.description, htype]
  rfl

theorem describesElement_matrix (htype : b.type = some t) (hnumeric : t.base.isNumeric)
    (hmatrix : t.kinds.matrix) (hcolumns : 2 ≤ t.columnCount) :
    (mk b []).description.DescribesElement
      (.matrix t.base t.rowCount.toNat t.columnCount.toNat (b.matrixSize t)) := by
  have hmany : 1 < t.columnCount.toNat := UInt32.le_iff_toNat_le.mp hcolumns
  have helement : (mk b []).description.DescribesElement _ :=
    .matrix (by simpa [description_leaf htype, TypeTraits.description] using
        BaseKind.isImage_of_isNumeric hnumeric)
      (by simpa [description_leaf htype, TypeTraits.description] using
        BaseKind.ne_struct_of_isNumeric hnumeric)
      (by simpa [description_leaf htype, TypeTraits.description, hmatrix] using hmany)
  simpa [description_leaf htype, TypeTraits.description, hmatrix, BlockTraits.matrixSize,
    BlockTraits.columnStride] using helement

theorem describesElement_vector (htype : b.type = some t) (hnumeric : t.base.isNumeric)
    (hmatrix : t.kinds.matrix = false) :
    (mk b []).description.DescribesElement (.vector t.base (max t.componentCount.toNat 1)
      (t.base.byteWidth * max t.componentCount.toNat 1)) := by
  have helement : (mk b []).description.DescribesElement _ :=
    .vector (by simpa [description_leaf htype, TypeTraits.description] using
        BaseKind.isImage_of_isNumeric hnumeric)
      (by simpa [description_leaf htype, TypeTraits.description] using
        BaseKind.ne_struct_of_isNumeric hnumeric)
      (by simp [description_leaf htype, TypeTraits.description, hmatrix])
  simpa [description_leaf htype, TypeTraits.description, hmatrix] using helement

end Leaves

section Structs

variable {b : BlockTraits} {members : List BlockVariable}

theorem description_struct (hmembers : members ≠ []) :
    (mk b members).description.base = .struct ∧
      (mk b members).description.members = descriptions members ∧
      (mk b members).description.size = b.structSize := by
  have hempty : (descriptions members).isEmpty = false := by simpa using hmembers
  refine ⟨?_, rfl, ?_⟩
  · simp [description, BlockTraits.description, hempty]
  · simp [description, BlockTraits.description, hempty, BlockTraits.structSize, toNat_pos_iff]

end Structs

mutual

theorem describes_of_lays : ∀ {block : BlockVariable} {type : ShaderType},
    block.Lays type → block.description.Describes type
  | block, _, .single helement hdims =>
    .single (describesElement_of_lays helement) (by simp [innermostFirst, hdims])
  | block, _, .array helement hdims hstride =>
    .array (describesElement_of_lays helement) (by simpa [innermostFirst] using hdims)
      (by rw [arrayDims_description, ofDeclared_innermostFirst])
      (by rw [hstride, elementStride_eq, arrayStride_description])

theorem describesElement_of_lays : ∀ {block : BlockVariable} {element : ShaderType},
    block.LaysElement element → block.description.DescribesElement element
  | _, _, .struct hmembers hfields => by
    obtain ⟨hbase, hinner, hsize⟩ := description_struct hmembers
    rw [← hsize]
    exact .struct hbase (by simpa [hinner] using hmembers)
      (hinner ▸ describesMembers_of_lays hfields)
  | _, _, .matrix htype hnumeric hmatrix hcolumns =>
    describesElement_matrix htype hnumeric hmatrix hcolumns
  | _, _, .vector htype hnumeric hmatrix hlength =>
    hlength ▸ describesElement_vector htype hnumeric hmatrix

theorem describesMembers_of_lays : ∀ {members : List BlockVariable} {fields : Fields},
    LaysMembers members fields → TypeDescription.DescribesMembers (descriptions members) fields
  | _, _, .nil => .nil
  | block :: _, _, .cons htype hrest => by
    rw [← name_description, ← offset_description]
    exact .cons (describes_of_lays htype) (describesMembers_of_lays hrest)

end

/--
A regular block is laid out as a type, and reflecting its description gives that type and no other,
exactly if all sizes that are worked out fit.
-/
theorem ofDescription_layout (block : BlockVariable) (h : block.Regular) :
    ∃ type, block.Lays type ∧ ∀ result, ShaderType.ofDescription block.description = .ok result ↔
      result = type ∧ ∀ node ∈ type.nodes, node.SizeFits := by
  obtain ⟨type, hlays⟩ := h.exists_lays
  have hdescribes := describes_of_lays hlays
  have hok : ShaderType.ofDescription block.description = .ok type ↔
      ∀ node ∈ type.nodes, node.SizeFits := by
    rw [ShaderType.ofDescription_eq_ok, ShaderType.sizesFit_iff_of_describes hdescribes]
    exact and_iff_right hdescribes
  refine ⟨type, hlays, fun result => ⟨fun hresult => ?_, ?_⟩⟩
  · have hfits := ((ShaderType.ofDescription_eq_ok _ _).mp hresult).2
    have htype := (ShaderType.ofDescription_eq_ok _ _).mpr ⟨hdescribes, hfits⟩
    exact ⟨Except.ok.inj (hresult.symm.trans htype), hok.mp htype⟩
  · rintro ⟨rfl, hfits⟩
    exact hok.mpr hfits

/-- The lights of a scene stand in two dimensions, and each has a position for every cascade; the
array has no size that would tell how many rows there are. -/
theorem ofDescription_layout_lights :
    let float : TypeTraits := { opcode := .typeFloat, kinds := { float := true }, width := 32 }
    let vec3 : TypeTraits := { float with
      opcode := .typeVector
      kinds := { float := true, vector := true }
      componentCount := 3 }
    let mat3 : TypeTraits := { vec3 with
      opcode := .typeMatrix
      kinds := { float := true, vector := true, matrix := true }
      columnCount := 3
      rowCount := 3
      matrixStride := 16 }
    let positions : BlockVariable := .mk {
      name := "positions", size := 96, arrayDims := [2, 3], arrayStride := 16,
      type := some vec3 } []
    let basis : BlockVariable := .mk {
      name := "basis", offset := 96, size := 48, matrixStride := 16, type := some mat3 } []
    let lights : BlockVariable := .mk {
      name := "lights", size := 720, arrayDims := [0, 5], arrayStride := 144 } [positions, basis]
    let scene : BlockVariable := .mk { name := "Scene", size := 720 } [lights]
    let light : ShaderType := .struct (.ofList
      [⟨"positions", 0, .array [⟨2, false⟩, ⟨3, false⟩] (.vector .float 3 12) 16 96⟩,
        ⟨"basis", 96, .matrix .float 3 3 48⟩]) 144
    let type : ShaderType := .struct (.ofList
      [⟨"lights", 0, .array [⟨1, true⟩, ⟨5, false⟩] light 144 720⟩]) 720
    scene.Regular ∧ scene.Lays type ∧ ShaderType.ofDescription scene.description = .ok type := by
  intro float vec3 mat3 positions basis lights scene light type
  have hregular : scene.Regular := by
    refine .struct (by simp) fun member hmember => ?_
    obtain rfl := List.mem_singleton.mp hmember
    refine .struct (by simp) fun member hmember => ?_
    obtain rfl | rfl : member = positions ∨ member = basis := by simpa using hmember
    · exact .numeric rfl rfl (by decide)
    · exact .numeric rfl rfl (by decide)
  obtain ⟨laid, hlays, hok⟩ := ofDescription_layout scene hregular
  have htype : ShaderType.ofDescription scene.description = .ok type := by decide +kernel
  obtain rfl := ((hok type).mp htype).1
  exact ⟨hregular, hlays, htype⟩

end BlockVariable

end Spirv

end ShaderBinding
