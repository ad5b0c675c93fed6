import ShaderBinding.Proofs.Type.Problems

/-! # The tree of a described type

Reflecting a description gives the tree that the description declares, with exact sizes, exactly if
all sizes of its nodes fit. Otherwise it stops at the first node that has a flaw, or at a size that
does not fit of a node that it has reached.
-/

namespace ShaderBinding

namespace TypeDescription

mutual

/-- A type is the one that a description declares. An image is one whatever its array dimensions
and members. -/
inductive Describes : TypeDescription → ShaderType → Prop where

  | image {desc : TypeDescription} {traits : ImageTraits} : desc.base.isImage →
      desc.image = some traits → Describes desc (.image traits.shape)

  | single {desc : TypeDescription} {type : ShaderType} : DescribesElement desc type →
      desc.arrayDims = [] → Describes desc type

  | array {desc : TypeDescription} {element : ShaderType} {dims : List ArrayDim} {stride : Nat} :
      DescribesElement desc element → desc.arrayDims ≠ [] →
      dims = desc.arrayDims.reverse.map ArrayDim.ofDeclared →
      stride = (if 0 < desc.arrayStride then desc.arrayStride else element.size) →
      Describes desc (.array dims element stride (stride * (dims.map (·.length)).prod))

inductive DescribesElement : TypeDescription → ShaderType → Prop where

  | struct {desc : TypeDescription} {fields : Fields} : desc.base = .struct →
      desc.members ≠ [] → DescribesMembers desc.members fields →
      DescribesElement desc (.struct fields desc.size)

  | matrix {desc : TypeDescription} : desc.base.isImage = false → desc.base ≠ .struct →
      1 < desc.columns →
      DescribesElement desc (.matrix desc.base desc.vectorSize desc.columns
        (if 0 < desc.matrixStride then desc.matrixStride * desc.columns
          else desc.base.byteWidth * desc.vectorSize * desc.columns))

  | vector {desc : TypeDescription} : desc.base.isImage = false → desc.base ≠ .struct →
      desc.columns ≤ 1 →
      DescribesElement desc (.vector desc.base desc.vectorSize
        (desc.base.byteWidth * max desc.vectorSize 1))

/-- Every member is declared with its name and offset. -/
inductive DescribesMembers : List TypeDescription → Fields → Prop where

  | nil : DescribesMembers [] .nil

  | cons {member : TypeDescription} {rest : List TypeDescription} {type : ShaderType}
      {fields : Fields} : Describes member type → DescribesMembers rest fields →
      DescribesMembers (member :: rest) (.cons member.name member.offset type fields)

end

variable {desc : TypeDescription} {type element : ShaderType}

theorem DescribesElement.size_eq (h : desc.DescribesElement element) :
    element.size = desc.elementSize := by
  unfold elementSize
  cases h with
  | struct hbase => simp [hbase, ShaderType.size]
  | matrix _ hbase hcolumns => simp [hbase, hcolumns, ShaderType.size]
  | vector _ hbase hcolumns => simp [hbase, Nat.not_lt.mpr hcolumns, ShaderType.size]

theorem DescribesElement.isImage_eq (h : desc.DescribesElement element) :
    desc.base.isImage = false := by
  cases h with
  | struct hbase => rw [hbase]; rfl
  | matrix himage => exact himage
  | vector himage => exact himage

theorem describesElement_numeric (himage : desc.base.isImage = false)
    (hbase : desc.base ≠ .struct) : desc.DescribesElement type ↔ type = .numeric desc := by
  have hsize : desc.elementSize = if 1 < desc.columns then
      if 0 < desc.matrixStride then desc.matrixStride * desc.columns
      else desc.base.byteWidth * desc.vectorSize * desc.columns
    else desc.base.byteWidth * max desc.vectorSize 1 := if_neg hbase
  constructor
  · intro h
    cases h with
    | struct hstruct => exact absurd hstruct hbase
    | matrix _ _ hcolumns => simp [ShaderType.numeric, hsize, hcolumns]
    | vector _ _ hcolumns => simp [ShaderType.numeric, hsize, Nat.not_lt.mpr hcolumns]
  · rintro rfl
    by_cases hcolumns : 1 < desc.columns
    · simpa [ShaderType.numeric, hsize, hcolumns] using .matrix himage hbase hcolumns
    · simpa [ShaderType.numeric, hsize, hcolumns] using
        .vector himage hbase (Nat.not_lt.mp hcolumns)

theorem describesElement_struct (hbase : desc.base = .struct) : desc.DescribesElement type ↔
    desc.members ≠ [] ∧ ∃ fields, DescribesMembers desc.members fields ∧
      type = .struct fields desc.size := by
  constructor
  · intro h
    cases h with
    | struct _ hmembers hfields => exact ⟨hmembers, _, hfields, rfl⟩
    | matrix _ hne => exact absurd hbase hne
    | vector _ hne => exact absurd hbase hne
  · rintro ⟨hmembers, fields, hfields, rfl⟩
    exact .struct hbase hmembers hfields

end TypeDescription

namespace Checked

/-- A product that is worked out is the whole product, and has the width. -/
theorem eq_prod_of_foldlM_mul {width : Width} {values : List Nat} {start result : Nat}
    (hstart : start < width.bound) (h : values.foldlM (mul width) start = .ok result) :
    result < width.bound ∧ result = start * values.prod := by
  induction values generalizing start with
  | nil =>
    cases h
    exact ⟨hstart, by simp⟩
  | cons value rest ih =>
    obtain ⟨product, hmul, hrest⟩ := Except.bind_eq_ok.mp h
    obtain ⟨hfits, rfl⟩ := mul_eq_ok_iff.mp hmul
    simpa [Nat.mul_assoc] using ih hfits hrest

end Checked

theorem elementCount_eq_ok {dims : List ArrayDim} {count : Nat} (h : elementCount dims = .ok count) :
    count < Width.word.bound ∧ count = (dims.map (·.length)).prod := by
  simpa using Checked.eq_prod_of_foldlM_mul (by decide) h

namespace ShaderType

variable {desc : TypeDescription} {type element : ShaderType} {fields : Fields}

def arranged (desc : TypeDescription) (element : ShaderType) : ShaderType :=
  if desc.arrayDims = [] then element
  else .array (desc.arrayDims.reverse.map ArrayDim.ofDeclared) element desc.stride
    (desc.stride * desc.elements)

/-- The sizes that array dimensions add to an element. -/
def DimsFit (desc : TypeDescription) : Prop :=
  desc.arrayDims ≠ [] → desc.elements < Width.word.bound ∧
    desc.stride * desc.elements < Width.word.bound

theorem prod_ofDeclared (desc : TypeDescription) :
    ((desc.arrayDims.reverse.map ArrayDim.ofDeclared).map (·.length)).prod = desc.elements := by
  rw [lengths_ofDeclared, List.prod_reverse, TypeDescription.elements]

theorem stride_eq (helement : desc.DescribesElement element) :
    (if 0 < desc.arrayStride then desc.arrayStride else element.size) = desc.stride := by
  rw [TypeDescription.stride, helement.size_eq]

theorem ofArray_eq_ok (helement : desc.DescribesElement element) :
    ofArray desc.arrayDims desc.arrayStride element = .ok type ↔
      (desc.elements < Width.word.bound ∧ desc.stride * desc.elements < Width.word.bound) ∧
        type = .array (desc.arrayDims.reverse.map ArrayDim.ofDeclared) element desc.stride
          (desc.stride * desc.elements) := by
  have hstride := stride_eq helement
  unfold ofArray
  constructor
  · intro h
    obtain ⟨count, hcount, hmul⟩ := Except.bind_eq_ok.mp h
    obtain ⟨hbound, rfl⟩ := elementCount_eq_ok hcount
    rw [prod_ofDeclared] at hbound hmul
    obtain ⟨hfits, rfl⟩ := (Checked.mul_bind_eq_ok _).mp hmul
    rw [hstride] at hfits ⊢
    exact ⟨⟨hbound, hfits⟩, rfl⟩
  · rintro ⟨⟨hbound, hfits⟩, rfl⟩
    refine Except.bind_eq_ok.mpr ⟨_, elementCount_ofDeclared hbound, ?_⟩
    rw [← hstride] at hfits ⊢
    exact (Checked.mul_bind_eq_ok _).mpr ⟨hfits, rfl⟩

theorem withDims_eq_ok (helement : desc.DescribesElement element) :
    withDims desc element = .ok type ↔ DimsFit desc ∧ type = arranged desc element := by
  unfold withDims arranged DimsFit
  by_cases hdims : desc.arrayDims = []
  · simp [hdims, eq_comm, pure, Except.pure]
  · have hempty : ¬ desc.arrayDims.isEmpty := by simpa using hdims
    rw [if_neg hempty, if_neg hdims, imp_iff_right hdims]
    exact Except.mapError_eq_ok.trans (ofArray_eq_ok helement)

theorem describes_iff (himage : desc.base.isImage = false) :
    desc.Describes type ↔ ∃ element, desc.DescribesElement element ∧ type = arranged desc element := by
  constructor
  · intro h
    cases h with
    | image h => simp [himage] at h
    | single helement hdims => exact ⟨type, helement, by simp [arranged, hdims]⟩
    | @array _ element _ _ helement hdims hlengths hstride =>
      refine ⟨element, helement, ?_⟩
      rw [arranged, if_neg hdims, hstride, stride_eq helement, hlengths, prod_ofDeclared]
  · rintro ⟨element, helement, rfl⟩
    unfold arranged
    split
    · rename_i hdims
      exact .single helement hdims
    · rename_i hdims
      rw [← prod_ofDeclared]
      exact .array helement hdims rfl (stride_eq helement).symm

theorem describes_image (himage : desc.base.isImage) :
    desc.Describes type ↔ ofImage desc.name desc.image = .ok type := by
  constructor
  · intro h
    cases h with
    | image _ htraits =>
      rw [htraits]
      rfl
    | single helement => simp [helement.isImage_eq] at himage
    | array helement => simp [helement.isImage_eq] at himage
  · intro h
    cases htraits : desc.image with
    | none =>
      rw [htraits] at h
      cases h
    | some traits =>
      rw [htraits] at h
      cases h
      exact .image himage htraits

theorem ofDescription_image (himage : desc.base.isImage) :
    ofDescription desc = .ok type ↔ desc.Describes type ∧ desc.SizesFit := by
  have hbase : desc.base ≠ .struct := fun h => by simp [h, BaseKind.isImage] at himage
  have hfits : desc.SizesFit :=
    TypeDescription.sizesFit_iff.mpr ⟨fun h => by simp [himage] at h, fun h => absurd h hbase⟩
  rw [ofDescription_eq, if_pos himage, describes_image himage]
  exact (and_iff_left hfits).symm

theorem ofDescription_numeric (himage : desc.base.isImage = false) (hbase : desc.base ≠ .struct) :
    ofDescription desc = .ok type ↔ desc.Describes type ∧ desc.SizesFit := by
  have hnumeric : desc.DescribesElement (numeric desc) :=
    (TypeDescription.describesElement_numeric himage hbase).mpr rfl
  rw [ofDescription_eq, if_neg (by simp [himage]), if_neg hbase, describes_iff himage,
    TypeDescription.sizesFit_iff, TypeDescription.NodeFits, Except.bind_eq_ok]
  constructor
  · rintro ⟨element, helement, hdims⟩
    obtain ⟨hsize, rfl⟩ := (ofNumeric_eq_ok hbase).mp (Except.mapError_eq_ok.mp helement)
    obtain ⟨hfits, rfl⟩ := (withDims_eq_ok hnumeric).mp hdims
    exact ⟨⟨_, hnumeric, rfl⟩, fun _ => ⟨fun _ => hsize, hfits⟩, fun h => absurd h hbase⟩
  · rintro ⟨⟨element, helement, rfl⟩, hfits, -⟩
    obtain rfl := (TypeDescription.describesElement_numeric himage hbase).mp helement
    exact ⟨_, Except.mapError_eq_ok.mpr ((ofNumeric_eq_ok hbase).mpr ⟨(hfits himage).1 hbase, rfl⟩),
      (withDims_eq_ok helement).mpr ⟨(hfits himage).2, rfl⟩⟩

theorem ofDescription_struct (hbase : desc.base = .struct)
    (hmembers : ∀ fields, ofMembers desc.members = .ok fields ↔
      TypeDescription.DescribesMembers desc.members fields ∧
        ∀ node ∈ TypeDescription.nodesOfMembers desc.members, node.NodeFits) :
    ofDescription desc = .ok type ↔ desc.Describes type ∧ desc.SizesFit := by
  have himage : desc.base.isImage = false := by rw [hbase]; rfl
  rw [ofDescription_eq, if_neg (by simp [himage]), if_pos hbase, describes_iff himage,
    TypeDescription.sizesFit_iff, TypeDescription.NodeFits]
  simp only [TypeDescription.describesElement_struct hbase]
  by_cases hempty : desc.members = []
  · rw [if_pos (by simp [hempty])]
    refine iff_of_false nofun ?_
    rintro ⟨⟨element, ⟨hne, -⟩, -⟩, -⟩
    exact hne hempty
  rw [if_neg (by simp [hempty]), Except.bind_eq_ok]
  have hdims (fields : Fields) (hfields : TypeDescription.DescribesMembers desc.members fields) :
      withDims desc (struct fields desc.size) = .ok type ↔
        DimsFit desc ∧ type = arranged desc (struct fields desc.size) :=
    withDims_eq_ok (.struct hbase hempty hfields)
  constructor
  · rintro ⟨fields, hfields, h⟩
    obtain ⟨hdescribes, hnodes⟩ := (hmembers fields).mp hfields
    obtain ⟨hfits, rfl⟩ := (hdims fields hdescribes).mp h
    exact ⟨⟨_, ⟨hempty, fields, hdescribes, rfl⟩, rfl⟩,
      fun _ => ⟨fun h => absurd hbase h, hfits⟩, fun _ => hnodes⟩
  · rintro ⟨⟨element, ⟨-, fields, hdescribes, rfl⟩, htype⟩, hfits, hnodes⟩
    exact ⟨fields, (hmembers fields).mpr ⟨hdescribes, hnodes hbase⟩,
      (hdims fields hdescribes).mpr ⟨(hfits himage).2, htype⟩⟩

/-- A node is reflected as declared if its members are. -/
theorem ofDescription_node (hmembers : ∀ fields, ofMembers desc.members = .ok fields ↔
      TypeDescription.DescribesMembers desc.members fields ∧
        ∀ node ∈ TypeDescription.nodesOfMembers desc.members, node.NodeFits) :
    ofDescription desc = .ok type ↔ desc.Describes type ∧ desc.SizesFit := by
  by_cases hbase : desc.base = .struct
  · exact ofDescription_struct hbase hmembers
  · cases himage : desc.base.isImage with
    | true => exact ofDescription_image himage
    | false => exact ofDescription_numeric himage hbase

mutual

theorem ofDescription_eq_ok : ∀ (desc : TypeDescription) (type : ShaderType),
    ofDescription desc = .ok type ↔ desc.Describes type ∧ desc.SizesFit
  | ⟨_, _, _, _, _, _, _, _, members, _, _⟩, _ =>
    ofDescription_node fun fields => ofMembers_eq_ok members fields

theorem ofMembers_eq_ok : ∀ (members : List TypeDescription) (fields : Fields),
    ofMembers members = .ok fields ↔ TypeDescription.DescribesMembers members fields ∧
      ∀ node ∈ TypeDescription.nodesOfMembers members, node.NodeFits
  | [], fields => by
    rw [TypeDescription.nodesOfMembers]
    constructor
    · rintro ⟨⟩
      exact ⟨.nil, by simp⟩
    · rintro ⟨⟨⟩, -⟩
      rfl
  | member :: rest, fields => by
    rw [TypeDescription.nodesOfMembers, List.forall_mem_append, ofMembers, Except.bind_eq_ok]
    constructor
    · rintro ⟨type, htype, h⟩
      obtain ⟨others, hothers, h⟩ := Except.bind_eq_ok.mp h
      cases h
      obtain ⟨hdescribes, hfits⟩ := (ofDescription_eq_ok member type).mp htype
      obtain ⟨hrest, hnodes⟩ := (ofMembers_eq_ok rest others).mp hothers
      exact ⟨.cons hdescribes hrest, hfits, hnodes⟩
    · rintro ⟨hdescribes, hfits, hnodes⟩
      cases hdescribes with
      | @cons _ _ type others hdescribes hrest =>
        exact ⟨type, (ofDescription_eq_ok member type).mpr ⟨hdescribes, hfits⟩,
          Except.bind_eq_ok.mpr ⟨others, (ofMembers_eq_ok rest others).mpr ⟨hrest, hnodes⟩, rfl⟩⟩

end

end ShaderType

end ShaderBinding
