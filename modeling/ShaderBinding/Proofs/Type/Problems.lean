import Mathlib.Algebra.Order.BigOperators.GroupWithZero.List
import Mathlib.Algebra.Order.Ring.Nat
import ShaderBinding.Proofs.Problems
import ShaderBinding.Type.Reflect

/-! # Problems of a described type

Reflecting a description visits it and then its members in declaration order. It reports the first
image without traits or struct without members that it meets, and does not fault if the size of
every node has its width.
-/

namespace ShaderBinding

namespace TypeDescription

mutual

/-- The description and those within it that are visited, each before its members. -/
def nodes : TypeDescription → List TypeDescription
  | desc@{ base, members, .. } => desc :: if base = .struct then nodesOfMembers members else []

def nodesOfMembers : List TypeDescription → List TypeDescription
  | [] => []
  | member :: rest => member.nodes ++ nodesOfMembers rest

end

theorem nodes_eq (desc : TypeDescription) :
    desc.nodes = desc :: if desc.base = .struct then nodesOfMembers desc.members else [] := by
  cases desc
  rw [nodes]

def flaw? (desc : TypeDescription) : Option TypeError :=
  if desc.base.isImage then
    if desc.image.isNone then some (.missingImageTraits desc.name) else none
  else if desc.base = .struct ∧ desc.members = [] then some (.emptyStruct desc.name)
  else none

def flaws (desc : TypeDescription) : List TypeError := desc.nodes.filterMap flaw?

theorem flaws_eq (desc : TypeDescription) : desc.flaws = desc.flaw?.toList ++
    if desc.base = .struct then (nodesOfMembers desc.members).filterMap flaw? else [] := by
  rw [flaws, nodes_eq, List.filterMap_cons]
  split <;> split <;> simp [*]

def elementSize (desc : TypeDescription) : Nat :=
  if desc.base = .struct then desc.size
  else if desc.columns > 1 then
    if desc.matrixStride > 0 then desc.matrixStride * desc.columns
    else desc.base.byteWidth * desc.vectorSize * desc.columns
  else desc.base.byteWidth * max desc.vectorSize 1

def stride (desc : TypeDescription) : Nat :=
  if desc.arrayStride > 0 then desc.arrayStride else desc.elementSize

def elements (desc : TypeDescription) : Nat := (desc.arrayDims.map (max · 1)).prod

/-- The sizes that are worked out for a node have the width of a size. An image has none, and the
size of a struct is declared. -/
def NodeFits (desc : TypeDescription) : Prop :=
  desc.base.isImage = false →
    (desc.base ≠ .struct → desc.elementSize < Width.word.bound) ∧
      (desc.arrayDims ≠ [] → desc.elements < Width.word.bound ∧
        desc.stride * desc.elements < Width.word.bound)

def SizesFit (desc : TypeDescription) : Prop := ∀ node ∈ desc.nodes, node.NodeFits

instance : DecidablePred NodeFits := fun desc =>
  inferInstanceAs (Decidable (desc.base.isImage = false → _))

instance : DecidablePred SizesFit := fun desc =>
  inferInstanceAs (Decidable (∀ node ∈ desc.nodes, node.NodeFits))

theorem sizesFit_iff {desc : TypeDescription} : desc.SizesFit ↔ desc.NodeFits ∧
    (desc.base = .struct → ∀ node ∈ nodesOfMembers desc.members, node.NodeFits) := by
  rw [SizesFit, nodes_eq, List.forall_mem_cons]
  split <;> simp [*]

end TypeDescription

namespace Checked

theorem foldlM_mul {width : Width} {values : List Nat} (hpos : ∀ value ∈ values, 0 < value)
    {start : Nat} (h : start * values.prod < width.bound) :
    values.foldlM (mul width) start = .ok (start * values.prod) := by
  induction values generalizing start with
  | nil => simp; rfl
  | cons value rest ih =>
    obtain ⟨-, hrest⟩ := List.forall_mem_cons.mp hpos
    rw [List.prod_cons, ← Nat.mul_assoc] at h ⊢
    have hpartial : start * value ≤ start * value * rest.prod :=
      Nat.le_mul_of_pos_right _ (List.prod_pos hrest)
    have hmul : mul width start value = .ok (start * value) :=
      mul_eq_ok_iff.mpr ⟨Nat.lt_of_le_of_lt hpartial h, rfl⟩
    rw [List.foldlM_cons, hmul]
    exact ih hrest h

theorem mul_bind_eq_ok {α : Type} {width : Width} {a b : Nat} (f : Nat → α) {value : α} :
    (do return f (← mul width a b)) = .ok value ↔ a * b < width.bound ∧ value = f (a * b) := by
  rw [Except.bind_eq_ok]
  constructor
  · rintro ⟨product, hproduct, h⟩
    cases h
    obtain ⟨hfits, rfl⟩ := mul_eq_ok_iff.mp hproduct
    exact ⟨hfits, rfl⟩
  · rintro ⟨hfits, rfl⟩
    exact ⟨_, mul_eq_ok_iff.mpr ⟨hfits, rfl⟩, rfl⟩

end Checked

namespace ShaderType

variable {desc : TypeDescription} {type : ShaderType}

def withDims (desc : TypeDescription) (element : ShaderType) : Outcome TypeError ShaderType :=
  if desc.arrayDims.isEmpty then return element
  else ofArray desc.arrayDims desc.arrayStride element

theorem ofDescription_eq (desc : TypeDescription) :
    ofDescription desc =
      if desc.base.isImage then ofImage desc.name desc.image
      else if desc.base = .struct then
        if desc.members.isEmpty then .fail (.emptyStruct desc.name)
        else ofMembers desc.members >>= fun fields => withDims desc (struct fields desc.size)
      else liftM (ofNumeric desc.base desc.vectorSize desc.columns desc.matrixStride) >>=
        withDims desc := by
  cases desc with
  | mk name base vectorSize columns offset arrayDims arrayStride matrixStride members image size =>
    rw [ofDescription]
    refine if_congr Iff.rfl rfl ?_
    by_cases hstruct : base = .struct
    · simp only [if_pos hstruct]
      split
      · rfl
      · cases ofMembers members <;> rfl
    · simp only [if_neg hstruct]
      rfl

def numeric (desc : TypeDescription) : ShaderType :=
  if desc.columns > 1 then matrix desc.base desc.vectorSize desc.columns desc.elementSize
  else vector desc.base desc.vectorSize desc.elementSize

@[simp]
theorem size_numeric (desc : TypeDescription) : (numeric desc).size = desc.elementSize := by
  unfold numeric
  split <;> rfl

theorem ofNumeric_eq_ok (hstruct : desc.base ≠ .struct) :
    ofNumeric desc.base desc.vectorSize desc.columns desc.matrixStride = .ok type ↔
      desc.elementSize < Width.word.bound ∧ type = numeric desc := by
  unfold ofNumeric numeric
  rw [TypeDescription.elementSize, if_neg hstruct]
  by_cases hcolumns : desc.columns > 1
  · simp only [if_pos hcolumns]
    unfold ofMatrix
    by_cases hstride : desc.matrixStride > 0
    · simp only [if_pos hstride]
      exact Checked.mul_bind_eq_ok _
    · simp only [if_neg hstride]
      have hcolumn : desc.base.byteWidth * desc.vectorSize * desc.columns < Width.word.bound →
          desc.base.byteWidth * desc.vectorSize < Width.word.bound :=
        Nat.lt_of_le_of_lt (Nat.le_mul_of_pos_right _ (by omega))
      rw [Except.bind_eq_ok]
      constructor
      · rintro ⟨column, hmul, h⟩
        obtain ⟨-, rfl⟩ := Checked.mul_eq_ok_iff.mp hmul
        exact (Checked.mul_bind_eq_ok _).mp h
      · intro h
        exact ⟨_, Checked.mul_eq_ok_iff.mpr ⟨hcolumn h.1, rfl⟩, (Checked.mul_bind_eq_ok _).mpr h⟩
  · simp only [if_neg hcolumns]
    exact Checked.mul_bind_eq_ok _

theorem lengths_ofDeclared (declared : List Nat) :
    (declared.reverse.map ArrayDim.ofDeclared).map (·.length) =
      (declared.map (max · 1)).reverse := by
  rw [List.map_map, ← List.map_reverse]
  refine List.map_congr_left fun length _ => ?_
  simp only [Function.comp_apply, ArrayDim.ofDeclared]
  split <;> simp <;> omega

theorem elementCount_ofDeclared (h : desc.elements < Width.word.bound) :
    elementCount (desc.arrayDims.reverse.map ArrayDim.ofDeclared) = .ok desc.elements := by
  have hpos : ∀ length ∈ (desc.arrayDims.map (max · 1)).reverse, 0 < length := by
    intro length hlength
    obtain ⟨declared, -, rfl⟩ := List.mem_map.mp (List.mem_reverse.mp hlength)
    omega
  have hprod : (desc.arrayDims.map (max · 1)).reverse.prod = desc.elements := List.prod_reverse _
  rw [elementCount, lengths_ofDeclared, Checked.product32, Checked.product,
    Checked.foldlM_mul hpos (by rwa [hprod, Nat.one_mul]), hprod, Nat.one_mul]

theorem exists_ofArray (hsize : type.size = desc.elementSize)
    (helements : desc.elements < Width.word.bound)
    (harray : desc.stride * desc.elements < Width.word.bound) :
    ∃ array, ofArray desc.arrayDims desc.arrayStride type = .ok array := by
  rw [TypeDescription.stride, ← hsize] at harray
  exact ⟨_, Except.bind_eq_ok.mpr ⟨_, elementCount_ofDeclared helements,
    (Checked.mul_bind_eq_ok _).mpr ⟨harray, rfl⟩⟩⟩

theorem reports_withDims (himage : desc.base.isImage = false)
    (hsize : type.size = desc.elementSize) : (withDims desc type).Reports [] desc.NodeFits := by
  unfold withDims
  split
  · exact .pure _
  · rename_i hdims
    refine .ofChecked fun hfits => ?_
    obtain ⟨helements, harray⟩ := (hfits himage).2 (by simpa using hdims)
    exact exists_ofArray hsize helements harray

theorem reports_image (himage : desc.base.isImage) :
    (ofDescription desc).Reports desc.flaws desc.SizesFit := by
  have hstruct : desc.base ≠ .struct := fun h => by simp [h, BaseKind.isImage] at himage
  rw [ofDescription_eq, TypeDescription.flaws_eq, TypeDescription.flaw?, if_pos himage,
    if_neg hstruct, if_pos himage]
  cases desc.image with
  | none => exact .fail _
  | some traits => exact .pure _

theorem reports_struct (hstruct : desc.base = .struct)
    (hmembers : (ofMembers desc.members).Reports
      ((TypeDescription.nodesOfMembers desc.members).filterMap (·.flaw?))
      (∀ node ∈ TypeDescription.nodesOfMembers desc.members, node.NodeFits)) :
    (ofDescription desc).Reports desc.flaws desc.SizesFit := by
  have himage : desc.base.isImage = false := by rw [hstruct]; rfl
  rw [ofDescription_eq, TypeDescription.flaws_eq, TypeDescription.flaw?]
  simp only [if_neg (Bool.eq_false_iff.mp himage), if_pos hstruct]
  by_cases hempty : desc.members = []
  · rw [if_pos (by simp [hempty]), if_pos ⟨hstruct, hempty⟩, hempty]
    exact .fail _
  · rw [if_neg (by simp [hempty]), if_neg fun h => hempty h.2]
    have hsize (fields : Fields) : (struct fields desc.size).size = desc.elementSize := by
      rw [TypeDescription.elementSize, if_pos hstruct]
      rfl
    have hreports := hmembers.bind fun fields => reports_withDims himage (hsize fields)
    rw [List.append_nil] at hreports
    refine hreports.mono fun hfits => ?_
    obtain ⟨hnode, hmembers⟩ := TypeDescription.sizesFit_iff.mp hfits
    exact ⟨hmembers hstruct, hnode⟩

theorem reports_numeric (himage : desc.base.isImage = false) (hstruct : desc.base ≠ .struct) :
    (ofDescription desc).Reports desc.flaws desc.SizesFit := by
  rw [ofDescription_eq, TypeDescription.flaws_eq, TypeDescription.flaw?]
  simp only [if_neg (Bool.eq_false_iff.mp himage), if_neg hstruct]
  rw [if_neg fun h => hstruct h.1]
  have hnumeric : Outcome.Reports ((ofNumeric desc.base desc.vectorSize desc.columns
      desc.matrixStride).mapError .fault : Outcome TypeError ShaderType) [] desc.NodeFits := by
    refine .ofChecked fun hfits => ⟨numeric desc, (ofNumeric_eq_ok hstruct).mpr ⟨?_, rfl⟩⟩
    exact (hfits himage).1 hstruct
  refine (hnumeric.bind_of_eq fun type htype => reports_withDims himage ?_).mono fun hfits => ?_
  · rw [((ofNumeric_eq_ok hstruct).mp (Except.mapError_eq_ok.mp htype)).2, size_numeric]
  · have hnode := (TypeDescription.sizesFit_iff.mp hfits).1
    exact ⟨hnode, hnode⟩

/-- A node is reflected if its members are, in the order in which they are visited. -/
theorem reports_node (hmembers : (ofMembers desc.members).Reports
      ((TypeDescription.nodesOfMembers desc.members).filterMap (·.flaw?))
      (∀ node ∈ TypeDescription.nodesOfMembers desc.members, node.NodeFits)) :
    (ofDescription desc).Reports desc.flaws desc.SizesFit := by
  by_cases hstruct : desc.base = .struct
  · exact reports_struct hstruct hmembers
  · cases himage : desc.base.isImage with
    | true => exact reports_image himage
    | false => exact reports_numeric himage hstruct

mutual

theorem reports_ofDescription : ∀ desc : TypeDescription,
    (ofDescription desc).Reports desc.flaws desc.SizesFit
  | ⟨_, _, _, _, _, _, _, _, members, _, _⟩ => reports_node (reports_ofMembers members)

theorem reports_ofMembers : ∀ members : List TypeDescription,
    (ofMembers members).Reports ((TypeDescription.nodesOfMembers members).filterMap (·.flaw?))
      (∀ node ∈ TypeDescription.nodesOfMembers members, node.NodeFits)
  | [] => .pure _
  | member :: rest => by
    rw [TypeDescription.nodesOfMembers, List.filterMap_append, List.forall_mem_append]
    exact (reports_ofDescription member).bind fun type => (reports_ofMembers rest).bind_pure _

end

end ShaderType

end ShaderBinding
