import Mathlib.Order.Interval.Finset.Nat
import Mathlib.Order.Interval.Set.Disjoint
import ShaderBinding.Proofs.Type.Paths

/-! # Where a walk gets to

If the declared layout of a reflected type is consistent, the leaves lie inside the type and apart
from each other.
-/

namespace ShaderBinding

namespace ShaderType

def bytesAt (type : ShaderType) (offset : Nat) : Finset Nat :=
  Finset.Ico offset (offset + type.size)

/-- What is declared for a node is consistent: the members of a struct lie inside it and apart from
each other, and so do the elements of an array. -/
def LaidOut : ShaderType → Prop
  | struct fields size =>
    (∀ field ∈ fields.toList, field.offset + field.type.size ≤ size) ∧
      fields.toList.Pairwise fun a b => Disjoint (a.type.bytesAt a.offset) (b.type.bytesAt b.offset)
  | array _ element stride _ => element.size ≤ stride
  | _ => True

mutual

def leafCount : ShaderType → Nat
  | struct fields _ => leafCountOfFields fields
  | array dims element _ _ => (dims.map (·.length)).prod * element.leafCount
  | _ => 1

def leafCountOfFields : Fields → Nat
  | .nil => 0
  | .cons _ _ type rest => type.leafCount + leafCountOfFields rest

end

mutual

theorem length_leavesAt : ∀ (type : ShaderType) (path : String) (offset : Nat),
    (type.leavesAt path offset).length = type.leafCount
  | struct fields _, path, offset => by
    rw [leavesAt, leafCount]
    exact length_leavesOfFields fields path offset
  | array _ element _ _, path, offset => by
    simp [leavesAt, leafCount, List.length_flatMap, length_leavesAt element]
  | vector .., _, _ => rfl
  | matrix .., _, _ => rfl
  | image _, _, _ => rfl

theorem length_leavesOfFields : ∀ (fields : Fields) (path : String) (offset : Nat),
    (leavesOfFields path offset fields).length = leafCountOfFields fields
  | .nil, _, _ => rfl
  | .cons _ _ type rest, path, offset => by
    simp [leavesOfFields, leafCountOfFields, length_leavesAt type, length_leavesOfFields rest]

end

theorem disjoint_Ico {a b c d : Nat} :
    Disjoint (Finset.Ico a b) (Finset.Ico c d) ↔ min b d ≤ max a c := by
  rw [← Finset.disjoint_coe, Finset.coe_Ico, Finset.coe_Ico, Set.Ico_disjoint_Ico]

theorem element_end_le {index count : Nat} (h : index < count) (stride : Nat) :
    index * stride + stride ≤ stride * count := by
  rw [← Nat.succ_mul, Nat.mul_comm stride]
  exact Nat.mul_le_mul_right stride h

theorem exists_elementCount {dims : List ArrayDim} (hpos : ∀ dim ∈ dims, 0 < dim.length)
    (hbound : (dims.map (·.length)).prod < Width.word.bound) :
    ∃ count, elementCount dims = .ok count := by
  refine ⟨_, Checked.foldlM_mul ?_ (by rwa [Nat.one_mul])⟩
  simpa using hpos

@[simp]
theorem size_struct (fields : Fields) (size : Nat) : (struct fields size).size = size := rfl

@[simp]
theorem size_array (dims : List ArrayDim) (element : ShaderType) (stride size : Nat) :
    (array dims element stride size).size = size := rfl

mutual

/-- No offset inside a type is larger than where the type ends. -/
theorem addressable_of_laidOut : ∀ (type : ShaderType),
    (∀ node ∈ type.nodes, node.Shaped ∧ node.LaidOut) →
      ∀ offset, offset + type.size < Width.word.bound → type.Addressable offset
  | struct fields size, hnodes, offset, hend => by
    rw [nodes, List.forall_mem_cons] at hnodes
    obtain ⟨⟨-, hinside, -⟩, hfields⟩ := hnodes
    rw [Addressable]
    refine addressableFields_of_laidOut fields hfields offset fun field hfield => ?_
    have hfits := hinside field hfield
    rw [size_struct] at hend
    omega
  | array dims element stride size, hnodes, offset, hend => by
    rw [nodes, List.forall_mem_cons] at hnodes
    obtain ⟨⟨⟨-, hpos, hcount, -, rfl⟩, hstride : element.size ≤ stride⟩, helement⟩ := hnodes
    rw [Addressable]
    refine ⟨exists_elementCount hpos hcount, fun index hindex => ?_⟩
    have hstop := element_end_le (List.mem_range.mp hindex) stride
    rw [size_array] at hend
    have hhere : offset + index * stride + element.size < Width.word.bound := by omega
    exact ⟨by omega, addressable_of_laidOut element helement _ hhere⟩
  | vector .., _, _, _ => trivial
  | matrix .., _, _, _ => trivial
  | image _, _, _, _ => trivial

theorem addressableFields_of_laidOut : ∀ (fields : Fields),
    (∀ node ∈ nodesOfFields fields, node.Shaped ∧ node.LaidOut) → ∀ offset,
      (∀ field ∈ fields.toList, offset + field.offset + field.type.size < Width.word.bound) →
        AddressableFields offset fields
  | .nil, _, _, _ => trivial
  | .cons name position type rest, hnodes, offset, hend => by
    rw [nodesOfFields, List.forall_mem_append] at hnodes
    rw [Fields.toList, List.forall_mem_cons] at hend
    rw [AddressableFields]
    exact ⟨⟨Nat.lt_of_le_of_lt (Nat.le_add_right _ _) hend.1,
      addressable_of_laidOut type hnodes.1 _ hend.1⟩,
      addressableFields_of_laidOut rest hnodes.2 offset hend.2⟩

end

end ShaderType

def Leaf.Within (leaf : Leaf) (start stop : Nat) : Prop :=
  start ≤ leaf.offset ∧ leaf.offset + leaf.type.size ≤ stop

theorem Leaf.Within.mono {leaf : Leaf} {start stop first last : Nat} (h : leaf.Within start stop)
    (hfirst : first ≤ start) (hlast : stop ≤ last) : leaf.Within first last :=
  ⟨hfirst.trans h.1, h.2.trans hlast⟩

theorem Leaf.Within.disjoint {a b : Leaf} {start stop first last : Nat} (ha : a.Within start stop)
    (hb : b.Within first last) (h : min stop last ≤ max start first) :
    Disjoint (a.type.bytesAt a.offset) (b.type.bytesAt b.offset) := by
  obtain ⟨hstart, hstop⟩ := ha
  obtain ⟨hfirst, hlast⟩ := hb
  rw [ShaderType.bytesAt, ShaderType.bytesAt, ShaderType.disjoint_Ico]
  omega

namespace ShaderType

mutual

theorem within_leavesAt : ∀ (type : ShaderType),
    (∀ node ∈ type.nodes, node.Shaped ∧ node.LaidOut) →
      ∀ path offset, ∀ leaf ∈ type.leavesAt path offset, leaf.Within offset (offset + type.size)
  | struct fields size, hnodes, path, offset, leaf, hleaf => by
    rw [nodes, List.forall_mem_cons] at hnodes
    obtain ⟨⟨-, hinside, -⟩, hfields⟩ := hnodes
    obtain ⟨field, hfield, hwithin⟩ := within_leavesOfFields fields hfields path offset leaf hleaf
    have hfits := hinside field hfield
    refine hwithin.mono (by omega) ?_
    rw [size_struct]
    omega
  | array dims element stride size, hnodes, path, offset, leaf, hleaf => by
    rw [nodes, List.forall_mem_cons] at hnodes
    obtain ⟨⟨⟨-, -, -, -, rfl⟩, hstride : element.size ≤ stride⟩, helement⟩ := hnodes
    obtain ⟨index, hindex, hleaf⟩ := List.mem_flatMap.mp hleaf
    have hstop := element_end_le (List.mem_range.mp hindex) stride
    refine (within_leavesAt element helement _ _ leaf hleaf).mono (by omega) ?_
    rw [size_array]
    omega
  | vector .., _, _, _, _, hleaf => by
    obtain rfl := List.mem_singleton.mp hleaf
    exact ⟨le_rfl, le_rfl⟩
  | matrix .., _, _, _, _, hleaf => by
    obtain rfl := List.mem_singleton.mp hleaf
    exact ⟨le_rfl, le_rfl⟩
  | image _, _, _, _, _, hleaf => by
    obtain rfl := List.mem_singleton.mp hleaf
    exact ⟨le_rfl, le_rfl⟩

theorem within_leavesOfFields : ∀ (fields : Fields),
    (∀ node ∈ nodesOfFields fields, node.Shaped ∧ node.LaidOut) → ∀ path offset,
      ∀ leaf ∈ leavesOfFields path offset fields, ∃ field ∈ fields.toList,
        leaf.Within (offset + field.offset) (offset + field.offset + field.type.size)
  | .nil, _, _, _, _, hleaf => nomatch hleaf
  | .cons name position type rest, hnodes, path, offset, leaf, hleaf => by
    rw [nodesOfFields, List.forall_mem_append] at hnodes
    rcases List.mem_append.mp hleaf with hleaf | hleaf
    · exact ⟨_, List.mem_cons_self, within_leavesAt type hnodes.1 _ _ leaf hleaf⟩
    · obtain ⟨field, hfield, hwithin⟩ :=
        within_leavesOfFields rest hnodes.2 path offset leaf hleaf
      exact ⟨field, List.mem_cons_of_mem _ hfield, hwithin⟩

end

mutual

theorem disjoint_leavesAt : ∀ (type : ShaderType),
    (∀ node ∈ type.nodes, node.Shaped ∧ node.LaidOut) → ∀ path offset,
      (type.leavesAt path offset).Pairwise fun a b =>
        Disjoint (a.type.bytesAt a.offset) (b.type.bytesAt b.offset)
  | struct fields size, hnodes, path, offset => by
    rw [nodes, List.forall_mem_cons] at hnodes
    obtain ⟨⟨-, -, hdisjoint⟩, hfields⟩ := hnodes
    exact disjoint_leavesOfFields fields hfields hdisjoint path offset
  | array dims element stride size, hnodes, path, offset => by
    rw [nodes, List.forall_mem_cons] at hnodes
    obtain ⟨⟨-, hstride : element.size ≤ stride⟩, helement⟩ := hnodes
    rw [leavesAt, List.pairwise_flatMap]
    refine ⟨fun index _ => disjoint_leavesAt element helement _ _, ?_⟩
    refine List.pairwise_lt_range.imp fun {i j} hlt a ha b hb => ?_
    -- No element is larger than the distance between two of them.
    have hstep : i * stride + stride ≤ j * stride :=
      Nat.succ_mul i stride ▸ Nat.mul_le_mul_right stride hlt
    have hfirst := within_leavesAt element helement _ _ a ha
    refine hfirst.disjoint (within_leavesAt element helement _ _ b hb) ?_
    omega
  | vector .., _, _, _ => List.pairwise_singleton ..
  | matrix .., _, _, _ => List.pairwise_singleton ..
  | image _, _, _, _ => List.pairwise_singleton ..

theorem disjoint_leavesOfFields : ∀ (fields : Fields),
    (∀ node ∈ nodesOfFields fields, node.Shaped ∧ node.LaidOut) →
      (fields.toList.Pairwise fun a b =>
        Disjoint (a.type.bytesAt a.offset) (b.type.bytesAt b.offset)) →
      ∀ path offset, (leavesOfFields path offset fields).Pairwise fun a b =>
        Disjoint (a.type.bytesAt a.offset) (b.type.bytesAt b.offset)
  | .nil, _, _, _, _ => .nil
  | .cons name position type rest, hnodes, hdisjoint, path, offset => by
    rw [nodesOfFields, List.forall_mem_append] at hnodes
    obtain ⟨hfirst, hrest⟩ := List.pairwise_cons.mp hdisjoint
    rw [leavesOfFields, List.pairwise_append]
    refine ⟨disjoint_leavesAt type hnodes.1 _ _,
      disjoint_leavesOfFields rest hnodes.2 hrest path offset, fun a ha b hb => ?_⟩
    obtain ⟨field, hfield, hwithin⟩ := within_leavesOfFields rest hnodes.2 path offset b hb
    refine (within_leavesAt type hnodes.1 _ _ a ha).disjoint hwithin ?_
    -- Ranges stay apart when the same offset is added to both.
    have hapart := hfirst field hfield
    rw [bytesAt, bytesAt, disjoint_Ico] at hapart
    dsimp only at hapart
    omega

end

/--
A walk over a reflected type that is laid out consistently does not fault if the type ends within
32 bits. It visits every leaf of every element, all of them lie inside the type and apart from each
other, and if the members of each struct have different names the leaves have different paths.
-/
theorem walk_apart {desc : TypeDescription} {type : ShaderType}
    (h : ofDescription desc = .ok type) (hlaid : ∀ node ∈ type.nodes, node.LaidOut)
    (path : String) {offset : Nat} (hend : offset + type.size < Width.word.bound) :
    ∃ leaves, type.walk path offset = .ok leaves ∧
      (∀ leaf ∈ leaves, leaf.Within offset (offset + type.size)) ∧
      (leaves.Pairwise fun a b =>
        Disjoint (a.type.bytesAt a.offset) (b.type.bytesAt b.offset)) ∧
      leaves.length = type.leafCount ∧
      ((∀ node ∈ type.nodes, node.Named) → (leaves.map (·.path)).Nodup) := by
  obtain ⟨hdescribes, hsizes⟩ := (ofDescription_eq_ok desc type).mp h
  have hnodes : ∀ node ∈ type.nodes, node.Shaped ∧ node.LaidOut := fun node hnode =>
    ⟨shaped_of_describes hdescribes hsizes node hnode, hlaid node hnode⟩
  refine ⟨_, walk_eq_ok.mpr ⟨addressable_of_laidOut type hnodes offset hend, rfl⟩,
    within_leavesAt type hnodes path offset, disjoint_leavesAt type hnodes path offset,
    length_leavesAt type path offset, fun hnamed => ?_⟩
  exact List.pairwise_map.mpr (pairwise_paths type hnamed path offset)

/-- An array of structs with padding, and a sampler without a size between two of its members. -/
theorem walk_apart_padded :
    let position : TypeDescription := { name := "position", vectorSize := 3 }
    let map : TypeDescription := { name := "map", base := .sampler, offset := 6 }
    let weights : TypeDescription := { name := "weights", arrayDims := [2], offset := 16 }
    let desc : TypeDescription :=
      { base := .struct, arrayDims := [2, 0], arrayStride := 48
        members := [position, map, weights], size := 32 }
    let type : ShaderType := .array [⟨1, true⟩, ⟨2, false⟩] (.struct (.ofList
      [⟨"position", 0, .vector .float 3 12⟩, ⟨"map", 6, .vector .sampler 1 0⟩,
        ⟨"weights", 16, .array [⟨2, false⟩] (.vector .float 1 4) 4 8⟩]) 32) 48 96
    ofDescription desc = .ok type ∧ (∀ node ∈ type.nodes, node.LaidOut) ∧
      16 + type.size < Width.word.bound ∧ (∀ node ∈ type.nodes, node.Named) ∧
      ∃ leaves, type.walk "lights" 16 = .ok leaves ∧ leaves.length = 8 ∧
        (∀ leaf ∈ leaves, leaf.Within 16 112) ∧ (leaves.map (·.path)).Nodup := by
  intro position map weights desc type
  have hok : ofDescription desc = .ok type := by rfl
  have hlaid : ∀ node ∈ type.nodes, node.LaidOut := by
    simp [type, nodes, nodesOfFields, LaidOut, Fields.ofList, Fields.toList, size, bytesAt,
      disjoint_Ico]
  have hnamed : ∀ node ∈ type.nodes, node.Named := by
    simp [type, nodes, nodesOfFields, Named, Fields.ofList, Fields.toList]
  obtain ⟨leaves, hwalk, hwithin, -, hcount, hpaths⟩ :=
    walk_apart hok hlaid "lights" (show 16 + type.size < Width.word.bound by decide)
  exact ⟨hok, hlaid, by decide, hnamed, leaves, hwalk, hcount, hwithin, hpaths hnamed⟩

end ShaderType

end ShaderBinding
