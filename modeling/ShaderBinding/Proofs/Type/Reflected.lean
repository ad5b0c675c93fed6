import ShaderBinding.Proofs.Type.Described

/-! # Reflected types

Reflecting stops at the first flawed node, so that only the nodes up to there can be at fault for a
size that does not fit. A type that is reflected has the shape that later steps rely on: its arrays
have dimensions and elements of one kind, and its structs have members.
-/

namespace ShaderBinding

namespace TypeDescription

variable {before after : List TypeDescription}

def upToFlaw : List TypeDescription → List TypeDescription
  | [] => []
  | node :: rest => node :: if node.flaw?.isSome then [] else upToFlaw rest

/-- The nodes that are visited before a flaw ends the visit, and the flawed one. -/
def reached (desc : TypeDescription) : List TypeDescription := upToFlaw desc.nodes

theorem upToFlaw_append_of_unflawed (h : before.filterMap flaw? = []) :
    upToFlaw (before ++ after) = before ++ upToFlaw after := by
  induction before with
  | nil => rfl
  | cons node rest ih =>
    obtain ⟨hnode, hrest⟩ := List.forall_mem_cons.mp (List.filterMap_eq_nil_iff.mp h)
    simp [upToFlaw, hnode, ih (List.filterMap_eq_nil_iff.mpr hrest)]

theorem upToFlaw_subset_append : upToFlaw before ⊆ upToFlaw (before ++ after) := by
  induction before with
  | nil => simp [upToFlaw]
  | cons node rest ih =>
    simp only [upToFlaw, List.cons_append]
    split
    · simp
    · exact List.cons_subset_cons node ih

theorem exists_flawed_iff (nodes : List TypeDescription) :
    (∃ node ∈ upToFlaw nodes, node.flaw?.isSome) ↔ ∃ e, nodes.findSome? flaw? = some e := by
  induction nodes with
  | nil => simp [upToFlaw]
  | cons node rest ih =>
    cases hnode : node.flaw? with
    | none => simp [upToFlaw, hnode, ih]
    | some e => simp [upToFlaw, hnode]

end TypeDescription

namespace ShaderType

open TypeDescription

variable {desc : TypeDescription} {fault : Fault}

/-- A node only faults for its own sizes or while its members are visited. -/
theorem reached_of_fault_node
    (hmembers : ∀ fault, ofMembers desc.members = .error (.fault fault) →
      ∃ node ∈ upToFlaw (nodesOfMembers desc.members), ¬ node.NodeFits)
    (h : ofDescription desc = .error (.fault fault)) :
    ∃ node ∈ desc.reached, ¬ node.NodeFits := by
  rw [reached, nodes_eq, upToFlaw]
  by_cases hstruct : desc.base = .struct
  · have himage : desc.base.isImage = false := by rw [hstruct]; rfl
    rw [ofDescription_eq, if_neg (by simp [himage]), if_pos hstruct] at h
    by_cases hempty : desc.members = []
    · rw [if_pos (by simp [hempty])] at h
      cases h
    have hflaw : desc.flaw? = none := by simp [flaw?, himage, hempty]
    rw [if_neg (by simp [hempty])] at h
    rw [hflaw, if_pos hstruct]
    rcases Except.bind_eq_error.mp h with hfields | ⟨fields, -, hdims⟩
    · obtain ⟨node, hnode, hfits⟩ := hmembers fault hfields
      exact ⟨node, List.mem_cons_of_mem _ hnode, hfits⟩
    · have hsize : (struct fields desc.size).size = desc.elementSize := by
        simp [elementSize, hstruct, size]
      exact ⟨desc, List.mem_cons_self, (reports_withDims himage hsize).fault fault hdims⟩
  · refine ⟨desc, List.mem_cons_self, fun hfits => ?_⟩
    refine (reports_ofDescription desc).fault fault h (sizesFit_iff.mpr ⟨hfits, ?_⟩)
    exact fun hbase => absurd hbase hstruct

mutual

theorem reached_of_fault : ∀ (desc : TypeDescription) (fault : Fault),
    ofDescription desc = .error (.fault fault) → ∃ node ∈ desc.reached, ¬ node.NodeFits
  | ⟨_, _, _, _, _, _, _, _, members, _, _⟩, _ => reached_of_fault_node (reached_of_fault_members members)

theorem reached_of_fault_members : ∀ (members : List TypeDescription) (fault : Fault),
    ofMembers members = .error (.fault fault) →
      ∃ node ∈ upToFlaw (nodesOfMembers members), ¬ node.NodeFits
  | [], _ => nofun
  | member :: rest, fault => fun h => by
    rw [nodesOfMembers]
    rw [ofMembers] at h
    rcases Except.bind_eq_error.mp h with hmember | ⟨type, hmember, h⟩
    · obtain ⟨node, hnode, hfits⟩ := reached_of_fault member fault hmember
      exact ⟨node, upToFlaw_subset_append hnode, hfits⟩
    -- The member has no flaw, so that the visit goes on to those after it.
    rw [upToFlaw_append_of_unflawed ((reports_ofDescription member).ok type hmember)]
    rcases Except.bind_eq_error.mp h with hrest | ⟨fields, -, ⟨⟩⟩
    obtain ⟨node, hnode, hfits⟩ := reached_of_fault_members rest fault hrest
    exact ⟨node, List.mem_append_right _ hnode, hfits⟩

end

mutual

def nodes : ShaderType → List ShaderType
  | type@(array _ element _ _) => type :: element.nodes
  | type@(struct fields _) => type :: nodesOfFields fields
  | leaf => [leaf]

def nodesOfFields : Fields → List ShaderType
  | .nil => []
  | .cons _ _ type rest => type.nodes ++ nodesOfFields rest

end

def isElement : ShaderType → Bool
  | image _ | array .. => false
  | vector .. | matrix .. | struct .. => true

/-- How a node of a reflected type looks: the elements of an array can be counted and take up all
of it, and a struct has members. -/
def Shaped : ShaderType → Prop
  | array dims element stride size =>
    dims ≠ [] ∧ (∀ dim ∈ dims, 0 < dim.length) ∧
      (dims.map (·.length)).prod < Width.word.bound ∧ element.isElement ∧
      size = stride * (dims.map (·.length)).prod
  | struct fields _ => fields ≠ .nil
  | _ => True

theorem length_ofDeclared_pos {declared : List Nat} :
    ∀ dim ∈ declared.reverse.map ArrayDim.ofDeclared, 0 < dim.length := by
  simp only [List.mem_map, List.mem_reverse]
  rintro _ ⟨length, -, rfl⟩
  unfold ArrayDim.ofDeclared
  split
  · simp
  · rename_i hne
    exact Nat.pos_of_ne_zero hne

theorem members_eq_nil {members : List TypeDescription} (h : DescribesMembers members .nil) :
    members = [] := by
  cases h
  rfl

theorem isElement_of_describes {element : ShaderType} (h : desc.DescribesElement element) :
    element.isElement := by
  cases h <;> rfl

mutual

theorem shaped_of_describes : ∀ {desc : TypeDescription} {type : ShaderType},
    desc.Describes type → desc.SizesFit → ∀ node ∈ type.nodes, node.Shaped
  | _, _, .image _ _, _ => by simp [nodes, Shaped]
  | _, _, .single helement _, hfits =>
    shaped_of_describesElement helement (sizesFit_iff.mp hfits).2
  | _, _, .array helement hdims hlengths hstride, hfits => by
    obtain ⟨hnode, hmembers⟩ := sizesFit_iff.mp hfits
    rw [nodes, List.forall_mem_cons]
    refine ⟨⟨?_, ?_, ?_, isElement_of_describes helement, rfl⟩,
      shaped_of_describesElement helement hmembers⟩
    · simpa [hlengths] using hdims
    · exact hlengths ▸ length_ofDeclared_pos
    · rw [hlengths, prod_ofDeclared]
      exact ((hnode helement.isImage_eq).2 hdims).1

theorem shaped_of_describesElement : ∀ {desc : TypeDescription} {element : ShaderType},
    desc.DescribesElement element →
      (desc.base = .struct → ∀ node ∈ nodesOfMembers desc.members, node.NodeFits) →
      ∀ node ∈ element.nodes, node.Shaped
  | _, _, .struct hbase hmembers hfields, hfits => by
    rw [nodes, List.forall_mem_cons]
    refine ⟨?_, shaped_of_describesMembers hfields (hfits hbase)⟩
    rintro rfl
    exact hmembers (members_eq_nil hfields)
  | _, _, .matrix _ _ _, _ => by simp [nodes, Shaped]
  | _, _, .vector _ _ _, _ => by simp [nodes, Shaped]

theorem shaped_of_describesMembers : ∀ {members : List TypeDescription} {fields : Fields},
    DescribesMembers members fields → (∀ node ∈ nodesOfMembers members, node.NodeFits) →
      ∀ node ∈ nodesOfFields fields, node.Shaped
  | _, _, .nil, _ => by simp [nodesOfFields]
  | _, _, .cons hmember hrest, hfits => by
    rw [nodesOfMembers, List.forall_mem_append] at hfits
    rw [nodesOfFields, List.forall_mem_append]
    exact ⟨shaped_of_describes hmember hfits.1, shaped_of_describesMembers hrest hfits.2⟩

end

/--
A description reflects to a type exactly if it declares that type and all its sizes fit, and then
every node of the type is well shaped. If the sizes of the nodes that are reached fit, reflecting
fails exactly if one of them is flawed, and it names the first flaw. A fault is always the fault of
a node that is reached and whose sizes do not fit.
-/
theorem ofDescription_exact (desc : TypeDescription) :
    (∀ type, ofDescription desc = .ok type ↔ desc.Describes type ∧ desc.SizesFit) ∧
      (∀ type, ofDescription desc = .ok type → ∀ node ∈ type.nodes, node.Shaped) ∧
      ((∀ node ∈ desc.reached, node.NodeFits) →
        ((∃ e, ofDescription desc = .fail e) ↔ ∃ node ∈ desc.reached, node.flaw?.isSome) ∧
          ∀ e, ofDescription desc = .fail e ↔ desc.nodes.findSome? (·.flaw?) = some e) ∧
      ∀ fault, ofDescription desc = .error (.fault fault) →
        ∃ node ∈ desc.reached, ¬ node.NodeFits := by
  refine ⟨ofDescription_eq_ok desc, fun type h => ?_, fun hfits => ?_, reached_of_fault desc⟩
  · obtain ⟨hdescribes, hsizes⟩ := (ofDescription_eq_ok desc type).mp h
    exact shaped_of_describes hdescribes hsizes
  have hfault (fault : Fault) : ofDescription desc ≠ .error (.fault fault) := fun h => by
    obtain ⟨node, hnode, hnot⟩ := reached_of_fault desc fault h
    exact hnot (hfits node hnode)
  have hfail (e : TypeError) :
      ofDescription desc = .fail e ↔ desc.nodes.findSome? (·.flaw?) = some e := by
    rw [← List.head?_filterMap]
    exact (reports_ofDescription desc).fail_iff hfault
  exact ⟨(exists_congr hfail).trans (exists_flawed_iff desc.nodes).symm, hfail⟩

/-- A block with a padded array is reflected. In another one a texture without traits hides a
member that is too large. -/
theorem ofDescription_exact_hidden :
    let block (members : List TypeDescription) : TypeDescription :=
      { name := "Block", base := .struct, members, size := 96 }
    let offsets : TypeDescription :=
      { name := "offsets", vectorSize := 2, arrayDims := [2, 0], arrayStride := 16 }
    let view : TypeDescription := { name := "view", vectorSize := 4, columns := 4, offset := 32 }
    let texture : TypeDescription := { name := "texture", base := .image, arrayDims := [4] }
    let large : TypeDescription := { name := "large", arrayDims := [65536, 65536] }
    let type : ShaderType := .struct (.ofList
      [⟨"offsets", 0, .array [⟨1, true⟩, ⟨2, false⟩] (.vector .float 2 8) 16 32⟩,
        ⟨"view", 32, .matrix .float 4 4 64⟩]) 96
    ((block [offsets, view]).Describes type ∧ ∀ node ∈ type.nodes, node.Shaped) ∧
      ¬ (block [texture, large]).SizesFit ∧
        (∀ node ∈ (block [texture, large]).reached, node.NodeFits) ∧
        ofDescription (block [texture, large]) = .fail (.missingImageTraits "texture") := by
  intro block offsets view texture large type
  constructor
  · obtain ⟨hok, hshaped, -, -⟩ := ofDescription_exact (block [offsets, view])
    have htype : ofDescription (block [offsets, view]) = .ok type := by rfl
    exact ⟨((hok type).mp htype).1, hshaped type htype⟩
  · obtain ⟨-, -, hfails, -⟩ := ofDescription_exact (block [texture, large])
    have hfits : ∀ node ∈ (block [texture, large]).reached, node.NodeFits := by decide
    exact ⟨by decide, hfits, ((hfails hfits).2 _).mpr (by rfl)⟩

end ShaderType

end ShaderBinding
