import ShaderBinding.Proofs.Type.Paths
import ShaderBinding.Seed

/-! # Seeded bytes

Seeding writes the numbers of camera matrices over zeros, leaf by leaf and column by column. A byte
is that of the last number that reaches it, among those that fit in whole.
-/

namespace ShaderBinding

theorem getLast?_splitOn (path : List Char) :
    (path.splitOn '.').getLast? = some (path.reverse.takeWhile (· ≠ '.')).reverse := by
  by_cases hdot : '.' ∈ path.reverse
  · obtain ⟨segment, rest, hpath, hsegment⟩ := List.eq_append_cons_of_mem hdot
    -- The first dot of the reversed path is the last one of the path.
    have hread : path.reverse.takeWhile (· ≠ '.') = segment := by
      rw [hpath]
      exact takeWhile_append_eq (fun c hc => decide_eq_true fun h => hsegment (h ▸ hc)) (by simp)
    have hsplit : path = rest.reverse ++ '.' :: segment.reverse := by
      simpa using congrArg List.reverse hpath
    have hlast : segment.reverse.splitOn '.' = [segment.reverse] :=
      List.splitOn_eq_singleton (by simpa using hsegment)
    rw [hread, hsplit, List.splitOn, List.splitOnP_append_cons _ _ (by simp)]
    rw [List.splitOn] at hlast
    simp [hlast]
  · have hread : (path.reverse ++ []).takeWhile (· ≠ '.') = path.reverse :=
      takeWhile_append_eq (fun c hc => decide_eq_true fun h => hdot (h ▸ hc)) (by simp)
    rw [List.append_nil] at hread
    rw [hread, List.splitOn_eq_singleton (by simpa using hdot), List.reverse_reverse]
    rfl

/-- The last of the segments that dots divide the path into ends, in lower case, with a name. -/
def Leaf.NamedFor (leaf : Leaf) (name : String) : Prop :=
  ∃ segment ∈ (leaf.path.toList.splitOn '.').getLast?, name.toList <:+ segment.map Char.toLower

theorem Leaf.namedFor_iff (leaf : Leaf) (name : String) :
    leaf.NamedFor name ↔ name.toList.isSuffixOf (lastSegment leaf.path) = true := by
  simp [NamedFor, getLast?_splitOn, lastSegment]

instance (leaf : Leaf) : DecidablePred leaf.NamedFor := fun name =>
  decidable_of_iff _ (leaf.namedFor_iff name).symm

namespace Leaf

def IsMatrix4 (leaf : Leaf) : Prop := leaf.type = .matrix .float 4 4 leaf.type.size

instance : DecidablePred IsMatrix4 := fun leaf =>
  inferInstanceAs (Decidable (leaf.type = .matrix .float 4 4 leaf.type.size))

theorem isMatrix4_iff (leaf : Leaf) : leaf.IsMatrix4 ↔ leaf.type.isFloatMatrix4 = true := by
  unfold IsMatrix4
  constructor
  · intro h
    rw [h]
    rfl
  · intro h
    unfold ShaderType.isFloatMatrix4 at h
    split at h
    · rename_i htype
      rw [htype]
      rfl
    · cases h

/-- The matrix that a leaf is named for: the view before the projection before the model. -/
def matrix? (camera : Camera) (leaf : Leaf) : Option Matrix :=
  if ¬ leaf.IsMatrix4 then none
  else if leaf.NamedFor "view" then some camera.view
  else if leaf.NamedFor "proj" ∨ leaf.NamedFor "projection" then some camera.proj
  else if leaf.NamedFor "model" then some .identity
  else none

theorem isSome_matrix? (camera : Camera) (leaf : Leaf) : (leaf.matrix? camera).isSome ↔
    leaf.IsMatrix4 ∧ ∃ name ∈ ["view", "proj", "projection", "model"], leaf.NamedFor name := by
  unfold matrix?
  by_cases hmatrix : leaf.IsMatrix4
  · simp only [hmatrix, not_true, if_false, true_and, List.mem_cons, List.not_mem_nil, or_false,
      exists_eq_or_imp, exists_eq_left]
    split_ifs
    all_goals simp_all
    tauto
  · simp [hmatrix]

def columnStep (leaf : Leaf) : Nat := leaf.type.size / 4

def slots (leaf : Leaf) (m : Matrix) : List (Nat × Single) :=
  (List.finRange 4).flatMap fun c : Fin 4 => (List.finRange 4).map fun r : Fin 4 =>
    (leaf.offset + c * leaf.columnStep + 4 * r, m.columns[c][r])

end Leaf

theorem zipIdx_toList {α : Type} (v : Vector α 4) :
    v.toList.zipIdx = (List.finRange 4).map fun i => (v[i], i.val) := by
  refine List.ext_getElem (by simp) fun i _ _ => ?_
  simp

namespace Seed

theorem ofLeaf?_eq (camera : Camera) (leaf : Leaf) : ofLeaf? camera leaf =
    (leaf.matrix? camera).map (⟨leaf.offset, leaf.type.size, ·⟩) := by
  unfold ofLeaf? Leaf.matrix? Camera.matrix?
  simp only [← Leaf.namedFor_iff, ← Leaf.isMatrix4_iff, Bool.or_eq_true]
  split_ifs <;> rfl

theorem slots_eq (leaf : Leaf) (m : Matrix) :
    slots ⟨leaf.offset, leaf.type.size, m⟩ = leaf.slots m := by
  simp [slots, Leaf.slots, zipIdx_toList, Leaf.columnStep, List.flatMap_map, Function.comp_def]

/-- The byte that a number puts at a position of data of some size, if it reaches that position. A
number that does not fit in whole is dropped. -/
def byteAt? (size i : Nat) (slot : Nat × Single) : Option UInt8 :=
  if slot.1 + 4 ≤ size ∧ slot.1 ≤ i then (Bytes.ofWord slot.2.bits)[i - slot.1]? else none

@[simp]
theorem length_writeSlot (data : Bytes) (slot : Nat × Single) :
    (writeSlot data slot).length = data.length := by
  unfold writeSlot
  split
  · rename_i hfits
    exact Bytes.length_overwrite hfits
  · rfl

theorem length_foldl_writeSlot (slots : List (Nat × Single)) (data : Bytes) :
    (slots.foldl writeSlot data).length = data.length := by
  induction slots generalizing data with
  | nil => rfl
  | cons slot rest ih => rw [List.foldl_cons, ih, length_writeSlot]

theorem getElem?_writeSlot (data : Bytes) (slot : Nat × Single) (i : Nat) :
    (writeSlot data slot)[i]? = data[i]?.map ((byteAt? data.length i slot).getD ·) := by
  unfold writeSlot byteAt?
  by_cases hfits : slot.1 + 4 ≤ data.length
  · have hword : (Bytes.ofWord slot.2.bits).length = 4 := rfl
    rw [if_pos hfits, Bytes.getElem?_overwrite (by rwa [hword]), hword]
    by_cases hreached : slot.1 ≤ i ∧ i < slot.1 + 4
    · have hindex : i < data.length := by omega
      have hbyte : i - slot.1 < (Bytes.ofWord slot.2.bits).length := by omega
      simp [hfits, hreached, hindex, hbyte]
    · rw [if_neg hreached]
      split
      · have hbyte : (Bytes.ofWord slot.2.bits)[i - slot.1]? = none :=
          List.getElem?_eq_none (by omega)
        simp [hbyte]
      · simp
  · simp [hfits]

/-- A byte after numbers were written one after the other: the last one that reaches it decides. -/
theorem getElem?_foldl_writeSlot (slots : List (Nat × Single)) (data : Bytes) (i : Nat) :
    (slots.foldl writeSlot data)[i]? =
      data[i]?.map ((slots.reverse.findSome? (byteAt? data.length i)).getD ·) := by
  induction slots generalizing data with
  | nil => simp
  | cons slot rest ih =>
    rw [List.foldl_cons, ih, length_writeSlot, getElem?_writeSlot, Option.map_map,
      List.reverse_cons, List.findSome?_append]
    congr 1
    funext byte
    cases List.findSome? (byteAt? data.length i) rest.reverse <;> simp

end Seed

namespace ShaderType

variable {type : ShaderType} {camera : Camera} {leaves : List Leaf} {data : Bytes}

def seedSlots (camera : Camera) (leaves : List Leaf) : List (Nat × Single) :=
  leaves.flatMap fun leaf => ((leaf.matrix? camera).map leaf.slots).getD []

def seededByte (camera : Camera) (leaves : List Leaf) (size i : Nat) : UInt8 :=
  ((seedSlots camera leaves).reverse.findSome? (Seed.byteAt? size i)).getD 0

theorem flatMap_slots (camera : Camera) (leaves : List Leaf) :
    (leaves.filterMap (Seed.ofLeaf? camera)).flatMap Seed.slots = seedSlots camera leaves := by
  induction leaves with
  | nil => rfl
  | cons leaf rest ih =>
    rw [List.filterMap_cons, Seed.ofLeaf?_eq, seedSlots, List.flatMap_cons, ← seedSlots, ← ih]
    cases leaf.matrix? camera with
    | none => rfl
    | some m => simp [Seed.slots_eq]

theorem foldl_write (seeds : List Seed) (data : Bytes) :
    seeds.foldl Seed.write data = (seeds.flatMap Seed.slots).foldl Seed.writeSlot data := by
  rw [List.foldl_flatMap]
  rfl

theorem defaultData_eq (h : type.walk "" 0 = .ok leaves) : type.defaultData camera = .ok
    (if (leaves.filterMap (Seed.ofLeaf? camera)).isEmpty then none
      else some ((seedSlots camera leaves).foldl Seed.writeSlot (Bytes.zeros type.size))) := by
  rw [defaultData, seeds, h, ← flatMap_slots, ← foldl_write]
  dsimp only [bind, Except.bind, pure, Except.pure]
  split <;> rfl

theorem length_defaultData (h : type.defaultData camera = .ok (some data)) :
    data.length = type.size := by
  obtain ⟨leaves, hwalk⟩ : ∃ leaves, type.walk "" 0 = .ok leaves := by
    obtain ⟨seeds, hseeds, -⟩ := Except.bind_eq_ok.mp h
    obtain ⟨leaves, hwalk, -⟩ := Except.bind_eq_ok.mp hseeds
    exact ⟨leaves, hwalk⟩
  rw [defaultData_eq hwalk] at h
  split at h <;> cases h
  rw [Seed.length_foldl_writeSlot, Bytes.zeros, List.length_replicate]

theorem getElem?_defaultData (h : type.walk "" 0 = .ok leaves)
    (hdata : type.defaultData camera = .ok (some data)) {i : Nat} (hi : i < type.size) :
    data[i]? = some (seededByte camera leaves type.size i) := by
  rw [defaultData_eq h] at hdata
  split at hdata <;> cases hdata
  simp [Seed.getElem?_foldl_writeSlot, Bytes.zeros, hi, seededByte]

theorem isSome_seeds_iff (camera : Camera) (leaves : List Leaf) (data : Bytes) :
    (if (leaves.filterMap (Seed.ofLeaf? camera)).isEmpty then none else some data).isSome ↔
      ∃ leaf ∈ leaves, (leaf.matrix? camera).isSome := by
  have hempty : (leaves.filterMap (Seed.ofLeaf? camera)).isEmpty ↔
      ∀ leaf ∈ leaves, leaf.matrix? camera = none := by
    simp [List.filterMap_eq_nil_iff, Seed.ofLeaf?_eq]
  split
  · rename_i h
    simpa using hempty.mp h
  · rename_i h
    simpa [hempty, Option.isSome_iff_ne_none] using h

def withoutArray : ShaderType → ShaderType
  | array _ element _ _ => element
  | type => type

theorem withoutArray_of_describesElement {desc : TypeDescription} {element : ShaderType}
    (h : desc.DescribesElement element) : element.withoutArray = element := by
  cases h <;> rfl

theorem columnStep_eq {desc : TypeDescription} {reflected : ShaderType} {leaf : Leaf}
    (h : ofDescription desc = .ok reflected) (htype : reflected.withoutArray = leaf.type)
    (hmatrix : leaf.IsMatrix4) (hstride : 0 < desc.matrixStride) :
    leaf.columnStep = desc.matrixStride := by
  have helement : desc.DescribesElement leaf.type := by
    rw [← htype]
    cases ((ofDescription_eq_ok desc reflected).mp h).1 with
    | image =>
      rw [Leaf.IsMatrix4, ← htype] at hmatrix
      cases hmatrix
    | single helement => rwa [withoutArray_of_describesElement helement]
    | array helement => exact helement
  unfold Leaf.columnStep
  generalize htype : leaf.type = type at helement
  rw [Leaf.IsMatrix4, htype] at hmatrix
  cases helement with
  | struct => cases hmatrix
  | vector => cases hmatrix
  | matrix =>
    simp only [matrix.injEq] at hmatrix
    simp [size, hstride, hmatrix.2.2.1]

/--
Seeding a type whose walk does not fault gives data exactly if the walk visits a matrix that is
named for one of the camera. The data is as long as the type, and each of its bytes is that of the
last number that reaches it or zero. The columns of a matrix are as far apart as its description
says if that has a stride.
-/
theorem defaultData_exact (camera : Camera) (h : type.walk "" 0 = .ok leaves) :
    ∃ seeded, type.defaultData camera = .ok seeded ∧
      (seeded.isSome ↔ ∃ leaf ∈ leaves, leaf.IsMatrix4 ∧
        ∃ name ∈ ["view", "proj", "projection", "model"], leaf.NamedFor name) ∧
      (∀ data, seeded = some data → data.length = type.size ∧
        ∀ i < type.size, data[i]? = some (seededByte camera leaves type.size i)) ∧
      ∀ leaf ∈ leaves, leaf.IsMatrix4 → ∀ desc reflected, ofDescription desc = .ok reflected →
        reflected.withoutArray = leaf.type → 0 < desc.matrixStride →
          leaf.columnStep = desc.matrixStride := by
  refine ⟨_, defaultData_eq h, ?_, fun data hdata => ?_, fun leaf _ hmatrix desc reflected hok htype
    hstride => columnStep_eq hok htype hmatrix hstride⟩
  · simp only [← Leaf.isSome_matrix? camera]
    exact isSome_seeds_iff camera leaves _
  · have hok : type.defaultData camera = .ok (some data) := hdata ▸ defaultData_eq h
    exact ⟨length_defaultData hok, fun i => getElem?_defaultData h hok⟩

/-- The columns of a projection that is declared too small overlap each other and the view before
it, and those numbers that do not fit are dropped. -/
theorem defaultData_exact_overlap :
    let type : ShaderType := .struct (.ofList [⟨"modelView", 0, .matrix .float 4 4 64⟩,
      ⟨"u_Proj", 48, .matrix .float 4 4 16⟩]) 70
    let filled (bits : UInt32) : Matrix := ⟨.replicate 4 (.replicate 4 ⟨bits⟩)⟩
    let camera : Camera := ⟨filled 0x04030201, filled 0x08070605⟩
    let leaves : List Leaf := [⟨"modelView", 0, .matrix .float 4 4 64⟩,
      ⟨"u_Proj", 48, .matrix .float 4 4 16⟩]
    type.walk "" 0 = .ok leaves ∧ ∃ data, type.defaultData camera = .ok (some data) ∧
      data.length = 70 ∧ data[47]? = some 4 ∧ data[48]? = some 5 ∧ data[67]? = some 8 ∧
        data[68]? = some 0 := by
  intro type filled camera leaves
  have hwalk : type.walk "" 0 = .ok leaves := by rfl
  obtain ⟨seeded, hok, hsome, hbytes, -⟩ := defaultData_exact camera hwalk
  obtain ⟨data, rfl⟩ : ∃ data, seeded = some data := Option.isSome_iff_exists.mp <| hsome.mpr
    ⟨_, List.mem_cons_self, rfl, "view", List.mem_cons_self, by decide +kernel⟩
  obtain ⟨hlength, hbyte⟩ := hbytes data rfl
  refine ⟨hwalk, data, hok, hlength, ?_, ?_, ?_, ?_⟩ <;> rw [hbyte _ (by decide)] <;>
    exact congrArg some (by decide +kernel)

end ShaderType

end ShaderBinding
