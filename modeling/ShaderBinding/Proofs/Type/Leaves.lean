import ShaderBinding.Proofs.Type.Reflected
import ShaderBinding.Type.Walk

/-! # The leaves of a type

A walk visits the leaves of a type in layout order. Where they lie is worked out without regard to
widths, and a walk gives exactly that exactly if no offset on its way leaves its width.
-/

namespace ShaderBinding

namespace Trail

variable {α : Type} {trail rest : Trail} {leaves others : List Leaf} {fits room : Prop}

/-- A trail has no fault exactly if all fits, and then it consists of these leaves. -/
def Sees (trail : Trail) (fits : Prop) (leaves : List Leaf) : Prop :=
  ∀ seen, trail = ⟨seen, none⟩ ↔ fits ∧ seen = leaves

namespace Sees

theorem nothing : nothing.Sees True [] := by
  simp [Sees, Trail.nothing, eq_comm]

theorem leaf (leaf : Leaf) : Sees ⟨[leaf], none⟩ True [leaf] := by
  simp [Sees, eq_comm]

theorem congr (h : trail.Sees fits leaves) (hiff : fits ↔ room) : trail.Sees room leaves :=
  fun seen => (h seen).trans (and_congr_left' hiff)

theorem after {x : Checked α} {value : α} {next : α → Trail}
    (hx : ∀ a, x = .ok a ↔ fits ∧ a = value) (hnext : (next value).Sees room leaves) :
    (Trail.after x next).Sees (fits ∧ room) leaves := by
  intro seen
  cases x with
  | ok a =>
    obtain ⟨hfits, rfl⟩ := (hx a).mp rfl
    simpa [Trail.after, hfits] using hnext seen
  | error fault =>
    have hfits : ¬ fits := fun hfits => nomatch (hx value).mpr ⟨hfits, rfl⟩
    simp [Trail.after, hfits]

theorem andThen {next : Unit → Trail} (h : trail.Sees fits leaves)
    (hnext : (next ()).Sees room others) :
    (trail.andThen next).Sees (fits ∧ room) (leaves ++ others) := by
  intro seen
  obtain ⟨first, fault⟩ := trail
  cases fault with
  | none =>
    obtain ⟨hfits, rfl⟩ := (h first).mp rfl
    constructor
    · intro heq
      simp only [Trail.andThen, mk.injEq] at heq
      obtain ⟨rfl, hnone⟩ := heq
      obtain ⟨hroom, hleaves⟩ := (hnext (next ()).leaves).mp (by rw [← hnone])
      exact ⟨⟨hfits, hroom⟩, by rw [hleaves]⟩
    · rintro ⟨⟨-, hroom⟩, rfl⟩
      simp [Trail.andThen, (hnext others).mpr ⟨hroom, rfl⟩]
  | some fault =>
    have hfits : ¬ fits := fun hfits => by simpa using (h leaves).mpr ⟨hfits, rfl⟩
    simp [Trail.andThen, hfits]

theorem indices {visit : Nat → Trail} {fits : Nat → Prop} {leavesOf : Nat → List Leaf}
    (h : ∀ i, (visit i).Sees (fits i) (leavesOf i)) (seen : List Leaf) (index count : Nat) :
    (Trail.indices visit seen index count).Sees (∀ i ∈ List.range' index count, fits i)
      (seen.reverse ++ (List.range' index count).flatMap leavesOf) := by
  induction count generalizing seen index with
  | zero => simp [Sees, Trail.indices, eq_comm]
  | succ count ih =>
    rw [List.range'_succ, List.flatMap_cons, List.forall_mem_cons]
    rcases hvisit : visit index with ⟨first, fault⟩
    cases fault with
    | none =>
      obtain ⟨hfits, rfl⟩ := (h index first).mp hvisit
      simpa [Sees, Trail.indices, hvisit, hfits] using ih ((leavesOf index).reverse ++ seen) (index + 1)
    | some fault =>
      have hfits : ¬ fits index := fun hfits => by
        simpa [hvisit] using (h index _).mpr ⟨hfits, rfl⟩
      simp [Sees, Trail.indices, hvisit, hfits]

end Sees

end Trail

namespace ShaderType

mutual

def leavesAt (path : String) (offset : Nat) : ShaderType → List Leaf
  | struct fields _ => leavesOfFields path offset fields
  | array dims element stride _ =>
    (List.range (dims.map (·.length)).prod).flatMap fun index =>
      element.leavesAt s!"{path}[{index}]" (offset + index * stride)
  | leaf => [⟨path, offset, leaf⟩]

def leavesOfFields (path : String) (offset : Nat) : Fields → List Leaf
  | .nil => []
  | .cons name position type rest =>
    type.leavesAt (memberPath path name) (offset + position) ++ leavesOfFields path offset rest

end

mutual

/-- The elements of every array can be counted, and the parts of a type that starts at an offset
have offsets of their width. -/
def Addressable (offset : Nat) : ShaderType → Prop
  | struct fields _ => AddressableFields offset fields
  | array dims element stride _ =>
    (∃ count, elementCount dims = .ok count) ∧
      ∀ index ∈ List.range (dims.map (·.length)).prod,
        offset + index * stride < Width.word.bound ∧ element.Addressable (offset + index * stride)
  | _ => True

def AddressableFields (offset : Nat) : Fields → Prop
  | .nil => True
  | .cons _ position type rest =>
    (offset + position < Width.word.bound ∧ type.Addressable (offset + position)) ∧
      AddressableFields offset rest

end

theorem elementCount_eq_ok_iff {dims : List ArrayDim} (count : Nat) :
    elementCount dims = .ok count ↔
      (∃ n, elementCount dims = .ok n) ∧ count = (dims.map (·.length)).prod := by
  constructor
  · exact fun h => ⟨⟨count, h⟩, (elementCount_eq_ok h).2⟩
  · rintro ⟨⟨n, hn⟩, rfl⟩
    rw [hn, (elementCount_eq_ok hn).2]

mutual

theorem sees_trail : ∀ (type : ShaderType) (path : String) (offset : Nat),
    (type.trail path offset).Sees (type.Addressable offset) (type.leavesAt path offset)
  | struct fields _, path, offset => by
    rw [trail, Addressable, leavesAt]
    exact sees_trailFields fields path offset
  | array dims element stride _, path, offset => by
    rw [trail, Addressable, leavesAt, List.range_eq_range']
    refine .after elementCount_eq_ok_iff (.indices (fun index => ?_) [] 0 _)
    -- An index that is too far away by itself is so from any offset.
    refine .congr (.after (fun _ => Checked.mul_eq_ok_iff) (.after (fun _ =>
      Checked.add_eq_ok_iff) (sees_trail element _ _))) ⟨And.right, fun h => ⟨?_, h⟩⟩
    omega
  | vector .., path, offset => .leaf _
  | matrix .., path, offset => .leaf _
  | image _, path, offset => .leaf _

theorem sees_trailFields : ∀ (fields : Fields) (path : String) (offset : Nat),
    (trailFields path offset fields).Sees (AddressableFields offset fields)
      (leavesOfFields path offset fields)
  | .nil, _, _ => .nothing
  | .cons name position type rest, path, offset => by
    rw [trailFields, AddressableFields, leavesOfFields]
    exact .andThen (.after (fun _ => Checked.add_eq_ok_iff)
      (sees_trail type (memberPath path name) (offset + position)))
      (sees_trailFields rest path offset)

end

/-- A walk gives all leaves exactly if they can be addressed. -/
theorem walk_eq_ok {type : ShaderType} {path : String} {offset : Nat} {leaves : List Leaf} :
    type.walk path offset = .ok leaves ↔
      type.Addressable offset ∧ leaves = type.leavesAt path offset := by
  rw [← sees_trail type path offset leaves, walk, Trail.toChecked]
  obtain ⟨seen, fault⟩ := type.trail path offset
  cases fault <;> simp

end ShaderType

end ShaderBinding
