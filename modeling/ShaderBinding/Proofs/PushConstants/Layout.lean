import ShaderBinding.Engine.Bound
import ShaderBinding.Proofs.Link.Rules
import ShaderBinding.Proofs.Stage.Map

/-! # Placing push constants

Blocks can be placed exactly if all of their bytes together can be counted, and then every range
ends within that total. Writing data moves no range.
-/

namespace ShaderBinding.PushConstants

def placed (offset : Nat) : List (Stage × Nat) → List (Stage × PushRange)
  | [] => []
  | (stage, size) :: rest => (stage, ⟨stage.flag, offset, size⟩) :: placed (offset + size) rest

theorem layOut_eq (blocks : List (Stage × Nat)) {offset : Nat} (h : offset < 2 ^ 32) :
    layOut offset blocks =
      if offset + (blocks.map (·.2)).sum < 2 ^ 32 then .ok (placed offset blocks)
      else .error .addOverflow := by
  induction blocks generalizing offset with
  | nil =>
    have hoffset : offset + 0 < 2 ^ 32 := h
    rw [List.map_nil, List.sum_nil, if_pos hoffset]
    rfl
  | cons block rest ih =>
    obtain ⟨stage, size⟩ := block
    rw [List.map_cons, List.sum_cons, ← Nat.add_assoc]
    by_cases hstop : offset + size < 2 ^ 32
    · have hadd : Checked.add32 offset size = .ok (offset + size) :=
        Checked.add_eq_ok_iff.mpr ⟨hstop, rfl⟩
      rw [layOut, hadd]
      change (layOut (offset + size) rest >>= fun ranges => _) = _
      rw [ih hstop]
      split <;> rfl
    · have hadd : Checked.add32 offset size = .error .addOverflow := if_neg hstop
      have htotal : ¬ offset + size + (rest.map (·.2)).sum < 2 ^ 32 := by omega
      rw [layOut, hadd, if_neg htotal]
      rfl

theorem stop_le_of_mem_placed {blocks : List (Stage × Nat)} {offset : Nat}
    {entry : Stage × PushRange} (h : entry ∈ placed offset blocks) :
    entry.2.offset + entry.2.size ≤ offset + (blocks.map (·.2)).sum := by
  induction blocks generalizing offset with
  | nil => cases h
  | cons block rest ih =>
    rw [List.map_cons, List.sum_cons]
    rcases List.mem_cons.mp h with rfl | hrest
    · dsimp only
      omega
    · have hstop := ih hrest
      omega

def sizes (model : Model) : List (Stage × Nat) :=
  model.pushConstants.map fun (stage, block) => (stage, block.type.size)

theorem sum_sizes (model : Model) :
    ((sizes model).map (·.2)).sum = pushConstantTotal model.stages := by
  rw [sizes, List.map_map]
  rfl

theorem pairwise_sizes (model : Model) :
    (sizes model).Pairwise fun a b => a.1.index < b.1.index := by
  rw [sizes, List.pairwise_map, Model.pushConstants, pushConstantBlocks, List.pairwise_filterMap]
  refine (StageMap.pairwise_toList model.stages).imp fun {a b} hlt => ?_
  simp only [Option.map_eq_some_iff]
  rintro _ ⟨_, -, rfl⟩ _ ⟨_, -, rfl⟩
  exact hlt

/-- Placing the blocks of a model faults exactly if their bytes cannot be counted. -/
theorem ofModel_eq (model : Model) :
    ofModel model =
      if pushConstantTotal model.stages < 2 ^ 32 then
        .ok ⟨placed 0 (sizes model), (StageMap.ofList (sizes model)).map fun _ => Bytes.zeros⟩
      else .error .addOverflow := by
  have hlayout := layOut_eq (sizes model) (Nat.two_pow_pos 32)
  rw [Nat.zero_add, sum_sizes] at hlayout
  change ofBlocks (StageMap.ofList (sizes model)) = _
  rw [ofBlocks, StageMap.toList_ofList (pairwise_sizes model), hlayout]
  split <;> rfl

theorem stop_le_total {model : Model} {p : PushConstants} (h : ofModel model = .ok p)
    {entry : Stage × PushRange} (hentry : entry ∈ p.ranges) :
    entry.2.offset + entry.2.size ≤ pushConstantTotal model.stages := by
  rw [ofModel_eq] at h
  split at h
  · cases h
    have hstop := stop_le_of_mem_placed hentry
    rwa [Nat.zero_add, sum_sizes] at hstop
  · cases h

theorem ranges_write {p p' : PushConstants} {stage : Stage} {offset : Nat} {bytes : Bytes}
    (h : p.write stage offset bytes = .ok p') : p'.ranges = p.ranges := by
  unfold write at h
  split at h
  · cases h
  · split at h
    · cases h
    · cases h
      rfl

theorem ranges_seed {camera : Camera} {blocks : List (Stage × Resource)} {p p' : PushConstants}
    (h : p.seed camera blocks = .ok p') : p'.ranges = p.ranges := by
  induction blocks generalizing p with
  | nil =>
    cases h
    rfl
  | cons block rest ih =>
    obtain ⟨next, hnext, hrest⟩ := Except.bind_eq_ok.mp h
    obtain ⟨data, -, hwrite⟩ := Except.bind_eq_ok.mp hnext
    rw [ih hrest]
    cases data with
    | none =>
      cases hwrite
      rfl
    | some bytes => exact ranges_write (Except.mapError_eq_ok.mp hwrite)

end ShaderBinding.PushConstants
