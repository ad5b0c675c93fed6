import Mathlib.Data.List.Induction
import Mathlib.Data.List.Sort
import ShaderBinding.Stage.Map

/-! # Collected stage maps

A map collected from pairs that stand in pipeline order lists exactly these pairs.
-/

namespace ShaderBinding.StageMap

variable {α β : Type} {pairs : List (Stage × α)}

theorem get?_ofList (pairs : List (Stage × α)) (stage : Stage) :
    (ofList pairs).get? stage = (pairs.reverse.find? (·.1 = stage)).map (·.2) := by
  induction pairs using List.reverseRecOn with
  | nil => exact get?_empty stage
  | append_singleton rest pair ih =>
    rw [ofList] at ih
    rw [ofList, List.foldl_append, List.foldl_cons, List.foldl_nil, get?_insert, ih,
      List.reverse_append, List.reverse_singleton, List.singleton_append, List.find?_cons]
    by_cases hstage : stage = pair.1
    · simp [hstage]
    · simp [hstage, Ne.symm hstage]

theorem get?_foldl_insert {stage : Stage} {value : α} (m : StageMap α)
    (h : pairs.Pairwise fun a b => a.1.index < b.1.index) :
    (pairs.foldl (fun m pair => m.insert pair.1 pair.2) m).get? stage = some value ↔
      (stage, value) ∈ pairs ∨ (∀ pair ∈ pairs, pair.1 ≠ stage) ∧ m.get? stage = some value := by
  induction pairs generalizing m with
  | nil => simp
  | cons pair rest ih =>
    obtain ⟨hlt, hrest⟩ := List.pairwise_cons.mp h
    rw [List.foldl_cons, ih _ hrest, get?_insert]
    by_cases hstage : stage = pair.1
    · -- A stage stands once, so that the value of the first pair is never replaced.
      have hlater : ∀ other ∈ rest, other.1 ≠ stage := by
        rintro other hother rfl
        exact absurd (hlt other hother) (by simp [hstage])
      have hnot : (stage, value) ∉ rest := fun hmem => hlater _ hmem rfl
      rw [if_pos hstage]
      constructor
      · rintro (hmem | ⟨-, hvalue⟩)
        · exact absurd hmem hnot
        · cases hvalue
          exact Or.inl (hstage ▸ List.mem_cons_self)
      · rintro (hmem | ⟨hother, -⟩)
        · rcases List.mem_cons.mp hmem with rfl | hmem
          · exact Or.inr ⟨hlater, rfl⟩
          · exact absurd hmem hnot
        · exact absurd hstage.symm (hother pair List.mem_cons_self)
    · have hne : (stage, value) ≠ pair := by
        rintro rfl
        exact hstage rfl
      simp [hstage, hne, Ne.symm hstage]

theorem toList_ofList (h : pairs.Pairwise fun a b => a.1.index < b.1.index) :
    (ofList pairs).toList = pairs := by
  have hirrefl : Std.Irrefl fun a b : Stage × α => a.1.index < b.1.index :=
    ⟨fun a => Nat.lt_irrefl a.1.index⟩
  have hantisymm : Std.Antisymm fun a b : Stage × α => a.1.index < b.1.index :=
    ⟨fun _ _ hab hba => absurd hab (Nat.lt_asymm hba)⟩
  refine (pairwise_toList _).eq_of_mem_iff h fun pair => ?_
  obtain ⟨stage, value⟩ := pair
  rw [mem_toList, ofList, get?_foldl_insert empty h]
  simp

theorem get?_map (f : Stage → α → β) (m : StageMap α) (stage : Stage) :
    (m.map f).get? stage = (m.get? stage).map (f stage) := by
  have hdistinct : (m.toList.map fun pair => (pair.1, f pair.1 pair.2)).Pairwise
      fun a b => a.1.index < b.1.index := List.pairwise_map.mpr m.pairwise_toList
  have hmap : m.map f = ofList (m.toList.map fun pair => (pair.1, f pair.1 pair.2)) := by
    rw [map, ofList, List.foldl_map]
  ext value
  rw [hmap, ← mem_toList, toList_ofList hdistinct]
  simp only [List.mem_map, Prod.exists, mem_toList, Prod.mk.injEq, Option.map_eq_some_iff]
  constructor
  · rintro ⟨_, old, hold, rfl, rfl⟩
    exact ⟨old, hold, rfl⟩
  · rintro ⟨old, hold, rfl⟩
    exact ⟨stage, old, hold, rfl, rfl⟩

theorem insert_of_get? {m : StageMap α} {stage : Stage} {value : α}
    (h : m.get? stage = some value) : m.insert stage value = m := by
  refine eq_of_get?_eq fun other => ?_
  rw [get?_insert]
  split
  · rename_i heq
    rw [heq, h]
  · rfl

end ShaderBinding.StageMap
