import ShaderBinding.Proofs.Fault
import ShaderBinding.Proofs.Stage.Map
import ShaderBinding.Shader.Basic

/-! # Loaded shader sets

A set that was loaded has the shader of each file that there is, and nothing else. A file that
cannot be read, or is no shader binary, is an error and leaves no set.
-/

namespace ShaderBinding

theorem Shader.ofBytes_ne_io {bytes : Bytes} {stage : Stage} {entry path reason : String} :
    Shader.ofBytes bytes stage entry ≠ .error (.io path reason) := by
  intro h
  rcases Except.bind_eq_error.mp h with h | ⟨_, -, ⟨⟩⟩
  unfold Spirv.readWords at h
  split at h
  · cases h
  · split at h
    · cases h
    · split at h
      · cases h
      · split at h <;> cases h

namespace ShaderSource

variable {source : ShaderSource} {files : FileTree} {stage : Stage} {name : String}
  {pairs : List (Stage × String)} {found : List (Option Shader)} {set : ShaderSet}
  {shader : Shader}

theorem read_of_isFile (h : files.isFile (FileTree.join source.dir name) = true) :
    source.read files stage name = (do
      let path := FileTree.join source.dir name
      let bytes ← (files.read path).mapError fun e => .io path e.message
      return some (← Shader.ofBytes bytes stage source.entry)) := if_pos h

theorem read_of_not_isFile (h : ¬ files.isFile (FileTree.join source.dir name) = true) :
    source.read files stage name = .ok none := if_neg h

/-- Only a file that cannot be read is reported as such, and its path with it. -/
theorem read_eq_io_iff {path reason : String} :
    source.read files stage name = .error (.io path reason) ↔
      path = FileTree.join source.dir name ∧ files.isFile path = true ∧
        ∃ e, files.read path = .error e ∧ reason = e.message := by
  constructor
  · intro h
    by_cases hfile : files.isFile (FileTree.join source.dir name) = true
    · rw [read_of_isFile hfile] at h
      rcases Except.bind_eq_error.mp h with h | ⟨bytes, -, h⟩
      · cases hread : files.read (FileTree.join source.dir name) with
        | error e =>
          rw [hread] at h
          cases h
          exact ⟨rfl, hfile, e, hread, rfl⟩
        | ok bytes =>
          rw [hread] at h
          cases h
      · rcases Except.bind_eq_error.mp h with h | ⟨_, -, ⟨⟩⟩
        exact absurd h Shader.ofBytes_ne_io
    · rw [read_of_not_isFile hfile] at h
      cases h
  · rintro ⟨rfl, hfile, e, hread, rfl⟩
    rw [read_of_isFile hfile]
    dsimp only
    rw [hread]
    rfl

theorem stage_of_read (h : source.read files stage name = .ok (some shader)) :
    shader.stage = stage := by
  by_cases hfile : files.isFile (FileTree.join source.dir name) = true
  · rw [read_of_isFile hfile] at h
    obtain ⟨bytes, -, h⟩ := Except.bind_eq_ok.mp h
    obtain ⟨_, hshader, ⟨⟩⟩ := Except.bind_eq_ok.mp h
    obtain ⟨words, -, ⟨⟩⟩ := Except.bind_eq_ok.mp hshader
    rfl
  · rw [read_of_not_isFile hfile] at h
    cases h

theorem mem_found
    (h : List.Forall₂ (fun pair found => source.read files pair.1 pair.2 = .ok found) pairs found) :
    shader ∈ found.filterMap id ↔
      ∃ pair ∈ pairs, source.read files pair.1 pair.2 = .ok (some shader) := by
  rw [List.mem_filterMap]
  constructor
  · rintro ⟨_, hmem, rfl⟩
    obtain ⟨pair, hpair, hread⟩ := exists_left_of_forall₂ h hmem
    exact ⟨pair, hpair, hread⟩
  · rintro ⟨pair, hpair, hread⟩
    obtain ⟨_, hmem, hread'⟩ := exists_right_of_forall₂ h hpair
    exact ⟨_, hmem, Except.ok.inj (hread'.symm.trans hread)⟩

theorem pairwise_found
    (h : List.Forall₂ (fun pair found => source.read files pair.1 pair.2 = .ok found) pairs found)
    (hpairs : pairs.Pairwise fun a b => a.1.index < b.1.index) :
    (found.filterMap id).Pairwise fun a b => a.stage.index < b.stage.index := by
  induction h with
  | nil => exact .nil
  | @cons pair first _ rest hread hrest ih =>
    obtain ⟨hlt, hpairs⟩ := List.pairwise_cons.mp hpairs
    cases first with
    | none => exact ih hpairs
    | some shader =>
      refine List.pairwise_cons.mpr ⟨fun later hlater => ?_, ih hpairs⟩
      obtain ⟨other, hother, hlater⟩ := (mem_found hrest).mp hlater
      rw [stage_of_read hread, stage_of_read hlater]
      exact hlt other hother

/-- A set that was loaded has the shaders of all files that there are, and no others. -/
theorem get?_load (h : source.load files = .ok set) :
    set.get? stage = some shader ↔ ∃ name, source.names.get? stage = some name ∧
      source.read files stage name = .ok (some shader) := by
  obtain ⟨found, hfound, ⟨⟩⟩ := Except.bind_eq_ok.mp h
  have hreads := Except.mapM_eq_ok.mp hfound
  have hdistinct : ((found.filterMap id).map fun shader => (shader.stage, shader)).Pairwise
      fun a b => a.1.index < b.1.index :=
    List.pairwise_map.mpr (pairwise_found hreads source.names.pairwise_toList)
  have hset : (found.filterMap id).foldl ShaderSet.add StageMap.empty =
      .ofList ((found.filterMap id).map fun shader => (shader.stage, shader)) := by
    rw [StageMap.ofList, List.foldl_map]
    rfl
  rw [hset, ← StageMap.mem_toList, StageMap.toList_ofList hdistinct, List.mem_map]
  constructor
  · rintro ⟨_, hloaded, ⟨⟩⟩
    obtain ⟨pair, hpair, hread⟩ := (mem_found hreads).mp hloaded
    rw [stage_of_read hread]
    exact ⟨pair.2, StageMap.mem_toList.mp hpair, hread⟩
  · rintro ⟨name, hname, hread⟩
    have hloaded := (mem_found hreads).mpr ⟨(stage, name), StageMap.mem_toList.mpr hname, hread⟩
    exact ⟨shader, hloaded, by rw [stage_of_read hread]⟩

theorem exists_of_load_eq_error {e : ShaderError} (h : source.load files = .error e) :
    ∃ stage name, source.names.get? stage = some name ∧
      source.read files stage name = .error e := by
  rcases Except.bind_eq_error.mp h with h | ⟨_, -, ⟨⟩⟩
  obtain ⟨⟨stage, name⟩, hpair, hread⟩ := Except.mapM_eq_error h
  exact ⟨stage, name, StageMap.mem_toList.mp hpair, hread⟩

end ShaderSource

end ShaderBinding
