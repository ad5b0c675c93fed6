import ShaderBinding.Model
import ShaderBinding.Proofs.Fault

/-! # Classified interfaces

A reflection holds the variables and descriptors that an interface declares, and a model holds
one reflection for each of its interfaces.
-/

namespace ShaderBinding

variable {interface : Interface} {interfaces : List Interface} {reflection : Reflection}

theorem VariableDeclaration.reflect_eq_ok {decl : VariableDeclaration} {v : Variable} :
    decl.reflect = .ok v ↔
      ∃ type, reflectType decl.type = .ok type ∧ v = ⟨decl.name, decl.location, type⟩ := by
  rw [VariableDeclaration.reflect, Except.bind_eq_ok]
  constructor
  · rintro ⟨type, htype, h⟩
    cases h
    exact ⟨type, htype, rfl⟩
  · rintro ⟨type, htype, rfl⟩
    exact ⟨type, htype, rfl⟩

namespace VariableDeclaration

variable {decls : List VariableDeclaration} {vars : List Variable}

/-- The declarations that other stages see. -/
def user (decls : List VariableDeclaration) : List VariableDeclaration := decls.filter (!·.builtin)

theorem location_of_reflect {decl : VariableDeclaration} {v : Variable}
    (h : decl.reflect = .ok v) : v.location = decl.location := by
  obtain ⟨type, -, rfl⟩ := reflect_eq_ok.mp h
  rfl

theorem reflectAll_eq_ok (h : reflectAll decls = .ok vars) :
    ∃ reflected, List.Forall₂ (fun decl v => decl.reflect = .ok v) (user decls) reflected ∧
      vars.Perm reflected := by
  obtain ⟨reflected, hreflected, hsort⟩ := Except.bind_eq_ok.mp h
  cases hsort
  exact ⟨reflected, Except.mapM_eq_ok.mp hreflected, List.mergeSort_perm ..⟩

theorem filter_mergeSort (vars : List Variable) (location : Nat) :
    (vars.mergeSort (·.location ≤ ·.location)).filter (·.location = location) =
      vars.filter (·.location = location) := by
  have hsorted : (vars.filter (·.location = location)).Pairwise
      fun a b => decide (a.location ≤ b.location) = true := by
    apply List.pairwise_of_forall_mem_list
    intro a ha b hb
    simp only [List.mem_filter, decide_eq_true_eq] at ha hb ⊢
    omega
  have hsublist : (vars.filter (·.location = location)).Sublist
      (vars.mergeSort (·.location ≤ ·.location)) := by
    apply List.sublist_mergeSort _ _ hsorted List.filter_sublist
    · intro a b c
      simp only [decide_eq_true_eq]
      omega
    · intro a b
      simp only [Bool.or_eq_true, decide_eq_true_eq]
      omega
  have hfiltered := hsublist.filter (·.location = location)
  simp only [List.filter_filter, Bool.and_self] at hfiltered
  exact (hfiltered.eq_of_length ((List.mergeSort_perm ..).filter _).length_eq.symm).symm

/-- Variables of one location keep the order they are declared in. -/
theorem declared_at (h : reflectAll decls = .ok vars) (location : Nat) :
    List.Forall₂ (fun decl v => decl.reflect = .ok v)
      ((user decls).filter (·.location = location)) (vars.filter (·.location = location)) := by
  obtain ⟨reflected, hreflected, hsort⟩ := Except.bind_eq_ok.mp h
  cases hsort
  rw [filter_mergeSort]
  refine List.rel_filter (fun decl v hreflect => ?_) (Except.mapM_eq_ok.mp hreflected)
  simp only [location_of_reflect hreflect]

theorem mem_of_declared (h : reflectAll decls = .ok vars) {decl : VariableDeclaration}
    (hdecl : decl ∈ user decls) : ∃ v ∈ vars, decl.reflect = .ok v := by
  obtain ⟨reflected, hreflected, hperm⟩ := reflectAll_eq_ok h
  obtain ⟨v, hv, hreflect⟩ := exists_right_of_forall₂ hreflected hdecl
  exact ⟨v, hperm.mem_iff.mpr hv, hreflect⟩

theorem declared_of_mem (h : reflectAll decls = .ok vars) {v : Variable} (hv : v ∈ vars) :
    ∃ decl ∈ user decls, decl.reflect = .ok v := by
  obtain ⟨reflected, hreflected, hperm⟩ := reflectAll_eq_ok h
  obtain ⟨decl, hdecl, hreflect⟩ := exists_left_of_forall₂ hreflected (hperm.mem_iff.mp hv)
  exact ⟨decl, hdecl, hreflect⟩

theorem perm_locations (h : reflectAll decls = .ok vars) :
    (vars.map (·.location)).Perm ((user decls).map (·.location)) := by
  obtain ⟨reflected, hreflected, hperm⟩ := reflectAll_eq_ok h
  rw [map_eq_map_of_forall₂ hreflected fun _ _ h => (location_of_reflect h).symm]
  exact hperm.map _

end VariableDeclaration

namespace Interface

theorem classify_eq_ok : interface.classify = .ok reflection ↔
    ∃ inputs outputs descriptors pushConstant,
      VariableDeclaration.reflectAll interface.inputs = .ok inputs ∧
      VariableDeclaration.reflectAll interface.outputs = .ok outputs ∧
      interface.bindings.mapM (·.reflect interface.stage) = .ok descriptors ∧
      interface.reflectPushConstant = .ok pushConstant ∧
      reflection = interface.reflectionOf inputs outputs descriptors pushConstant := by
  simp only [classify, Except.bind_eq_ok]
  constructor
  · rintro ⟨inputs, hinputs, outputs, houtputs, descriptors, hdescriptors, pushConstant, hpush, h⟩
    cases h
    exact ⟨_, _, _, _, hinputs, houtputs, hdescriptors, hpush, rfl⟩
  · rintro ⟨inputs, outputs, descriptors, pushConstant, hinputs, houtputs, hdescriptors, hpush, rfl⟩
    exact ⟨_, hinputs, _, houtputs, _, hdescriptors, _, hpush, rfl⟩

theorem inputs_of_classify (h : interface.classify = .ok reflection) :
    VariableDeclaration.reflectAll interface.inputs = .ok reflection.inputs := by
  obtain ⟨_, _, _, _, hinputs, -, -, -, rfl⟩ := classify_eq_ok.mp h
  exact hinputs

theorem outputs_of_classify (h : interface.classify = .ok reflection) :
    VariableDeclaration.reflectAll interface.outputs = .ok reflection.outputs := by
  obtain ⟨_, _, _, _, -, houtputs, -, -, rfl⟩ := classify_eq_ok.mp h
  exact houtputs

theorem descriptor_of_classify (h : interface.classify = .ok reflection) {resource : Resource}
    (hmem : resource ∈ reflection.descriptors) :
    (∃ key, resource.key? = some key) ∧ resource.stages = interface.stage.flag := by
  obtain ⟨_, _, descriptors, _, -, -, hdescriptors, -, rfl⟩ := classify_eq_ok.mp h
  have hreflected : resource ∈ descriptors := by
    simp only [Reflection.descriptors, reflectionOf, List.mem_append, List.mem_filter] at hmem
    tauto
  obtain ⟨decl, -, hdecl⟩ := exists_left_of_forall₂ (Except.mapM_eq_ok.mp hdescriptors) hreflected
  unfold BindingDeclaration.reflect at hdecl
  split at hdecl
  · cases hdecl
  · obtain ⟨type, -, htype⟩ := Except.bind_eq_ok.mp hdecl
    cases htype
    exact ⟨⟨_, rfl⟩, rfl⟩

end Interface

/-- Each stage present holds the classified interface of a shader of that stage. -/
def StageMap.Classified (stages : StageMap Reflection) : Prop :=
  ∀ stage reflection, stages.get? stage = some reflection →
    ∃ interface : Interface, interface.stage = stage ∧ interface.classify = .ok reflection

namespace Model

theorem get?_of_classifyAll {stages result : StageMap Reflection}
    (h : classifyAll stages interfaces = .ok result) (stage : Stage) :
    result.get? stage = some reflection ↔ stages.get? stage = some reflection ∨
      ∃ interface ∈ interfaces, interface.stage = stage ∧
        interface.classify = .ok reflection := by
  induction interfaces generalizing stages with
  | nil =>
    cases h
    simp
  | cons interface rest ih =>
    obtain ⟨first, hfirst, h⟩ := Except.bind_eq_ok.mp h
    split at h
    · cases h
    · rename_i hnew
      have hnone : stages.get? interface.stage = none := by
        simpa [StageMap.contains] using hnew
      rw [ih h, StageMap.get?_insert]
      by_cases hstage : stage = interface.stage
      · subst hstage
        simp [hnone, hfirst]
      · simp [hstage, Ne.symm hstage]

theorem classify_of_classifyAll {stages result : StageMap Reflection}
    (h : classifyAll stages interfaces = .ok result) (hmem : interface ∈ interfaces) :
    ∃ reflection, interface.classify = .ok reflection := by
  induction interfaces generalizing stages with
  | nil => cases hmem
  | cons first rest ih =>
    obtain ⟨reflection, hreflection, h⟩ := Except.bind_eq_ok.mp h
    split at h
    · cases h
    · rcases List.mem_cons.mp hmem with rfl | hmem
      · exact ⟨reflection, hreflection⟩
      · exact ih h hmem

theorem classified_of_classifyAll {stages : StageMap Reflection}
    (h : classifyAll .empty interfaces = .ok stages) : stages.Classified := by
  intro stage reflection hget
  have hget := (get?_of_classifyAll h stage).mp hget
  simp only [StageMap.get?_empty, reduceCtorEq, false_or] at hget
  obtain ⟨interface, -, hinterface⟩ := hget
  exact ⟨interface, hinterface⟩

variable {model : Model}

theorem ofInterfaces_eq_ok : ofInterfaces interfaces = .ok model ↔
    classifyAll .empty interfaces = .ok model.stages ∧
      LayoutMap.merge model.stages = .ok model.layout := by
  simp only [ofInterfaces, ofStages, Except.bind_eq_ok, Except.mapError_eq_ok]
  constructor
  · rintro ⟨stages, hstages, layout, hlayout, h⟩
    cases h
    exact ⟨hstages, hlayout⟩
  · rintro ⟨hstages, hlayout⟩
    exact ⟨_, hstages, _, hlayout, rfl⟩

theorem get?_of_ofInterfaces (h : ofInterfaces interfaces = .ok model) (stage : Stage) :
    model.stages.get? stage = some reflection ↔
      ∃ interface ∈ interfaces, interface.stage = stage ∧
        interface.classify = .ok reflection := by
  simpa using get?_of_classifyAll (ofInterfaces_eq_ok.mp h).1 stage

theorem get?_of_mem (h : ofInterfaces interfaces = .ok model) (hmem : interface ∈ interfaces) :
    ∃ reflection, interface.classify = .ok reflection ∧
      model.stages.get? interface.stage = some reflection := by
  obtain ⟨reflection, hreflection⟩ := classify_of_classifyAll (ofInterfaces_eq_ok.mp h).1 hmem
  refine ⟨reflection, hreflection, (get?_of_ofInterfaces h _).mpr ?_⟩
  exact ⟨interface, hmem, rfl, hreflection⟩

end Model

end ShaderBinding
