import Mathlib.Data.List.Perm.Basic
import ShaderBinding.Proofs.LayoutMap.Merge
import ShaderBinding.Proofs.Link.Feeding

/-! # Declaring in another order

Variables are matched by location, so the order they are declared in shows in a link check only
where inputs of one location have types that do not match.
-/

namespace ShaderBinding

namespace StageMap

/-- The same stages are present, with related values. -/
def Related {α β : Type} (R : α → β → Prop) (m : StageMap α) (m' : StageMap β) : Prop :=
  ∀ stage, Option.Rel R (m.get? stage) (m'.get? stage)

namespace Related

variable {α β : Type} {R : α → β → Prop} {m : StageMap α} {m' : StageMap β}

theorem empty : (StageMap.empty : StageMap α).Related R (StageMap.empty : StageMap β) := by
  intro stage
  rw [get?_empty, get?_empty]
  exact .none

theorem insert (h : m.Related R m') {a : α} {b : β} (hR : R a b) (stage : Stage) :
    (m.insert stage a).Related R (m'.insert stage b) := by
  intro other
  rw [get?_insert, get?_insert]
  split
  · exact .some hR
  · exact h other

theorem get? (h : m.Related R m') (stage : Stage) :
    (m.get? stage = none ∧ m'.get? stage = none) ∨
      ∃ a b, m.get? stage = some a ∧ m'.get? stage = some b ∧ R a b := by
  have hstage := h stage
  generalize m.get? stage = first at hstage
  generalize m'.get? stage = second at hstage
  cases hstage with
  | some hR => exact Or.inr ⟨_, _, rfl, rfl, hR⟩
  | none => exact Or.inl ⟨rfl, rfl⟩

theorem contains_eq (h : m.Related R m') (stage : Stage) :
    m.contains stage = m'.contains stage := by
  unfold contains
  rcases h.get? stage with ⟨hfirst, hsecond⟩ | ⟨_, _, hfirst, hsecond, -⟩ <;>
    rw [hfirst, hsecond] <;> rfl

theorem toList (h : m.Related R m') :
    List.Forall₂ (fun a b => a.1 = b.1 ∧ R a.2 b.2) m.toList m'.toList := by
  rw [toList_eq, toList_eq]
  refine List.rel_filterMap (R := Eq) ?_ (List.forall₂_refl Stage.all)
  rintro stage _ rfl
  dsimp only
  rcases h.get? stage with ⟨hfirst, hsecond⟩ | ⟨_, _, hfirst, hsecond, hR⟩
  · rw [hfirst, hsecond]
    exact .none
  · rw [hfirst, hsecond]
    exact .some ⟨rfl, hR⟩

end Related

theorem ne_vertex_of_mem_tail {α : Type} {m : StageMap α} {entry : Stage × α}
    (h : entry ∈ m.toList.tail) : entry.1 ≠ .vertex := by
  have hsorted := m.pairwise_toList
  cases hlist : m.toList with
  | nil => simp [hlist] at h
  | cons first rest =>
    rw [hlist] at h hsorted
    have hlt := (List.pairwise_cons.mp hsorted).1 entry h
    rintro hvertex
    rw [hvertex] at hlt
    exact Nat.not_lt_zero _ hlt

end StageMap

namespace Reflection

structure Reorders (a b : Reflection) : Prop where
  stage : a.stage = b.stage
  inputs : a.inputs.Perm b.inputs
  outputs : a.outputs.Perm b.outputs
  inputAttributes : a.inputAttributes.Perm b.inputAttributes
  descriptors : a.descriptors = b.descriptors
  pushConstant : a.pushConstant = b.pushConstant

def Unambiguous (reflection : Reflection) : Prop :=
  ∀ a ∈ reflection.inputs, ∀ b ∈ reflection.inputs,
    a.location = b.location → a.type.feeds b.type = true

variable {source source' target target' : Reflection}

theorem outputErrors_reordered (hsource : source.Reorders source')
    (htarget : target.Reorders target') (hinputs : target.Unambiguous) (output : Variable) :
    source.outputErrors target (Variable.byLocation target.inputs) output =
      source'.outputErrors target' (Variable.byLocation target'.inputs) output := by
  unfold outputErrors
  rw [hsource.stage, htarget.stage]
  cases hfirst : Variable.byLocation target.inputs output.location with
  | none =>
    have hnone := Variable.byLocation_eq_none_iff.mp hfirst
    have hsecond : Variable.byLocation target'.inputs output.location = none :=
      Variable.byLocation_eq_none_iff.mpr fun v hv => hnone v (htarget.inputs.mem_iff.mpr hv)
    rw [hsecond]
  | some input =>
    have hlast := Variable.byLocation_eq_some_iff.mp hfirst
    cases hsecond : Variable.byLocation target'.inputs output.location with
    | none =>
      have hnone := Variable.byLocation_eq_none_iff.mp hsecond
      exact absurd hlast.location_eq (hnone input (htarget.inputs.mem_iff.mp hlast.mem))
    | some input' =>
      -- The two tables need not hold the same input here, but a match sees the same type.
      have hlast' := Variable.byLocation_eq_some_iff.mp hsecond
      have hsame : input.type.feeds input'.type = true :=
        hinputs input hlast.mem input' (htarget.inputs.mem_iff.mpr hlast'.mem)
          (hlast.location_eq.trans hlast'.location_eq.symm)
      have hfeeds : output.type.feeds input.type = output.type.feeds input'.type := by
        rw [ShaderType.feeds_iff] at hsame
        rw [Bool.eq_iff_iff, ShaderType.feeds_iff, ShaderType.feeds_iff, hsame]
      simp only [hfeeds]

theorem pairErrors_reordered (hsource : source.Reorders source')
    (htarget : target.Reorders target') (hinputs : target.Unambiguous) :
    (source.pairErrors target).Perm (source'.pairErrors target') := by
  unfold pairErrors
  rw [hsource.stage, htarget.stage, hsource.outputs.length_eq, htarget.inputs.length_eq]
  split
  · apply hsource.outputs.flatMap
    intro output _
    rw [outputErrors_reordered hsource htarget hinputs]
  · exact .rfl

theorem chainErrors_reordered {chain chain' : List Reflection}
    (h : List.Forall₂ Reorders chain chain')
    (hinputs : ∀ target ∈ chain.tail, target.Unambiguous) :
    (chainErrors chain).Perm (chainErrors chain') := by
  induction h with
  | nil => exact .rfl
  | cons hsource hrest ih =>
    cases hrest with
    | nil => exact .rfl
    | cons htarget hrest =>
      have hpair := pairErrors_reordered hsource htarget (hinputs _ (by simp))
      exact hpair.append (ih fun target hmem => hinputs target (List.mem_of_mem_tail (by simpa)))

end Reflection

/-- Both checks are passed, both stop at one fault, or both report the same errors in some order. -/
inductive SameVerdict : Outcome LinkErrors Unit → Outcome LinkErrors Unit → Prop
  | passed : SameVerdict (.ok ()) (.ok ())
  | faulted (fault : Fault) : SameVerdict (.error (.fault fault)) (.error (.fault fault))
  | failed {errors errors' : List LinkError} : errors.Perm errors' →
      SameVerdict (.fail ⟨errors⟩) (.fail ⟨errors'⟩)

section

variable {stages stages' : StageMap Reflection}

theorem declarations_reordered (h : stages.Related Reflection.Reorders stages') :
    declarations stages = declarations stages' := by
  unfold declarations
  rw [List.flatMap_def, List.flatMap_def]
  congr 1
  apply map_eq_map_of_forall₂ h.toList
  rintro entry entry' ⟨hstage, hreflection⟩
  rw [hstage, hreflection.descriptors]

theorem pushConstantBlocks_reordered (h : stages.Related Reflection.Reorders stages') :
    pushConstantBlocks stages = pushConstantBlocks stages' := by
  unfold pushConstantBlocks
  rw [← List.forall₂_eq_eq_eq]
  apply List.rel_filterMap ?_ h.toList
  rintro entry entry' ⟨hstage, hreflection⟩
  simp only [hstage, hreflection.pushConstant]
  cases entry'.2.pushConstant with
  | none => exact .none
  | some block => exact .some rfl

theorem linkErrors_reordered (h : stages.Related Reflection.Reorders stages')
    {vertex vertex' : Reflection} (hvertex : vertex.Reorders vertex')
    (hinputs : ∀ entry ∈ stages.toList, entry.1 ≠ .vertex → entry.2.Unambiguous)
    (limits : Limits) (total : Nat) :
    (linkErrors stages limits vertex total).Perm (linkErrors stages' limits vertex' total) := by
  have htessellation : tessellationErrors stages = tessellationErrors stages' := by
    simp only [tessellationErrors, h.contains_eq]
  have hattributes : attributeErrors limits vertex = attributeErrors limits vertex' := by
    simp only [attributeErrors, hvertex.inputAttributes.length_eq]
  have hfragment : fragmentErrors limits (stages.get? .fragment) =
      fragmentErrors limits (stages'.get? .fragment) := by
    rcases h.get? .fragment with ⟨hfirst, hsecond⟩ | ⟨_, _, hfirst, hsecond, hreflection⟩
    · rw [hfirst, hsecond]
    · simp only [hfirst, hsecond, fragmentErrors, hreflection.outputs.length_eq]
  have hchain : (Reflection.chainErrors stages.values).Perm
      (Reflection.chainErrors stages'.values) := by
    apply Reflection.chainErrors_reordered
    · exact List.rel_map (fun _ _ hentry => hentry.2) h.toList
    · intro target htarget
      rw [StageMap.values, ← List.map_tail] at htarget
      obtain ⟨entry, hentry, rfl⟩ := List.mem_map.mp htarget
      exact hinputs entry (List.mem_of_mem_tail hentry) (StageMap.ne_vertex_of_mem_tail hentry)
  unfold linkErrors
  rw [htessellation, hattributes, hfragment]
  exact hchain.append_left _

theorem sameVerdict_of_related (h : stages.Related Reflection.Reorders stages')
    (hinputs : ∀ entry ∈ stages.toList, entry.1 ≠ .vertex → entry.2.Unambiguous)
    (limits : Limits) : SameVerdict (link stages limits) (link stages' limits) := by
  rcases h.get? .vertex with ⟨hfirst, hsecond⟩ | ⟨vertex, vertex', hfirst, hsecond, hvertex⟩
  · rw [link_of_no_vertex hfirst, link_of_no_vertex hsecond]
    exact .failed .rfl
  · have htotal : pushConstantTotal stages = pushConstantTotal stages' := by
      rw [pushConstantTotal, pushConstantTotal, pushConstantBlocks_reordered h]
    have herrors := linkErrors_reordered h hvertex hinputs limits (pushConstantTotal stages')
    rw [link_eq hfirst, link_eq hsecond, htotal]
    split
    · by_cases hnil : linkErrors stages' limits vertex' (pushConstantTotal stages') = []
      · rw [if_pos hnil, if_pos (hnil ▸ herrors).eq_nil]
        exact .passed
      · rw [if_neg hnil, if_neg fun h => hnil (h ▸ herrors).symm.eq_nil]
        exact .failed herrors
    · exact .faulted _

end

theorem VariableDeclaration.reflectAll_perm {decls decls' : List VariableDeclaration}
    {vars : List Variable} (hperm : decls.Perm decls') (h : reflectAll decls = .ok vars) :
    ∃ vars', reflectAll decls' = .ok vars' ∧ vars.Perm vars' := by
  obtain ⟨reflected, hreflected, hvars⟩ := reflectAll_eq_ok h
  obtain ⟨reflected', hreflected', hperm'⟩ :=
    List.perm_comp_forall₂ (hperm.symm.filter _) hreflected
  refine ⟨_, Except.bind_eq_ok.mpr ⟨reflected', Except.mapM_eq_ok.mpr hreflected', rfl⟩, ?_⟩
  exact hvars.trans (hperm'.symm.trans (List.mergeSort_perm ..).symm)

namespace Interface

/-- The same interface with its inputs and its outputs declared in another order. -/
structure Reorders (a b : Interface) : Prop where
  stage : a.stage = b.stage
  entryPoint : a.entryPoint = b.entryPoint
  inputs : a.inputs.Perm b.inputs
  outputs : a.outputs.Perm b.outputs
  bindings : a.bindings = b.bindings
  pushConstants : a.pushConstants = b.pushConstants

theorem Reorders.symm {a b : Interface} (h : a.Reorders b) : b.Reorders a :=
  ⟨h.stage.symm, h.entryPoint.symm, h.inputs.symm, h.outputs.symm, h.bindings.symm,
    h.pushConstants.symm⟩

/-- Inputs declared at one location have types that match. -/
def Unambiguous (interface : Interface) : Prop :=
  ∀ a ∈ VariableDeclaration.user interface.inputs,
    ∀ b ∈ VariableDeclaration.user interface.inputs, a.location = b.location → a.Alike b

theorem unambiguous_of_nodup {interface : Interface}
    (h : ((VariableDeclaration.user interface.inputs).map (·.location)).Nodup) :
    interface.Unambiguous := by
  intro a ha b hb hlocation s t hs ht
  rw [List.inj_on_of_nodup_map h ha hb hlocation, ht] at hs
  cases hs
  rw [ShaderType.feeds_iff]

theorem Unambiguous.classify {interface : Interface} {reflection : Reflection}
    (h : interface.Unambiguous) (hclassify : interface.classify = .ok reflection) :
    reflection.Unambiguous := by
  have hinputs := inputs_of_classify hclassify
  intro v hv w hw hlocation
  obtain ⟨a, ha, hreflect⟩ := VariableDeclaration.declared_of_mem hinputs hv
  obtain ⟨b, hb, hreflect'⟩ := VariableDeclaration.declared_of_mem hinputs hw
  have hlocation : a.location = b.location := by
    rw [← VariableDeclaration.location_of_reflect hreflect, hlocation,
      VariableDeclaration.location_of_reflect hreflect']
  exact (VariableDeclaration.alike_iff hreflect hreflect').mp (h a ha b hb hlocation)

theorem Reorders.classify {a b : Interface} {reflection : Reflection} (h : a.Reorders b)
    (hclassify : a.classify = .ok reflection) :
    ∃ reflection', b.classify = .ok reflection' ∧ reflection.Reorders reflection' := by
  obtain ⟨inputs, outputs, descriptors, pushConstant, hinputs, houtputs, hdescriptors, hpush,
    rfl⟩ := classify_eq_ok.mp hclassify
  obtain ⟨inputs', hinputs', hinputsPerm⟩ := VariableDeclaration.reflectAll_perm h.inputs hinputs
  obtain ⟨outputs', houtputs', houtputsPerm⟩ :=
    VariableDeclaration.reflectAll_perm h.outputs houtputs
  have hdescriptors' : b.bindings.mapM (·.reflect b.stage) = .ok descriptors := by
    rw [← h.bindings, ← h.stage]
    exact hdescriptors
  have hpush' : b.reflectPushConstant = .ok pushConstant := by
    rw [reflectPushConstant, ← h.pushConstants, ← h.stage]
    exact hpush
  refine ⟨b.reflectionOf inputs' outputs' descriptors pushConstant,
    classify_eq_ok.mpr ⟨_, _, _, _, hinputs', houtputs', hdescriptors', hpush', rfl⟩, ?_⟩
  exact {
    stage := h.stage
    inputs := hinputsPerm
    outputs := houtputsPerm
    inputAttributes := by
      simp only [reflectionOf, h.stage]
      split
      · exact hinputsPerm.map _
      · exact .rfl
    descriptors := rfl
    pushConstant := rfl }

end Interface

namespace Model

variable {interfaces interfaces' : List Interface} {model : Model}

theorem classifyAll_reordered {stages stages' result : StageMap Reflection}
    (h : List.Forall₂ Interface.Reorders interfaces interfaces')
    (hstages : stages.Related Reflection.Reorders stages')
    (hresult : classifyAll stages interfaces = .ok result) :
    ∃ result', classifyAll stages' interfaces' = .ok result' ∧
      result.Related Reflection.Reorders result' := by
  induction h generalizing stages stages' with
  | nil =>
    cases hresult
    exact ⟨stages', rfl, hstages⟩
  | @cons a b _ _ hreorders _ ih =>
    obtain ⟨reflection, hclassify, hresult⟩ := Except.bind_eq_ok.mp hresult
    obtain ⟨reflection', hclassify', hreflection⟩ := hreorders.classify hclassify
    split at hresult
    · cases hresult
    · rename_i hnew
      obtain ⟨result', hresult', hrelated⟩ := ih (hstages.insert hreflection a.stage) hresult
      rw [hstages.contains_eq] at hnew
      rw [hreorders.stage] at hnew hresult'
      refine ⟨result', Except.bind_eq_ok.mpr ⟨reflection', hclassify', ?_⟩, hrelated⟩
      rw [if_neg hnew]
      exact hresult'

theorem ofInterfaces_reordered (h : List.Forall₂ Interface.Reorders interfaces interfaces')
    (hmodel : ofInterfaces interfaces = .ok model) :
    ∃ model', ofInterfaces interfaces' = .ok model' ∧
      model.stages.Related Reflection.Reorders model'.stages := by
  obtain ⟨hstages, hlayout⟩ := ofInterfaces_eq_ok.mp hmodel
  obtain ⟨stages', hstages', hrelated⟩ := classifyAll_reordered h .empty hstages
  have hlayout' : LayoutMap.merge stages' = .ok model.layout := by
    rw [LayoutMap.merge_eq, ← declarations_reordered hrelated, ← LayoutMap.merge_eq]
    exact hlayout
  exact ⟨⟨stages', model.layout⟩, ofInterfaces_eq_ok.mpr ⟨hstages', hlayout'⟩, hrelated⟩

end Model

/--
Interfaces are accepted in any order of their declarations. If inputs of one location have types
that match in every stage but the vertex stage, the models also get the same verdict.
-/
theorem link_reordered {interfaces interfaces' : List Interface}
    (h : List.Forall₂ Interface.Reorders interfaces interfaces') :
    ((∃ model, Model.ofInterfaces interfaces = .ok model) ↔
        ∃ model', Model.ofInterfaces interfaces' = .ok model') ∧
      ∀ model model' limits, Model.ofInterfaces interfaces = .ok model →
        Model.ofInterfaces interfaces' = .ok model' →
        (∀ interface ∈ interfaces, interface.stage ≠ .vertex → interface.Unambiguous) →
        SameVerdict (model.link limits) (model'.link limits) := by
  constructor
  · constructor
    · rintro ⟨model, hmodel⟩
      obtain ⟨model', hmodel', -⟩ := Model.ofInterfaces_reordered h hmodel
      exact ⟨model', hmodel'⟩
    · rintro ⟨model', hmodel'⟩
      have hsymm := List.Forall₂.flip (h.imp fun _ _ => Interface.Reorders.symm)
      obtain ⟨model, hmodel, -⟩ := Model.ofInterfaces_reordered hsymm hmodel'
      exact ⟨model, hmodel⟩
  · intro model model' limits hmodel hmodel' hinputs
    obtain ⟨_, hreordered, hrelated⟩ := Model.ofInterfaces_reordered h hmodel
    obtain rfl := Except.ok.inj (hreordered.symm.trans hmodel')
    apply sameVerdict_of_related hrelated
    intro entry hentry hvertex
    have hget := StageMap.mem_toList.mp hentry
    obtain ⟨interface, hmem, hstage, hclassify⟩ :=
      (Model.get?_of_ofInterfaces hmodel entry.1).mp hget
    exact (hinputs interface hmem (hstage ▸ hvertex)).classify hclassify

/-- Two outputs of one location without an input are reported in the order they are declared in. -/
theorem link_reordered_two_outputs :
    let v (name : String) (location : Nat) : VariableDeclaration :=
      ⟨name, location, false, { vectorSize := 2 }⟩
    let vertex : Interface := { stage := .vertex, outputs := [v "a" 0, v "b" 0] }
    let vertex' : Interface := { stage := .vertex, outputs := [v "b" 0, v "a" 0] }
    let fragment : Interface := { stage := .fragment, inputs := [v "c" 1, v "d" 2] }
    let fragment' : Interface := { stage := .fragment, inputs := [v "d" 2, v "c" 1] }
    let missing (name : String) : LinkError := .noMatchingInput .vertex .fragment 0 name
    ∃ model model', Model.ofInterfaces [vertex, fragment] = .ok model ∧
      Model.ofInterfaces [vertex', fragment'] = .ok model' ∧
      model.link {} = .fail ⟨[missing "a", missing "b"]⟩ ∧
      model'.link {} = .fail ⟨[missing "b", missing "a"]⟩ ∧
      SameVerdict (model.link {}) (model'.link {}) := by
  intro v vertex vertex' fragment fragment' missing
  have hreorders : List.Forall₂ Interface.Reorders [vertex, fragment] [vertex', fragment'] :=
    .cons ⟨rfl, rfl, .nil, .swap .., rfl, rfl⟩ (.cons ⟨rfl, rfl, .swap .., .nil, rfl, rfl⟩ .nil)
  have hfirst : (Model.ofInterfaces [vertex, fragment]).map (·.link {}) =
      .ok (.fail ⟨[missing "a", missing "b"]⟩) := by cbv
  have hsecond : (Model.ofInterfaces [vertex', fragment']).map (·.link {}) =
      .ok (.fail ⟨[missing "b", missing "a"]⟩) := by cbv
  obtain ⟨model, hmodel, hlink⟩ := Except.map_eq_ok.mp hfirst
  obtain ⟨model', hmodel', hlink'⟩ := Except.map_eq_ok.mp hsecond
  refine ⟨model, model', hmodel, hmodel', hlink, hlink', ?_⟩
  apply (link_reordered hreorders).2 model model' {} hmodel hmodel'
  intro interface hinterface hstage
  have hfragment : interface = fragment := by
    rcases List.mem_cons.mp hinterface with rfl | hinterface
    · exact absurd rfl hstage
    · exact List.mem_singleton.mp hinterface
  rw [hfragment]
  exact Interface.unambiguous_of_nodup (by decide)

/-- Of two inputs of one location the later one counts, and they have different types. -/
theorem link_depends_on_order :
    ¬ ∀ (interfaces interfaces' : List Interface) (model model' : Model) (limits : Limits),
      List.Forall₂ Interface.Reorders interfaces interfaces' →
      Model.ofInterfaces interfaces = .ok model → Model.ofInterfaces interfaces' = .ok model' →
      SameVerdict (model.link limits) (model'.link limits) := by
  intro hsame
  let v (name : String) (length : Nat) : VariableDeclaration :=
    ⟨name, 0, false, { vectorSize := length }⟩
  let vertex : Interface := { stage := .vertex, outputs := [v "a" 2, v "b" 2] }
  let fragment : Interface := { stage := .fragment, inputs := [v "c" 3, v "d" 2] }
  let fragment' : Interface := { stage := .fragment, inputs := [v "d" 2, v "c" 3] }
  have hreorders : List.Forall₂ Interface.Reorders [vertex, fragment] [vertex, fragment'] :=
    .cons ⟨rfl, rfl, .nil, .rfl, rfl, rfl⟩ (.cons ⟨rfl, rfl, .swap .., .nil, rfl, rfl⟩ .nil)
  have hfirst : (Model.ofInterfaces [vertex, fragment]).map (·.link {}) = .ok (.ok ()) := by
    cbv
  have hsecond : (Model.ofInterfaces [vertex, fragment']).map (·.link {}) =
      .ok (.fail ⟨[.typeMismatch .vertex .fragment 0, .typeMismatch .vertex .fragment 0]⟩) := by
    cbv
  obtain ⟨model, hmodel, hlink⟩ := Except.map_eq_ok.mp hfirst
  obtain ⟨model', hmodel', hlink'⟩ := Except.map_eq_ok.mp hsecond
  have hverdict := hsame _ _ model model' {} hreorders hmodel hmodel'
  rw [hlink, hlink'] at hverdict
  cases hverdict

end ShaderBinding
