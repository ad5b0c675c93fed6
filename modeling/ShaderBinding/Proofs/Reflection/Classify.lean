import ShaderBinding.Proofs.Model.Classified
import ShaderBinding.Proofs.Type.Problems

/-! # Exact classification

An interface is classified unless it declares what cannot be reflected, and then the first such
declaration is reported. The reflection has every declaration once, in declaration order.
-/

namespace ShaderBinding

theorem reports_reflectType (desc : TypeDescription) :
    (reflectType desc).Reports (desc.flaws.map .type) desc.SizesFit :=
  (ShaderType.reports_ofDescription desc).mapFailure _

namespace VariableDeclaration

variable {decls : List VariableDeclaration} {vars : List Variable}

def problems (decls : List VariableDeclaration) : List ReflectError :=
  (user decls).flatMap fun decl => decl.type.flaws.map .type

theorem reports_reflectAll (decls : List VariableDeclaration) :
    (reflectAll decls).Reports (problems decls) (∀ decl ∈ user decls, decl.type.SizesFit) := by
  have hreflect (decl : VariableDeclaration) :
      decl.reflect.Reports (decl.type.flaws.map .type) decl.type.SizesFit :=
    (reports_reflectType decl.type).bind_pure _
  exact (Outcome.Reports.mapM hreflect _).bind_pure _

structure Declares (decl : VariableDeclaration) (v : Variable) : Prop where
  name : v.name = decl.name
  location : v.location = decl.location
  type : reflectType decl.type = .ok v.type

theorem declares_of_reflect {decl : VariableDeclaration} {v : Variable}
    (h : decl.reflect = .ok v) : decl.Declares v := by
  obtain ⟨type, htype, rfl⟩ := reflect_eq_ok.mp h
  exact ⟨rfl, rfl, htype⟩

/-- The variables are those of the user's declarations, ascending by location, and those of one
location come in declaration order. -/
structure Lists (decls : List VariableDeclaration) (vars : List Variable) : Prop where
  declared : ∃ reflected, List.Forall₂ Declares (user decls) reflected ∧ vars.Perm reflected
  ascending : vars.Pairwise fun a b => a.location ≤ b.location
  ties : ∀ location, List.Forall₂ Declares ((user decls).filter (·.location = location))
    (vars.filter (·.location = location))

theorem lists_of_reflectAll (h : reflectAll decls = .ok vars) : Lists decls vars := by
  have hdeclares {first : List VariableDeclaration} {second : List Variable}
      (hreflect : List.Forall₂ (fun decl v => decl.reflect = .ok v) first second) :
      List.Forall₂ Declares first second := hreflect.imp fun _ _ => declares_of_reflect
  refine ⟨?_, ?_, fun location => hdeclares (declared_at h location)⟩
  · obtain ⟨reflected, hreflected, hperm⟩ := reflectAll_eq_ok h
    exact ⟨reflected, hdeclares hreflected, hperm⟩
  · obtain ⟨reflected, -, hsort⟩ := Except.bind_eq_ok.mp h
    cases hsort
    have hsorted : (reflected.mergeSort (·.location ≤ ·.location)).Pairwise
        fun a b => decide (a.location ≤ b.location) = true :=
      List.pairwise_mergeSort (fun a b c => by simpa using Nat.le_trans)
        (fun a b => by simpa using Nat.le_total _ _) reflected
    simpa using hsorted

end VariableDeclaration

namespace BindingKind

def category? : BindingKind → Option Category
  | uniformBuffer => some .uniformBuffer
  | storageBuffer => some .storageBuffer
  | sampledImage | combinedImageSampler => some .sampledImage
  | storageImage => some .storageImage
  | sampler | uniformTexelBuffer | storageTexelBuffer | inputAttachment | accelerationStructure =>
    none

theorem descriptor?_eq_none {kind : BindingKind} :
    kind.descriptor? = none ↔ kind.category? = none := by
  cases kind <;> simp [descriptor?, category?]

end BindingKind

namespace BindingDeclaration

variable {stage : Stage} {decl : BindingDeclaration} {resource : Resource}

def problems (stage : Stage) (decl : BindingDeclaration) : List ReflectError :=
  if decl.kind.category?.isNone then [.unsupportedResource stage decl.name decl.kind]
  else decl.type.element.flaws.map .type

theorem reports_reflect (stage : Stage) (decl : BindingDeclaration) :
    (decl.reflect stage).Reports (decl.problems stage) decl.type.element.SizesFit := by
  unfold reflect problems
  split
  · rename_i hkind
    rw [if_pos (by simpa using BindingKind.descriptor?_eq_none.mp hkind)]
    exact .fail _
  · rename_i hkind
    rw [if_neg fun hnone => ?_]
    · exact (reports_reflectType _).bind_pure _
    · rw [BindingKind.descriptor?_eq_none.mpr (by simpa using hnone)] at hkind
      cases hkind

/-- The type is that of one element, but an image is sampled or not as it is bound. -/
structure Yields (stage : Stage) (decl : BindingDeclaration) (resource : Resource) : Prop where
  name : resource.name = decl.name
  key : resource.key? = some ⟨decl.set, decl.binding⟩
  stages : resource.stages = stage.flag
  type : ∃ type sampled, reflectType decl.type.element = .ok type ∧
    resource.type = type.withSampled sampled

theorem yields_of_reflect (h : decl.reflect stage = .ok resource) : decl.Yields stage resource := by
  unfold reflect at h
  split at h
  · cases h
  · obtain ⟨type, htype, h⟩ := Except.bind_eq_ok.mp h
    cases h
    exact ⟨rfl, rfl, rfl, type, _, htype, rfl⟩

def withoutArray (decl : BindingDeclaration) : BindingDeclaration :=
  { decl with type := decl.type.element }

end BindingDeclaration

structure BlockDeclaration.Yields (stage : Stage) (block : BlockDeclaration) (resource : Resource) :
    Prop where
  name : resource.name = block.name
  group : resource.group = .pushConstant stage
  type : reflectType block.type = .ok resource.type

def Reflection.bucket (reflection : Reflection) : Category → List Resource
  | .uniformBuffer => reflection.uniformBuffers
  | .storageBuffer => reflection.storageBuffers
  | .sampledImage => reflection.sampledImages
  | .storageImage => reflection.storageImages

namespace Interface

variable {interface : Interface} {reflection : Reflection}

def blockProblems (interface : Interface) : List ReflectError :=
  match interface.pushConstants with
  | [] => []
  | [block] => block.type.flaws.map .type
  | _ => [.multiplePushConstantBlocks interface.stage]

/-- What cannot be reflected of an interface, in the order in which it is looked at. -/
def problems (interface : Interface) : List ReflectError :=
  VariableDeclaration.problems interface.inputs ++
    (VariableDeclaration.problems interface.outputs ++
      (interface.bindings.flatMap (·.problems interface.stage) ++ interface.blockProblems))

/-- The sizes of everything that is reflected have their width. -/
structure SizesFit (interface : Interface) : Prop where
  inputs : ∀ decl ∈ VariableDeclaration.user interface.inputs, decl.type.SizesFit
  outputs : ∀ decl ∈ VariableDeclaration.user interface.outputs, decl.type.SizesFit
  bindings : ∀ decl ∈ interface.bindings, decl.type.element.SizesFit
  pushConstants : ∀ block ∈ interface.pushConstants, block.type.SizesFit

theorem reports_reflectPushConstant (interface : Interface) :
    interface.reflectPushConstant.Reports interface.blockProblems
      (∀ block ∈ interface.pushConstants, block.type.SizesFit) := by
  unfold reflectPushConstant blockProblems
  generalize interface.pushConstants = blocks
  rcases blocks with _ | ⟨block, _ | ⟨second, rest⟩⟩
  · exact .pure _
  · refine ((reports_reflectType block.type).bind_pure _).mono fun hfits => hfits block ?_
    exact List.mem_singleton_self _
  · exact .fail _

theorem reports_classify (interface : Interface) :
    interface.classify.Reports interface.problems interface.SizesFit :=
  ((VariableDeclaration.reports_reflectAll _).bind fun _ =>
    (VariableDeclaration.reports_reflectAll _).bind fun _ =>
      (Outcome.Reports.mapM (BindingDeclaration.reports_reflect _) _).bind fun _ =>
        (reports_reflectPushConstant _).bind_pure _).mono
    fun hfits => ⟨hfits.inputs, hfits.outputs, hfits.bindings, hfits.pushConstants⟩

/-- The reflection has every declaration of the interface once. A descriptor is in the bucket of its
category, where it keeps its place among the others. -/
structure Classifies (interface : Interface) (reflection : Reflection) : Prop where
  stage : reflection.stage = interface.stage
  entryPoint : reflection.entryPoint = interface.entryPoint
  inputs : VariableDeclaration.Lists interface.inputs reflection.inputs
  outputs : VariableDeclaration.Lists interface.outputs reflection.outputs
  attributes : reflection.inputAttributes =
    if interface.stage = .vertex then
      reflection.inputs.map fun input => ⟨input.name, .inputAttribute input.location, input.type⟩
    else []
  descriptors : ∃ resources,
    List.Forall₂ (·.Yields interface.stage) interface.bindings resources ∧
      resources.Perm reflection.descriptors ∧
        ∀ category, reflection.bucket category = resources.filter (·.category? = some category)
  isSome_pushConstant : reflection.pushConstant.isSome ↔ interface.pushConstants.length = 1
  pushConstant : List.Forall₂ (·.Yields interface.stage) interface.pushConstants
    reflection.pushConstant.toList

theorem yields_of_reflectPushConstant {pushConstant : Option Resource}
    (h : interface.reflectPushConstant = .ok pushConstant) :
    List.Forall₂ (·.Yields interface.stage) interface.pushConstants pushConstant.toList := by
  unfold reflectPushConstant at h
  split at h
  · rename_i hblocks
    cases h
    rw [hblocks]
    exact .nil
  · rename_i block hblocks
    obtain ⟨type, htype, h⟩ := Except.bind_eq_ok.mp h
    cases h
    rw [hblocks]
    exact .cons ⟨rfl, rfl, htype⟩ .nil
  · cases h

/-- Every descriptor has a category, so it is in one bucket and in no other. -/
theorem perm_descriptors {inputs outputs : List Variable} {pushConstant : Option Resource}
    {descriptors : List Resource} (h : ∀ resource ∈ descriptors, resource.category?.isSome) :
    descriptors.Perm
      (interface.reflectionOf inputs outputs descriptors pushConstant).descriptors := by
  -- Counting separates the buckets: only that of its category has a resource at all.
  refine List.perm_iff_count.mpr fun resource => ?_
  have hbucket (category : Category) :
      (descriptors.filter (·.category? = some category)).count resource =
        if resource.category? = some category then descriptors.count resource else 0 := by
    split
    · rename_i hcategory
      exact List.count_filter (by simpa using hcategory)
    · rename_i hcategory
      refine List.count_eq_zero.mpr fun hmem => hcategory ?_
      simpa using (List.mem_filter.mp hmem).2
  simp only [Reflection.descriptors, reflectionOf, List.count_append, hbucket]
  cases hcategory : resource.category? with
  | none =>
    have hnot : resource ∉ descriptors := fun hmem => by simpa [hcategory] using h resource hmem
    simp [List.count_eq_zero.mpr hnot]
  | some category => cases category <;> simp

theorem bucket_reflectionOf (interface : Interface) (inputs outputs : List Variable)
    (descriptors : List Resource) (pushConstant : Option Resource) (category : Category) :
    (interface.reflectionOf inputs outputs descriptors pushConstant).bucket category =
      descriptors.filter (·.category? = some category) := by
  cases category <;> rfl

theorem classifies_of_classify (h : interface.classify = .ok reflection) :
    interface.Classifies reflection := by
  obtain ⟨_, _, descriptors, pushConstant, hinputs, houtputs, hdescriptors, hpush, rfl⟩ :=
    classify_eq_ok.mp h
  have hyields : List.Forall₂ (·.Yields interface.stage) interface.bindings descriptors :=
    (Except.mapM_eq_ok.mp hdescriptors).imp fun _ _ => BindingDeclaration.yields_of_reflect
  have hblocks := yields_of_reflectPushConstant hpush
  refine ⟨rfl, rfl, VariableDeclaration.lists_of_reflectAll hinputs,
    VariableDeclaration.lists_of_reflectAll houtputs, rfl,
    ⟨descriptors, hyields, ?_, bucket_reflectionOf _ _ _ _ _⟩, ?_, hblocks⟩
  · refine perm_descriptors fun resource hresource => ?_
    obtain ⟨decl, -, hdecl⟩ := exists_left_of_forall₂ hyields hresource
    exact Resource.isSome_category? hdecl.key
  · rw [hblocks.length_eq]
    cases pushConstant <;> simp [reflectionOf]

def withoutArrays (interface : Interface) : Interface :=
  { interface with bindings := interface.bindings.map (·.withoutArray) }

theorem classify_withoutArrays (interface : Interface) :
    interface.withoutArrays.classify = interface.classify := by
  have hbindings : interface.withoutArrays.bindings.mapM (·.reflect interface.stage) =
      interface.bindings.mapM (·.reflect interface.stage) := List.mapM_map ..
  unfold classify
  exact congrArg _ (funext fun _ => congrArg _ (funext fun _ => hbindings ▸ rfl))

/--
An interface whose sizes fit is classified without a fault. Without a fault, classifying fails
exactly with the first problem, and so succeeds if there is none, with a reflection that has every
declaration once. Array dimensions of bindings make no difference.
-/
theorem classify_exact (interface : Interface) :
    (interface.SizesFit → ∀ fault, interface.classify ≠ .error (.fault fault)) ∧
      ((∀ fault, interface.classify ≠ .error (.fault fault)) →
        (∀ e, interface.classify = .fail e ↔ interface.problems.head? = some e) ∧
          ((∃ reflection, interface.classify = .ok reflection) ↔ interface.problems = [])) ∧
      (∀ reflection, interface.classify = .ok reflection → interface.Classifies reflection) ∧
      ∀ other : Interface, other.withoutArrays = interface.withoutArrays →
        other.classify = interface.classify := by
  have hreports := interface.reports_classify
  refine ⟨fun hfits fault h => hreports.fault fault h hfits, fun hfault => ?_,
    fun reflection => classifies_of_classify, fun other h => ?_⟩
  · exact ⟨fun e => hreports.fail_iff hfault, hreports.exists_ok_iff hfault⟩
  · rw [← classify_withoutArrays other, h, classify_withoutArrays]

/-- An image in an array is still one without traits, and with them it is accepted. -/
theorem classify_exact_image_array :
    let shadow (image : Option ImageTraits) : Interface :=
      { stage := .fragment
        outputs := [⟨"color", 0, false, { vectorSize := 4 }⟩]
        bindings := [⟨"shadow", 0, 0, .sampledImage,
          { name := "shadow", base := .image, arrayDims := [4], image }⟩] }
    ((shadow none).SizesFit ∧
        (shadow none).classify = .fail (.type (.missingImageTraits "shadow"))) ∧
      (shadow (some {})).SizesFit ∧ ∃ reflection,
        (shadow (some {})).classify = .ok reflection ∧
          (shadow (some {})).Classifies reflection := by
  intro shadow
  have hbare : (shadow none).SizesFit := ⟨by decide, by decide, by decide, by decide⟩
  have hfits : (shadow (some {})).SizesFit := ⟨by decide, by decide, by decide, by decide⟩
  constructor
  · obtain ⟨hfault, hfails, -, -⟩ := classify_exact (shadow none)
    exact ⟨hbare, ((hfails (hfault hbare)).1 _).mpr (by decide)⟩
  · obtain ⟨hfault, hfails, hclassifies, -⟩ := classify_exact (shadow (some {}))
    obtain ⟨reflection, hreflection⟩ := (hfails (hfault hfits)).2.mpr (by decide)
    exact ⟨hfits, reflection, hreflection, hclassifies reflection hreflection⟩

end Interface

end ShaderBinding
