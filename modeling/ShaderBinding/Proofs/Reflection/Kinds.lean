import ShaderBinding.Descriptor.Basic
import ShaderBinding.Proofs.Reflection.Classify

/-! # The kind a binding is bound as

The kind of an image binding is kept in the reflected type only. A type that is no image cannot
say that it is bound as a storage image.
-/

namespace ShaderBinding

namespace ShaderType

variable {desc : TypeDescription} {type : ShaderType}

@[simp]
theorem asImage?_numeric (desc : TypeDescription) : (numeric desc).asImage? = none := by
  unfold numeric
  split <;> rfl

theorem asImage?_of_withDims {element : ShaderType} (helement : element.asImage? = none)
    (h : withDims desc element = .ok type) : type.asImage? = none := by
  unfold withDims at h
  split at h
  · cases h
    exact helement
  · obtain ⟨count, -, h⟩ := Except.bind_eq_ok.mp (Except.mapError_eq_ok.mp h)
    obtain ⟨size, -, h⟩ := Except.bind_eq_ok.mp h
    cases h
    rfl

theorem asImage?_of_ofDescription (himage : desc.base.isImage = false)
    (h : ofDescription desc = .ok type) : type.asImage? = none := by
  rw [ofDescription_eq, if_neg (Bool.eq_false_iff.mp himage)] at h
  by_cases hstruct : desc.base = .struct
  · rw [if_pos hstruct] at h
    split at h
    · cases h
    · obtain ⟨fields, -, h⟩ := Except.bind_eq_ok.mp h
      exact asImage?_of_withDims rfl h
  · rw [if_neg hstruct] at h
    obtain ⟨element, helement, h⟩ := Except.bind_eq_ok.mp h
    obtain ⟨-, rfl⟩ := (ofNumeric_eq_ok hstruct).mp (Except.mapError_eq_ok.mp helement)
    exact asImage?_of_withDims (asImage?_numeric desc) h

theorem exists_image_of_ofDescription (himage : desc.base.isImage)
    (h : ofDescription desc = .ok type) : ∃ shape, type = image shape := by
  rw [ofDescription_eq, if_pos himage] at h
  cases htraits : desc.image with
  | none =>
    rw [htraits] at h
    cases h
  | some traits =>
    rw [htraits] at h
    cases h
    exact ⟨traits.shape, rfl⟩

theorem asImage?_withSampled {sampled : Option Bool} (h : type.asImage? = none) :
    (type.withSampled sampled).asImage? = none := by
  cases type with
  | image shape => cases h
  | _ => cases sampled <;> rfl

end ShaderType

namespace BindingKind

/-- The descriptor type of the bindings that are supported. An image that is sampled is bound
together with its sampler. -/
def descriptorType? : BindingKind → Option DescriptorType
  | uniformBuffer => some .uniformBuffer
  | storageBuffer => some .storageBuffer
  | sampledImage | combinedImageSampler => some .combinedImageSampler
  | storageImage => some .storageImage
  | sampler | uniformTexelBuffer | storageTexelBuffer | inputAttachment | accelerationStructure =>
    none

theorem descriptorType?_eq (kind : BindingKind) :
    kind.descriptorType? = kind.category?.map .ofCategory := by
  cases kind <;> rfl

section Category

variable {kind : BindingKind} {bound : DescriptorKind} {sampled : Option Bool}
  (h : kind.descriptor? = some (bound, sampled)) (name : String) (set binding : Nat)
  (stages : StageFlags)

include h

theorem category?_of_image (shape : ImageShape) :
    Resource.category? ⟨name, .descriptor set binding stages bound,
      (ShaderType.image shape).withSampled sampled⟩ = kind.category? := by
  cases kind <;> cases h <;> rfl

theorem category?_of_asImage?_eq_none {type : ShaderType} (htype : type.asImage? = none) :
    Resource.category? ⟨name, .descriptor set binding stages bound, type.withSampled sampled⟩ =
      if kind = .storageImage then some .sampledImage else kind.category? := by
  have himage : Resource.imageCategory (type.withSampled sampled) = .sampledImage := by
    rw [Resource.imageCategory, ShaderType.asImage?_withSampled htype]
  cases kind with
  | uniformBuffer | storageBuffer =>
    cases h
    rfl
  | sampledImage | combinedImageSampler | storageImage =>
    cases h
    exact congrArg some himage
  | _ => cases h

end Category

end BindingKind

namespace BindingDeclaration

variable {stage : Stage} {decl : BindingDeclaration} {resource : Resource}

/-- A storage image whose type is no image. -/
def Mistyped (decl : BindingDeclaration) : Prop :=
  decl.kind = .storageImage ∧ decl.type.base.isImage = false

theorem reflect_eq_ok (h : decl.reflect stage = .ok resource) :
    ∃ kind sampled type, decl.kind.descriptor? = some (kind, sampled) ∧
      ShaderType.ofDescription decl.type.element = .ok type ∧
      resource = ⟨decl.name, .descriptor decl.set decl.binding stage.flag kind,
        type.withSampled sampled⟩ := by
  unfold reflect at h
  split at h
  · cases h
  · rename_i kind sampled hkind
    obtain ⟨type, htype, h⟩ := Except.bind_eq_ok.mp h
    cases h
    exact ⟨kind, sampled, type, hkind, Except.mapError_eq_ok.mp htype, rfl⟩

/-- An image type is bound as the kind says, and any other type as a sampled image. -/
theorem category?_of_reflect (h : decl.reflect stage = .ok resource) :
    (¬ decl.Mistyped → resource.category? = decl.kind.category?) ∧
      (decl.Mistyped → resource.category? = some .sampledImage) := by
  obtain ⟨kind, sampled, type, hkind, htype, rfl⟩ := reflect_eq_ok h
  have helement : decl.type.element.base = decl.type.base := rfl
  cases himage : decl.type.base.isImage with
  | true =>
    obtain ⟨shape, rfl⟩ := ShaderType.exists_image_of_ofDescription (helement ▸ himage) htype
    constructor
    · exact fun _ => BindingKind.category?_of_image hkind ..
    · rintro ⟨-, hnone⟩
      rw [himage] at hnone
      cases hnone
  | false =>
    have hnone := ShaderType.asImage?_of_ofDescription (helement ▸ himage) htype
    rw [BindingKind.category?_of_asImage?_eq_none hkind _ _ _ _ hnone]
    constructor
    · intro hkept
      exact if_neg fun hstorage => hkept ⟨hstorage, himage⟩
    · rintro ⟨hstorage, -⟩
      exact if_pos hstorage

end BindingDeclaration

/-- A resource has the category and descriptor type of a kind and is in its bucket only. -/
structure Reflection.BindsAs (reflection : Reflection) (kind : BindingKind) (resource : Resource) :
    Prop where
  category : resource.category? = kind.category?
  type : DescriptorType.ofResource? resource = kind.descriptorType?
  bucket : ∀ category, resource ∈ reflection.bucket category ↔ kind.category? = some category

namespace Interface

variable {interface : Interface} {reflection : Reflection}

/--
Every binding of a classified interface is bound as the kind it is declared with, except that a
storage image whose type is no image is bound as a sampled one.
-/
theorem classify_keeps_kinds (h : interface.classify = .ok reflection) :
    ∃ resources, List.Forall₂ (fun decl resource => decl.Yields interface.stage resource ∧
      (¬ decl.Mistyped → reflection.BindsAs decl.kind resource) ∧
        (decl.Mistyped → reflection.BindsAs .sampledImage resource))
      interface.bindings resources := by
  obtain ⟨inputs, outputs, descriptors, pushConstant, -, -, hdescriptors, -, rfl⟩ :=
    classify_eq_ok.mp h
  have hbinds {kind : BindingKind} {resource : Resource} (hmem : resource ∈ descriptors)
      (hcategory : resource.category? = kind.category?) :
      (interface.reflectionOf inputs outputs descriptors pushConstant).BindsAs kind resource := by
    refine ⟨hcategory, ?_, fun category => ?_⟩
    · rw [DescriptorType.ofResource?, hcategory, BindingKind.descriptorType?_eq]
    · rw [bucket_reflectionOf, List.mem_filter, decide_eq_true_eq, hcategory]
      exact and_iff_right hmem
  obtain ⟨hlength, hreflected⟩ := List.forall₂_iff_zip.mp (Except.mapM_eq_ok.mp hdescriptors)
  refine ⟨descriptors, List.forall₂_iff_zip.mpr ⟨hlength, fun {decl resource} hzip => ?_⟩⟩
  have hmem := (List.of_mem_zip hzip).2
  obtain ⟨hkept, hlost⟩ := BindingDeclaration.category?_of_reflect (hreflected hzip)
  exact ⟨BindingDeclaration.yields_of_reflect (hreflected hzip),
    fun htyped => hbinds hmem (hkept htyped), fun hmistyped => hbinds hmem (hlost hmistyped)⟩

/-- A storage image of an image type is bound as one. -/
theorem classify_keeps_kinds_images :
    let interface : Interface :=
      { stage := .fragment
        bindings := [⟨"scene", 0, 0, .uniformBuffer, {}⟩,
          ⟨"target", 0, 1, .storageImage, { base := .image, image := some {} }⟩] }
    ∃ reflection, interface.classify = .ok reflection ∧
      ∃ target, target.name = "target" ∧ reflection.BindsAs .storageImage target := by
  intro interface
  have hok : ∃ reflection, interface.classify = .ok reflection := ⟨_, rfl⟩
  obtain ⟨reflection, h⟩ := hok
  obtain ⟨resources, hresources⟩ := classify_keeps_kinds h
  obtain ⟨scene, rest, -, hrest, rfl⟩ := List.forall₂_cons_left_iff.mp hresources
  obtain ⟨target, others, ⟨hyields, hkept, -⟩, -, rfl⟩ := List.forall₂_cons_left_iff.mp hrest
  exact ⟨reflection, h, target, hyields.name, hkept fun hmistyped => by cases hmistyped.2⟩

/-- A storage image of floats is bound as a sampled image. -/
theorem storageImage_bound_as_sampled :
    ¬ ∀ (interface : Interface) (reflection : Reflection), interface.classify = .ok reflection →
      ∃ resources, List.Forall₂ (fun decl resource => reflection.BindsAs decl.kind resource)
        interface.bindings resources := by
  intro hall
  let interface : Interface :=
    { stage := .fragment
      bindings := [⟨"target", 0, 0, .storageImage, { vectorSize := 4 }⟩] }
  have hok : ∃ reflection, interface.classify = .ok reflection ∧ reflection.storageImages = [] :=
    ⟨_, rfl, rfl⟩
  obtain ⟨reflection, h, hnone⟩ := hok
  obtain ⟨resources, hresources⟩ := hall interface reflection h
  obtain ⟨target, rest, htarget, -, rfl⟩ := List.forall₂_cons_left_iff.mp hresources
  have hmem : target ∈ reflection.storageImages := (htarget.bucket .storageImage).mpr rfl
  rw [hnone] at hmem
  cases hmem

end Interface

end ShaderBinding
