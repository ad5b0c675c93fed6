import ShaderBinding.Stage.Basic
import ShaderBinding.Type.Basic

/-! # Resources

A reflected shader resource: its name, its type, and the group through which it is bound.
Descriptors fall into four categories, which decide how they are counted and bound.
-/

namespace ShaderBinding

inductive DescriptorKind where
  | uniformBuffer
  | storageBuffer
  | image
  deriving DecidableEq, Repr

def DescriptorKind.name : DescriptorKind → String
  | uniformBuffer => "UniformBuffer"
  | storageBuffer => "StorageBuffer"
  | image => "Image"

instance : Named DescriptorKind := ⟨[.uniformBuffer, .storageBuffer, .image], DescriptorKind.name⟩

inductive Category where
  | uniformBuffer
  | storageBuffer
  | sampledImage
  | storageImage
  deriving DecidableEq, Repr

def Category.name : Category → String
  | uniformBuffer => "UniformBuffer"
  | storageBuffer => "StorageBuffer"
  | sampledImage => "SampledImage"
  | storageImage => "StorageImage"

instance : Named Category where
  all := [.uniformBuffer, .storageBuffer, .sampledImage, .storageImage]
  name := Category.name

inductive Group where
  | inputAttribute (location : Nat)
  | pushConstant (stage : Stage)
  | descriptor (set binding : Nat) (stages : StageFlags) (kind : DescriptorKind)
  deriving DecidableEq, Repr

structure Resource where
  name : String
  group : Group
  type : ShaderType
  deriving DecidableEq, Repr

namespace Group

def withoutStages : Group → Group
  | descriptor set binding _ kind => descriptor set binding .empty kind
  | group => group

def addStage (stage : Stage) : Group → Group
  | descriptor set binding stages kind => descriptor set binding (stages ||| stage.flag) kind
  | group => group

end Group

/-- Where a descriptor is bound. Keys are ordered by set, then by binding. -/
structure BindingKey where
  set : Nat
  binding : Nat
  deriving DecidableEq, Repr

namespace BindingKey

instance : LT BindingKey := ⟨fun a b => a.set < b.set ∨ a.set = b.set ∧ a.binding < b.binding⟩

theorem lt_iff {a b : BindingKey} :
    a < b ↔ a.set < b.set ∨ a.set = b.set ∧ a.binding < b.binding := Iff.rfl

theorem lt_trans {a b c : BindingKey} (h : a < b) (h' : b < c) : a < c := by
  rw [lt_iff] at *; omega

theorem lt_irrefl (a : BindingKey) : ¬ a < a := by
  rw [lt_iff]; omega

theorem lt_trichotomy (a b : BindingKey) : a < b ∨ a = b ∨ b < a := by
  obtain ⟨set, binding⟩ := a
  obtain ⟨set', binding'⟩ := b
  simp only [lt_iff, mk.injEq]
  omega

instance (a b : BindingKey) : Decidable (a < b) :=
  inferInstanceAs (Decidable (a.set < b.set ∨ a.set = b.set ∧ a.binding < b.binding))

end BindingKey

namespace Resource

/-- Equality up to the stages that access a descriptor. -/
def sameDeclaration (a b : Resource) : Bool :=
  a.name = b.name && a.type = b.type && a.group.withoutStages = b.group.withoutStages

def addStage (stage : Stage) (resource : Resource) : Resource :=
  { resource with group := resource.group.addStage stage }

def withoutStages (resource : Resource) : Resource :=
  { resource with group := resource.group.withoutStages }

theorem sameDeclaration_iff {a b : Resource} :
    a.sameDeclaration b = true ↔ a.withoutStages = b.withoutStages := by
  simp [sameDeclaration, withoutStages, and_assoc, and_comm]

@[simp]
theorem withoutStages_addStage (resource : Resource) (stage : Stage) :
    (resource.addStage stage).withoutStages = resource.withoutStages := by
  obtain ⟨name, group, type⟩ := resource
  cases group <;> rfl

def key? (resource : Resource) : Option BindingKey :=
  match resource.group with
  | .descriptor set binding _ _ => some ⟨set, binding⟩
  | _ => none

@[simp]
theorem key?_addStage (resource : Resource) (stage : Stage) :
    (resource.addStage stage).key? = resource.key? := by
  obtain ⟨name, group, type⟩ := resource
  cases group <;> rfl

def stages (resource : Resource) : StageFlags :=
  match resource.group with
  | .descriptor _ _ stages _ => stages
  | .pushConstant stage => stage.flag
  | .inputAttribute _ => Stage.vertex.flag

theorem stages_addStage {resource : Resource} {key : BindingKey}
    (h : resource.key? = some key) (stage : Stage) :
    (resource.addStage stage).stages = resource.stages ||| stage.flag := by
  obtain ⟨name, group, type⟩ := resource
  cases group with
  | descriptor => rfl
  | inputAttribute | pushConstant => cases h

/-- Under the image kind, all but a storage image counts as sampled. -/
def imageCategory (type : ShaderType) : Category :=
  match type.asImage? with
  | some shape => if shape.sampled then .sampledImage else .storageImage
  | none => .sampledImage

def category? (resource : Resource) : Option Category :=
  match resource.group with
  | .descriptor _ _ _ .uniformBuffer => some .uniformBuffer
  | .descriptor _ _ _ .storageBuffer => some .storageBuffer
  | .descriptor _ _ _ .image => some (imageCategory resource.type)
  | _ => none

theorem isSome_category? {resource : Resource} {key : BindingKey}
    (h : resource.key? = some key) : resource.category?.isSome := by
  unfold key? at h
  split at h
  · rename_i set binding stages kind hgroup
    cases kind <;> simp only [category?, hgroup, Option.isSome_some]
  · cases h

end Resource

/-- A user-declared input or output of a stage. -/
structure Variable where
  name : String
  location : Nat
  type : ShaderType
  deriving DecidableEq, Repr

end ShaderBinding
