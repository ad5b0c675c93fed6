import ShaderBinding.Binder.Update
import ShaderBinding.Proofs.Native.Exec

/-! # What is on record of the things made

A call that returns leaves one event on record. From these the events of a whole backing are put
together, and those of one thing after the other.
-/

namespace ShaderBinding

open Native

namespace Native

variable {ε α β : Type} {b b' : Backend}

/--
Making one thing per item relates every item to the thing that was made for it and to the events
of making it, which are on record in the order of the items.
-/
theorem makeAll_eq_ok {make : α → Native ε β} {undo : β → Native ε Unit}
    {R : α → β → List Event → Prop}
    (hmake : ∀ a c b b', (make a).exec b = (.ok c, b') →
      ∃ events, R a c events ∧ b'.trace = b.trace ++ events) {items : List α} {made : List β}
    (h : (makeAll make undo items).exec b = (.ok made, b')) :
    ∃ steps : List (β × List Event), List.Forall₂ (fun a step => R a step.1 step.2) items steps ∧
      made = steps.map (·.1) ∧ b'.trace = b.trace ++ steps.flatMap (·.2) := by
  induction items generalizing b made with
  | nil =>
    cases h
    exact ⟨[], .nil, rfl, (List.append_nil _).symm⟩
  | cons a rest ih =>
    obtain ⟨c, b₁, hc, h⟩ := exec_bind_eq_ok.mp h
    obtain ⟨others, b₂, hothers, h⟩ := exec_bind_eq_ok.mp h
    cases h
    obtain ⟨events, hR, hevents⟩ := hmake a c b b₁ hc
    obtain ⟨steps, hsteps, rfl, htrace⟩ := ih (exec_withUndo_eq_ok.mp hothers)
    refine ⟨(c, events) :: steps, .cons hR hsteps, rfl, ?_⟩
    rw [htrace, hevents, List.flatMap_cons, List.append_assoc]

theorem trace_updateSets {writes : List DescriptorWrite} {u : Unit}
    (h : (updateSets writes : Native ε Unit).exec b = (.ok u, b')) :
    b'.trace = b.trace ++ [⟨.updateSets writes, .done⟩] := by
  obtain ⟨device, -, rfl⟩ := exec_perform_device_eq_ok h
  rfl

end Native

def Category.bufferUsage? : Category → Option BufferUsage
  | uniformBuffer => some .uniform
  | storageBuffer => some .storage
  | sampledImage | storageImage => none

def Resource.bufferRequest? (resource : Resource) : Option (Nat × BufferUsage × String) :=
  (resource.category?.bind Category.bufferUsage?).map (max resource.type.size 1, ·, resource.name)

namespace Backing

def samplerEvent (sampler : Nat) : Event := ⟨.createSampler, .handle sampler⟩

def imageEvents (name : String) (info : ImageInfo) (pixels : Bytes) (allocation : Allocation)
    (view : Nat) (sampler : Option Nat) : List Event :=
  [⟨.allocateImage info name, .handle allocation.handle⟩,
    ⟨.transferImage allocation.handle info pixels, .done⟩,
    ⟨.createView allocation.handle info, .handle view⟩] ++ (sampler.map samplerEvent).toList

inductive Made (options : BindOptions) (pixels : Bytes) (resource : Resource) :
    Category → Backing → List Event → Prop where

  | buffer {category : Category} {usage : BufferUsage} {allocation : Allocation} :
      category.bufferUsage? = some usage → allocation.size = max resource.type.size 1 →
      Made options pixels resource category (.buffer allocation)
        [⟨.allocateBuffer (max resource.type.size 1) usage resource.name, .handle allocation.handle⟩]

  | sampled {allocation : Allocation} {view sampler : Nat} :
      Made options pixels resource .sampledImage
        (.image allocation options.placeholder view (some sampler))
        (imageEvents resource.name options.placeholder pixels allocation view (some sampler))

  | storage {allocation : Allocation} {view : Nat} {info : ImageInfo} :
      info = { options.placeholder with usage := options.placeholder.usage ||| .storage } →
      Made options pixels resource .storageImage (.image allocation info view none)
        (imageEvents resource.name info pixels allocation view none)

variable {b b' : Backend} {options : BindOptions} {pixels : Bytes} {resource : Resource}
  {backing : Backing}

theorem makeBuffer_eq_ok {name : String} {size : Nat} {usage : BufferUsage}
    (h : (makeBuffer name size usage).exec b = (.ok backing, b')) :
    ∃ allocation, backing = .buffer allocation ∧ allocation.size = max size 1 ∧
      b'.trace = b.trace ++
        [⟨.allocateBuffer (max size 1) usage name, .handle allocation.handle⟩] := by
  obtain ⟨allocation, b₁, halloc, h⟩ := exec_bind_eq_ok.mp h
  cases h
  obtain ⟨hstep, htrace⟩ := exec_onAllocator_eq_ok (exec_mapError_eq_ok.mp halloc)
  refine ⟨allocation, rfl, ?_, htrace⟩
  unfold Allocator.allocate at hstep
  split at hstep
  · cases hstep
  · obtain ⟨_, hsize, hstep⟩ := Except.bind_eq_ok.mp hstep
    obtain ⟨_, -, hstep⟩ := Except.bind_eq_ok.mp hstep
    cases hsize
    exact (congrArg (·.1.size) (Except.ok.inj hstep)).symm

structure ImageParts (name : String) (info : ImageInfo) (pixels : Bytes) (sampled : Bool)
    (b : Backend) (backing : Backing) (b' : Backend) where
  allocation : Allocation
  view : Nat
  sampler : Option Nat
  {allocated transferred viewed : Backend}
  backing_eq : backing = .image allocation info view sampler
  allocate : (allocateImage info name).exec b = (.ok allocation, allocated)
  transfer : (transferImage allocation info pixels).exec allocated = (.ok (), transferred)
  createView : (createView allocation.handle info).exec transferred = (.ok view, viewed)
  createSampler : (if sampled then some <$> createSampler else pure none :
    Native DeviceError (Option Nat)).exec viewed = (.ok sampler, b')

theorem parts_of_makeImage {name : String} {info : ImageInfo} {sampled : Bool}
    (h : (makeImage name info pixels sampled).exec b = (.ok backing, b')) :
    Nonempty (ImageParts name info pixels sampled b backing b') := by
  obtain ⟨allocation, b₁, hallocate, h⟩ := exec_bind_eq_ok.mp h
  obtain ⟨_, b₂, htransfer, h⟩ := exec_bind_eq_ok.mp (exec_withUndo_eq_ok.mp h)
  obtain ⟨view, b₃, hview, h⟩ := exec_bind_eq_ok.mp h
  have hallocate := exec_mapError_eq_ok.mp hallocate
  have htransfer := exec_mapError_eq_ok.mp htransfer
  have hview := exec_mapError_eq_ok.mp hview
  have h := exec_withUndo_eq_ok.mp h
  cases sampled with
  | false =>
    cases h
    exact ⟨⟨allocation, view, none, rfl, hallocate, htransfer, hview, rfl⟩⟩
  | true =>
    obtain ⟨sampler, _, hsampler, h⟩ := exec_bind_eq_ok.mp h
    cases h
    obtain ⟨handle, _, hhandle, hsampler⟩ := exec_bind_eq_ok.mp hsampler
    cases hsampler
    refine ⟨⟨allocation, view, some handle, rfl, hallocate, htransfer, hview, ?_⟩⟩
    exact exec_bind_eq_ok.mpr ⟨handle, _, exec_mapError_eq_ok.mp hhandle, rfl⟩

theorem makeImage_eq_ok {name : String} {info : ImageInfo} {sampled : Bool}
    (h : (makeImage name info pixels sampled).exec b = (.ok backing, b')) :
    ∃ allocation view sampler, backing = .image allocation info view sampler ∧
      sampler.isSome = sampled ∧
      b'.trace = b.trace ++ imageEvents name info pixels allocation view sampler := by
  obtain ⟨⟨allocation, view, sampler, rfl, hallocate, htransfer, hview, hsampler⟩⟩ :=
    parts_of_makeImage h
  refine ⟨allocation, view, sampler, rfl, ?_⟩
  have hviewed := (exec_onDevice_eq_ok hview).2
  rw [(exec_onAllocator_eq_ok htransfer).2, (exec_onAllocator_eq_ok hallocate).2] at hviewed
  cases sampled with
  | false =>
    cases hsampler
    exact ⟨rfl, by simp [hviewed, imageEvents]⟩
  | true =>
    obtain ⟨handle, _, hhandle, hsampler⟩ := exec_bind_eq_ok.mp hsampler
    cases hsampler
    have htrace := (exec_onDevice_eq_ok hhandle).2
    exact ⟨rfl, by simp [htrace, hviewed, imageEvents, samplerEvent]⟩

theorem made_of_make {category : Category}
    (h : (make options pixels resource category).exec b = (.ok backing, b')) :
    ∃ events, Made options pixels resource category backing events ∧
      b'.trace = b.trace ++ events := by
  cases category with
  | uniformBuffer | storageBuffer =>
    obtain ⟨allocation, rfl, hsize, htrace⟩ := makeBuffer_eq_ok h
    exact ⟨_, .buffer rfl hsize, htrace⟩
  | sampledImage =>
    obtain ⟨allocation, view, sampler, rfl, hsampler, htrace⟩ := makeImage_eq_ok h
    obtain ⟨sampler, rfl⟩ := Option.isSome_iff_exists.mp hsampler
    exact ⟨_, .sampled, htrace⟩
  | storageImage =>
    obtain ⟨allocation, view, sampler, rfl, hsampler, htrace⟩ := makeImage_eq_ok h
    cases Option.isNone_iff_eq_none.mp (Option.isSome_eq_false_iff.mp hsampler)
    exact ⟨_, .storage rfl, htrace⟩

end Backing

end ShaderBinding
