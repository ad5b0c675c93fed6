import ShaderBinding.Binder.Update
import ShaderBinding.Proofs.Native.Leaves

/-! # The calls of a binder

Making and releasing backings takes seven kinds of calls, and laying them out and binding them five
more. A relation between backends that these respect is respected by all of it, wherever it fails.
-/

namespace ShaderBinding

open Native

/-- The calls for backings leave a relation between backends, whatever comes of them. -/
structure BackingCalls (R : Backend → Backend → Prop) : Prop where
  allocateBuffer : ∀ {b size usage name}, (Native.allocateBuffer size usage name).Leaves R b
  allocateImage : ∀ {b info name}, (Native.allocateImage info name).Leaves R b
  transferImage : ∀ {b image info pixels}, (Native.transferImage image info pixels).Leaves R b
  createView : ∀ {b image info}, (Native.createView image info).Leaves R b
  createSampler : ∀ {b}, Native.createSampler.Leaves R b
  destroy : ∀ {ε b kind handle}, (Native.destroy kind handle : Native ε Unit).Leaves R b
  deallocate : ∀ {ε b kind allocation},
    (Native.deallocate kind allocation : Native ε Unit).Leaves R b

/-- The same calls leave a relation, but pixels are only uploaded to an image that was just
allocated. -/
structure FreshCalls (R : Backend → Backend → Prop) : Prop where
  allocateBuffer : ∀ {b size usage name}, (Native.allocateBuffer size usage name).Leaves R b
  allocateImage : ∀ {b info name}, (Native.allocateImage info name).Leaves R b
  upload : ∀ {b info name pixels allocation b₁},
    (Native.allocateImage info name).exec b = (.ok allocation, b₁) →
    (Native.transferImage allocation info pixels).Leaves (fun _ => R b) b₁
  createView : ∀ {b image info}, (Native.createView image info).Leaves R b
  createSampler : ∀ {b}, Native.createSampler.Leaves R b
  destroy : ∀ {ε b kind handle}, (Native.destroy kind handle : Native ε Unit).Leaves R b
  deallocate : ∀ {ε b kind allocation},
    (Native.deallocate kind allocation : Native ε Unit).Leaves R b

/-- The calls that lay out descriptors and bind them leave a relation. -/
structure LayoutCalls (R : Backend → Backend → Prop) : Prop where
  createLayout : ∀ {b bindings}, (Native.createLayout bindings).Leaves R b
  createPool : ∀ {b maxSets sizes}, (Native.createPool maxSets sizes).Leaves R b
  allocateSets : ∀ {b pool layouts}, (Native.allocateSets pool layouts).Leaves R b
  updateSets : ∀ {ε b writes}, (Native.updateSets writes : Native ε Unit).Leaves R b
  waitIdle : ∀ {b}, Native.waitIdle.Leaves R b

variable {ε : Type} {R : Backend → Backend → Prop} [IsPreorder Backend R] {b : Backend}

theorem BackingCalls.fresh (calls : BackingCalls R) : FreshCalls R where
  allocateBuffer := calls.allocateBuffer
  allocateImage := calls.allocateImage
  upload h := calls.transferImage.mono fun _ => IsTrans.trans _ _ _ (calls.allocateImage.rel h)
  createView := calls.createView
  createSampler := calls.createSampler
  destroy := calls.destroy
  deallocate := calls.deallocate

namespace Backing

theorem leaves_dispose (calls : FreshCalls R) (backing : Backing) :
    (backing.dispose : Native ε Unit).Leaves R b := by
  have himage (view : Nat) (allocation : Allocation) (b : Backend) :
      (do destroy .view view; deallocate .image allocation : Native ε Unit).Leaves R b :=
    .bind calls.destroy fun _ _ _ => calls.deallocate
  rcases backing with allocation | ⟨allocation, info, view, _ | sampler⟩
  · exact calls.deallocate
  · exact himage _ _ _
  · exact .bind calls.destroy fun _ _ _ => himage _ _ _

theorem leaves_makeImage (calls : FreshCalls R) (name : String) (info : ImageInfo)
    (pixels : Bytes) (sampled : Bool) : (makeImage name info pixels sampled).Leaves R b := by
  refine .bind_of (fun _ _ => (Leaves.mapError calls.allocateImage).rel) fun allocation b₁ h => ?_
  have hupload : (mapError (BindError.transfer name)
      (transferImage allocation info pixels)).Leaves (fun _ => R b) b₁ :=
    .mapError (calls.upload (exec_mapError_eq_ok.mp h))
  -- What follows the upload is related to the backend before the allocation.
  refine .withUndo_of ?_ (fun _ => calls.deallocate) fun _ _ => IsTrans.trans _ _ _
  refine .bind_of (fun _ _ => hupload.rel) fun _ b₂ htransfer => ?_
  refine Leaves.mono (R := R) ?_ fun _ => IsTrans.trans _ _ _ (hupload.rel htransfer)
  refine .bind (.mapError calls.createView) fun view b₃ _ => ?_
  refine .withUndo ?_ fun _ => calls.destroy
  cases sampled with
  | false => exact .pure _
  | true => exact .bind (.map (.mapError calls.createSampler)) fun _ _ _ => .pure _

theorem leaves_make (calls : FreshCalls R) (options : BindOptions) (pixels : Bytes)
    (resource : Resource) (category : Category) :
    (make options pixels resource category).Leaves R b := by
  have hbuffer (size : Nat) (usage : BufferUsage) :
      (makeBuffer resource.name size usage).Leaves R b :=
    .bind (.mapError calls.allocateBuffer) fun _ _ _ => .pure _
  cases category with
  | uniformBuffer | storageBuffer => exact hbuffer _ _
  | sampledImage | storageImage => exact leaves_makeImage calls _ _ _ _

end Backing

namespace Binder

theorem leaves_makeResources (calls : FreshCalls R) (options : BindOptions) (pixels : Bytes)
    (layout : LayoutMap) : (makeResources options pixels layout).Leaves R b := by
  refine .makeAll ?_ (fun bound _ => bound.backing.leaves_dispose calls) _ b
  rintro ⟨key, resource, category⟩ b
  exact .bind (Backing.leaves_make calls options pixels resource category) fun _ _ _ => .pure _

theorem leaves_disposeResources (calls : FreshCalls R) (resources : List BoundResource) :
    (disposeResources resources : Native ε Unit).Leaves R b :=
  .forM (fun bound _ => bound.backing.leaves_dispose calls) _ _

theorem leaves_dispose (calls : FreshCalls R) (binder : Binder) :
    (binder.dispose : Native ε Unit).Leaves R b :=
  .bind calls.destroy fun _ _ _ =>
    .bind (.forM (fun _ _ => calls.destroy) _ _) fun _ _ _ => leaves_disposeResources calls _

theorem leaves_bind_sized (calls : FreshCalls R) {layout : LayoutMap} {options : BindOptions}
    (hlayout : ∀ {b bindings}, (createLayout bindings).Leaves R b)
    (hpool : ∀ {b counters maxSets sizes}, PoolSizes.ofLayoutMap layout = .ok counters →
      counters.withBindings options.builtins.flatten = .ok sizes →
      (createPool maxSets sizes).Leaves R b)
    (hsets : ∀ {b pool layouts}, (allocateSets pool layouts).Leaves R b)
    (hupdate : ∀ {b writes}, (updateSets writes : Native BindError Unit).Leaves R b) :
    (bind layout options).Leaves R b := by
  refine .ofChecked_bind (refl b) fun counters hcounters => ?_
  refine .ofChecked_bind (refl b) fun pixels _ => ?_
  refine .bind (leaves_makeResources calls _ _ _) fun resources b₁ _ => ?_
  refine .withUndo ?_ fun _ => leaves_disposeResources calls resources
  refine .ofExcept_bind (refl b₁) fun _ _ => .bind (.makeAll ?_ ?_ _ _) fun layouts b₂ _ => ?_
  · exact fun _ _ => .bind (.mapError hlayout) fun _ _ _ => .pure _
  · exact fun _ _ => calls.destroy
  refine .withUndo ?_ fun _ => .forM (fun _ _ => calls.destroy) _ _
  refine .ofChecked_bind (refl b₂) fun capacity _ => ?_
  refine .ofChecked_bind (refl b₂) fun sizes hsizes => ?_
  refine .bind (.mapError (hpool hcounters hsizes)) fun pool b₃ _ => ?_
  refine .withUndo ?_ fun _ => calls.destroy
  refine .bind (.mapError hsets) fun sets b₄ _ => ?_
  refine .ofExcept_bind (refl b₄) fun writes _ => ?_
  exact .bind hupdate fun _ _ _ => .pure _

theorem leaves_bind_of (calls : FreshCalls R) (others : LayoutCalls R) (layout : LayoutMap)
    (options : BindOptions) : (bind layout options).Leaves R b :=
  leaves_bind_sized calls others.createLayout (fun _ _ => others.createPool) others.allocateSets
    others.updateSets

theorem leaves_replaceImage (calls : FreshCalls R) (others : LayoutCalls R) (binder : Binder)
    (key : BindingKey) (info : ImageInfo) (pixels : Bytes) :
    (binder.replaceImage key info pixels).Leaves R b := by
  refine .ofExcept_bind (refl b) fun bound _ => ?_
  cases bound.backing with
  | buffer => exact .fail _
  | image allocation old view sampler =>
    refine .bind (.mapError others.waitIdle) fun _ b₁ _ => ?_
    refine .bind (Backing.leaves_makeImage calls _ _ _ _) fun backing b₂ _ => ?_
    refine .ofExcept_bind (refl b₂) fun write _ => .bind others.updateSets fun _ b₃ _ => ?_
    exact .bind (Backing.leaves_dispose calls _) fun _ _ _ => .pure _

end Binder

end ShaderBinding
