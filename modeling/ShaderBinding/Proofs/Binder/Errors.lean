import ShaderBinding.Proofs.Binder.Update

/-! # What a bind reports

A bind makes and declares things but writes no bytes through a mapping, so that none of its
errors is one of writing. What it was planned to fail with can only become less.
-/

namespace ShaderBinding

open Native Backend

variable {ε : Type} {b : Backend}

def BindError.ofWriting : BindError → Bool
  | mapping _ | wrongKind .. | pushConstant _ => true
  | device _ | allocation .. | transfer .. | limitExceeded .. | unknownBinding .. => false

/-- A kind of errors that includes all that a call or a check of a bind can report. -/
structure BindError.Covers (layout : LayoutMap) (options : BindOptions) (p : BindError → Prop) :
    Prop where
  device : ∀ e, p (.device e)
  allocation : ∀ name e, p (.allocation name e)
  transfer : ∀ name e, p (.transfer name e)
  unknownBinding : ∀ set binding, p (.unknownBinding set binding)
  limits : ∀ e, Binder.checkLimits layout options = .error e → p e

variable {layout : LayoutMap} {options : BindOptions} {p : BindError → Prop}

namespace Backing

theorem reports_makeImage (covers : BindError.Covers layout options p) (name : String)
    (info : ImageInfo) (pixels : Bytes) (sampled : Bool) :
    (makeImage name info pixels sampled).Reports p := by
  refine .bind (.mapError (covers.allocation name)) fun allocation => .withUndo .perform ?_
  refine .bind (.mapError (covers.transfer name)) fun _ => ?_
  refine .bind (.mapError covers.device) fun view => .withUndo .perform ?_
  cases sampled with
  | false => exact .pure _
  | true => exact .bind (.map (.mapError covers.device)) fun _ => .pure _

theorem reports_make (covers : BindError.Covers layout options p) (pixels : Bytes)
    (resource : Resource) (category : Category) :
    (make options pixels resource category).Reports p := by
  have hbuffer (size : Nat) (usage : BufferUsage) :
      (makeBuffer resource.name size usage).Reports p :=
    .bind (.mapError (covers.allocation _)) fun _ => .pure _
  cases category with
  | uniformBuffer | storageBuffer => exact hbuffer _ _
  | sampledImage | storageImage => exact reports_makeImage covers _ _ _ _

end Backing

namespace Binder

theorem quiet_destroyLayouts (layouts : List SetLayout) :
    (destroyLayouts layouts : Native ε Unit).Quiet := .forM (fun _ => .perform) _

theorem quiet_disposeResources (resources : List BoundResource) :
    (disposeResources resources : Native ε Unit).Quiet :=
  .forM (fun bound => bound.backing.quiet_dispose) _

theorem quiet_dispose (binder : Binder) : (binder.dispose : Native ε Unit).Quiet :=
  .bind .perform fun _ => .bind (quiet_destroyLayouts _) fun _ => quiet_disposeResources _

theorem reports_makeResources (covers : BindError.Covers layout options p) (pixels : Bytes) :
    (makeResources options pixels layout).Reports p := by
  refine .makeAll ?_ (fun bound => bound.backing.quiet_dispose) _
  rintro ⟨key, resource, category⟩
  exact .bind (Backing.reports_make covers _ _ _) fun _ => .pure _

theorem error_of_bind (hdevice : ∀ e, p (.device e))
    (hunknown : ∀ set binding, p (.unknownBinding set binding))
    (hlimits : ∀ e, checkLimits layout options = .error e → p e)
    (hmake : ∀ pixels e b', options.placeholder.solid options.fill = .ok pixels →
      (makeResources options pixels layout).exec b = (.error (.error e), b') → p e)
    {e : BindError} {b' : Backend} (h : (bind layout options).exec b = (.error (.error e), b')) :
    p e := by
  rcases exec_bind_eq_error.mp h with hfault | ⟨counters, b₁, hcounters, hcounted⟩
  · exact Reports.ofChecked _ _ _ _ hfault
  obtain ⟨-, rfl⟩ := exec_ofChecked_eq_ok.mp hcounters
  rcases exec_bind_eq_error.mp hcounted with hfault | ⟨pixels, b₂, hpixels, hfilled⟩
  · exact Reports.ofChecked _ _ _ _ hfault
  obtain ⟨hsolid, rfl⟩ := exec_ofChecked_eq_ok.mp hpixels
  rcases exec_bind_eq_error.mp hfilled with hfailed | ⟨resources, b₃, -, hmade⟩
  · exact hmake pixels e b' hsolid hfailed
  refine Reports.withUndo (quiet_disposeResources resources)
    (.bind (.ofExcept hlimits) fun _ => ?_) _ _ _ hmade
  refine .bind (.makeAll (fun bindings => ?_) (fun _ => .perform) _) fun layouts => ?_
  · exact .bind (.mapError hdevice) fun _ => .pure _
  refine .withUndo (quiet_destroyLayouts layouts) ?_
  refine .bind (.ofChecked _) fun capacity => .bind (.ofChecked _) fun sizes => ?_
  refine .bind (.mapError hdevice) fun pool => .withUndo .perform ?_
  refine .bind (.mapError hdevice) fun sets => ?_
  refine .bind (.ofExcept fun e h => ?_) fun writes => ?_
  · obtain ⟨bound, -, h⟩ := Except.mapM_eq_error h
    unfold writeOf at h
    split at h <;> cases h
    exact hunknown _ _
  · exact .bind (.of_quiet .perform) fun _ => .pure _

theorem reports_bind_of (covers : BindError.Covers layout options p) :
    (bind layout options).Reports p := fun _ _ _ =>
  error_of_bind covers.device covers.unknownBinding covers.limits
    fun pixels _ _ _ => reports_makeResources covers pixels _ _ _

theorem reports_bind (layout : LayoutMap) (options : BindOptions) :
    (bind layout options).Reports (·.ofWriting = false) := by
  refine reports_bind_of ⟨fun _ => rfl, fun _ _ => rfl, fun _ _ => rfl, fun _ _ => rfl, ?_⟩
  intro e h
  unfold checkLimits at h
  split at h <;> cases h
  rfl

end Binder

theorem extendsCalls : BackingCalls (Extends fun _ => True) where
  allocateBuffer := .onAllocator fun _ => trivial
  allocateImage := .onAllocator fun _ => trivial
  transferImage := .onAllocator fun _ => trivial
  createView := .onDevice fun _ => trivial
  createSampler := .onDevice fun _ => trivial
  destroy := .destroy (fun _ _ _ => trivial) _ _
  deallocate := .deallocate (fun _ _ _ => trivial) _ _

theorem extendsLayoutCalls : LayoutCalls (Extends fun _ => True) where
  createLayout := .onDevice fun _ => trivial
  createPool := .onDevice fun _ => trivial
  allocateSets := .get_bind <| by
    split
    · exact .pure _
    · exact .onDevice fun _ => trivial
  updateSets := .updateSets fun _ => trivial
  waitIdle := .onDevice fun _ => trivial

namespace Binder

theorem extends_dispose (binder : Binder) :
    (binder.dispose : Native ε Unit).Leaves (Extends fun _ => True) b :=
  leaves_dispose extendsCalls.fresh binder

theorem extends_bind (layout : LayoutMap) (options : BindOptions) :
    (bind layout options).Leaves (Extends fun _ => True) b :=
  leaves_bind_of extendsCalls.fresh extendsLayoutCalls layout options

end Binder

end ShaderBinding
