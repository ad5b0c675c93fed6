import ShaderBinding.Proofs.Binder.Bound
import ShaderBinding.Proofs.Native.Calls

/-! # What a binder owns

The objects behind a backing and a binder, and the triples of making and releasing them. Binding
a layout map makes the objects of the binder it returns; when it fails, whatever it had made by
then is released again, each object once.
-/

namespace ShaderBinding

open Native

variable {ε : Type}

namespace Backing

def objects : Backing → List NativeObject
  | buffer allocation => [.buffer allocation.handle]
  | image allocation _ view sampler =>
    .image allocation.handle :: .view view :: sampler.toList.map .sampler

theorem owner_of_mem_objects {backing : Backing} {o : NativeObject} (h : o ∈ backing.objects) :
    o.owner = o := by
  rcases backing with _ | ⟨_, _, _, _ | _⟩ <;> simp [objects] at h
  · rw [h]; rfl
  · rcases h with rfl | rfl <;> rfl
  · rcases h with rfl | rfl | rfl <;> rfl

theorem closed_objects (backing : Backing) :
    NativeObject.Closed (backing.objects : Multiset NativeObject) :=
  .of_owner_eq fun _ => owner_of_mem_objects

theorem frees_dispose (backing : Backing) :
    Frees (backing.dispose : Native ε Unit) backing.objects := by
  rw [← Multiset.coe_reverse]
  rcases backing with allocation | ⟨allocation, info, view, sampler⟩
  · exact frees_deallocate .buffer allocation
  · have hview : Frees (do destroy .view view; deallocate .image allocation : Native ε Unit)
        ↑[NativeObject.view view, NativeObject.image allocation.handle] :=
      (frees_destroy_one (o := .view view) rfl).seq (frees_deallocate .image allocation)
        (.of_owner_eq (by simp [BlockKind.object, NativeObject.owner]))
    cases sampler with
    | none => exact hview
    | some sampler =>
      exact (frees_destroy_one (o := .sampler sampler) rfl).seq hview
        (.of_owner_eq (by simp [NativeObject.owner]))

theorem makes_makeBuffer (name : String) (size : Nat) (usage : BufferUsage) :
    Makes (makeBuffer name size usage) objects := by
  exact (makes_allocateBuffer _ usage name).mapError.bind_pure fun _ => rfl

theorem makes_makeImage (name : String) (info : ImageInfo) (pixels : Bytes) (sampled : Bool) :
    Makes (makeImage name info pixels sampled) objects := by
  refine .of_owns (.make (makes_allocateImage info name).mapError fun allocation => ?_)
  refine .withUndo (m := ↑[NativeObject.image allocation.handle]) ?_
    (frees_deallocate .image allocation) .zero
  refine .idle (makes_transferImage allocation info pixels).mapError fun _ => ?_
  refine .make (makes_createView allocation.handle info).mapError fun view => ?_
  refine .withUndo ?_ (frees_destroy_one rfl) (.of_owner_eq (by simp [NativeObject.owner]))
  have hfinish (sampler : Option Nat) :
      Owns (Pure.pure (.image allocation info view sampler) : Native BindError Backing)
        (0 + ↑[NativeObject.image allocation.handle] + ↑[NativeObject.view view] +
          ↑(sampler.toList.map NativeObject.sampler)) (fun backing => backing.objects)
        (0 + ↑[NativeObject.image allocation.handle] + ↑[NativeObject.view view]) := by
    refine .pure ?_
    rw [zero_add]
    rfl
  cases sampled with
  | false => exact .make (.done rfl) hfinish
  | true => exact .make (makes_createSampler.mapError.map fun _ => rfl) hfinish

theorem makes_make (options : BindOptions) (pixels : Bytes) (resource : Resource)
    (category : Category) : Makes (make options pixels resource category) objects := by
  cases category with
  | uniformBuffer => exact makes_makeBuffer _ _ _
  | storageBuffer => exact makes_makeBuffer _ _ _
  | sampledImage => exact makes_makeImage _ _ _ _
  | storageImage => exact makes_makeImage _ _ _ _

end Backing

namespace SetLayout

def objects (layout : SetLayout) : List NativeObject := [.layout layout.handle]

end SetLayout

namespace Binder

def objects (binder : Binder) : List NativeObject :=
  binder.resources.flatMap (·.backing.objects) ++ binder.layouts.flatMap (·.objects) ++
    .pool binder.pool :: NativeObject.ofSets binder.pool binder.sets

theorem mem_objects_of_resource {binder : Binder} {bound : BoundResource}
    (hbound : bound ∈ binder.resources) {o : NativeObject} (ho : o ∈ bound.backing.objects) :
    o ∈ binder.objects :=
  List.mem_append_left _ (List.mem_append_left _ (List.mem_flatMap.mpr ⟨bound, hbound, ho⟩))

theorem mem_objects_of_shaderSet? {binder : Binder} {index : Nat} {set : DescriptorSet}
    (h : shaderSet? binder.setCount binder.sets index = some set) :
    .set binder.pool set.id ∈ binder.objects :=
  List.mem_append_right _ (List.mem_cons_of_mem _ (NativeObject.mem_ofSets (mem_of_shaderSet? h)))

theorem makes_makeResources (options : BindOptions) (pixels : Bytes) (layout : LayoutMap) :
    Makes (makeResources options pixels layout) fun made => made.flatMap (·.backing.objects) := by
  refine .makeAll (fun (_, resource, category) => ?_) (fun bound => bound.backing.frees_dispose) _
  exact (Backing.makes_make options pixels resource category).bind_pure fun _ => rfl

theorem makes_makeLayouts (bindings : List (List LayoutBinding)) :
    Makes (makeLayouts bindings) fun made => made.flatMap (·.objects) := by
  refine .makeAll (fun bindings => ?_) (fun layout => frees_destroy_one rfl) _
  exact (makes_createLayout bindings).mapError.bind_pure fun _ => rfl

theorem frees_destroyPool (pool : Nat) (sets : List DescriptorSet) :
    Frees (destroy .pool pool : Native ε Unit) ↑(.pool pool :: NativeObject.ofSets pool sets) :=
  frees_destroy rfl (by simp) (by simp [NativeObject.ofSets, NativeObject.owner])

theorem frees_destroyLayouts (layouts : List SetLayout) :
    Frees (destroyLayouts layouts : Native ε Unit) (layouts.flatMap (·.objects)) :=
  .forM_reverse (fun _ => frees_destroy_one rfl)
    (fun _ => .of_owner_eq (by simp [NativeObject.owner])) layouts

theorem frees_disposeResources (resources : List BoundResource) :
    Frees (disposeResources resources : Native ε Unit)
      (resources.flatMap (·.backing.objects)) :=
  .forM_reverse (fun bound => bound.backing.frees_dispose)
    (fun bound => bound.backing.closed_objects) resources

theorem closed_layouts (layouts : List SetLayout) :
    NativeObject.Closed (layouts.flatMap (·.objects) : Multiset NativeObject) := by
  refine .of_owner_eq fun o ho => ?_
  obtain ⟨layout, -, ho⟩ := List.mem_flatMap.mp (Multiset.mem_coe.mp ho)
  exact List.mem_singleton.mp ho ▸ rfl

theorem closed_resources (resources : List BoundResource) :
    NativeObject.Closed (resources.flatMap (·.backing.objects) : Multiset NativeObject) := by
  refine .of_owner_eq fun o ho => ?_
  obtain ⟨bound, -, ho⟩ := List.mem_flatMap.mp (Multiset.mem_coe.mp ho)
  exact bound.backing.owner_of_mem_objects ho

theorem makes_bind (layout : LayoutMap) (options : BindOptions) :
    Makes (bind layout options) objects := by
  refine .of_owns ?_
  refine .ofChecked_bind (PoolSizes.proper_ofLayoutMap layout) fun poolSizes => ?_
  refine .ofChecked_bind (ImageInfo.proper_solid _ _) fun pixels => ?_
  refine .make (makes_makeResources options pixels layout) fun resources => ?_
  refine .withUndo ?_ (frees_disposeResources resources) .zero
  refine .ofExcept_bind fun _ _ => ?_
  refine .make (makes_makeLayouts _) fun layouts => ?_
  refine .withUndo ?_ (frees_destroyLayouts layouts) (NativeObject.Closed.zero.add
    (closed_resources resources))
  refine .ofChecked_bind (proper_maxSets _ _ _) fun capacity => ?_
  refine .ofChecked_bind (PoolSizes.proper_withBindings _ _) fun sizes => ?_
  refine .make (makes_createPool capacity sizes).mapError fun pool => ?_
  refine .withUndo_bind (m := ↑[NativeObject.pool pool])
    (n := fun sets => ↑(.pool pool :: NativeObject.ofSets pool sets))
    (owns_allocateSets ?_ ?_).mapError (frees_destroyPool pool []) (fun sets => ?_)
    (frees_destroyPool pool) ((NativeObject.Closed.zero.add (closed_resources resources)).add
      (closed_layouts layouts))
  · simp
  · simp only [List.mem_map, Multiset.mem_add, Multiset.mem_coe, List.mem_flatMap]
    rintro _ ⟨layout, hmem, rfl⟩
    exact Or.inl (Or.inr ⟨layout, hmem, List.mem_singleton.mpr rfl⟩)
  · have hsets : (↑(.pool pool :: NativeObject.ofSets pool sets) : Multiset NativeObject) =
        ↑[NativeObject.pool pool] + ↑(NativeObject.ofSets pool sets) := rfl
    refine Owns.congr (.ofExcept_bind fun writes hwrites => ?_) rfl (fun _ => rfl)
      (by simp only [hsets, add_assoc])
    refine (owns_updateSets fun write hw => ⟨pool, ?_⟩).bind fun _ => .pure ?_
    · obtain ⟨bound, -, hbound⟩ := exists_left_of_forall₂ (Except.mapM_eq_ok.mp hwrites) hw
      exact Multiset.mem_add.mpr (Or.inr (NativeObject.mem_ofSets
        (mem_of_shaderSet? (writeOf_eq_ok hbound).1)))
    · rw [zero_add, add_assoc]
      rfl

theorem closed_sets (pool : Nat) (sets : List DescriptorSet) :
    NativeObject.Closed (↑(.pool pool :: NativeObject.ofSets pool sets) : Multiset NativeObject) := by
  intro o ho
  simp only [NativeObject.ofSets, Multiset.mem_coe, List.mem_cons, List.mem_map] at ho ⊢
  rcases ho with rfl | ⟨set, -, rfl⟩ <;> exact Or.inl rfl

theorem closed_objects (binder : Binder) :
    NativeObject.Closed (binder.objects : Multiset NativeObject) :=
  ((closed_resources _).add (closed_layouts _)).add (closed_sets _ _)

theorem frees_dispose (binder : Binder) :
    Frees (binder.dispose : Native ε Unit) binder.objects := by
  have hrest := (frees_destroyLayouts (ε := ε) binder.layouts).seq
    (frees_disposeResources binder.resources) (closed_resources _)
  refine ((frees_destroyPool binder.pool binder.sets).seq hrest
    ((closed_layouts _).add (closed_resources _))).congr ?_
  simp only [objects, ← Multiset.coe_add]
  ac_rfl

/--
A bind that fails leaves every live object alone, and releases each object that it made once. It
never misuses an object, whichever calls fail.
-/
theorem bind_atomic (layout : LayoutMap) (options : BindOptions) {b : Backend} (hb : b.Valid) :
    (∀ fault b', (bind layout options).exec b = (.error (.fault fault), b') →
      fault.isMisuse = false) ∧
    ∀ error b', (bind layout options).exec b = (.error (.error error), b') →
      b'.live = b.live ∧ ∃ events, b'.trace = b.trace ++ events ∧
        (∀ o ∈ Record.created events, o ∉ b.live ∧ Record.endings events o = 1) ∧
        ∀ o ∈ b.live, Record.endings events o = 0 := by
  have hends := makes_bind layout options hb
  unfold Ends at hends
  constructor
  · intro fault b' hexec
    simpa [hexec] using hends
  · intro error b' hexec
    rw [hexec] at hends
    obtain ⟨⟨events, hevents⟩, hlive⟩ := hends
    refine ⟨hlive, events, hevents.trace_eq, fun o ho => ?_, fun o ho => ?_⟩
    · have hnew := hevents.not_mem_of_created hb ho
      exact ⟨hnew, hevents.endings_eq_one ho (hlive ▸ hnew)⟩
    · exact hevents.endings_eq_zero (hlive ▸ ho)

theorem bind_atomic_no_pool :
    let b : Backend := { failures := [⟨.createPool, 0, .deviceLost⟩] }
    let layout := LayoutMap.empty.put ⟨0, 0⟩
      ⟨"block", .descriptor 0 0 .empty .uniformBuffer, .vector .float 4 16⟩ rfl
    let options : BindOptions := { placeholder := { width := 1, height := 1 } }
    let b' := ((bind layout options).exec b).2
    (bind layout options).exec b = (.error (.error (.device .deviceLost)), b') ∧
      Record.created b'.trace = [.buffer 0, .layout 0] ∧
      Record.released b'.trace = [.layout 0, .buffer 0] ∧ b'.live = 0 := by
  intro b layout options b'
  have hb : b.Valid := ⟨Backend.valid_empty.allocator, Backend.valid_empty.device⟩
  have hresult : ((bind layout options).exec b).1 = .error (.error (.device .deviceLost)) := by
    decide +kernel
  have hexec : (bind layout options).exec b = (.error (.error (.device .deviceLost)), b') := by
    rw [← hresult]
  exact ⟨hexec, by decide +kernel, by decide +kernel,
    ((bind_atomic layout options hb).2 _ b' hexec).1⟩

end Binder

end ShaderBinding
