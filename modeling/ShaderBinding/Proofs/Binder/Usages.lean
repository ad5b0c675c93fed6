import ShaderBinding.Proofs.Binder.Types

/-! # What an image may be used for

An image that replaces another one is allocated with the usages of both. So a resource keeps the
usages it was bound with: a storage image can be stored to, and a sampled image can be sampled if
the placeholder can.
-/

namespace ShaderBinding

open Native

def BindOptions.usageAs (options : BindOptions) : DescriptorType → ImageUsage
  | .storageImage => options.placeholder.usage ||| .storage
  | _ => options.placeholder.usage

def BoundResource.Usable (options : BindOptions) (trace : List Event) (bound : BoundResource) :
    Prop :=
  ∀ allocation info view sampler, bound.backing = .image allocation info view sampler →
    (∃ name, ⟨.allocateImage info name, .handle allocation.handle⟩ ∈ trace) ∧
      info.usage.contains (options.usageAs bound.type)

theorem BoundResource.Usable.mono {options : BindOptions} {trace later : List Event}
    {bound : BoundResource} (h : bound.Usable options trace) (htrace : trace ⊆ later) :
    bound.Usable options later := by
  intro allocation info view sampler hbacking
  obtain ⟨⟨name, hmade⟩, husage⟩ := h allocation info view sampler hbacking
  exact ⟨⟨name, htrace hmade⟩, husage⟩

namespace Binder

variable {layout : LayoutMap} {options : BindOptions} {binder changed : Binder}
  {b b' : Backend}

structure AllUsable (options : BindOptions) (binder : Binder) (b : Backend) : Prop
    extends Typed binder where
  usable : ∀ bound ∈ binder.resources, bound.Usable options b.trace

namespace AllUsable

theorem replaced (h : AllUsable options binder b) {key : BindingKey} {info : ImageInfo}
    {pixels : Bytes} (replaced : Replaced binder key info pixels b changed b') :
    ∀ bound ∈ changed.resources, bound.Usable options b'.trace := by
  obtain ⟨allocation, view, sampler, hbacking, -, htrace⟩ := replaced.trace_eq
  intro bound hmem
  rw [replaced.changed_eq] at hmem
  rcases Intact.mem_setBacking h.toSound replaced.find hmem with rfl | ⟨hmem, -⟩
  · rintro _ _ _ _ hnew
    rw [hbacking] at hnew
    cases hnew
    obtain ⟨-, husage⟩ := h.usable _ (mem_of_find replaced.find).1 _ _ _ _ replaced.image
    refine ⟨⟨replaced.bound.resource.name, ?_⟩, Flags.contains_or_right husage _⟩
    rw [htrace]
    simp [Backing.imageEvents]
  · exact (h.usable bound hmem).mono (htrace ▸ List.subset_append_left _ _)

theorem make (h : AllUsable options binder b) {edit : Edit}
    (hmake : Edit.make (binder, b) edit = .ok (changed, b')) : AllUsable options changed b' := by
  obtain ⟨-, htyped, hextends⟩ := h.toTyped.make hmake
  obtain ⟨events, htrace, -⟩ := hextends.record
  have hkept (bound : BoundResource) (hmem : bound ∈ binder.resources) :
      bound.Usable options b'.trace :=
    (h.usable bound hmem).mono (htrace ▸ List.subset_append_left _ _)
  refine ⟨htyped, ?_⟩
  unfold Edit.make at hmake
  rcases hexec : (edit.op binder).exec b with ⟨(fault | e) | after, b₁⟩ <;>
    rw [hexec] at hmake <;> cases hmake
  · exact hkept
  · cases edit with
    | write key offset data =>
      obtain ⟨_, _, -, hdone⟩ := exec_bind_eq_ok.mp hexec
      cases hdone
      exact hkept
    | replace key info pixels =>
      obtain ⟨replaced⟩ := replaced_of_replaceImage hexec
      exact h.replaced replaced

theorem makeAll (h : AllUsable options binder b) {edits : List Edit}
    (hmake : Edit.makeAll edits (binder, b) = .ok (changed, b')) :
    AllUsable options changed b' := by
  induction edits generalizing binder b with
  | nil =>
    cases hmake
    exact h
  | cons edit rest ih =>
    obtain ⟨⟨middle, b₁⟩, hmiddle, hrest⟩ := Except.bind_eq_ok.mp hmake
    exact ih (h.make hmiddle) hrest

end AllUsable

theorem allUsable_of_bind (h : (bind layout options).exec b = (.ok binder, b')) :
    AllUsable options binder b' := by
  obtain ⟨built⟩ := built_of_bind h
  refine ⟨typed_of_bind h, fun bound hmem allocation info view sampler hbacking => ?_⟩
  obtain ⟨entry, events, hfor, hevents⟩ := exists_madeFor built hmem
  obtain ⟨category, -, htype, hmade⟩ := hfor.exists_category
  rw [hbacking] at hmade
  rw [htype]
  cases hmade with
  | sampled => exact ⟨⟨_, hevents List.mem_cons_self⟩, Flags.contains_self _⟩
  | storage hinfo =>
    refine ⟨⟨_, hevents List.mem_cons_self⟩, ?_⟩
    rw [hinfo]
    exact Flags.contains_self _

/--
After a bind and however many buffers are written and images replaced, the image behind a
descriptor was allocated with the usages on record for it. Those of a storage image contain its
usage, and those of a sampled image do if the placeholder has it.
-/
theorem bind_edits_usable {b₁ : Backend} (h : (bind layout options).exec b = (.ok binder, b₁))
    {edits : List Edit} (hrun : Edit.makeAll edits (binder, b₁) = .ok (changed, b'))
    {bound : BoundResource} (hmem : bound ∈ changed.resources) {allocation : Allocation}
    {info : ImageInfo} {view : Nat} {sampler : Option Nat}
    (hbacking : bound.backing = .image allocation info view sampler) :
    (∃ name, ⟨.allocateImage info name, .handle allocation.handle⟩ ∈ b'.trace) ∧
      (bound.type = .storageImage → info.usage.contains ImageUsage.storage) ∧
        (bound.type = .combinedImageSampler →
          options.placeholder.usage.contains ImageUsage.sampled →
            info.usage.contains ImageUsage.sampled) := by
  have husable := ((allUsable_of_bind h).makeAll hrun).usable bound hmem
  obtain ⟨hmade, husage⟩ := husable _ _ _ _ hbacking
  refine ⟨hmade, fun htype => ?_, fun htype hplaceholder => ?_⟩ <;> rw [htype] at husage
  · exact Flags.contains_trans husage (Flags.contains_or_right (Flags.contains_self _) _)
  · exact Flags.contains_trans husage hplaceholder

def imageUsages (binder : Binder) : List (DescriptorType × ImageUsage) :=
  binder.resources.filterMap fun bound =>
    match bound.backing with
    | .buffer _ => none
    | .image _ info _ _ => some (bound.type, info.usage)

/-- A sampled and a storage image, both replaced by ones that are for transfers only. -/
theorem bind_edits_usable_replaced :
    let layout := (LayoutMap.empty.put ⟨0, 0⟩
      ⟨"image", .descriptor 0 0 .empty .image, .image ⟨.d2, true, false, false, false, ""⟩⟩ rfl).put
        ⟨0, 1⟩
      ⟨"target", .descriptor 0 1 .empty .image, .image ⟨.d2, false, false, false, false, ""⟩⟩ rfl
    let options : BindOptions := { placeholder := { width := 1, height := 1 } }
    let info : ImageInfo := { width := 1, height := 2, usage := .transferDst }
    let edits : List Edit := [.replace ⟨0, 0⟩ info (Bytes.zeros 8), .replace ⟨0, 1⟩ info
      (Bytes.zeros 8)]
    ∃ binder b₁ changed b', (bind layout options).exec {} = (.ok binder, b₁) ∧
      Edit.makeAll edits (binder, b₁) = .ok (changed, b') ∧
      ∀ bound ∈ changed.resources, ∀ allocation info view sampler,
        bound.backing = .image allocation info view sampler →
          (bound.type = .storageImage → info.usage.contains ImageUsage.storage) ∧
            (bound.type = .combinedImageSampler → info.usage.contains ImageUsage.sampled) := by
  intro layout options info edits
  have hresult : ((bind layout options).exec {}).1.toOption.map (fun binder =>
      (Edit.makeAll edits (binder, ((bind layout options).exec {}).2)).map
        fun current => current.1.imageUsages.length) = some (.ok 2) := by
    decide +kernel
  rcases hexec : (bind layout options).exec {} with ⟨failure | binder, b₁⟩ <;> rw [hexec] at hresult
  · cases hresult
  obtain ⟨⟨changed, b'⟩, hrun, -⟩ := Except.map_eq_ok.mp (Option.some.inj hresult)
  refine ⟨binder, b₁, changed, b', rfl, hrun, ?_⟩
  intro bound hmem allocation info view sampler hbacking
  obtain ⟨-, hstorage, hsampled⟩ := bind_edits_usable hexec hrun hmem hbacking
  exact ⟨hstorage, fun htype => hsampled htype (by decide)⟩

/-- With a placeholder for transfers only, a sampled image cannot be sampled. -/
theorem bind_sampled_not_usable :
    ¬ ∀ (layout : LayoutMap) (options : BindOptions) (b b' : Backend) (binder : Binder),
      (bind layout options).exec b = (.ok binder, b') → ∀ entry ∈ binder.imageUsages,
        entry.1 = .combinedImageSampler → entry.2.contains ImageUsage.sampled := by
  intro hall
  let layout := LayoutMap.empty.put ⟨0, 0⟩
    ⟨"image", .descriptor 0 0 .empty .image, .image ⟨.d2, true, false, false, false, ""⟩⟩ rfl
  let options : BindOptions := { placeholder := { width := 1, height := 1, usage := .transferDst } }
  have hresult : ((bind layout options).exec {}).1.toOption.map (·.imageUsages) =
      some [(.combinedImageSampler, ImageUsage.transferDst)] := by
    decide +kernel
  rcases hexec : (bind layout options).exec {} with ⟨failure | binder, b'⟩ <;> rw [hexec] at hresult
  · cases hresult
  have husages : binder.imageUsages = [(.combinedImageSampler, ImageUsage.transferDst)] :=
    Option.some.inj hresult
  have husable := hall layout options {} b' binder hexec _ (husages ▸ List.mem_singleton_self _) rfl
  revert husable
  decide

end Binder

end ShaderBinding
