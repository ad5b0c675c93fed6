import ShaderBinding.Proofs.Binder.Errors
import ShaderBinding.Proofs.Binder.Pool
import ShaderBinding.Proofs.Native.Returns

/-! # Device limits

A bind counts what it declares and compares the counts with the limits of the device, after the
backings are made and before anything else is. As long as the sets can be counted in 32 bits, it
reports the first limit that is exceeded, and reports one exactly if there is one.
-/

namespace ShaderBinding

open Native Backend

namespace LimitKind

theorem mem_all (kind : LimitKind) : kind ∈ (Named.all : List LimitKind) := by
  cases kind <;> decide

def category? : LimitKind → Option Category
  | boundDescriptorSets => none
  | uniformBuffers => some .uniformBuffer
  | storageBuffers => some .storageBuffer
  | samplers | sampledImages => some .sampledImage
  | storageImages => some .storageImage

def limit (limits : Limits) : LimitKind → Nat
  | boundDescriptorSets => limits.maxBoundDescriptorSets
  | samplers => limits.maxPerStageDescriptorSamplers
  | uniformBuffers => limits.maxDescriptorSetUniformBuffers
  | storageBuffers => limits.maxDescriptorSetStorageBuffers
  | sampledImages => limits.maxDescriptorSetSampledImages
  | storageImages => limits.maxDescriptorSetStorageImages

end LimitKind

namespace LayoutMap

def count (layout : LayoutMap) (category : Category) : Nat :=
  layout.resources.countP (·.category? = some category)

def setSpan (layout : LayoutMap) : Nat :=
  match (layout.entries.map (·.1.set)).max? with
  | some highest => highest + 1
  | none => 0

end LayoutMap

namespace Binder

variable {layout : LayoutMap} {options : BindOptions} {b b' : Backend}

def exactCount (layout : LayoutMap) (options : BindOptions) (kind : LimitKind) : Nat :=
  match kind.category? with
  | some category => layout.count category
  | none => layout.setSpan + options.builtins.length

def firstExceeded? (layout : LayoutMap) (options : BindOptions) : Option LimitKind :=
  (Named.all : List LimitKind).find? fun kind =>
    kind.limit options.limits < exactCount layout options kind

theorem setCountOf_eq_setSpan (layout : LayoutMap) : setCountOf layout = layout.setSpan := by
  rcases setCountOf_eq layout with ⟨hnil, hcount⟩ | ⟨highest, ⟨⟨entry, hmem, hset⟩, hle⟩, hcount⟩
  · rw [hcount, LayoutMap.setSpan, hnil]
    rfl
  · have hmax : (layout.entries.map (·.1.set)).max? = some highest := by
      refine List.max?_eq_some_iff.mpr ⟨List.mem_map.mpr ⟨entry, hmem, hset⟩, fun set h => ?_⟩
      obtain ⟨other, hother, rfl⟩ := List.mem_map.mp h
      exact hle ⟨other, hother, rfl⟩
    rw [hcount, LayoutMap.setSpan, hmax]

theorem countOf_eq (layout : LayoutMap) (category : Category) :
    countOf layout category = layout.count category := by
  rw [countOf, declared, LayoutMap.count, LayoutMap.resources, List.countP_filterMap,
    List.countP_map]
  congr 1
  funext entry
  simp only [Function.comp_apply]
  cases entry.2.category? <;> simp

theorem limitChecks_eq (layout : LayoutMap) (options : BindOptions) :
    limitChecks layout options = (Named.all : List LimitKind).map fun kind =>
      (kind, if kind.category? = none then Width.word.wrap (exactCount layout options kind)
        else exactCount layout options kind, kind.limit options.limits) := by
  simp only [limitChecks, countOf_eq, setCountOf_eq_setSpan]
  rfl

theorem checkLimits_eq
    (hfew : layout.setSpan + options.builtins.length < Width.word.bound) :
    checkLimits layout options = match firstExceeded? layout options with
      | some kind => .error (.limitExceeded kind (exactCount layout options kind)
          (kind.limit options.limits))
      | none => .ok () := by
  have hchecks : limitChecks layout options = (Named.all : List LimitKind).map fun kind =>
      (kind, exactCount layout options kind, kind.limit options.limits) := by
    rw [limitChecks_eq]
    refine List.map_congr_left fun kind _ => ?_
    split
    · rename_i hnone
      have hcount : exactCount layout options kind < Width.word.bound := by
        rwa [exactCount, hnone]
      rw [Width.wrap, Nat.mod_eq_of_lt hcount]
    · rfl
  rw [checkLimits, hchecks, List.find?_map, firstExceeded?]
  simp only [Function.comp_def]
  cases List.find? _ (Named.all : List LimitKind) <;> rfl

end Binder

def Call.makesBacking : Call → Bool
  | allocateBuffer .. | allocateImage .. | transferImage .. | createView .. | createSampler => true
  | _ => false

def Event.FailsBacking (event : Event) : Prop :=
  event.call.makesBacking = true ∧ event.result = .failed

namespace ImageInfo

variable {info : ImageInfo}

theorem dataSize_of_lt (h : info.width * info.height < 2 ^ 32) :
    ∃ size, info.dataSize = .ok size ∧ size < 2 ^ 63 := by
  have hbytes : info.format.bytesPerPixel ≤ 16 := by cases info.format <;> decide
  have hsize : info.width * info.height * info.format.bytesPerPixel < 2 ^ 32 * 17 :=
    Nat.mul_lt_mul'' h (by omega)
  refine ⟨info.width * info.height * info.format.bytesPerPixel,
    Except.bind_eq_ok.mpr ⟨info.width * info.height, ?_, ?_⟩, ?_⟩
  · exact Checked.mul_eq_ok_iff.mpr ⟨Nat.lt_trans h (by decide), rfl⟩
  · exact Checked.mul_eq_ok_iff.mpr ⟨Nat.lt_trans hsize (by decide), rfl⟩
  · exact Nat.lt_trans hsize (by decide)

theorem exists_solid (h : info.width * info.height < 2 ^ 32) (color : Color) :
    ∃ pixels, info.solid color = .ok pixels :=
  ⟨_, Except.bind_eq_ok.mpr ⟨_, Checked.mul_eq_ok_iff.mpr ⟨h, rfl⟩, rfl⟩⟩

end ImageInfo

namespace Allocator

theorem allocate_ne_fault {a : Allocator} {kind : BlockKind} {size : Nat} {name : String}
    (h : size < 2 ^ 63) (fault : Fault) :
    a.allocate kind (.ok size) name ≠ .error (.fault fault) := by
  have hzeroed : Memory.zeroed size = .ok ⟨size, [], by simp⟩ := if_pos h
  intro hfault
  unfold allocate at hfault
  split at hfault
  · cases hfault
  · change Except.bind ((Memory.zeroed size).mapError Failure.fault) _ = _ at hfault
    rw [hzeroed] at hfault
    cases hfault

theorem upload_ne_fault {a : Allocator} {image : Allocation} {info : ImageInfo} {pixels : Bytes}
    {size : Nat} (h : info.dataSize = .ok size) (fault : Fault) :
    (a.upload image info pixels).map ((), ·) ≠ .error (.fault fault) := by
  intro hfault
  unfold upload at hfault
  rw [h] at hfault
  change Except.map _ (if pixels.length ≠ size then _ else _) = _ at hfault
  split at hfault <;> cases hfault

end Allocator

namespace Backing

variable {b : Backend}

theorem returns_makeBuffer {size : Nat} (h : size < 2 ^ 63) (name : String) (usage : BufferUsage) :
    (makeBuffer name size usage).Returns Event.FailsBacking b := by
  refine .bind (.mapError (.onAllocator ?_ ⟨rfl, rfl⟩)) fun _ _ => .pure _
  exact Allocator.allocate_ne_fault (by omega)

theorem returns_makeImage {info : ImageInfo} (h : info.width * info.height < 2 ^ 32)
    (name : String) (pixels : Bytes) (sampled : Bool) :
    (makeImage name info pixels sampled).Returns Event.FailsBacking b := by
  obtain ⟨size, hsize, hlt⟩ := ImageInfo.dataSize_of_lt h
  refine .bind (.mapError (.onAllocator ?_ ⟨rfl, rfl⟩)) fun allocation b₁ => ?_
  · rw [hsize]
    exact Allocator.allocate_ne_fault hlt
  refine .withUndo ?_ fun _ => extendsCalls.deallocate
  refine .bind (.mapError (.onAllocator ?_ ⟨rfl, rfl⟩)) fun _ b₂ => ?_
  · exact Allocator.upload_ne_fault hsize
  refine .bind (.mapError (.onDevice nofun ⟨rfl, rfl⟩)) fun view b₃ => ?_
  refine .withUndo ?_ fun _ => extendsCalls.destroy
  cases sampled with
  | false => exact .pure _
  | true =>
    exact .bind (.map (.mapError (.onDevice nofun ⟨rfl, rfl⟩))) fun _ _ => .pure _

theorem returns_make {options : BindOptions} {resource : Resource}
    (htexels : options.placeholder.width * options.placeholder.height < 2 ^ 32)
    (hsize : resource.type.size < 2 ^ 32) (pixels : Bytes) (category : Category) :
    (make options pixels resource category).Returns Event.FailsBacking b := by
  have hlt : resource.type.size < 2 ^ 63 := Nat.lt_trans hsize (by decide)
  cases category with
  | uniformBuffer | storageBuffer => exact returns_makeBuffer hlt _ _
  | sampledImage => exact returns_makeImage htexels _ _ _
  | storageImage =>
    refine returns_makeImage ?_ _ _ _
    exact htexels

end Backing

namespace Binder

variable {layout : LayoutMap} {options : BindOptions} {b b' : Backend}

/-- What is needed for no size of a bind to leave its width. -/
structure Fits (layout : LayoutMap) (options : BindOptions) : Prop where
  entries : layout.size < 2 ^ 30
  texels : options.placeholder.width * options.placeholder.height < 2 ^ 32
  sizes : ∀ resource ∈ layout.resources, resource.type.size < 2 ^ 32

theorem returns_makeResources (hfits : Fits layout options) (pixels : Bytes) :
    (makeResources options pixels layout).Returns Event.FailsBacking b := by
  refine .makeAll (fun bound b => bound.backing.leaves_dispose extendsCalls.fresh) ?_ b
  rintro ⟨key, resource, category⟩ hmem b
  obtain ⟨⟨key', resource'⟩, hentry, hdeclared⟩ := List.mem_filterMap.mp hmem
  obtain ⟨category', -, heq⟩ := Option.map_eq_some_iff.mp hdeclared
  cases heq
  have hresource : resource ∈ layout.resources := List.mem_map_of_mem hentry
  refine .bind ?_ fun _ _ => .pure _
  exact Backing.returns_make hfits.texels (hfits.sizes resource hresource) pixels category

theorem bind_eq (hfits : Fits layout options) :
    ∃ (pixels : Bytes) (rest : List BoundResource → Native BindError Binder),
      bind layout options = makeResources options pixels layout >>= fun resources =>
        withUndo (disposeResources resources)
          (ofExcept (checkLimits layout options) >>= fun _ => rest resources) := by
  have hentries : layout.size + 1 < 2 ^ 32 :=
    Nat.lt_trans (Nat.succ_lt_succ hfits.entries) (by decide)
  obtain ⟨counters, hcounters⟩ := PoolSizes.exists_ofLayoutMap hentries
  obtain ⟨pixels, hpixels⟩ := ImageInfo.exists_solid hfits.texels options.fill
  unfold bind
  rw [hcounters, hpixels]
  exact ⟨pixels, _, rfl⟩

theorem result_of_checkLimits (hv : b.Valid) (hfits : Fits layout options) {error : BindError}
    (hlimit : checkLimits layout options = .error error) {result : Outcome BindError Binder}
    (h : (bind layout options).exec b = (result, b')) (hmade : ¬ b.Shows Event.FailsBacking b') :
    result = .error (.error error) := by
  obtain ⟨pixels, rest, hbind⟩ := bind_eq hfits
  rw [hbind, exec_bind] at h
  obtain ⟨resources, made, hresources⟩ :=
    (returns_makeResources hfits pixels (b := b)).exists_ok fun failure b₁ hfailed => by
      rw [hfailed] at h
      cases h
      exact hmade
  obtain ⟨hreaches, hlive⟩ := (makes_makeResources options pixels layout hv).of_ok hresources
  obtain ⟨undone, hundo, -⟩ := frees_disposeResources (ε := BindError) resources hreaches.valid
    hv.closed hlive
  rw [hresources] at h
  dsimp only at h
  rw [exec_withUndo, hlimit, exec_bind, exec_ofExcept] at h
  dsimp only [Except.mapError] at h
  rw [hundo] at h
  cases h
  rfl

/-- Where a limit is exceeded, no layout, pool or set is asked for. -/
theorem leaves_bind_apart {error : BindError} (hfits : Fits layout options)
    (hlimit : checkLimits layout options = .error error) :
    (bind layout options).Leaves (Extends Event.Apart) b := by
  obtain ⟨pixels, rest, hbind⟩ := bind_eq hfits
  rw [hbind]
  refine .bind (leaves_makeResources Event.Apart.calls.fresh _ _ _) fun resources b₁ _ => ?_
  refine .withUndo ?_ fun _ => leaves_disposeResources Event.Apart.calls.fresh resources
  refine .ofExcept_bind (refl b₁) fun _ hok => ?_
  rw [hlimit] at hok
  cases hok

theorem checkLimits_of_result {kind : LimitKind} {count limit : Nat}
    (h : (bind layout options).exec b =
      (.error (.error (.limitExceeded kind count limit)), b')) :
    checkLimits layout options = .error (.limitExceeded kind count limit) := by
  have hreports : (bind layout options).Reports fun e =>
      e = .limitExceeded kind count limit → checkLimits layout options = .error e :=
    reports_bind_of ⟨nofun, nofun, nofun, nofun, fun _ hlimits _ => hlimits⟩
  exact hreports _ _ _ h rfl

theorem checkLimits_eq_error_iff
    (hfew : exactCount layout options .boundDescriptorSets < 2 ^ 32) {kind : LimitKind}
    {count limit : Nat} :
    checkLimits layout options = .error (.limitExceeded kind count limit) ↔
      firstExceeded? layout options = some kind ∧ count = exactCount layout options kind ∧
        limit = kind.limit options.limits := by
  rw [checkLimits_eq hfew]
  cases firstExceeded? layout options with
  | none => simp
  | some first =>
    simp only [Except.error.injEq, BindError.limitExceeded.injEq, Option.some.injEq]
    constructor
    · rintro ⟨rfl, rfl, rfl⟩
      exact ⟨rfl, rfl, rfl⟩
    · rintro ⟨rfl, rfl, rfl⟩
      exact ⟨rfl, rfl, rfl⟩

theorem exists_firstExceeded_iff :
    (∃ kind, firstExceeded? layout options = some kind) ↔
      ∃ kind : LimitKind, kind.limit options.limits < exactCount layout options kind := by
  rw [← Option.isSome_iff_exists, firstExceeded?, List.find?_isSome]
  simp [LimitKind.mem_all]

/-- What a bind has to answer if its backings can be made. -/
structure LimitsEnforced (layout : LayoutMap) (options : BindOptions)
    (result : Outcome BindError Binder) (events : List Event) : Prop where
  exceeded : (∃ kind count limit, result = .error (.error (.limitExceeded kind count limit))) ↔
    ∃ kind : LimitKind, kind.limit options.limits < exactCount layout options kind
  first : ∀ kind count limit, result = .error (.error (.limitExceeded kind count limit)) →
    firstExceeded? layout options = some kind ∧ count = exactCount layout options kind ∧
      limit = kind.limit options.limits
  apart : (∃ kind count limit, result = .error (.error (.limitExceeded kind count limit))) →
    ∀ event ∈ events, event.call.onSets = false

/--
If all backings can be made, a bind reports that a limit is exceeded exactly if one is by its exact
count: the first such limit with that count, and without any call for a layout, a pool or a set.
-/
theorem bind_limits_enforced (hv : b.Valid) (hfits : Fits layout options)
    (hfew : exactCount layout options .boundDescriptorSets < 2 ^ 32)
    {result : Outcome BindError Binder} {events : List Event}
    (h : (bind layout options).exec b = (result, b')) (htrace : b'.trace = b.trace ++ events)
    (hmade : ∀ event ∈ events, ¬ event.FailsBacking) :
    LimitsEnforced layout options result events where
  exceeded := by
    rw [← exists_firstExceeded_iff]
    constructor
    · rintro ⟨kind, count, limit, rfl⟩
      exact ⟨kind, ((checkLimits_eq_error_iff hfew).mp (checkLimits_of_result h)).1⟩
    · rintro ⟨kind, hkind⟩
      have hlimit := (checkLimits_eq_error_iff hfew).mpr ⟨hkind, rfl, rfl⟩
      exact ⟨kind, _, _, result_of_checkLimits hv hfits hlimit h (not_shows htrace hmade)⟩
  first kind count limit hresult := by
    subst hresult
    exact (checkLimits_eq_error_iff hfew).mp (checkLimits_of_result h)
  apart := by
    rintro ⟨kind, count, limit, rfl⟩
    have hleaves := (leaves_bind_apart hfits (checkLimits_of_result h)).rel h
    obtain ⟨others, hothers, hapart⟩ := hleaves.record
    obtain rfl := List.append_cancel_left (htrace.symm.trans hothers)
    exact hapart

instance (event : Event) : Decidable event.FailsBacking := inferInstanceAs (Decidable (_ ∧ _))

/-- The highest set index that still lets the sets be counted. -/
theorem bind_limits_enforced_highest :
    let layout := LayoutMap.empty.put ⟨4294967293, 0⟩
      ⟨"block", .descriptor 4294967293 0 .empty .uniformBuffer, .vector .float 4 16⟩ rfl
    let options : BindOptions := { builtins := [[]], placeholder := { width := 1, height := 1 } }
    ∃ b', (bind layout options).exec {} =
        (.error (.error (.limitExceeded .boundDescriptorSets 4294967295 4)), b') ∧
      LimitsEnforced layout options
        (.error (.error (.limitExceeded .boundDescriptorSets 4294967295 4))) b'.trace := by
  intro layout options
  have hresult : ((bind layout options).exec {}).1 =
      .error (.error (.limitExceeded .boundDescriptorSets 4294967295 4)) := by decide +kernel
  have hmade : ∀ event ∈ ((bind layout options).exec {}).2.trace, ¬ event.FailsBacking := by
    decide +kernel
  rcases hexec : (bind layout options).exec {} with ⟨result, b'⟩
  rw [hexec] at hresult hmade
  obtain rfl := hresult
  refine ⟨b', rfl, bind_limits_enforced Backend.valid_empty ⟨by decide, by decide, by decide⟩
    (by decide) hexec (List.nil_append _).symm hmade⟩

/--
Sets that cannot be counted in 32 bits are not counted at all: here their limit is exceeded by far,
and it is the limit of the uniform buffers that is reported.
-/
theorem bind_limits_not_enforced :
    ¬ ∀ (b b' : Backend) (layout : LayoutMap) (options : BindOptions)
      (result : Outcome BindError Binder) (events : List Event), b.Valid → Fits layout options →
      (bind layout options).exec b = (result, b') → b'.trace = b.trace ++ events →
      (∀ event ∈ events, ¬ event.FailsBacking) →
      LimitsEnforced layout options result events := by
  intro hlimits
  let layout := LayoutMap.empty.put ⟨4294967295, 0⟩
    ⟨"u", .descriptor 4294967295 0 Stage.vertex.flag .uniformBuffer,
      .struct (.cons "v" 0 (.vector .float 4 16) .nil) 16⟩ rfl
  let options : BindOptions :=
    { placeholder := { width := 2, height := 2 }
      limits := { maxDescriptorSetUniformBuffers := 0 } }
  have hresult : ((bind layout options).exec {}).1 =
      .error (.error (.limitExceeded .uniformBuffers 1 0)) := by decide +kernel
  have hmade : ∀ event ∈ ((bind layout options).exec {}).2.trace, ¬ event.FailsBacking := by
    decide +kernel
  have hfirst : firstExceeded? layout options = some .boundDescriptorSets := by decide +kernel
  have henforced := hlimits {} _ layout options _ _ Backend.valid_empty
    ⟨by decide, by decide, by decide⟩ rfl (List.nil_append _).symm hmade
  rw [(henforced.first _ _ _ hresult).1] at hfirst
  cases hfirst

end Binder

end ShaderBinding
