import ShaderBinding.Proofs.Binder.Limits

/-! # Placeholder pixels

The bytes of an upload are counted in 64 bits, and the texels of a fill in 32. So there is a fill
exactly for images with fewer than `2 ^ 32` texels. It has all the bytes of an upload, and an
upload of it is refused only by plan.
-/

namespace ShaderBinding

open Native Backend

theorem getElem?_flatten_replicate {α : Type} (xs : List α) {n i : Nat} (h : i < n * xs.length) :
    (List.replicate n xs).flatten[i]? = xs[i % xs.length]? := by
  induction n generalizing i with
  | zero =>
    rw [Nat.zero_mul] at h
    exact absurd h (Nat.not_lt_zero i)
  | succ n ih =>
    rw [List.replicate_succ, List.flatten_cons]
    rcases Nat.lt_or_ge i xs.length with hfirst | hlater
    · rw [List.getElem?_append_left hfirst, Nat.mod_eq_of_lt hfirst]
    · have hrest : i - xs.length < n * xs.length := by
        rw [Nat.succ_mul] at h
        omega
      rw [List.getElem?_append_right hlater, ih hrest, ← Nat.mod_eq_sub_mod hlater]

namespace ImageInfo

variable {info : ImageInfo} {color : Color}

theorem dataSize_eq_ok {size : Nat} (h : info.dataSize = .ok size) :
    size = info.width * info.height * info.format.bytesPerPixel := by
  obtain ⟨texels, htexels, hsize⟩ := Except.bind_eq_ok.mp h
  obtain ⟨-, rfl⟩ := Checked.mul_eq_ok_iff.mp htexels
  exact (Checked.mul_eq_ok_iff.mp hsize).2

theorem solid_eq_ok_iff {pixels : Bytes} : info.solid color = .ok pixels ↔
    info.width * info.height < 2 ^ 32 ∧
      pixels = (List.replicate (info.width * info.height) (texel info.format color)).flatten := by
  constructor
  · intro h
    obtain ⟨count, hcount, hpixels⟩ := Except.bind_eq_ok.mp h
    obtain ⟨hlt, rfl⟩ := Checked.mul_eq_ok_iff.mp hcount
    exact ⟨hlt, (Except.ok.inj hpixels).symm⟩
  · rintro ⟨hlt, rfl⟩
    exact Except.bind_eq_ok.mpr ⟨_, Checked.mul_eq_ok_iff.mpr ⟨hlt, rfl⟩, rfl⟩

theorem solid_of_le (h : 2 ^ 32 ≤ info.width * info.height) (color : Color) :
    info.solid color = .error .mulOverflow := by
  have hmul : Checked.mul32 info.width info.height = .error .mulOverflow :=
    if_neg (Nat.not_lt.mpr h)
  rw [solid, hmul]
  rfl

theorem length_texel (format : ImageFormat) (color : Color) :
    (texel format color).length = format.bytesPerPixel := by
  cases format <;> rfl

theorem getElem?_texel {format : ImageFormat} (color : Color) {i : Nat}
    (h : i < format.bytesPerPixel) : (texel format color)[i]? = color.bytes[i % 4]? := by
  refine getElem?_flatten_replicate color.bytes ?_
  cases format <;> exact h

theorem length_solid {pixels : Bytes} (h : info.solid color = .ok pixels) :
    info.dataSize = .ok pixels.length := by
  obtain ⟨hlt, rfl⟩ := solid_eq_ok_iff.mp h
  obtain ⟨size, hsize, -⟩ := dataSize_of_lt hlt
  simp [hsize, dataSize_eq_ok hsize, length_texel]

theorem getElem?_solid {pixels : Bytes} (h : info.solid color = .ok pixels) {i : Nat}
    (hi : i < pixels.length) : pixels[i]? = color.bytes[i % 4]? := by
  obtain ⟨-, rfl⟩ := solid_eq_ok_iff.mp h
  have hpos : 0 < info.format.bytesPerPixel := by cases info.format <;> decide
  have hfour : 4 ∣ info.format.bytesPerPixel := by cases info.format <;> decide
  rw [List.length_flatten, List.map_replicate, List.sum_replicate_nat] at hi
  rw [getElem?_flatten_replicate _ hi, length_texel, getElem?_texel _ (Nat.mod_lt _ hpos),
    Nat.mod_mod_of_dvd _ hfour]

end ImageInfo

theorem Allocator.exists_upload {info : ImageInfo} {pixels : Bytes}
    (h : info.dataSize = .ok pixels.length) (a : Allocator) (image : Allocation) :
    ∃ a', a.upload image info pixels = .ok a' := by
  unfold upload
  rw [h]
  change ∃ a', (if pixels.length ≠ pixels.length then _ else _) = _
  rw [if_neg (not_not.mpr rfl)]
  exact ⟨_, rfl⟩

theorem Native.plans_of_transferImage {info : ImageInfo} {pixels : Bytes}
    (hpixels : info.dataSize = .ok pixels.length) {image : Allocation} {error : TransferError}
    {b b' : Backend}
    (h : (transferImage image info pixels).exec b = (.error (.error error), b')) :
    b.failures.Plans .transferImage error := by
  rw [transferImage, exec_attempt] at h
  split at h <;> cases h
  rename_i hverdict
  rcases FailurePlan.plans_of_verdict hverdict with hplans | hrefused
  · exact hplans
  · obtain ⟨a, ha⟩ := Allocator.exists_upload hpixels (b.counted .transferImage).allocator image
    rw [onAllocator, ha] at hrefused
    cases hrefused

/-- An error of making things one by one is one of making a thing. -/
theorem Native.exec_makeAll_eq_error {ε α β : Type} {R : Backend → Backend → Prop}
    [IsPreorder Backend R] {make : α → Native ε β} {undo : β → Native ε Unit}
    (hmake : ∀ a b, (make a).Leaves R b) (hundo : ∀ c, (undo c).Quiet) {items : List α} {e : ε}
    {b b' : Backend} (h : (makeAll make undo items).exec b = (.error (.error e), b')) :
    ∃ a ∈ items, ∃ b₁ b₂, R b b₁ ∧ (make a).exec b₁ = (.error (.error e), b₂) := by
  induction items generalizing b b' with
  | nil => cases h
  | cons a rest ih =>
    rcases exec_bind_eq_error.mp h with hfirst | ⟨c, b₁, hfirst, h⟩
    · exact ⟨a, List.mem_cons_self, b, b', refl b, hfirst⟩
    · rcases exec_bind_eq_error.mp h with hrest | ⟨others, b₂, -, hpure⟩
      · obtain ⟨b₂, hrest, -⟩ := (exec_withUndo_eq_error (hundo c)).mp hrest
        obtain ⟨later, hmem, b₃, b₄, hR, hlater⟩ := ih hrest
        exact ⟨later, List.mem_cons_of_mem _ hmem, b₃, b₄,
          IsTrans.trans _ _ _ ((hmake a b).rel hfirst) hR, hlater⟩
      · cases hpure

theorem Backing.plans_of_makeImage {name name' : String} {info : ImageInfo} {pixels : Bytes}
    {sampled : Bool} (hpixels : info.dataSize = .ok pixels.length) {error : TransferError}
    {b b' : Backend}
    (h : (makeImage name info pixels sampled).exec b = (.error (.error (.transfer name' error)), b')) :
    b.failures.Plans .transferImage error := by
  rcases exec_bind_eq_error.mp h with hallocate | ⟨allocation, b₁, hallocate, h⟩
  · obtain ⟨_, heq, -⟩ := exec_mapError_eq_error.mp hallocate
    cases heq
  obtain ⟨b₂, h, -⟩ := (exec_withUndo_eq_error .perform).mp h
  rcases exec_bind_eq_error.mp h with htransfer | ⟨_, b₃, -, h⟩
  · obtain ⟨_, heq, htransfer⟩ := exec_mapError_eq_error.mp htransfer
    cases heq
    have hextends := extendsCalls.allocateImage.rel (exec_mapError_eq_ok.mp hallocate)
    exact hextends.plan _ _ (plans_of_transferImage hpixels htransfer)
  -- What follows the upload reports errors of the device only.
  · refine absurd rfl (Reports.bind (p := (· ≠ .transfer name' error)) (.mapError nofun)
      (fun view => .withUndo .perform ?_) _ _ _ h)
    cases sampled with
    | false => exact .pure _
    | true => exact .bind (.map (.mapError nofun)) fun _ => .pure _

theorem Backing.plans_of_make {options : BindOptions} {pixels : Bytes}
    (hpixels : options.placeholder.solid options.fill = .ok pixels) {resource : Resource}
    {category : Category} {name : String} {error : TransferError} {b b' : Backend}
    (h : (make options pixels resource category).exec b =
      (.error (.error (.transfer name error)), b')) :
    b.failures.Plans .transferImage error := by
  -- How an image will be used does not count for its size.
  have hlength (usage : ImageUsage) :
      { options.placeholder with usage }.dataSize = .ok pixels.length :=
    ImageInfo.length_solid hpixels
  have hbuffer (size : Nat) (usage : BufferUsage) :
      (makeBuffer resource.name size usage).Reports (· ≠ .transfer name error) :=
    .bind (.mapError nofun) fun _ => .pure _
  cases category with
  | uniformBuffer => exact absurd rfl (hbuffer resource.type.size .uniform _ _ _ h)
  | storageBuffer => exact absurd rfl (hbuffer resource.type.size .storage _ _ _ h)
  | sampledImage => exact plans_of_makeImage (hlength _) h
  | storageImage => exact plans_of_makeImage (hlength _) h

namespace Binder

variable {layout : LayoutMap} {options : BindOptions} {b b' : Backend}

theorem plans_of_makeResources {pixels : Bytes}
    (hpixels : options.placeholder.solid options.fill = .ok pixels) {name : String}
    {error : TransferError} (h : (makeResources options pixels layout).exec b =
      (.error (.error (.transfer name error)), b')) :
    b.failures.Plans .transferImage error := by
  have hmake (entry : BindingKey × Resource × Category) (b : Backend) :
      (do return ⟨entry.1, entry.2.1, .ofCategory entry.2.2,
          ← Backing.make options pixels entry.2.1 entry.2.2⟩ :
        Native BindError BoundResource).Leaves (Extends fun _ => True) b :=
    .bind (Backing.leaves_make extendsCalls.fresh _ _ _ _) fun _ _ _ => .pure _
  obtain ⟨⟨key, resource, category⟩, -, b₁, b₂, hextends, h⟩ :=
    exec_makeAll_eq_error hmake (fun bound => bound.backing.quiet_dispose) h
  rcases exec_bind_eq_error.mp h with h | ⟨_, _, -, h⟩
  · exact hextends.plan _ _ (Backing.plans_of_make hpixels h)
  · cases h

theorem plans_of_bind {name : String} {error : TransferError}
    (h : (bind layout options).exec b = (.error (.error (.transfer name error)), b')) :
    b.failures.Plans .transferImage error := by
  refine error_of_bind
    (p := fun e => e = .transfer name error → b.failures.Plans .transferImage error)
    nofun nofun (fun e hlimits => ?_) (fun pixels e b' hpixels hmake => ?_) h rfl
  · unfold checkLimits at hlimits
    split at hlimits <;> cases hlimits
    exact nofun
  · rintro rfl
    exact plans_of_makeResources hpixels hmake

/-- Where an image has too many texels to be filled, a bind ends before it does anything. -/
theorem exec_bind_of_le (h : 2 ^ 32 ≤ options.placeholder.width * options.placeholder.height) :
    ∃ fault, (bind layout options).exec b = (.error (.fault fault), b) := by
  unfold bind
  rw [exec_bind]
  cases PoolSizes.ofLayoutMap layout with
  | error fault => exact ⟨fault, rfl⟩
  | ok counters =>
    rw [ImageInfo.solid_of_le h]
    exact ⟨_, rfl⟩

/--
If a full upload of an image can be counted, a fill of it has all the bytes of the upload and is
accepted, or there are too many texels for a fill. A bind never reports that the placeholder
pixels were refused, but by plan, and if they cannot be made it ends before it does anything.
-/
theorem bind_placeholder_fits (info : ImageInfo) (color : Color) :
    (∀ size, info.dataSize = .ok size →
      if info.width * info.height < 2 ^ 32 then
        ∃ pixels, info.solid color = .ok pixels ∧ pixels.length = size ∧
          (∀ i < size, pixels[i]? = color.bytes[i % 4]?) ∧
          ∀ (a : Allocator) (image : Allocation), ∃ a', a.upload image info pixels = .ok a'
      else info.solid color = .error .mulOverflow) ∧
    ∀ (layout : LayoutMap) (options : BindOptions) (b : Backend), options.placeholder = info →
      options.fill = color →
      if info.width * info.height < 2 ^ 32 then
        ∀ name error b', (bind layout options).exec b =
          (.error (.error (.transfer name error)), b') → b.failures.Plans .transferImage error
      else ∃ fault, (bind layout options).exec b = (.error (.fault fault), b) := by
  constructor
  · intro size hsize
    split
    · rename_i hlt
      obtain ⟨pixels, hpixels⟩ := ImageInfo.exists_solid hlt color
      have hlength := ImageInfo.length_solid hpixels
      obtain rfl : pixels.length = size := Except.ok.inj (hlength.symm.trans hsize)
      exact ⟨pixels, hpixels, rfl, fun i hi => ImageInfo.getElem?_solid hpixels hi,
        Allocator.exists_upload hlength⟩
    · rename_i hge
      exact ImageInfo.solid_of_le (Nat.not_lt.mp hge) color
  · rintro layout options b rfl rfl
    split
    · intro name error b' h
      exact plans_of_bind h
    · rename_i hge
      exact exec_bind_of_le (Nat.not_lt.mp hge)

/-- An image in a wide format, and an upload that is planned to fail. -/
theorem bind_placeholder_fits_wide :
    let info : ImageInfo := { width := 2, height := 3, format := .rgba16Sfloat }
    let color : Color := ⟨1, 2, 3, 4⟩
    let layout := LayoutMap.empty.put ⟨0, 0⟩
      ⟨"image", .descriptor 0 0 .empty .image, .image ⟨.d2, true, false, false, false, ""⟩⟩ rfl
    let options : BindOptions := { placeholder := info, fill := color }
    let b : Backend := { failures := [⟨.transferImage, 0, .dataSizeMismatch 1 2⟩] }
    (∃ pixels, info.solid color = .ok pixels ∧ pixels.length = 48 ∧
      ∀ i < 48, pixels[i]? = color.bytes[i % 4]?) ∧
    ∃ b', (bind layout options).exec b =
        (.error (.error (.transfer "image" (.dataSizeMismatch 1 2))), b') ∧
      b.failures.Plans .transferImage (.dataSizeMismatch 1 2) := by
  intro info color layout options b
  have hresult : ((bind layout options).exec b).1 =
      .error (.error (.transfer "image" (.dataSizeMismatch 1 2))) := by
    decide +kernel
  obtain ⟨hfills, hbinds⟩ := bind_placeholder_fits info color
  obtain ⟨pixels, hpixels, hlength, hbytes, -⟩ := hfills 48 (by decide)
  rcases hexec : (bind layout options).exec b with ⟨result, b'⟩
  rw [hexec] at hresult
  cases hresult
  exact ⟨⟨pixels, hpixels, hlength, hbytes⟩, b', rfl, hbinds layout options b rfl rfl _ _ b' hexec⟩

/-- An upload of `2 ^ 32` texels can be counted, and a fill of them cannot. -/
theorem bind_placeholder_overflow :
    let info : ImageInfo := { width := 65536, height := 65536 }
    info.dataSize = .ok 17179869184 ∧ info.solid .white = .error .mulOverflow ∧
      (bind .empty { placeholder := info }).exec {} = (.error (.fault .mulOverflow), {}) :=
  ⟨by decide, by decide, rfl⟩

end Binder

end ShaderBinding
