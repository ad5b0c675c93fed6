import ShaderBinding.Proofs.Binder.Sharing

/-! # Replacing an image in place

A replacement that changes a binder in place puts the new image in before the descriptor is written
again and the old image is released. Everything that can fail comes before that, so that the binder
has the old image when there is an error, and the new one when there is none.
-/

namespace ShaderBinding

open Native Backend Record

variable {start b b' : Backend}

namespace Binder

/-- The resource that is bound at a key and the new image for it; nothing is replaced yet. -/
def prepareImage (binder : Binder) (key : BindingKey) (info : ImageInfo) (pixels : Bytes) :
    Native BindError (BoundResource × Backing) := do
  let bound ← ofExcept (binder.find key)
  match bound.backing with
  | .buffer _ => fail (.wrongKind key.set key.binding "an image")
  | .image _ old _ sampler => do
    mapError .device waitIdle
    let info := { info with usage := info.usage ||| old.usage }
    let backing ← Backing.makeImage bound.resource.name info pixels sampler.isSome
    return (bound, backing)

def finishImage (binder : Binder) (bound : BoundResource) (backing : Backing) :
    Native BindError Unit := do
  updateSets [← ofExcept (writeOf binder.setCount binder.sets { bound with backing })]
  bound.backing.dispose

/-- Replace an image in a binder that is there. Whatever comes of it, it leaves a binder. -/
def replaceInPlace (binder : Binder) (key : BindingKey) (info : ImageInfo) (pixels : Bytes)
    (b : Backend) : Outcome BindError Unit × Binder × Backend :=
  match (binder.prepareImage key info pixels).exec b with
  | (.error failure, b) => (.error failure, binder, b)
  | (.ok (bound, backing), b) =>
    let changed := binder.setBacking key backing
    let (result, b) := (changed.finishImage bound backing).exec b
    (result, changed, b)

variable {binder changed : Binder} {binders : List Binder} {key : BindingKey} {info : ImageInfo}
  {pixels : Bytes} {bound : BoundResource} {backing : Backing}

theorem finishImage_setBacking (binder : Binder) (key : BindingKey) (new : Backing) :
    (binder.setBacking key new).finishImage bound backing = binder.finishImage bound backing := rfl

theorem replaceImage_eq (binder : Binder) (key : BindingKey) (info : ImageInfo) (pixels : Bytes) :
    binder.replaceImage key info pixels = (do
      let (bound, backing) ← binder.prepareImage key info pixels
      binder.finishImage bound backing
      return binder.setBacking key backing) := by
  unfold replaceImage prepareImage
  rw [bind_assoc]
  refine bind_congr fun bound => ?_
  cases hbacking : bound.backing with
  | buffer => rfl
  | image => simp only [finishImage, hbacking, bind_assoc, pure_bind]

/-- Both ways to replace an image do the same, but one does not tell what a failure leaves. -/
theorem exec_replaceImage (binder : Binder) (key : BindingKey) (info : ImageInfo) (pixels : Bytes)
    (b : Backend) : (binder.replaceImage key info pixels).exec b =
      match binder.replaceInPlace key info pixels b with
      | (.ok (), changed, b') => (.ok changed, b')
      | (.error failure, _, b') => (.error failure, b') := by
  rw [replaceImage_eq, exec_bind]
  unfold replaceInPlace
  rcases (binder.prepareImage key info pixels).exec b with ⟨_ | ⟨bound, backing⟩, b₁⟩
  · rfl
  dsimp only
  rw [exec_bind, finishImage_setBacking]
  rcases (binder.finishImage bound backing).exec b₁ with ⟨_ | _, b₂⟩ <;> rfl

theorem makes_prepareImage (binder : Binder) (key : BindingKey) (info : ImageInfo)
    (pixels : Bytes) :
    Makes (binder.prepareImage key info pixels) fun prepared => prepared.2.objects := by
  refine .of_owns (.ofExcept_bind fun bound _ => ?_)
  cases bound.backing with
  | buffer => exact .fail
  | image allocation old view sampler =>
    refine .idle makes_waitIdle.mapError fun _ => ?_
    exact .make (Backing.makes_makeImage _ _ _ _) fun backing => .pure rfl

theorem leaves_prepareImage {R : Backend → Backend → Prop} [IsPreorder Backend R]
    (calls : FreshCalls R) (hwait : ∀ {b}, waitIdle.Leaves R b) :
    (binder.prepareImage key info pixels).Leaves R b := by
  refine .ofExcept_bind (refl b) fun bound _ => ?_
  cases bound.backing with
  | buffer => exact .fail _
  | image allocation old view sampler =>
    refine .bind (.mapError hwait) fun _ b₁ _ => ?_
    exact .bind (Backing.leaves_makeImage calls _ _ _ _) fun _ _ _ => .pure _

theorem find_of_prepareImage
    (h : (binder.prepareImage key info pixels).exec b = (.ok (bound, backing), b')) :
    binder.find key = .ok bound := by
  obtain ⟨found, _, hlookup, h₁⟩ := exec_bind_eq_ok.mp h
  obtain ⟨hfind, rfl⟩ := exec_ofExcept_eq_ok.mp hlookup
  cases hbacking : found.backing with
  | buffer => simp [hbacking] at h₁
  | image allocation old view sampler =>
    rw [hbacking] at h₁
    obtain ⟨_, _, -, h₂⟩ := exec_bind_eq_ok.mp h₁
    obtain ⟨_, _, -, h₃⟩ := exec_bind_eq_ok.mp h₂
    cases h₃
    exact hfind

theorem exec_finishImage (hs : binder.Sound) (hmem : bound ∈ binder.resources) (hv : b.Valid)
    {rest : Multiset NativeObject} (hrest : NativeObject.Closed rest)
    (hlive : b.live = rest + (binder.objects + backing.objects)) :
    ∃ b', (binder.finishImage bound backing).exec b = (.ok (), b') := by
  obtain ⟨set, hset⟩ := hs.set bound hmem
  have hwriteOf : writeOf binder.setCount binder.sets { bound with backing } =
      .ok ⟨set, bound.key.binding, BoundResource.descriptor { bound with backing }⟩ := by
    simp only [writeOf, hset]
  generalize BoundResource.descriptor { bound with backing } = descriptor at hwriteOf
  have hsets : ∀ write ∈ [(⟨set, bound.key.binding, descriptor⟩ : DescriptorWrite)],
      ∃ home, .set home write.set.id ∈ b.live := by
    intro write hwrite
    rw [List.mem_singleton.mp hwrite, hlive]
    exact ⟨binder.pool, Multiset.mem_add.mpr (Or.inr
      (Multiset.mem_add.mpr (Or.inl (mem_objects_of_shaderSet? hset))))⟩
  obtain ⟨b₁, hupdate, hb, hlive₁⟩ := exists_updateSets (ε := BindError) hv hsets
  -- The old backing is no longer among the objects of the binder, and so it can be released.
  obtain ⟨b', hdispose, -⟩ := bound.backing.frees_dispose (ε := BindError) hb.valid
    (hrest.add (closed_objects (binder.setBacking bound.key backing)))
    (by rw [hlive₁, hlive, ← objects_setBacking hs hmem, add_assoc])
  refine ⟨b', exec_bind_eq_ok.mpr ⟨_, b, by rw [hwriteOf]; rfl, ?_⟩⟩
  exact exec_bind_eq_ok.mpr ⟨(), b₁, hupdate, hdispose⟩

/-- A binder differs in one backing, which is a new image, and the old one is no more. -/
structure ReplacedBy (binder : Binder) (key : BindingKey) (info : ImageInfo) (pixels : Bytes)
    (b : Backend) (changed : Binder) (b' : Backend) (bound : BoundResource) (backing : Backing) :
    Prop where
  found : binder.get? key = some bound
  image : ∃ allocation old view sampler allocation' view' sampler',
    bound.backing = .image allocation old view sampler ∧
    backing = .image allocation' { info with usage := info.usage ||| old.usage } view' sampler' ∧
    sampler'.isSome = sampler.isSome
  same : binder.SameLayout changed
  here : changed.get? key = some { bound with backing }
  elsewhere : ∀ other ≠ key, changed.get? other = binder.get? other
  size : backing.allocation.size = pixels.length
  contents : b'.allocator.bytes? backing.allocation.memory = some pixels
  memory : ∀ id, id ≠ bound.backing.allocation.memory → id ≠ backing.allocation.memory →
    b'.allocator.bytes? id = b.allocator.bytes? id
  mapped : b'.allocator.mapped = b.allocator.mapped
  live : b'.live + bound.backing.objects = b.live + backing.objects
  fresh : ∀ o ∈ backing.objects, o ∉ b.live
  record : ∃ events, b'.trace = b.trace ++ events ∧ Record.created events = backing.objects ∧
    Record.released events = bound.backing.objects.reverse
  written : ∃ set, shaderSet? binder.setCount binder.sets key.set = some set ∧
    b'.device.writes = b.device.writes ++
      [⟨set, key.binding, BoundResource.descriptor { bound with backing }⟩]

theorem Shared.exists_rest (h : Shared start binders b) (hstart : start.Valid)
    (hmem : binder ∈ binders) :
    ∃ rest, NativeObject.Closed rest ∧ b.live = rest + binder.objects :=
  ⟨_, hstart.closed.add (closed_allObjects _), (h.perm (List.perm_cons_erase hmem)).live_cons⟩

/-- Whatever fails in place fails before the binder is changed. -/
theorem replaceInPlace_eq_error (h : Shared start binders b) (hstart : start.Valid)
    (hmem : binder ∈ binders) {failure : Failure BindError}
    (hexec : binder.replaceInPlace key info pixels b = (.error failure, changed, b')) :
    changed = binder ∧ (binder.prepareImage key info pixels).exec b = (.error failure, b') := by
  unfold replaceInPlace at hexec
  rcases hprepare : (binder.prepareImage key info pixels).exec b with ⟨_ | ⟨bound, backing⟩, b₁⟩ <;>
    rw [hprepare] at hexec
  · cases hexec
    exact ⟨rfl, rfl⟩
  obtain ⟨rest, hrest, hlive⟩ := h.exists_rest hstart hmem
  obtain ⟨hb, hlive₁⟩ := (makes_prepareImage binder key info pixels h.valid).of_ok hprepare
  obtain ⟨b₂, hfinish⟩ := exec_finishImage (h.sound binder hmem)
    (mem_of_find (find_of_prepareImage hprepare)).1 hb.valid hrest
    (by rw [hlive₁, hlive, add_assoc])
  dsimp only at hexec
  rw [finishImage_setBacking, hfinish] at hexec
  cases hexec

namespace Replaced

theorem record (replaced : Replaced binder key info pixels b changed b') :
    ∃ events, b'.trace = b.trace ++ events ∧
      Record.created events = replaced.backing.objects ∧
      Record.released events = replaced.bound.backing.objects.reverse := by
  obtain ⟨allocation, view, sampler, hbacking, -, htrace⟩ := replaced.trace_eq
  refine ⟨_, htrace, ?_, ?_⟩
  · rw [hbacking, ← created_imageEvents replaced.bound.resource.name _ pixels allocation]
    simp [created_cons, Event.created, Backing.created_disposeEvents]
  · simp [released_cons, Event.released?, released_imageEvents, Backing.released_disposeEvents]

theorem replacedBy (replaced : Replaced binder key info pixels b changed b')
    (h : Shared start binders b) (hmem : binder ∈ binders) (hb : b.Reaches b')
    (hspares : b.Spares b.allocator.next b')
    (hlive : b'.live + replaced.bound.backing.objects = b.live + replaced.backing.objects) :
    ReplacedBy binder key info pixels b changed b' replaced.bound replaced.backing := by
  obtain ⟨hbound, hkey⟩ := mem_of_find replaced.find
  obtain ⟨events, htrace, hcreated, hreleased⟩ := replaced.record
  have hfresh : ∀ o ∈ replaced.backing.objects, o ∉ b.live := by
    obtain ⟨events', hevents⟩ := hb
    obtain rfl := List.append_cancel_left (htrace.symm.trans hevents.trace_eq)
    exact fun o ho => hevents.not_mem_of_created h.valid (hcreated ▸ ho)
  have hold := h.backs binder hmem _ hbound
  have hlive_iff (o : NativeObject) : o ∈ b'.live ∨ o ∈ replaced.bound.backing.objects ↔
      o ∈ b.live ∨ o ∈ replaced.backing.objects := by
    simpa using congrArg (o ∈ ·) hlive
  -- A new object is none of the old ones, which were live before.
  have hnewLive : ∀ o ∈ replaced.backing.objects, o ∈ b'.live := fun o ho =>
    ((hlive_iff o).mpr (Or.inr ho)).resolve_right fun hold =>
      hfresh o ho (h.mem_live hmem (mem_objects_of_resource hbound hold))
  obtain ⟨hnew, hcontents⟩ := replaced.backs h.valid hnewLive
  obtain ⟨allocation, view, sampler, hbacking, hsampler, -⟩ := replaced.trace_eq
  have hget (other : BindingKey) : changed.get? other = (binder.get? other).map fun bound =>
      if bound.key = key then { bound with backing := replaced.backing } else bound :=
    (congrArg (·.get? other) replaced.changed_eq).trans (get?_setBacking _ _ _ _)
  refine ⟨get?_of_find replaced.find, ⟨_, _, _, _, _, _, _, replaced.image, hbacking, hsampler⟩,
    replaced.changed_eq ▸ .setBacking binder key _, ?_, ?_, ?_, hcontents, ?_, hspares.mapped,
    hlive, hfresh, ⟨events, htrace, hcreated, hreleased⟩, ⟨_, replaced.shader, replaced.writes_eq⟩⟩
  · rw [hget, get?_of_find replaced.find, Option.map_some, if_pos hkey]
  · intro other hother
    rw [hget]
    cases hother' : binder.get? other with
    | none => rfl
    | some found =>
      have hfound : found.key = other := by simpa using List.find?_some hother'
      rw [Option.map_some, if_neg (hfound ▸ hother)]
  · have hlength := hnew.length
    rw [hcontents] at hlength
    exact (Option.some.inj hlength).symm
  · intro id hidOld hidNew
    refine hspares.bytes?_eq_of_live_iff h.valid fun kind => ?_
    have hnotOld : kind.object id ∉ replaced.bound.backing.objects := fun hmem =>
      hidOld (hold.memory ▸ Backing.eq_of_mem_objects hmem)
    have hnotNew : kind.object id ∉ replaced.backing.objects := fun hmem =>
      hidNew (hnew.memory ▸ Backing.eq_of_mem_objects hmem)
    simpa [hnotOld, hnotNew] using hlive_iff (kind.object id)

end Replaced

/--
A replacement that fails leaves everything as it was: the binder, what is live, all memory and all
descriptors. One that succeeds leaves a new image, which holds the pixels, in place of the old one.
It is written to one descriptor, and nothing but the old image and what belongs to it is released.
-/
theorem replaceImage_atomic (hstart : start.Valid) {acts : List Act}
    (hrun : Act.makeAll acts ([], start) = .ok (binders, b)) (hmem : binder ∈ binders)
    (key : BindingKey) (info : ImageInfo) (pixels : Bytes) :
    ((binder.replaceImage key info pixels).exec b =
      match binder.replaceInPlace key info pixels b with
      | (.ok (), changed, b') => (.ok changed, b')
      | (.error failure, _, b') => (.error failure, b')) ∧
    (∀ failure changed b',
      binder.replaceInPlace key info pixels b = (.error failure, changed, b') →
        changed = binder ∧ ∀ e, failure = .error e →
          b'.live = b.live ∧ (∀ id, b'.allocator.bytes? id = b.allocator.bytes? id) ∧
          b'.allocator.mapped = b.allocator.mapped ∧ b'.device.writes = b.device.writes) ∧
    ∀ changed b', binder.replaceInPlace key info pixels b = (.ok (), changed, b') →
      ∃ bound backing, ReplacedBy binder key info pixels b changed b' bound backing := by
  have hshared := shared_of_makeAll hstart hrun
  refine ⟨exec_replaceImage binder key info pixels b, ?_, ?_⟩
  · intro failure changed b' hexec
    obtain ⟨hchanged, hprepare⟩ := replaceInPlace_eq_error hshared hstart hmem hexec
    refine ⟨hchanged, ?_⟩
    rintro e rfl
    obtain ⟨-, hlive⟩ :=
      (makes_prepareImage binder key info pixels hshared.valid).of_error hprepare
    have hspares : b.Spares b.allocator.next b' :=
      (leaves_prepareImage Spares.freshCalls Spares.layoutCalls.waitIdle).rel hprepare
    have hwrites : b'.device.writes = b.device.writes :=
      (leaves_prepareImage keeps_writes.fresh leaves_waitIdle_writes).rel hprepare
    exact ⟨hlive, fun id => hspares.bytes?_eq_of_live_iff hshared.valid fun _ => hlive ▸ Iff.rfl,
      hspares.mapped, hwrites⟩
  · intro changed b' hexec
    have hreplace : (binder.replaceImage key info pixels).exec b = (.ok changed, b') := by
      rw [exec_replaceImage, hexec]
    obtain ⟨rest, hrest, hlive⟩ := hshared.exists_rest hstart hmem
    have hsound := hshared.sound binder hmem
    obtain ⟨hb, hlive'⟩ :=
      (owns_replaceImage hsound key info pixels hshared.valid hrest hlive).of_ok hreplace
    have hspares : b.Spares b.allocator.next b' :=
      (leaves_replaceImage Spares.freshCalls Spares.layoutCalls _ _ _ _).rel hreplace
    obtain ⟨replaced⟩ := replaced_of_replaceImage hreplace
    refine ⟨_, _, replaced.replacedBy hshared hmem hb hspares ?_⟩
    obtain ⟨hbound, hkey⟩ := mem_of_find replaced.find
    have hobjects := objects_setBacking hsound hbound replaced.backing
    rw [hkey, ← replaced.changed_eq] at hobjects
    rw [hlive', add_assoc, hobjects, hlive, add_assoc]

/-- The first replacement makes no sampler and leaves what was there, and the second one is made. -/
theorem replaceImage_atomic_texture :
    let layout := LayoutMap.empty.put ⟨0, 1⟩
      ⟨"texture", .descriptor 0 1 .empty .image, .image ⟨.d2, true, false, false, false, ""⟩⟩ rfl
    let options : BindOptions := { placeholder := { width := 1, height := 1 } }
    let start : Backend := { failures := [⟨.createSampler, 1, .deviceLost⟩] }
    let key : BindingKey := ⟨0, 1⟩
    let info : ImageInfo := { width := 1, height := 2, usage := .storage }
    let pixels : Bytes := [1, 2, 3, 4, 5, 6, 7, 8]
    (∃ binder b b', Act.makeAll [.bind layout options] ([], start) = .ok ([binder], b) ∧
      binder.replaceInPlace key info pixels b =
        (.error (.error (.device .deviceLost)), binder, b') ∧
      b'.live = b.live ∧ b'.device.writes = b.device.writes) ∧
    ∃ binder b changed b' bound backing, Act.makeAll [.bind layout options,
        .edit 0 (.replace key info pixels)] ([], start) = .ok ([binder], b) ∧
      binder.replaceInPlace key info pixels b = (.ok (), changed, b') ∧
      ReplacedBy binder key info pixels b changed b' bound backing := by
  intro layout options start key info pixels
  have hstart : start.Valid := ⟨Backend.valid_empty.allocator, Backend.valid_empty.device⟩
  have hresult (acts : List Act) (r : Outcome BindError Unit)
      (h : (Act.makeAll acts ([], start)).map (fun current => current.1.map fun binder =>
        (binder.replaceInPlace key info pixels current.2).1) = .ok [r]) :
      ∃ binder b, Act.makeAll acts ([], start) = .ok ([binder], b) ∧
        (binder.replaceInPlace key info pixels b).1 = r := by
    obtain ⟨⟨binders, b⟩, hrun, hr⟩ := Except.map_eq_ok.mp h
    obtain ⟨binder, rfl, hr⟩ := List.map_eq_singleton_iff.mp hr
    exact ⟨binder, b, hrun, hr⟩
  constructor
  · obtain ⟨binder, b, hrun, hr⟩ := hresult [.bind layout options]
      (.error (.error (.device .deviceLost))) (by decide +kernel)
    rcases hexec : binder.replaceInPlace key info pixels b with ⟨r, changed, b'⟩
    obtain rfl : r = .error (.error (.device .deviceLost)) := by rw [← hr, hexec]
    obtain ⟨-, hfailed, -⟩ :=
      replaceImage_atomic hstart hrun List.mem_cons_self key info pixels
    obtain ⟨rfl, hkept⟩ := hfailed _ changed b' hexec
    obtain ⟨hlive, -, -, hwrites⟩ := hkept _ rfl
    exact ⟨changed, b, b', hrun, hexec, hlive, hwrites⟩
  · obtain ⟨binder, b, hrun, hr⟩ := hresult
      [.bind layout options, .edit 0 (.replace key info pixels)] (.ok ()) (by decide +kernel)
    rcases hexec : binder.replaceInPlace key info pixels b with ⟨r, changed, b'⟩
    obtain rfl : r = .ok () := by rw [← hr, hexec]
    obtain ⟨-, -, hmade⟩ :=
      replaceImage_atomic hstart hrun List.mem_cons_self key info pixels
    obtain ⟨bound, backing, hreplaced⟩ := hmade changed b' hexec
    exact ⟨binder, b, changed, b', bound, backing, hrun, hexec, hreplaced⟩

end Binder

end ShaderBinding
