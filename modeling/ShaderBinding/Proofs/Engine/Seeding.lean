import ShaderBinding.Proofs.Binder.Contents
import ShaderBinding.Proofs.Engine.Ownership
import ShaderBinding.Proofs.PushConstants.Layout
import ShaderBinding.Proofs.Seed

/-! # Seeding what is bound

Seeded data is as long as its type, so that it fits wherever a block of the type was made. Zeroed
push constants and buffers therefore take it all, and only a mapping that was planned to fail can
keep a buffer from it.
-/

namespace ShaderBinding

open Native Backend

namespace ShaderType

variable {type : ShaderType} {camera : Camera}

/-- The bytes that a block starts with: zeros where nothing is seeded. -/
def initialBytes (type : ShaderType) (camera : Camera) : Checked Bytes := do
  return (← type.defaultData camera).getD (Bytes.zeros type.size)

theorem initialBytes_eq_ok {seeded : Option Bytes} (h : type.defaultData camera = .ok seeded) :
    type.initialBytes camera = .ok (seeded.getD (Bytes.zeros type.size)) := by
  rw [initialBytes, h]
  rfl

end ShaderType

namespace PushConstants

def initialData (camera : Camera) (block : Stage × Resource) : Checked (Stage × Bytes) := do
  return (block.1, ← block.2.type.initialBytes camera)

theorem write_eq {p : PushConstants} {stage : Stage} {old data : Bytes}
    (h : p.data.get? stage = some old) (hlength : data.length = old.length) :
    p.write stage 0 data = .ok { p with data := p.data.insert stage data } := by
  have hfits : ¬ old.length < 0 + data.length := by omega
  have hall : old.overwrite 0 data = data := by simp [Bytes.overwrite, hlength]
  simp only [write, h, if_neg hfits, hall]

section Seed

variable {camera : Camera} {p : PushConstants} {stage : Stage} {block : Resource}
  {rest : List (Stage × Resource)}

theorem seed_cons (hzeros : p.data.get? stage = some (Bytes.zeros block.type.size)) :
    p.seed camera ((stage, block) :: rest) =
      (block.type.initialBytes camera).mapError .fault >>= fun data =>
        seed camera { p with data := p.data.insert stage data } rest := by
  rw [ShaderType.initialBytes, seed, List.foldlM_cons]
  dsimp only
  rcases hdata : block.type.defaultData camera with fault | _ | data
  · rfl
  · have hsame : { p with data := p.data.insert stage (Bytes.zeros block.type.size) } = p := by
      rw [StageMap.insert_of_get? hzeros]
    exact congrArg (seed camera · rest) hsame.symm
  · have hwrite : p.write stage 0 data = .ok { p with data := p.data.insert stage data } :=
      write_eq hzeros (by simp [ShaderType.length_defaultData hdata, Bytes.zeros])
    change (p.write stage 0 data).mapError Failure.error >>= _ = _
    rw [hwrite]
    rfl

end Seed

/-- Seeding zeroed blocks, one of each stage, has no errors to report. -/
theorem seed_eq {camera : Camera} {blocks : List (Stage × Resource)} {p : PushConstants}
    (hdistinct : blocks.Pairwise fun a b => a.1 ≠ b.1)
    (hzeros : ∀ block ∈ blocks, p.data.get? block.1 = some (Bytes.zeros block.2.type.size)) :
    p.seed camera blocks = ((blocks.mapM (initialData camera)).map fun data =>
      { p with data := data.foldl (fun m pair => m.insert pair.1 pair.2) p.data }).mapError
        .fault := by
  induction blocks generalizing p with
  | nil => rfl
  | cons block rest ih =>
    obtain ⟨stage, block⟩ := block
    obtain ⟨hne, hrest⟩ := List.pairwise_cons.mp hdistinct
    obtain ⟨hzero, hzeros⟩ := List.forall_mem_cons.mp hzeros
    rw [List.mapM_cons, seed_cons hzero]
    dsimp only [initialData]
    rcases block.type.initialBytes camera with fault | data
    · rfl
    · dsimp only [Except.mapError, bind, Except.bind]
      rw [ih hrest]
      · cases rest.mapM (initialData camera) <;> rfl
      · intro other hother
        rw [StageMap.get?_insert, if_neg (hne other hother).symm]
        exact hzeros other hother

section Model

variable {camera : Camera} {model : Model} {data : List (Stage × Bytes)}

theorem stages_initialData (h : model.pushConstants.mapM (initialData camera) = .ok data) :
    model.pushConstants.map (·.1) = data.map (·.1) := by
  refine map_eq_map_of_forall₂ (Except.mapM_eq_ok.mp h) fun block pair hpair => ?_
  obtain ⟨bytes, -, heq⟩ := Except.bind_eq_ok.mp hpair
  exact congrArg Prod.fst (Except.ok.inj heq)

theorem pairwise_pushConstants (model : Model) :
    model.pushConstants.Pairwise fun a b => a.1.index < b.1.index := by
  have hsizes := pairwise_sizes model
  rwa [sizes, List.pairwise_map] at hsizes

theorem pairwise_initialData (h : model.pushConstants.mapM (initialData camera) = .ok data) :
    data.Pairwise fun a b => a.1.index < b.1.index := by
  have hstaged : (data.map (·.1)).Pairwise fun a b => a.index < b.index :=
    stages_initialData h ▸ List.pairwise_map.mpr (pairwise_pushConstants model)
  rwa [List.pairwise_map] at hstaged

end Model

theorem seed_ofModel {camera : Camera} {model : Model} {zeroed : PushConstants}
    (h : ofModel model = .ok zeroed) :
    zeroed.seed camera model.pushConstants =
      ((model.pushConstants.mapM (initialData camera)).map fun data =>
        ⟨placed 0 (sizes model), .ofList data⟩).mapError .fault := by
  have hget {stage : Stage} {size : Nat} :
      (StageMap.ofList (sizes model)).get? stage = some size ↔ (stage, size) ∈ sizes model := by
    rw [← StageMap.mem_toList, StageMap.toList_ofList (pairwise_sizes model)]
  rw [ofModel_eq] at h
  split at h <;> cases h
  rw [seed_eq]
  · rcases hdata : model.pushConstants.mapM (initialData camera) with fault | data
    · rfl
    have hdistinct := pairwise_initialData hdata
    simp only [Except.map, Except.mapError, Except.ok.injEq, mk.injEq, true_and]
    refine StageMap.eq_of_get?_eq fun stage => Option.ext fun value => ?_
    -- Every block has data, so that none of the zeros are left.
    rw [StageMap.get?_foldl_insert _ hdistinct]
    refine Iff.trans ?_ (StageMap.get?_foldl_insert .empty hdistinct).symm
    rw [StageMap.get?_empty]
    refine or_congr_right (and_congr_right fun hnone => ?_)
    rw [StageMap.get?_map]
    refine iff_of_false (fun hsome => ?_) (Option.some_ne_none value).symm
    obtain ⟨size, hsize, -⟩ := Option.map_eq_some_iff.mp hsome
    obtain ⟨block, hmem, heq⟩ := List.mem_map.mp (hget.mp hsize)
    obtain ⟨pair, hpair, hstage⟩ :=
      List.mem_map.mp (stages_initialData hdata ▸ List.mem_map_of_mem hmem)
    exact hnone pair hpair (hstage.trans (congrArg Prod.fst heq))
  · exact (pairwise_pushConstants model).imp fun hlt heq => by simp [heq] at hlt
  · intro block hmem
    have hsize : (block.1, block.2.type.size) ∈ sizes model := List.mem_map_of_mem hmem
    rw [StageMap.get?_map, hget.mpr hsize]
    rfl

end PushConstants

namespace BoundResource

def seededBytes (camera : Camera) (pixels : Bytes) (bound : BoundResource) : Checked Bytes := do
  match bound.backing with
  | .buffer _ =>
    let size := bound.resource.type.size
    return (← bound.resource.type.initialBytes camera) ++ Bytes.zeros (max size 1 - size)
  | .image .. => return pixels

end BoundResource

namespace Binder

variable {binder : Binder} {camera : Camera} {pixels : Bytes} {bound : BoundResource} {b : Backend}

theorem find_of_mem (hs : binder.Sound) (hmem : bound ∈ binder.resources) :
    binder.find bound.key = .ok bound := by
  unfold find get?
  cases hfind : binder.resources.find? (·.key = bound.key) with
  | none => simpa using List.find?_eq_none.mp hfind bound hmem
  | some other =>
    have hkey : other.key = bound.key := by simpa using List.find?_some hfind
    rw [List.inj_on_of_nodup_map hs.nodup (List.mem_of_find?_eq_some hfind) hmem hkey]

theorem zeros_max (size : Nat) :
    Bytes.zeros (max size 1) = Bytes.zeros size ++ Bytes.zeros (max size 1 - size) := by
  simp only [Bytes.zeros, List.replicate_append_replicate]
  congr 1
  omega

def seedOne (binder : Binder) (camera : Camera) (bound : BoundResource) :
    Native BindError Unit := do
  match bound.backing with
  | .buffer _ =>
    match ← ofChecked (bound.resource.type.defaultData camera) with
    | some data => binder.writeBuffer bound.key 0 data
    | none => return ()
  | .image .. => return ()

theorem seed_eq (binder : Binder) (camera : Camera) :
    binder.seed camera = binder.resources.forM (binder.seedOne camera) := rfl

theorem leaves_seedOne : (binder.seedOne camera bound).Leaves (Extends fun _ => True) b := by
  unfold seedOne
  split
  · refine .ofChecked_bind (refl b) fun data _ => ?_
    cases data with
    | none => exact .pure _
    | some data =>
      exact leaves_writeBuffer fun _ _ _ _ => leaves_writeBytes
        (fun _ _ _ => .onAllocator fun _ => trivial) (fun _ _ _ => .of_eq rfl rfl)
        fun _ => .performAllocator trivial
  · exact .pure _

theorem ends_seedOne (hs : binder.Sound) (hmem : bound ∈ binder.resources)
    (hnew : bound.IsNew pixels b.allocator) :
    (binder.seedOne camera bound).Ends b
      (fun _ b' => ∃ bytes, bound.seededBytes camera pixels = .ok bytes ∧
        ∀ id, b'.allocator.bytes? id = if id = bound.backing.allocation.memory then some bytes
          else b.allocator.bytes? id)
      fun e _ => ∃ e', e = .mapping e' ∧ b.failures.Plans .mapMemory e' := by
  obtain ⟨hsize, hsmall, hbytes⟩ := hnew
  unfold seedOne BoundResource.seededBytes
  cases hbacking : bound.backing with
  | image allocation info view sampler =>
    rw [hbacking] at hbytes
    refine .pure ⟨pixels, rfl, fun id => ?_⟩
    split
    · rename_i hid
      exact hid ▸ hbytes
    · rfl
  | buffer allocation =>
    rw [hbacking] at hsize hsmall hbytes
    refine .bind (.ofChecked (bound.resource.type.proper_defaultData camera) fun seeded hdata => ?_)
    rw [ShaderType.initialBytes_eq_ok hdata]
    cases seeded with
    | none =>
      refine .pure ⟨_, rfl, fun id => ?_⟩
      split
      · rename_i hid
        exact hid ▸ hbytes.trans (congrArg some (zeros_max _))
      · rfl
    | some data =>
      have hlength := ShaderType.length_defaultData hdata
      refine .bind (.ofExcept (fun found hfound => ?_) fun e he => ?_)
      · obtain rfl := Except.ok.inj ((find_of_mem hs hmem).symm.trans hfound)
        rw [hbacking]
        have hfits : 0 + data.length ≤ (Backing.initial pixels bound.resource
            (.buffer allocation)).length := by
          simp only [Backing.initial, Bytes.zeros, List.length_replicate]
          omega
        refine .mapError ((ends_writeBytes hbytes hsize hfits ?_).mono ?_ ?_)
        · exact hsize ▸ hsmall.trans (by decide)
        · intro _ b' h
          refine ⟨_, rfl, fun id => (h id).trans ?_⟩
          rw [Backing.initial, zeros_max, Bytes.overwrite_append (by simp [Bytes.zeros, hlength])]
          simp [Bytes.overwrite, Bytes.zeros, hlength]
        · exact fun e _ h => ⟨e, rfl, h⟩
      · rw [find_of_mem hs hmem] at he
        cases he

/-- New resources are seeded one after the other, and no memory but theirs is touched. -/
theorem ends_seedOne_forM (hs : binder.Sound) {todo : List BoundResource}
    (htodo : ∀ bound ∈ todo, bound ∈ binder.resources)
    (hdistinct : (todo.map (·.backing.allocation.memory)).Nodup)
    (hnew : ∀ bound ∈ todo, bound.IsNew pixels b.allocator) :
    (todo.forM (binder.seedOne camera)).Ends b
      (fun _ b' => (∀ bound ∈ todo, ∃ bytes, bound.seededBytes camera pixels = .ok bytes ∧
          b'.allocator.bytes? bound.backing.allocation.memory = some bytes) ∧
        ∀ id ∉ todo.map (·.backing.allocation.memory),
          b'.allocator.bytes? id = b.allocator.bytes? id)
      fun e _ => ∃ e', e = .mapping e' ∧ b.failures.Plans .mapMemory e' := by
  induction todo generalizing b with
  | nil => exact .pure ⟨by simp, fun _ _ => rfl⟩
  | cons bound rest ih =>
    obtain ⟨hbound, hrest⟩ := List.forall_mem_cons.mp htodo
    obtain ⟨hfresh, hrestNew⟩ := List.forall_mem_cons.mp hnew
    obtain ⟨hnot, hnodup⟩ := List.nodup_cons.mp hdistinct
    refine .bind ((ends_seedOne hs hbound hfresh).exec.mono ?_ fun _ _ h => h.1)
    rintro _ b₁ ⟨⟨bytes, hseeded, hbytes⟩, hexec⟩
    have hplan : b.Extends (fun _ => True) b₁ := leaves_seedOne.rel hexec
    have hother {id : Nat} (hid : id ∈ rest.map (·.backing.allocation.memory)) :
        b₁.allocator.bytes? id = b.allocator.bytes? id := by
      rw [hbytes, if_neg]
      rintro rfl
      exact hnot hid
    refine (ih hrest hnodup fun other hmem => ?_).mono ?_ ?_
    · have hnew := hrestNew other hmem
      exact ⟨hnew.size, hnew.small, (hother (List.mem_map_of_mem hmem)).trans hnew.bytes⟩
    · rintro _ b' ⟨hdone, hkept⟩
      refine ⟨List.forall_mem_cons.mpr ⟨⟨bytes, hseeded, ?_⟩, hdone⟩, fun id hid => ?_⟩
      · rw [hkept _ hnot, hbytes, if_pos rfl]
      · rw [List.map_cons, List.mem_cons, not_or] at hid
        rw [hkept _ hid.2, hbytes, if_neg hid.1]
    · rintro e _ ⟨e', rfl, hplans⟩
      exact ⟨e', rfl, hplan.plan _ _ hplans⟩

theorem ends_seed (hs : binder.Sound)
    (hdistinct : (binder.resources.map (·.backing.allocation.memory)).Nodup)
    (hnew : ∀ bound ∈ binder.resources, bound.IsNew pixels b.allocator) :
    (binder.seed camera).Ends b
      (fun _ b' => ∀ bound ∈ binder.resources, ∃ bytes,
        bound.seededBytes camera pixels = .ok bytes ∧
          b'.allocator.bytes? bound.backing.allocation.memory = some bytes)
      fun e _ => ∃ e', e = .mapping e' ∧ b.failures.Plans .mapMemory e' := by
  rw [seed_eq]
  exact (ends_seedOne_forM hs (fun _ => id) hdistinct hnew).mono (fun _ _ h => h.1) fun _ _ => id

end Binder

end ShaderBinding
