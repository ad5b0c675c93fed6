import ShaderBinding.Engine.Basic
import ShaderBinding.Proofs.Binder.Update

/-! # What an engine owns

The objects of a bound model are those of its binder and its shader modules, and an engine owns
the objects of the model that it has bound. A bound model is made as a whole or not at all.
-/

namespace ShaderBinding

open Native

variable {ε : Type}

namespace Binder

theorem makes_seed (binder : Binder) (camera : Camera) :
    Makes (binder.seed camera) fun _ => [] := by
  refine .forM (fun bound => ?_) _
  split
  · refine .of_owns (.ofChecked_bind (bound.resource.type.proper_defaultData camera) fun data => ?_)
    split
    · exact (makes_writeBuffer _ _ _ _).owns 0
    · exact (Makes.done rfl).owns 0
  · exact .done rfl

end Binder

namespace StageModule

def objects (entry : StageModule) : List NativeObject := [.module entry.handle]

end StageModule

namespace BoundModel

def objects (bound : BoundModel) : List NativeObject :=
  bound.binder.objects ++ bound.modules.flatMap (·.objects)

theorem objects_eq (bound : BoundModel) : (bound.objects : Multiset NativeObject) =
    bound.modules.flatMap (·.objects) + bound.binder.objects := by
  rw [objects, ← Multiset.coe_add, add_comm]

theorem makes_modules (shaders : List Shader) :
    Makes (makeAll (fun shader => do
        return (⟨shader.stage, shader.entry, ← createModule shader.words⟩ : StageModule))
      (fun entry => destroy .module entry.handle) shaders) fun made => made.flatMap (·.objects) := by
  refine .makeAll (fun shader => ?_) (fun entry => frees_destroy_one rfl) _
  exact (makes_createModule shader.words).bind_pure fun _ => rfl

theorem makes_makeModules (shaders : ShaderSet) :
    Makes (makeModules shaders) fun made => made.flatMap (·.objects) :=
  makes_modules shaders.values

theorem frees_destroyModules (modules : List StageModule) :
    Frees (destroyModules modules : Native ε Unit) (modules.flatMap (·.objects)) :=
  .forM_reverse (fun _ => frees_destroy_one rfl)
    (fun _ => .of_owner_eq (by simp [NativeObject.owner])) modules

theorem closed_modules (modules : List StageModule) :
    NativeObject.Closed (modules.flatMap (·.objects) : Multiset NativeObject) := by
  refine .of_owner_eq fun o ho => ?_
  obtain ⟨entry, -, ho⟩ := List.mem_flatMap.mp (Multiset.mem_coe.mp ho)
  exact List.mem_singleton.mp ho ▸ rfl

theorem frees_dispose (bound : BoundModel) :
    Frees (bound.dispose : Native ε Unit) bound.objects :=
  ((frees_destroyModules bound.modules).seq bound.binder.frees_dispose
    bound.binder.closed_objects).congr bound.objects_eq

theorem makes_make [Libraries] (config : Config) (shaders : ShaderSet) (model : Model)
    (limits : Limits) : Makes (make config shaders model limits) objects := by
  refine .of_owns (.make (Binder.makes_bind _ _).mapError fun binder => ?_)
  refine .withUndo ?_ binder.frees_dispose .zero
  refine .ofChecked_bind (PushConstants.proper_ofModel model) fun zeroed => ?_
  refine .ofChecked_bind (Camera.proper_ofView config.view) fun camera => ?_
  refine .idle (Binder.makes_seed binder camera).mapError fun _ => ?_
  refine .ofOutcome_bind (.mapFailure _ (PushConstants.proper_seed camera zeroed _))
    fun pushConstants => ?_
  refine .make (makes_makeModules shaders).mapError fun modules => ?_
  refine .pure ?_
  rw [zero_add]
  rfl

section Make

variable [Libraries] {config : Config} {shaders : ShaderSet} {model : Model} {limits : Limits}
  {b b' : Backend} {bound : BoundModel}

structure Parts (config : Config) (shaders : ShaderSet) (model : Model) (limits : Limits)
    (b : Backend) (bound : BoundModel) (b' : Backend) where
  made : Backend
  zeroed : PushConstants
  camera : Camera
  seeded : Backend
  binder : (Binder.bind model.layout (config.bindOptions limits)).exec b = (.ok bound.binder, made)
  zeros : PushConstants.ofModel model = .ok zeroed
  view : Camera.ofView config.view = .ok camera
  seed : (bound.binder.seed camera).exec made = (.ok (), seeded)
  pushConstants : zeroed.seed camera model.pushConstants = .ok bound.pushConstants
  modules : (makeModules shaders).exec seeded = (.ok bound.modules, b')

theorem parts_of_make (h : (make config shaders model limits).exec b = (.ok bound, b')) :
    Nonempty (Parts config shaders model limits b bound b') := by
  obtain ⟨binder, made, hbinder, h₁⟩ := exec_bind_eq_ok.mp h
  obtain ⟨zeroed, _, hzeroed, h₂⟩ := exec_bind_eq_ok.mp (exec_withUndo_eq_ok.mp h₁)
  obtain ⟨hzeros, rfl⟩ := exec_ofChecked_eq_ok.mp hzeroed
  obtain ⟨camera, _, hcamera, h₃⟩ := exec_bind_eq_ok.mp h₂
  obtain ⟨hview, rfl⟩ := exec_ofChecked_eq_ok.mp hcamera
  obtain ⟨_, seeded, hseed, h₄⟩ := exec_bind_eq_ok.mp h₃
  obtain ⟨pushConstants, _, hpush, h₅⟩ := exec_bind_eq_ok.mp h₄
  obtain ⟨hpushed, rfl⟩ := Prod.mk.inj hpush
  obtain ⟨modules, _, hmodules, h₆⟩ := exec_bind_eq_ok.mp h₅
  cases h₆
  exact ⟨⟨_, zeroed, camera, _, exec_mapError_eq_ok.mp hbinder, hzeros, hview,
    exec_mapError_eq_ok.mp hseed, Except.mapError_eq_ok.mp hpushed,
    exec_mapError_eq_ok.mp hmodules⟩⟩

theorem sound_of_make (h : (make config shaders model limits).exec b = (.ok bound, b')) :
    bound.binder.Sound := by
  obtain ⟨parts⟩ := parts_of_make h
  exact Binder.sound_of_bind parts.binder

end Make

end BoundModel

end ShaderBinding
