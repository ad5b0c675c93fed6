import ShaderBinding.Proofs.Binder.Errors
import ShaderBinding.Proofs.Engine.Session
import ShaderBinding.Proofs.Engine.Snapshot

/-! # Rebuilt models

A pass that binds a model leaves nothing of what was bound, edited or dropped before: what is
bound afterwards depends on the configuration and on the shaders and the model that the pass
offers, and on nothing else. Seeding the new model fails no pass of its own accord.
-/

namespace ShaderBinding

open Native Backend Session

/-- If an error is one of writing, then a mapping was planned to fail with it. -/
def EngineError.PlannedIn (plan : FailurePlan) (error : EngineError) : Prop :=
  ∀ e, error = .bind e → e.ofWriting = true → ∃ e', e = .mapping e' ∧ plan.Plans .mapMemory e'

namespace BoundModel

variable {ε : Type} {config : Config} {shaders : ShaderSet} {model : Model} {limits : Limits}
  {b b' : Backend}

theorem extends_dispose (bound : BoundModel) :
    (bound.dispose : Native ε Unit).Leaves (Extends fun _ => True) b :=
  .bind (.forM (fun _ _ => extendsCalls.destroy) _ _) fun _ _ _ => bound.binder.extends_dispose

theorem planned_of_make [Libraries] (hv : b.Valid) {e : EngineError}
    (h : (make config shaders model limits).exec b = (.error (.error e), b')) :
    e.PlannedIn b.failures := by
  rcases exec_bind_eq_error.mp h with h₁ | ⟨binder, made, hbinder, h₁⟩
  · obtain ⟨e', rfl, hbind⟩ := exec_mapError_eq_error.mp h₁
    rintro _ ⟨⟩ hwriting
    have hnot := Binder.reports_bind _ _ _ _ _ hbind
    exact absurd hwriting (by simp [hnot])
  have hbind := exec_mapError_eq_ok.mp hbinder
  obtain ⟨_, h₁, -⟩ := (exec_withUndo_eq_error binder.quiet_dispose).mp h₁
  rcases exec_bind_eq_error.mp h₁ with h₂ | ⟨zeroed, _, hzeroed, h₂⟩
  · exact absurd h₂ (Reports.ofChecked (p := fun _ => False) _ _ _ _)
  obtain ⟨hzeros, rfl⟩ := exec_ofChecked_eq_ok.mp hzeroed
  rcases exec_bind_eq_error.mp h₂ with h₃ | ⟨camera, _, hcamera, h₃⟩
  · exact absurd h₃ (Reports.ofChecked (p := fun _ => False) _ _ _ _)
  obtain ⟨-, rfl⟩ := exec_ofChecked_eq_ok.mp hcamera
  rcases exec_bind_eq_error.mp h₃ with h₄ | ⟨_, seeded, hseed, h₄⟩
  · obtain ⟨e', rfl, hseed⟩ := exec_mapError_eq_error.mp h₄
    obtain ⟨built⟩ := Binder.built_of_bind hbind
    obtain ⟨hnew, hdistinct, -⟩ := Binder.starts_of_built hv built
    obtain ⟨e, rfl, hplans⟩ :=
      (Binder.ends_seed (Binder.sound_of_bind hbind) hdistinct hnew).of_error hseed
    rintro _ ⟨⟩ -
    exact ⟨e, rfl, ((Binder.extends_bind _ _).rel hbind).plan _ _ hplans⟩
  rcases exec_bind_eq_error.mp h₄ with h₅ | ⟨pushConstants, _, -, h₅⟩
  · have hpush : (zeroed.seed camera model.pushConstants).mapFailure _ = .error (.error e) :=
      congrArg Prod.fst h₅
    rw [PushConstants.seed_ofModel hzeros] at hpush
    cases hdata : model.pushConstants.mapM (PushConstants.initialData camera) <;>
      rw [hdata] at hpush <;> cases hpush
  rcases exec_bind_eq_error.mp h₅ with h₆ | ⟨modules, _, -, h₆⟩
  · obtain ⟨e', rfl, -⟩ := exec_mapError_eq_error.mp h₆
    rintro _ ⟨⟩
  · cases h₆

end BoundModel

/-- The shaders and the model that a pass is going to bind. -/
def Pass.offer? [Libraries] (config : Config) : Pass → Option (ShaderSet × Model)
  | install shaders model _ => some (shaders, model)
  | reload _ files _ => do
    let shaders ← (config.source.load files).toOption
    return (shaders, ← shaders.reflect.toOption)

namespace Engine

variable {base : Multiset NativeObject} {s s' : Session} {shaders : ShaderSet} {model : Model}
  {limits : Limits}

theorem loadModel_eq_ok [Libraries] {files : FileTree}
    (h : (loadModel files).exec s = (.ok (shaders, model), s')) :
    s.engine.config.source.load files = .ok shaders ∧ shaders.reflect = .ok model ∧
      s'.engine.config = s.engine.config ∧ s'.backend = s.backend := by
  obtain ⟨_, _, hget, h₁⟩ := EngineM.exec_bind_eq_ok.mp h
  cases hget
  obtain ⟨loaded, _, hload, h₂⟩ := EngineM.exec_bind_eq_ok.mp h₁
  obtain ⟨hloaded, rfl⟩ := EngineM.exec_ofOutcome_eq_ok.mp hload
  obtain ⟨_, _, hlog, h₃⟩ := EngineM.exec_bind_eq_ok.mp h₂
  cases hlog
  obtain ⟨reflected, _, hreflect, h₄⟩ := EngineM.exec_bind_eq_ok.mp h₃
  obtain ⟨hreflected, rfl⟩ := EngineM.exec_ofOutcome_eq_ok.mp hreflect
  cases h₄
  exact ⟨Except.mapError_eq_ok.mp hloaded, Except.mapError_eq_ok.mp hreflected, rfl, rfl⟩

theorem accept_eq_ok {offer : Option (ShaderSet × Model)}
    (h : (accept shaders model limits).exec s = (.ok offer, s')) :
    offer = some (shaders, model) ∧ s'.engine = s.engine ∧
      waitIdle.exec s.backend = (.ok (), s'.backend) := by
  obtain ⟨_, _, hlink, h₁⟩ := EngineM.exec_bind_eq_ok.mp h
  obtain ⟨-, rfl⟩ := EngineM.exec_ofOutcome_eq_ok.mp hlink
  obtain ⟨_, _, hwait, h₂⟩ := EngineM.exec_bind_eq_ok.mp h₁
  obtain ⟨hwait, hengine⟩ := EngineM.exec_native_eq_ok.mp hwait
  cases h₂
  exact ⟨rfl, hengine, exec_mapError_eq_ok.mp hwait⟩

theorem extends_tearDown (s : Session) :
    s.backend.Extends (fun _ => True) (tearDown.exec s).2.backend := by
  unfold tearDown
  rw [EngineM.exec_bind, EngineM.exec_get]
  dsimp only
  cases hbound : s.engine.bound with
  | none => exact refl s.backend
  | some bound =>
    have hleaves : (bound.dispose : Native EngineError Unit).Leaves (Extends fun _ => True)
      s.backend := bound.extends_dispose
    unfold Leaves at hleaves
    rw [EngineM.exec_bind, EngineM.exec_native]
    generalize bound.dispose.exec s.backend = r at hleaves ⊢
    rcases r with ⟨_ | _, _⟩ <;> exact hleaves

theorem exec_bindModel [Libraries] (h : s.Sound base) (shaders : ShaderSet) (model : Model)
    (limits : Limits) : ∃ b, b.Valid ∧ s.backend.Extends (fun _ => True) b ∧
      (bindModel shaders model limits).exec s =
        match (BoundModel.make s.engine.config shaders model limits).exec b with
        | (.ok bound, b') => (.ok (), ⟨{ s.engine with
            bound := some bound, model := some model, shaders := shaders }, b'⟩)
        | (.error failure, b') => (.error failure, ⟨{ s.engine with
            bound := none, model := none, shaders := .empty }, b'⟩) := by
  obtain ⟨b, hexec, hb, -⟩ := exec_tearDown h
  have hextends := extends_tearDown s
  rw [hexec] at hextends
  refine ⟨b, hb.valid, hextends, ?_⟩
  unfold bindModel
  rw [EngineM.exec_bind, hexec]
  dsimp only
  rw [EngineM.exec_bind, EngineM.exec_get]
  dsimp only
  rw [EngineM.exec_bind, EngineM.exec_native]
  dsimp only
  rcases (BoundModel.make s.engine.config shaders model limits).exec b with ⟨_ | _, _⟩ <;> rfl

end Engine

namespace Pass

variable {base : Multiset NativeObject} {s s' : Session} {p : Pass}

/-- What a pass has prepared is what it offers, and the device was waited for. -/
theorem prepare_eq_ok [Libraries] (hreplaces : p.replaces = true)
    {offer : Option (ShaderSet × Model)} (h : p.prepare.exec s = (.ok offer, s')) :
    offer.isSome ∧ offer = p.offer? s.engine.config ∧ s'.engine.config = s.engine.config ∧
      waitIdle.exec s.backend = (.ok (), s'.backend) := by
  cases p with
  | install shaders model limits =>
    obtain ⟨rfl, hengine, hwait⟩ := Engine.accept_eq_ok h
    exact ⟨rfl, rfl, by rw [hengine], hwait⟩
  | reload flags files limits =>
    change (Engine.prepareParts flags.withImplied files limits).exec s = _ at h
    unfold Engine.prepareParts at h
    rw [if_pos (show flags.withImplied.contains ReloadFlags.shaders = true from hreplaces)] at h
    obtain ⟨⟨shaders, model⟩, s₁, hload, h₁⟩ := EngineM.exec_bind_eq_ok.mp h
    obtain ⟨hshaders, hmodel, hconfig, hbackend⟩ := Engine.loadModel_eq_ok hload
    obtain ⟨rfl, hengine, hwait⟩ := Engine.accept_eq_ok h₁
    refine ⟨rfl, ?_, by rw [hengine, hconfig], hbackend ▸ hwait⟩
    simp [offer?, hshaders, hmodel, Except.toOption]

end Pass

namespace Session

def snapshot? (s : Session) : Option Snapshot := s.engine.bound.map (·.snapshot s.backend)

/-- What is bound is what a configuration determines for shaders and a model. -/
structure Rebuilt [Libraries] (config : Config) (shaders : ShaderSet) (model : Model)
    (s : Session) : Prop where
  config_eq : s.engine.config = config
  shaders_eq : s.engine.shaders = shaders
  model_eq : s.engine.model = some model
  initial : ∃ snapshot, Snapshot.initial config shaders model = .ok snapshot ∧
    s.snapshot? = some snapshot

theorem Rebuilt.agree [Libraries] {config : Config} {shaders : ShaderSet} {model : Model}
    {s t : Session} (hs : s.Rebuilt config shaders model) (ht : t.Rebuilt config shaders model) :
    s.snapshot? = t.snapshot? := by
  obtain ⟨snapshot, hinitial, hs⟩ := hs.initial
  obtain ⟨_, hinitial', ht⟩ := ht.initial
  rw [hs, ht, Except.ok.inj (hinitial.symm.trans hinitial')]

end Session

namespace Pass

variable [Libraries] {base : Multiset NativeObject} {s s' : Session} {p : Pass}

theorem exec_op {result : Outcome EngineError Unit} (h : p.op.exec s = (result, s')) :
    ∃ s₁, (p.prepare >>= p.bindPrepared).exec s = (result, s₁) ∧
      s' = ⟨s₁.engine.settled p.parts result, s₁.backend⟩ := by
  rw [op_eq, Engine.exec_finish] at h
  obtain ⟨rfl, rfl⟩ := Prod.mk.inj h
  exact ⟨_, rfl, rfl⟩

/-- A pass that succeeds has bound what it offers anew. -/
theorem rebuilt_of_op (h : s.Sound base) (hreplaces : p.replaces = true)
    (hexec : p.op.exec s = (.ok (), s')) :
    ∃ shaders model, p.offer? s.engine.config = some (shaders, model) ∧
      s'.Rebuilt s.engine.config shaders model := by
  obtain ⟨s₂, hphases, rfl⟩ := exec_op hexec
  obtain ⟨offer, s₁, hprepare, hbind⟩ := EngineM.exec_bind_eq_ok.mp hphases
  have hs₁ := ((p.ends_prepare h).of_ok hprepare).1.sound
  obtain ⟨hoffered, hoffer, hconfig, -⟩ := prepare_eq_ok hreplaces hprepare
  obtain ⟨⟨shaders, model⟩, rfl⟩ := Option.isSome_iff_exists.mp hoffered
  obtain ⟨b, hb, -, hmodel⟩ := Engine.exec_bindModel hs₁ shaders model p.limits
  refine ⟨shaders, model, hoffer.symm, ?_⟩
  rw [bindPrepared, hmodel, hconfig] at hbind
  rcases hmake : (BoundModel.make s.engine.config shaders model p.limits).exec b with
    ⟨failure | bound, b'⟩ <;> rw [hmake] at hbind <;> cases hbind
  exact ⟨hconfig, rfl, rfl, _, BoundModel.snapshot_of_make hb hmake, rfl⟩

/-- A pass that fails with an error of writing does so because a mapping was planned to fail. -/
theorem planned_of_op (h : s.Sound base) (hreplaces : p.replaces = true) {e : EngineError}
    (hexec : p.op.exec s = (.error (.error e), s')) : e.PlannedIn s.backend.failures := by
  obtain ⟨s₂, hphases, rfl⟩ := exec_op hexec
  rcases EngineM.exec_bind_eq_error.mp hphases with hprepare | ⟨offer, s₁, hprepare, hbind⟩
  · obtain ⟨-, hrefused, -⟩ := (p.ends_prepare h).of_error hprepare
    rintro e' rfl
    rcases hrefused.cause with ⟨hrefusal, -⟩ | ⟨⟨_, heq⟩, -⟩
    · cases hrefusal
    · cases heq
  have hs₁ := ((p.ends_prepare h).of_ok hprepare).1.sound
  obtain ⟨hoffered, -, -, hwait⟩ := prepare_eq_ok hreplaces hprepare
  obtain ⟨⟨shaders, model⟩, rfl⟩ := Option.isSome_iff_exists.mp hoffered
  obtain ⟨b, hb, hextends, hmodel⟩ := Engine.exec_bindModel hs₁ shaders model p.limits
  have hwaited : s.backend.Extends (fun _ => True) s₁.backend :=
    (Leaves.onDevice fun _ => trivial).rel hwait
  rw [bindPrepared, hmodel] at hbind
  rcases hmake : (BoundModel.make s₁.engine.config shaders model p.limits).exec b with
    ⟨failure | bound, b'⟩ <;> rw [hmake] at hbind <;> cases hbind
  intro e' he hwriting
  obtain ⟨mapping, hmapping, hplans⟩ := BoundModel.planned_of_make hb hmake e' he hwriting
  exact ⟨mapping, hmapping, hwaited.plan _ _ (hextends.plan _ _ hplans)⟩

end Pass

namespace Session

/--
Whatever an engine was asked for before, a pass that binds a model leaves what the configuration
determines for the shaders and the model that it offers, and so does every such pass of any other
engine with the same configuration and offer. Seeding reports no error but a planned one.
-/
theorem run_rebuilds [Libraries] {config : Config} {b : Backend} (hb : b.Valid)
    {requests : List Request} {replies : List (Except EngineError Reply)} {s : Session}
    (hrun : (start config b).run requests = .ok (replies, s)) {p : Pass}
    (hreplaces : p.replaces = true) :
    (∀ e s', p.op.exec s = (.error (.error e), s') → (∀ e', e ≠ .bind (.pushConstant e')) ∧
      ∀ e', e = .bind (.mapping e') → s.backend.failures.Plans .mapMemory e') ∧
    ∀ s', p.op.exec s = (.ok (), s') →
      (∃ shaders model, p.offer? s.engine.config = some (shaders, model) ∧
        s'.Rebuilt s.engine.config shaders model) ∧
      ∀ config₁ b₁ requests₁ replies₁ t t' (q : Pass), b₁.Valid →
        (start config₁ b₁).run requests₁ = .ok (replies₁, t) → q.replaces = true →
        t.engine.config = s.engine.config →
        q.offer? s.engine.config = p.offer? s.engine.config → q.op.exec t = (.ok (), t') →
        t'.snapshot? = s'.snapshot? := by
  have hs := (leads_of_run (sound_start config hb) hrun).sound
  refine ⟨fun e s' hexec => ?_, fun s' hexec => ?_⟩
  · have hplanned := Pass.planned_of_op hs hreplaces hexec
    refine ⟨?_, ?_⟩
    · rintro e' rfl
      obtain ⟨_, heq, -⟩ := hplanned _ rfl rfl
      cases heq
    · rintro e' rfl
      obtain ⟨_, heq, hplans⟩ := hplanned _ rfl rfl
      cases heq
      exact hplans
  · obtain ⟨shaders, model, hoffer, hrebuilt⟩ := Pass.rebuilt_of_op hs hreplaces hexec
    refine ⟨⟨shaders, model, hoffer, hrebuilt⟩, ?_⟩
    intro config₁ b₁ requests₁ replies₁ t t' q hb₁ hrun₁ hreplaces₁ hconfig hoffers hexec₁
    have ht := (leads_of_run (sound_start config₁ hb₁) hrun₁).sound
    obtain ⟨shaders₁, model₁, hoffer₁, hrebuilt₁⟩ := Pass.rebuilt_of_op ht hreplaces₁ hexec₁
    rw [hconfig, hoffers, hoffer] at hoffer₁
    cases hoffer₁
    exact (hconfig ▸ hrebuilt₁).agree hrebuilt

/-- Edits, another placeholder and a pass that failed leave no trace in a model bound later. -/
theorem run_rebuilds_after_edits :
    let layout := ((LayoutMap.empty.put ⟨0, 0⟩
      ⟨"block", .descriptor 0 0 .empty .uniformBuffer,
        .struct (.cons "view" 0 (.matrix .float 4 4 64) .nil) 64⟩ rfl).put ⟨0, 1⟩
      ⟨"image", .descriptor 0 1 .empty .image, .image ⟨.d2, true, false, false, false, ""⟩⟩ rfl)
    let push : Resource := ⟨"push", .pushConstant .vertex, .vector .float 4 16⟩
    let vertex : Reflection := ⟨.vertex, "main", [], [], [], [], [], [], [], some push⟩
    let model : Model := ⟨.ofList [(.vertex, vertex)], layout⟩
    let p : Pass := .install .empty model {}
    let config : Config := { placeholder := { width := 1, height := 1 } }
    let edits : List Request := [.pass p, .writeBuffer ⟨0, 0⟩ 4 [1, 2],
      .replaceImage ⟨0, 1⟩ { width := 1, height := 2 } (Bytes.zeros 8),
      .writePushConstants .vertex 0 [3], .plan [⟨.mapMemory, 0, .failed⟩], .pass p,
      .setConfig config]
    let config' : Config := { placeholder := { width := 2, height := 1 } }
    ∃ replies s s' t', (start config' {}).run edits = .ok (replies, s) ∧
      replies.map (·.isOk) = [true, true, true, true, true, false, true] ∧
      p.op.exec s = (.ok (), s') ∧ p.op.exec (start config {}) = (.ok (), t') ∧
      t'.snapshot? = s'.snapshot? ∧ s'.Rebuilt config .empty model := by
  intro layout push vertex model p config edits config'
  have hresult : ((start config' {}).run edits).map (fun r => (r.1.map (·.isOk),
      decide (r.2.engine.config = config), (p.op.exec r.2).1.isOk)) =
      .ok ([true, true, true, true, true, false, true], true, true) := by decide +kernel
  have hfresh : (p.op.exec (start config {})).1.isOk = true := by decide +kernel
  obtain ⟨⟨replies, s⟩, hrun, heq⟩ := Except.map_eq_ok.mp hresult
  simp only [Prod.mk.injEq, decide_eq_true_eq] at heq
  obtain ⟨hreplies, hconfig, hok⟩ := heq
  rcases hexec : p.op.exec s with ⟨_ | _, s'⟩ <;> rw [hexec] at hok
  · cases hok
  rcases hexec' : p.op.exec (start config {}) with ⟨_ | _, t'⟩ <;> rw [hexec'] at hfresh
  · cases hfresh
  obtain ⟨⟨shaders, model', hoffer, hrebuilt⟩, hagree⟩ :=
    (run_rebuilds Backend.valid_empty hrun (p := p) (by decide)).2 s' hexec
  cases hoffer
  refine ⟨replies, s, s', t', hrun, hreplies, hexec, rfl, ?_, hconfig ▸ hrebuilt⟩
  exact hagree config {} [] [] _ t' p Backend.valid_empty rfl (by decide) hconfig.symm rfl hexec'

end Session

end ShaderBinding
