import ShaderBinding.Proofs.Engine.Deferred
import ShaderBinding.Proofs.Native.Alike
import ShaderBinding.Proofs.Single.Numbers

/-! # Views onto extents

A pass looks at the view in one place, when it has made the binder of a new model and computes the
camera that the model is seeded with. Any camera will do to finish the pass in the same way, but
an extent that is too narrow for its height has none.
-/

namespace ShaderBinding

open Native Backend

namespace View

/-- The width is at most `2 ^ -23` of the height, where one of more than 24 bits is rounded. -/
def IsNarrow (width height : Nat) : Prop :=
  2 ^ 23 * width ≤ max height 1 + 2 ^ (max height 1).log2 / 2 ^ 24

instance (width height : Nat) : Decidable (IsNarrow width height) :=
  inferInstanceAs (Decidable (_ ≤ _))

/-- Up to a height of 23 bits only an extent without a width is narrow. -/
theorem isNarrow_iff {width height : Nat} (h : height < 2 ^ 23) :
    IsNarrow width height ↔ width = 0 := by
  have hlog : (max height 1).log2 < 24 := (Nat.log2_lt (by omega)).mpr (by omega)
  have hround : 2 ^ (max height 1).log2 / 2 ^ 24 = 0 :=
    Nat.div_eq_of_lt (Nat.pow_lt_pow_right (by decide) hlog)
  rw [IsNarrow, hround]
  omega

end View

namespace Camera

theorem ofView_eq (view : View) : ofView view =
    if view.far.near view.near then .error .coincidentPlanes
    else if view.aspectRatio.near .zero then .error .zeroAspectRatio
    else .ok ⟨.awayFromViewer view.distance,
      .projection view.aspectRatio view.fovY view.near view.far⟩ := by
  simp only [ofView, Libraries.perspective, Matrix.perspective]
  split_ifs <;> rfl

theorem ofView_ofExtent {width height : Nat} (hw : width < 2 ^ 32) (hh : height < 2 ^ 32) :
    let view := View.ofExtent width height
    ofView view =
      if View.IsNarrow width height then .error .zeroAspectRatio
      else .ok ⟨.awayFromViewer view.distance,
        .projection view.aspectRatio view.fovY view.near view.far⟩ := by
  intro view
  have hplanes : ¬ view.far.near view.near = true := by
    change ¬ Single.near (View.far {}) (View.near {}) = true
    decide +kernel
  have hratio : view.aspectRatio.near .zero = true ↔ View.IsNarrow width height :=
    Single.ofNat_div_near_zero_iff hw (by omega) (by omega)
  simp only [ofView_eq, if_neg hplanes, hratio]

theorem ofView_default : ∃ camera, ofView {} = .ok camera := by
  have hplanes : ¬ Single.near (View.far {}) (View.near {}) = true := by decide +kernel
  have hratio : ¬ Single.near (View.aspectRatio {}) .zero = true := by decide +kernel
  exact ⟨_, by rw [ofView_eq, if_neg hplanes, if_neg hratio]⟩

end Camera

section Cameras

variable (camera camera' : Camera)

theorem ShaderType.defaultData_alike (type : ShaderType) :
    Except.Alike (fun data data' => data.map List.length = data'.map List.length)
      (type.defaultData camera) (type.defaultData camera') := by
  rcases hwalk : type.walk "" 0 with fault | leaves
  · have hfault (camera : Camera) : type.defaultData camera = .error fault := by
      rw [defaultData, seeds, hwalk]
      rfl
    rw [hfault, hfault]
    exact .error fault
  · rw [defaultData_eq hwalk, defaultData_eq hwalk]
    have hempty : (leaves.filterMap (Seed.ofLeaf? camera)).isEmpty =
        (leaves.filterMap (Seed.ofLeaf? camera')).isEmpty := by
      have hnone (leaf : Leaf) :
          Seed.ofLeaf? camera leaf = none ↔ Seed.ofLeaf? camera' leaf = none := by
        rw [Seed.ofLeaf?_eq, Seed.ofLeaf?_eq, Option.map_eq_none_iff, Option.map_eq_none_iff,
          ← Option.not_isSome_iff_eq_none, ← Option.not_isSome_iff_eq_none, Leaf.isSome_matrix?,
          Leaf.isSome_matrix?]
      rw [Bool.eq_iff_iff]
      simp [List.filterMap_eq_nil_iff, hnone]
    rw [hempty]
    refine .ok ?_
    split
    · rfl
    · simp [Seed.length_foldl_writeSlot]

theorem Binder.writeBuffer_alike (binder : Binder) (key : BindingKey) (offset : Nat)
    {data data' : Bytes} (hlength : data.length = data'.length) : Native.Alike Eq
      (binder.writeBuffer key offset data) (binder.writeBuffer key offset data') := by
  refine .bind (Blind.ofExcept (binder.find key)) fun bound _ hbound => ?_
  subst hbound
  split
  · exact .mapError (.writeBytes _ offset hlength) _
  · exact Blind.fail _

theorem Binder.seed_alike (binder : Binder) :
    Native.Alike Eq (binder.seed camera) (binder.seed camera') := by
  refine .forM (fun bound => ?_) _
  split
  · refine .bind (.ofChecked (bound.resource.type.defaultData_alike camera camera')) ?_
    rintro (_ | data) (_ | data') hlength
    · exact .pure rfl
    · cases hlength
    · cases hlength
    · exact binder.writeBuffer_alike bound.key 0 (Option.some.inj hlength)
  · exact .pure rfl

theorem PushConstants.seed_alike {model : Model} {zeroed : PushConstants}
    (h : ofModel model = .ok zeroed) : Except.Alike (fun _ _ => True)
      (zeroed.seed camera model.pushConstants) (zeroed.seed camera' model.pushConstants) := by
  rw [seed_ofModel h, seed_ofModel h]
  have hbytes (type : ShaderType) : Except.Alike (fun _ _ => True)
      (type.initialBytes camera) (type.initialBytes camera') :=
    (type.defaultData_alike camera camera').bind fun _ _ _ => .ok trivial
  have hinitial (block : Stage × Resource) : Except.Alike (fun _ _ => True)
      (initialData camera block) (initialData camera' block) :=
    (hbytes block.2.type).bind fun _ _ _ => .ok trivial
  exact ((Except.Alike.mapM hinitial _).map fun _ _ _ => trivial).mapError _

end Cameras

section Blind

variable {ε : Type}

theorem Backing.blind_dispose (backing : Backing) : (backing.dispose : Native ε Unit).Blind := by
  cases backing with
  | buffer allocation => exact .deallocate _ _
  | image allocation info view sampler =>
    cases sampler with
    | some sampler =>
      exact .bind (.destroy _ _) fun _ => .bind (.destroy _ _) fun _ => .deallocate _ _
    | none => exact .bind (.destroy _ _) fun _ => .deallocate _ _

theorem Binder.blind_dispose (binder : Binder) : (binder.dispose : Native ε Unit).Blind :=
  .bind (.destroy _ _) fun _ => .bind (.forM (fun _ => .destroy _ _) _) fun _ =>
    .forM (fun bound => bound.backing.blind_dispose) _

end Blind

namespace BoundModel

theorem blind_makeModules (shaders : ShaderSet) : (makeModules shaders).Blind :=
  .makeAll (fun _ => .bind .onDevice fun _ => .pure _) (fun _ => .destroy _ _) _

/-- What is made for a model when its binder has been made. -/
def furnish [Libraries] (shaders : ShaderSet) (model : Model) (view : View) (binder : Binder) :
    Native EngineError BoundModel := do
  let zeroed ← PushConstants.ofModel model
  let camera ← Camera.ofView view
  mapError .bind (binder.seed camera)
  let pushConstants ← ofOutcome
    ((zeroed.seed camera model.pushConstants).mapFailure fun e => .bind (.pushConstant e))
  let modules ← mapError .device (makeModules shaders)
  return ⟨binder, pushConstants, modules⟩

def SameObjects (bound bound' : BoundModel) : Prop :=
  bound.binder = bound'.binder ∧ bound.modules = bound'.modules

section Make

variable [Libraries] {config : Config} {shaders : ShaderSet} {model : Model} {limits : Limits}
    {b : Backend}
  {view view' : View} {camera camera' : Camera} {fault : Fault}

theorem exec_make (config : Config) (view : View) (b : Backend) :
    (make { config with view := view } shaders model limits).exec b =
      match (mapError EngineError.bind
        (Binder.bind model.layout (config.bindOptions limits))).exec b with
      | (.ok binder, b') =>
        (withUndo binder.dispose (furnish shaders model view binder)).exec b'
      | (.error failure, b') => (.error failure, b') := by
  have hmake : make { config with view := view } shaders model limits =
      mapError EngineError.bind (Binder.bind model.layout (config.bindOptions limits)) >>=
        fun binder => withUndo binder.dispose (furnish shaders model view binder) := rfl
  rw [hmake, exec_bind]
  rcases (mapError EngineError.bind
    (Binder.bind model.layout (config.bindOptions limits))).exec b with ⟨_ | _, _⟩ <;> rfl

theorem furnish_alike (h : Camera.ofView view = .ok camera)
    (h' : Camera.ofView view' = .ok camera') (binder : Binder) : Native.Alike SameObjects
      (furnish shaders model view binder) (furnish shaders model view' binder) := by
  unfold furnish
  rw [h, h']
  refine .bind (.ofChecked (.refl_of_eq (PushConstants.ofModel model))) ?_
  rintro zeroed _ ⟨rfl, hzeroed⟩
  refine .bind (R := fun c c' => c = camera ∧ c' = camera') (.ofChecked (.ok ⟨rfl, rfl⟩)) ?_
  rintro _ _ ⟨rfl, rfl⟩
  refine .bind (.mapError (binder.seed_alike _ _) _) fun _ _ _ => ?_
  refine .bind (.ofOutcome ((PushConstants.seed_alike _ _ hzeroed).mapError _)) fun _ _ _ => ?_
  exact .bind (.mapError (blind_makeModules shaders) _) fun _ _ hmodules => .pure ⟨rfl, hmodules⟩

theorem make_alike (h : Camera.ofView view = .ok camera) (h' : Camera.ofView view' = .ok camera') :
    let made := (make { config with view := view } shaders model limits).exec b
    let made' := (make { config with view := view' } shaders model limits).exec b
    Except.Alike SameObjects made.1 made'.1 ∧ made.2.Alike made'.2 := by
  dsimp only
  rw [exec_make config view, exec_make config view']
  generalize (mapError EngineError.bind
    (Binder.bind model.layout (config.bindOptions limits))).exec b = r
  rcases r with ⟨failure | binder, b₁⟩
  · exact ⟨.error failure, .refl b₁⟩
  · exact Native.Alike.withUndo binder.blind_dispose (furnish_alike h h' binder) b₁ b₁ (.refl b₁)

theorem exec_furnish_of_unplaced (hzeroed : PushConstants.ofModel model = .error fault)
    (view : View) (binder : Binder) :
    (withUndo binder.dispose (furnish shaders model view binder)).exec b =
      (.error (.fault fault), b) := by
  rw [exec_withUndo, furnish, hzeroed]
  rfl

theorem exec_furnish_of_fault {zeroed : PushConstants}
    (hzeroed : PushConstants.ofModel model = .ok zeroed)
    (hfault : Camera.ofView view = .error fault) (binder : Binder) :
    (withUndo binder.dispose (furnish shaders model view binder)).exec b =
      (.error (.fault fault), b) := by
  rw [exec_withUndo, furnish, hzeroed, hfault]
  rfl

/-- A view without a camera ends the making of a model, unless it would have failed before. -/
theorem make_of_fault (hfault : Camera.ofView view' = .error fault) :
    let made := (make { config with view := view } shaders model limits).exec b
    let made' := (make { config with view := view' } shaders model limits).exec b
    made'.1 = .error (.fault fault) ∨ made' = made := by
  dsimp only
  rw [exec_make config view, exec_make config view']
  generalize (mapError EngineError.bind
    (Binder.bind model.layout (config.bindOptions limits))).exec b = r
  rcases r with ⟨failure | binder, b₁⟩
  · exact .inr rfl
  · dsimp only
    cases hzeroed : PushConstants.ofModel model with
    | ok zeroed =>
      rw [exec_furnish_of_fault hzeroed hfault]
      exact .inl rfl
    | error unplaced =>
      rw [exec_furnish_of_unplaced hzeroed, exec_furnish_of_unplaced hzeroed]
      exact .inr rfl

theorem exec_make_of_fault (hb : b.Valid) {bound : BoundModel} {b' : Backend}
    (hfault : Camera.ofView view' = .error fault)
    (h : (make { config with view := view } shaders model limits).exec b = (.ok bound, b')) :
    ∃ made, (make { config with view := view' } shaders model limits).exec b =
      (.error (.fault fault), made) ∧ made.live = b.live + bound.binder.objects := by
  obtain ⟨parts⟩ := parts_of_make h
  obtain ⟨-, hlive⟩ := (Binder.makes_bind _ _ hb).of_ok parts.binder
  refine ⟨parts.made, ?_, hlive⟩
  have hbinder : (mapError EngineError.bind
      (Binder.bind model.layout (config.bindOptions limits))).exec b =
      (.ok bound.binder, parts.made) := exec_mapError_eq_ok.mpr parts.binder
  rw [exec_make config view', hbinder]
  exact exec_furnish_of_fault parts.zeros hfault bound.binder

end Make

end BoundModel

def Session.withView (s : Session) (view : View) : Session := ⟨s.engine.setView view, s.backend⟩

namespace EngineM

variable {α β : Type}

/-- An operation that neither looks at the view nor changes it. -/
def IgnoresView (op : EngineM α) : Prop :=
  ∀ (s : Session) (view : View),
    op.exec (s.withView view) = ((op.exec s).1, (op.exec s).2.withView view)

namespace IgnoresView

theorem of_ignoresConfig {op : EngineM α} (h : op.IgnoresConfig) : op.IgnoresView := by
  intro s view
  have hconfig : (op.exec s).2.engine.config = s.engine.config :=
    congrArg (·.2.engine.config) (h s s.engine.config)
  refine (h s { s.engine.config with view := view }).trans ?_
  rw [← hconfig]
  rfl

theorem bind {op : EngineM α} {f : α → EngineM β} (hop : op.IgnoresView)
    (hf : ∀ a, (f a).IgnoresView) : (op >>= f).IgnoresView := by
  intro s view
  rw [exec_bind, exec_bind, hop]
  rcases op.exec s with ⟨_ | a, s₁⟩
  · rfl
  · exact hf a s₁ view

theorem get_bind {f : Engine → EngineM α}
    (hview : ∀ engine view, f (Engine.setView engine view) = f engine)
    (hf : ∀ engine, (f engine).IgnoresView) : (get >>= f).IgnoresView := by
  intro s view
  have hget (s : Session) : (get >>= f).exec s = (f s.engine).exec s := rfl
  have hsame : (s.withView view).engine = s.engine.setView view := rfl
  rw [hget, hget, hsame, hview]
  exact hf s.engine s view

end IgnoresView

end EngineM

namespace Engine

open EngineM

theorem ignoresView_accept (shaders : ShaderSet) (model : Model) (limits : Limits) :
    (accept shaders model limits).IgnoresView :=
  .of_ignoresConfig (.bind (.ofOutcome _) fun _ => .bind (.native _) fun _ => .pure _)

theorem ignoresView_loadModel [Libraries] (files : FileTree) : (loadModel files).IgnoresView :=
  .get_bind (fun _ _ => rfl) fun _ => .of_ignoresConfig <|
    .bind (.ofOutcome _) fun _ => .bind (.modify fun _ _ => rfl) fun _ =>
      .bind (.ofOutcome _) fun _ => .pure _

theorem ignoresView_prepare [Libraries] (p : Pass) : p.prepare.IgnoresView := by
  cases p with
  | install shaders model limits => exact ignoresView_accept shaders model limits
  | reload flags files limits =>
    change (prepareParts flags.withImplied files limits).IgnoresView
    unfold prepareParts
    split
    · exact .bind (ignoresView_loadModel files) fun _ => ignoresView_accept _ _ _
    · split
      · refine .get_bind (fun _ _ => rfl) fun engine => .of_ignoresConfig ?_
        cases engine.model with
        | some model => exact .bind (.ofOutcome _) fun _ => .pure _
        | none => exact fun _ _ => rfl
      · exact .of_ignoresConfig (.pure none)

theorem ignoresView_tearDown : tearDown.IgnoresView := by
  refine .get_bind (fun _ _ => rfl) fun engine => .of_ignoresConfig ?_
  cases engine.bound with
  | some bound => exact .bind (.native _) fun _ => .modify fun _ _ => rfl
  | none => exact .modify fun _ _ => rfl

variable {base : Multiset NativeObject} {s : Session}

theorem exec_bindModel_of_tearDown [Libraries] {s₁ : Session} (h : tearDown.exec s = (.ok (), s₁))
    (hnone : s₁.engine.bound = none) (shaders : ShaderSet) (model : Model) (limits : Limits) :
    let made := (BoundModel.make s₁.engine.config shaders model limits).exec s₁.backend
    let left := (bindModel shaders model limits).exec s
    left.1 = made.1.map (fun _ => ()) ∧ left.2.backend = made.2 ∧
      left.2.engine.bound = made.1.toOption := by
  unfold bindModel
  rw [EngineM.exec_bind, h]
  dsimp only
  rw [EngineM.exec_bind, EngineM.exec_get]
  dsimp only
  rw [EngineM.exec_bind, EngineM.exec_native]
  rcases (BoundModel.make s₁.engine.config shaders model limits).exec s₁.backend with ⟨_ | _, _⟩
  · exact ⟨rfl, rfl, hnone⟩
  · exact ⟨rfl, rfl, rfl⟩

theorem bindModel_withView [Libraries] (h : s.Sound base) (shaders : ShaderSet) (model : Model)
    (limits : Limits) : ∃ b, b.Valid ∧ b.live = base ∧ ∀ view,
      let made := (BoundModel.make { s.engine.config with view := view } shaders model
        limits).exec b
      let left := (bindModel shaders model limits).exec (s.withView view)
      left.1 = made.1.map (fun _ => ()) ∧ left.2.backend = made.2 ∧
        left.2.engine.bound = made.1.toOption := by
  obtain ⟨b, hexec, hb, hlive⟩ := exec_tearDown h
  refine ⟨b, hb.valid, hlive, fun view => ?_⟩
  have htearDown := ignoresView_tearDown s view
  rw [hexec] at htearDown
  exact exec_bindModel_of_tearDown htearDown rfl shaders model limits

theorem bound_settled (engine : Engine) (flags : ReloadFlags) (result : Outcome EngineError Unit) :
    (engine.settled flags result).bound = engine.bound := by
  rcases result with (_ | _) | _ <;> rfl

end Engine

namespace Pass

variable [Libraries] {base : Multiset NativeObject} {s : Session}

/-- A pass does the same under every view, or it makes a model and does what that comes to. -/
theorem op_withView (h : s.Sound base) (p : Pass) :
    (∃ result b, (result.isOk = true → p.replaces = false) ∧ ∀ view,
      let left := p.op.exec (s.withView view)
      left.1 = result ∧ left.2.backend = b) ∨
    ∃ (config : Config) (shaders : ShaderSet) (model : Model) (b : Backend),
      b.Valid ∧ b.live = base ∧ ∀ view,
        let made := (BoundModel.make { config with view := view } shaders model p.limits).exec b
        let left := p.op.exec (s.withView view)
        left.1 = made.1.map (fun _ => ()) ∧ left.2.backend = made.2 ∧
          left.2.engine.bound = made.1.toOption := by
  simp only [op_eq, Engine.exec_finish, Engine.bound_settled]
  have hignores := Engine.ignoresView_prepare p s
  rcases hprepare : p.prepare.exec s with ⟨failure | offer, s₁⟩
  all_goals simp only [hprepare] at hignores
  · refine .inl ⟨.error failure, s₁.backend, nofun, fun view => ?_⟩
    rw [EngineM.exec_bind, hignores]
    exact ⟨rfl, rfl⟩
  · cases offer with
    | none =>
      refine .inl ⟨.ok (), s₁.backend, fun _ => ?_, fun view => ?_⟩
      · by_contra hreplaces
        obtain ⟨hoffered, -⟩ := prepare_eq_ok (Bool.not_eq_false _ ▸ hreplaces) hprepare
        cases hoffered
      · rw [EngineM.exec_bind, hignores]
        exact ⟨rfl, rfl⟩
    | some offer =>
      obtain ⟨shaders, model⟩ := offer
      have hs₁ := ((p.ends_prepare h).of_ok hprepare).1.sound
      obtain ⟨b, hb, hlive, hbind⟩ := Engine.bindModel_withView hs₁ shaders model p.limits
      refine .inr ⟨s₁.engine.config, shaders, model, b, hb, hlive, fun view => ?_⟩
      rw [EngineM.exec_bind, hignores]
      exact hbind view

variable {view view' : View} {camera camera' : Camera} {fault : Fault} {t : Session}

theorem op_alike (h : s.Sound base) (p : Pass) (hcamera : Camera.ofView view = .ok camera)
    (hcamera' : Camera.ofView view' = .ok camera') :
    let left := p.op.exec (s.withView view)
    let left' := p.op.exec (s.withView view')
    left.1 = left'.1 ∧ left.2.backend.Alike left'.2.backend := by
  rcases p.op_withView h with ⟨result, b, -, hsame⟩ | ⟨config, shaders, model, b, -, -, hmade⟩
  · obtain ⟨hresult, hbackend⟩ := hsame view
    obtain ⟨hresult', hbackend'⟩ := hsame view'
    exact ⟨hresult.trans hresult'.symm, hbackend ▸ hbackend' ▸ .refl b⟩
  · obtain ⟨hresult, hbackend, -⟩ := hmade view
    obtain ⟨hresult', hbackend', -⟩ := hmade view'
    obtain ⟨houtcome, halike⟩ := BoundModel.make_alike hcamera hcamera'
    constructor
    · rw [hresult, hresult', houtcome.map_eq fun _ _ _ => rfl]
    · rw [hbackend, hbackend']
      exact halike

/-- Under a view without a camera a pass faults, unless it did not get as far. -/
theorem op_of_fault (h : s.Sound base) (p : Pass) (view : View)
    (hfault : Camera.ofView view' = .error fault) :
    let left := p.op.exec (s.withView view)
    let left' := p.op.exec (s.withView view')
    left'.1 = .error (.fault fault) ∨ left.1 = left'.1 ∧ left.2.backend = left'.2.backend := by
  rcases p.op_withView h with ⟨result, b, -, hsame⟩ | ⟨config, shaders, model, b, -, -, hmade⟩
  · obtain ⟨hresult, hbackend⟩ := hsame view
    obtain ⟨hresult', hbackend'⟩ := hsame view'
    exact .inr ⟨hresult.trans hresult'.symm, hbackend.trans hbackend'.symm⟩
  · obtain ⟨hresult, hbackend, -⟩ := hmade view
    obtain ⟨hresult', hbackend', -⟩ := hmade view'
    rcases BoundModel.make_of_fault hfault with hfaulted | heq
    · left
      rw [hresult', hfaulted]
      rfl
    · right
      rw [hresult, hresult', hbackend, hbackend', heq]
      trivial

theorem op_leaves (h : s.Sound base) {p : Pass} (hreplaces : p.replaces = true)
    (hexec : p.op.exec (s.withView view) = (.ok (), t))
    (hfault : Camera.ofView view' = .error fault) :
    ∃ bound t', t.engine.bound = some bound ∧
      p.op.exec (s.withView view') = (.error (.fault fault), t') ∧ t'.engine.bound = none ∧
      t'.backend.live = base + bound.binder.objects := by
  rcases p.op_withView h with ⟨result, b, hkeeps, hsame⟩ | ⟨config, shaders, model, b, hb, hlive,
    hmade⟩
  · obtain ⟨hresult, -⟩ := hsame view
    rw [hexec] at hresult
    exact absurd (hkeeps (hresult ▸ rfl)) (by simp [hreplaces])
  · obtain ⟨hresult, hbackend, hbound⟩ := hmade view
    obtain ⟨hresult', hbackend', hbound'⟩ := hmade view'
    rw [hexec] at hresult hbackend hbound
    rcases hmake : (BoundModel.make { config with view := view } shaders model p.limits).exec b with
      ⟨failure | bound, b'⟩ <;> rw [hmake] at hresult hbackend hbound
    · cases hresult
    obtain ⟨made, hfaulted, hobjects⟩ := BoundModel.exec_make_of_fault hb hfault hmake
    rw [hfaulted] at hresult' hbackend' hbound'
    refine ⟨bound, (p.op.exec (s.withView view')).2, hbound, Prod.ext hresult' rfl, hbound', ?_⟩
    rw [hbackend', hobjects, hlive]

end Pass

namespace Session

variable {s t : Session} {p : Pass} {view view' : View} {replies : List (Except EngineError Reply)}

theorem run_setView_pass [Libraries] (s : Session) (view : View) (p : Pass) :
    s.run [.setView view, .pass p] = match p.op.exec (s.withView view) with
      | (.ok (), t) => .ok ([.ok .done, .ok .done], t)
      | (.error (.error e), t) => .ok ([.ok .done, .error e], t)
      | (.error (.fault fault), _) => .error fault := by
  have hview : s.step (.setView view) = .ok (.ok .done, s.withView view) := rfl
  have hpass : (Request.pass p).op.exec (s.withView view) =
      (p.op >>= fun _ => pure .done : EngineM Reply).exec (s.withView view) := rfl
  rw [run, hview]
  change (s.withView view).run [.pass p] >>= _ = _
  rw [run, step, hpass, EngineM.exec_bind]
  rcases p.op.exec (s.withView view) with ⟨(_ | _) | _, _⟩ <;> rfl

theorem run_of_fault [Libraries] {fault : Fault}
    (h : (p.op.exec (s.withView view)).1 = .error (.fault fault)) :
    s.run [.setView view, .pass p] = .error fault := by
  rw [run_setView_pass]
  generalize p.op.exec (s.withView view) = left at h ⊢
  obtain ⟨result, t⟩ := left
  obtain rfl : result = .error (.fault fault) := h
  rfl

theorem run_of_same [Libraries] (hrun : s.run [.setView view, .pass p] = .ok (replies, t))
    (hresult : (p.op.exec (s.withView view)).1 = (p.op.exec (s.withView view')).1)
    (hbackend : (p.op.exec (s.withView view)).2.backend.Alike
      (p.op.exec (s.withView view')).2.backend) :
    ∃ t', s.run [.setView view', .pass p] = .ok (replies, t') ∧ t.backend.Alike t'.backend := by
  rw [run_setView_pass] at hrun ⊢
  generalize p.op.exec (s.withView view) = left at hrun hresult hbackend
  generalize p.op.exec (s.withView view') = left' at hresult hbackend ⊢
  obtain ⟨result, u⟩ := left
  obtain ⟨result', u'⟩ := left'
  obtain rfl : result = result' := hresult
  rcases result with (_ | _) | _ <;> cases hrun <;> exact ⟨u', rfl, hbackend⟩

/--
Whatever an engine was asked for before, a pass that does not fault under the default view replies
the same under the view of every extent but the narrow ones, and leaves the same but for the bytes
in memory. Under the view of a narrow one it either does so or faults, and it faults if it binds a
model: the binder that was made for it is left behind, and nothing is bound.
-/
theorem run_ofExtent {config : Config} {b : Backend} (hb : b.Valid) {requests : List Request}
    {earlier : List (Except EngineError Reply)}
    (hreach : (start config b).run requests = .ok (earlier, s))
    (hdefault : s.run [.setView {}, .pass p] = .ok (replies, t)) {width height : Nat}
    (hw : width < 2 ^ 32) (hh : height < 2 ^ 32) :
    let resized := s.run [.setView (.ofExtent width height), .pass p]
    let same := ∃ t', resized = .ok (replies, t') ∧ t.backend.Alike t'.backend
    if View.IsNarrow width height then
      (same ∨ resized = .error .zeroAspectRatio) ∧
      (p.replaces = true → replies = [.ok .done, .ok .done] →
        resized = .error .zeroAspectRatio ∧ ∃ bound t', t.engine.bound = some bound ∧
          p.op.exec (s.withView (.ofExtent width height)) =
            (.error (.fault .zeroAspectRatio), t') ∧ t'.engine.bound = none ∧
          t'.backend.live = b.live + bound.binder.objects)
    else same := by
  intro resized same
  have hs := (leads_of_run (sound_start config hb) hreach).sound
  obtain ⟨camera, hcamera⟩ := Camera.ofView_default
  have hcamera' := Camera.ofView_ofExtent hw hh
  split_ifs at hcamera' ⊢ with hnarrow
  · refine ⟨?_, fun hreplaces hdone => ?_⟩
    · rcases Pass.op_of_fault hs p {} hcamera' with hfault | ⟨hresult, hbackend⟩
      · exact .inr (run_of_fault hfault)
      · exact .inl (run_of_same hdefault hresult (hbackend ▸ .refl _))
    · subst hdone
      rw [run_setView_pass] at hdefault
      rcases hexec : p.op.exec (s.withView {}) with ⟨(_ | _) | _, _⟩ <;> rw [hexec] at hdefault <;>
        cases hdefault
      obtain ⟨bound, t', hbound, hfault, hnone, hlive⟩ := Pass.op_leaves hs hreplaces hexec hcamera'
      exact ⟨run_of_fault (hfault ▸ rfl), bound, t', hbound, hfault, hnone, hlive⟩
  · obtain ⟨hresult, hbackend⟩ := Pass.op_alike hs p hcamera hcamera'
    exact run_of_same hdefault hresult hbackend

/-- A window without a height is not narrow, and a model with a buffer is bound for it as well. -/
theorem run_ofExtent_flat :
    let layout := LayoutMap.empty.put ⟨0, 0⟩
      ⟨"block", .descriptor 0 0 .empty .uniformBuffer, .vector .float 4 16⟩ rfl
    let vertex : Reflection := ⟨.vertex, "main", [], [], [], [], [], [], [], none⟩
    let p : Pass := .install .empty ⟨.ofList [(.vertex, vertex)], layout⟩ {}
    ∃ replies t t', (start {} {}).run [.setView {}, .pass p] = .ok (replies, t) ∧
      (start {} {}).run [.setView (.ofExtent 600 0), .pass p] = .ok (replies, t') ∧
      t.backend.Alike t'.backend := by
  intro layout vertex p
  have hresult : ((start {} {}).run [.setView {}, .pass p]).isOk = true := by decide +kernel
  rcases hrun : (start {} {}).run [.setView {}, .pass p] with _ | ⟨replies, t⟩ <;>
    rw [hrun] at hresult
  · cases hresult
  have hreach : (start {} {}).run [] = .ok ([], start {} {}) := rfl
  have hsame := run_ofExtent Backend.valid_empty hreach hrun (show 600 < 2 ^ 32 by decide)
    (show 0 < 2 ^ 32 by decide)
  rw [if_neg (by decide)] at hsame
  obtain ⟨t', hrun', halike⟩ := hsame
  exact ⟨replies, t, t', rfl, hrun', halike⟩

/-- A pass does not return under the view of a window without a width. -/
theorem run_ofExtent_faults : ¬ ∀ (config : Config) (b : Backend) requests earlier s (p : Pass)
    replies t width height, b.Valid → (start config b).run requests = .ok (earlier, s) →
    width < 2 ^ 32 → height < 2 ^ 32 → s.run [.setView {}, .pass p] = .ok (replies, t) →
    ∃ replies' t', s.run [.setView (.ofExtent width height), .pass p] = .ok (replies', t') := by
  intro hreturns
  let vertex : Reflection := ⟨.vertex, "main", [], [], [], [], [], [], [], none⟩
  let p : Pass := .install .empty ⟨.ofList [(.vertex, vertex)], .empty⟩ {}
  have hresult : ((start {} {}).run [.setView {}, .pass p]).isOk = true := by decide +kernel
  rcases hrun : (start {} {}).run [.setView {}, .pass p] with _ | ⟨replies, t⟩ <;>
    rw [hrun] at hresult
  · cases hresult
  obtain ⟨replies', t', hrun'⟩ := hreturns {} {} [] [] (start {} {}) p replies t 0 600
    Backend.valid_empty rfl (by decide) (by decide) hrun
  have hfault : ((start {} {}).run [.setView (.ofExtent 0 600), .pass p]).isOk = false := by
    decide +kernel
  rw [hrun'] at hfault
  cases hfault

end Session

end ShaderBinding
