import ShaderBinding.Proofs.Engine.History
import ShaderBinding.Proofs.Engine.Rebuild

/-! # Changes of the configuration

Only a pass that binds a model looks at the configuration. Until then a change of it goes unnoticed
by every request, and afterwards all that is bound was made and seeded from what it was changed to.
-/

namespace ShaderBinding

open Native Backend Session

def Session.withConfig (s : Session) (config : Config) : Session :=
  ⟨{ s.engine with config := config }, s.backend⟩

namespace EngineM

variable {α β : Type}

def IgnoresConfig (op : EngineM α) : Prop :=
  ∀ (s : Session) (config : Config),
    op.exec (s.withConfig config) = ((op.exec s).1, (op.exec s).2.withConfig config)

namespace IgnoresConfig

theorem pure (a : α) : (pure a : EngineM α).IgnoresConfig := fun _ _ => rfl

theorem native (x : Native EngineError α) : (Engine.native x).IgnoresConfig := fun _ _ => rfl

theorem ofOutcome (x : Outcome EngineError α) : (Engine.ofOutcome x).IgnoresConfig :=
  fun _ _ => rfl

theorem modify {f : Engine → Engine}
    (hf : ∀ engine config,
      f { engine with config := config } = { f engine with config := config }) :
    (modify f : EngineM PUnit).IgnoresConfig := fun s config =>
  congrArg (fun engine => (Except.ok (), Session.mk engine s.backend)) (hf s.engine config)

theorem bind {op : EngineM α} {f : α → EngineM β} (hop : op.IgnoresConfig)
    (hf : ∀ a, (f a).IgnoresConfig) : (op >>= f).IgnoresConfig := by
  intro s config
  rw [exec_bind, exec_bind, hop]
  rcases op.exec s with ⟨_ | a, s₁⟩
  · rfl
  · exact hf a s₁ config

theorem boundModel : Engine.boundModel.IgnoresConfig := by
  intro s config
  have hbound : (s.withConfig config).engine.bound = s.engine.bound := rfl
  rw [exec_boundModel, exec_boundModel, hbound]
  cases s.engine.bound <;> rfl

end IgnoresConfig

end EngineM

namespace Request

open EngineM

def reconfigure : Request → Config → Config
  | setConfig config, _ => config
  | setView view, config => { config with view := view }
  | _, config => config

def reconfigureAll (requests : List Request) (config : Config) : Config :=
  requests.foldl (fun config request => request.reconfigure config) config

theorem clearColor_reconfigureAll {config config' : Config}
    (h : config'.clearColor = config.clearColor) (requests : List Request) :
    (reconfigureAll requests config').clearColor =
      (reconfigureAll requests config).clearColor := by
  induction requests generalizing config config' with
  | nil => exact h
  | cons request rest ih =>
    apply ih
    cases request with
    | setConfig => rfl
    | _ => exact h

def isChange : Request → Bool
  | setConfig _ | setView _ => true
  | _ => false

variable [Libraries] {request : Request}

theorem ignoresConfig_op (hedit : request.isEdit = true) : request.op.IgnoresConfig := by
  cases request with
  | writeBuffer key offset data =>
    exact .bind (.bind .boundModel fun _ => .native _) fun _ => .pure _
  | replaceImage key info pixels =>
    refine .bind (.bind .boundModel fun _ => .bind (.native _) fun _ => ?_) fun _ => .pure _
    exact .modify fun _ _ => rfl
  | writePushConstants stage offset data =>
    refine .bind (.bind .boundModel fun _ => .bind (.ofOutcome _) fun _ => ?_) fun _ => .pure _
    exact .modify fun _ _ => rfl
  | recordPushConstants => exact .bind (.bind .boundModel fun _ => .pure _) fun _ => .pure _
  | _ => cases hedit

/-- Unless it is a pass, a request does and replies the same under any configuration. -/
theorem exec_withConfig (h : request.pass? = none) (s : Session) (config : Config) :
    request.op.exec (s.withConfig config) =
      ((request.op.exec s).1, (request.op.exec s).2.withConfig (request.reconfigure config)) := by
  cases request with
  | pass p => cases h
  | setConfig | setView | takePending | plan => rfl
  | writeBuffer | replaceImage | writePushConstants | recordPushConstants =>
    exact ignoresConfig_op rfl s config

theorem config_op (h : request.pass? = none) (s : Session) :
    (request.op.exec s).2.engine.config = request.reconfigure s.engine.config :=
  congrArg (·.2.engine.config) (exec_withConfig h s s.engine.config)

end Request

namespace Session

variable [Libraries] {base : Multiset NativeObject} {s s' : Session} {request : Request}
  {requests : List Request} {reply : Except EngineError Reply}
  {replies : List (Except EngineError Reply)}

theorem step_withConfig (h : request.pass? = none) (s : Session) (config : Config) :
    (s.withConfig config).step request = (s.step request).map fun served =>
      (served.1, served.2.withConfig (request.reconfigure config)) := by
  unfold step
  rw [Request.exec_withConfig h]
  rcases request.op.exec s with ⟨(_ | _) | _, _⟩ <;> rfl

theorem run_withConfig (h : ∀ request ∈ requests, request.pass? = none) (s : Session)
    (config : Config) : (s.withConfig config).run requests = (s.run requests).map fun served =>
      (served.1, served.2.withConfig (Request.reconfigureAll requests config)) := by
  induction requests generalizing s config with
  | nil => rfl
  | cons request rest ih =>
    obtain ⟨hrequest, hrest⟩ := List.forall_mem_cons.mp h
    rw [run, run, step_withConfig hrequest]
    rcases s.step request with _ | ⟨reply, s₁⟩
    · rfl
    · dsimp only [Except.map, Bind.bind, Except.bind]
      rw [ih hrest]
      rcases s₁.run rest with _ | ⟨others, s₂⟩ <;> rfl

theorem step_change (h : request.isChange = true) (s : Session) :
    s.step request = .ok (.ok .done, s.withConfig (request.reconfigure s.engine.config)) := by
  cases request with
  | setConfig | setView => rfl
  | _ => cases h

theorem config_of_step (h : s.Sound base) (hstep : s.step request = .ok (reply, s')) :
    s'.engine.config = request.reconfigure s.engine.config := by
  have hexec := exec_of_step hstep
  cases served_of_step h hstep with
  | succeeded hp =>
    cases hp with
    | bound log _ _ _ hengine => rw [hengine]; rfl
    | kept _ _ heq => rw [heq]; rfl
  | failed hp =>
    cases hp with
    | refused log _ hengine => rw [hengine]; rfl
    | dropped log _ hengine => rw [hengine]; rfl
  | carried hpass _ =>
    have hconfig := Request.config_op hpass s
    rwa [hexec] at hconfig

theorem config_of_run (h : s.Sound base) (hrun : s.run requests = .ok (replies, s')) :
    s'.engine.config = Request.reconfigureAll requests s.engine.config := by
  induction requests generalizing s replies with
  | nil =>
    cases hrun
    rfl
  | cons request rest ih =>
    obtain ⟨reply, s₁, others, hstep, hrest, -⟩ := exists_of_run_cons hrun
    have hsound := ((step_spec h request).2 reply s₁ hstep).sound
    rw [ih hsound hrest, config_of_step h hstep]
    rfl

end Session

theorem Content.bytes_of_initial {placeholder : ImageInfo} {pixels : Bytes} {camera : Camera}
    {resource : Resource} {category : Category} {size : Nat} {name : String} {held : Option Bytes}
    (h : initial placeholder pixels camera resource category = .ok (.buffer size name held)) :
    ∃ data, resource.type.initialBytes camera = .ok data ∧
      held = some (data ++ Bytes.zeros (max resource.type.size 1 - resource.type.size)) := by
  cases category with
  | sampledImage | storageImage => cases h
  | uniformBuffer | storageBuffer =>
    obtain ⟨data, hdata, h⟩ := Except.bind_eq_ok.mp h
    cases h
    exact ⟨data, hdata, rfl⟩

/-- Every buffer and every block of push constants holds the data that a camera seeds it with. Only
a buffer for a type without a size is larger than its type. -/
structure BoundModel.Seeded (camera : Camera) (model : Model) (b : Backend) (bound : BoundModel) :
    Prop where
  buffers : ∀ held ∈ bound.binder.resources, ∀ allocation, held.backing = .buffer allocation →
    ∃ data, held.resource.type.initialBytes camera = .ok data ∧
      b.allocator.bytes? allocation.memory = some (data ++
        Bytes.zeros (max held.resource.type.size 1 - held.resource.type.size))
  pushConstants : ∀ block ∈ model.pushConstants, ∃ data,
    block.2.type.initialBytes camera = .ok data ∧
      bound.pushConstants.data.get? block.1 = some data

namespace Session

variable {config : Config} {shaders : ShaderSet} {model : Model} {s : Session}

theorem Rebuilt.seeded [Libraries] (h : s.Rebuilt config shaders model) :
    ∃ camera bound, Camera.ofView config.view = .ok camera ∧ s.engine.bound = some bound ∧
      bound.Seeded camera model s.backend := by
  obtain ⟨snapshot, hinitial, hsnapshot⟩ := h.initial
  obtain ⟨bound, hbound, rfl⟩ := Option.map_eq_some_iff.mp hsnapshot
  obtain ⟨_, -, hinitial⟩ := Except.bind_eq_ok.mp hinitial
  obtain ⟨pixels, -, hinitial⟩ := Except.bind_eq_ok.mp hinitial
  obtain ⟨camera, hcamera, hinitial⟩ := Except.bind_eq_ok.mp hinitial
  obtain ⟨resources, hresources, hinitial⟩ := Except.bind_eq_ok.mp hinitial
  obtain ⟨data, hdata, hinitial⟩ := Except.bind_eq_ok.mp hinitial
  have heq := Except.ok.inj hinitial
  refine ⟨camera, bound, hcamera, hbound, fun held hmem allocation hbacking => ?_,
    fun block hblock => ?_⟩
  -- What is held is found in the snapshot, which has nothing but initial contents.
  · have hheld : resources = bound.binder.resources.map (·.snapshot s.backend.allocator) :=
      congrArg (·.resources) heq
    have hmem : held.snapshot s.backend.allocator ∈ resources :=
      hheld ▸ List.mem_map_of_mem hmem
    obtain ⟨d, -, hd⟩ := exists_left_of_forall₂ (Except.mapM_eq_ok.mp hresources) hmem
    obtain ⟨content, hcontent, hd⟩ := Except.bind_eq_ok.mp hd
    have hd := Except.ok.inj hd
    have hresource : d.2.1 = held.resource := congrArg (·.resource) hd
    obtain rfl : content = held.backing.content s.backend.allocator := congrArg (·.content) hd
    rw [hresource, hbacking] at hcontent
    exact Content.bytes_of_initial hcontent
  · have hstored : StageMap.ofList data = bound.pushConstants.data :=
      congrArg (·.pushConstants.data) heq
    obtain ⟨pair, hpair, hblock⟩ := exists_right_of_forall₂ (Except.mapM_eq_ok.mp hdata) hblock
    obtain ⟨bytes, hbytes, hblock⟩ := Except.bind_eq_ok.mp hblock
    cases hblock
    refine ⟨bytes, hbytes, ?_⟩
    rw [← hstored, ← StageMap.mem_toList,
      StageMap.toList_ofList (PushConstants.pairwise_initialData hdata)]
    exact hpair

end Session

/-- What a pass that succeeds makes of a configuration: a model that it binds is seeded from the
view, and otherwise all stays as it is bound. -/
structure Pass.Applies [Libraries] (p : Pass) (config : Config) (s s' : Session) : Prop where
  config_eq : s'.engine.config = config
  clearColor : s'.engine.clearColor =
    if p.replaces = true ∨ s.engine.bound.isSome then config.clearColor else .error
  seeded : p.replaces = true → ∃ shaders model, p.offer? config = some (shaders, model) ∧
    s'.Rebuilt config shaders model ∧ ∃ camera bound, Camera.ofView config.view = .ok camera ∧
      s'.engine.bound = some bound ∧ bound.Seeded camera model s'.backend
  kept : p.replaces = false → s'.engine.bound = s.engine.bound ∧ s'.backend = s.backend

theorem Pass.applies_of_op [Libraries] {base : Multiset NativeObject} {p : Pass} {s s' : Session}
    (h : s.Sound base) (hexec : p.op.exec s = (.ok (), s')) :
    p.Applies s.engine.config s s' := by
  cases ((p.ends_cases h).of_ok hexec).2 with
  | bound log hreplaces _ _ hengine =>
    obtain ⟨shaders, model, hoffer, hrebuilt⟩ := rebuilt_of_op h hreplaces hexec
    have hseeded := hrebuilt.seeded
    refine ⟨hrebuilt.config_eq, ?_, fun _ => ⟨shaders, model, hoffer, hrebuilt, hseeded⟩, ?_⟩
    · rw [hengine, if_pos (Or.inl hreplaces)]
      rfl
    · intro hkeeps
      rw [hreplaces] at hkeeps
      cases hkeeps
  | kept hkeeps _ heq =>
    subst heq
    refine ⟨rfl, ?_, ?_, fun _ => ⟨rfl, rfl⟩⟩
    · simp [Engine.clearColor, hkeeps]
    · intro hreplaces
      rw [hkeeps] at hreplaces
      cases hreplaces

namespace Session

variable {config : Config} {b : Backend} {s s' : Session} {requests : List Request}
  {replies : List (Except EngineError Reply)}

theorem kept_of_run [Libraries] (h : ∀ request ∈ requests, request.pass? = none)
    (hrun : s.run requests = .ok (replies, s')) :
    s'.engine.valid = s.engine.valid ∧
      s'.engine.bound.isSome = s.engine.bound.isSome := by
  induction requests generalizing s replies with
  | nil =>
    cases hrun
    exact ⟨rfl, rfl⟩
  | cons request rest ih =>
    obtain ⟨hrequest, hrest⟩ := List.forall_mem_cons.mp h
    obtain ⟨reply, s₁, others, hstep, hlater, -⟩ := exists_of_run_cons hrun
    have hcarries := Request.carries_op hrequest s
    rw [exec_of_step hstep] at hcarries
    obtain ⟨hvalid, hbound⟩ := ih hrest hlater
    exact ⟨hvalid.trans hcarries.valid, hbound.trans hcarries.isSome_bound⟩

/--
What is seen of a session under a configuration that no pass has applied yet. A valid engine has the
clear color of that configuration at once; all else is as under the old one.
-/
structure Deferred (config : Config) (t t' : Session) : Prop where
  eq_withConfig : t' = t.withConfig config
  valid : t'.engine.valid = t.engine.valid
  pending : t'.engine.pending = t.engine.pending
  pipelineInputs : t'.engine.pipelineInputs = t.engine.pipelineInputs
  backend : t'.backend = t.backend
  clearColor_iff : t'.engine.clearColor = t.engine.clearColor ↔
    (t.engine.valid = true → config.clearColor = t.engine.config.clearColor)

theorem deferred_withConfig (config : Config) (t : Session) :
    Deferred config t (t.withConfig config) := by
  constructor
  case clearColor_iff =>
    cases hvalid : t.engine.valid <;> simp [withConfig, Engine.clearColor, hvalid]
  all_goals rfl

/--
Whatever an engine was asked for before, a change of its configuration makes no difference to what
later requests do or reply until a pass comes, and none to what they leave but the configuration and
with it the clear color of a valid engine, which a change of the view leaves alone as well. Whatever
else comes before it, a pass that succeeds applies the configuration as it was changed.
-/
theorem run_deferred [Libraries] (hb : b.Valid)
    (hrun : (start config b).run requests = .ok (replies, s))
    {change : Request} (hchange : change.isChange = true) (later : List Request) :
    let changed := Request.reconfigureAll (change :: later) s.engine.config
    ((∀ request ∈ later, request.pass? = none) →
      s.run (change :: later) = (s.run later).map (fun served =>
        (.ok .done :: served.1, served.2.withConfig changed)) ∧
      ∀ others t, s.run later = .ok (others, t) →
        t.engine.config = Request.reconfigureAll later s.engine.config ∧
        t.engine.valid = s.engine.valid ∧
        t.engine.bound.isSome = s.engine.bound.isSome ∧
        Deferred changed t (t.withConfig changed) ∧
        ((∃ view, change = .setView view) →
          (t.withConfig changed).engine.clearColor = t.engine.clearColor)) ∧
    ∀ others t, s.run (change :: later) = .ok (others, t) → ∀ (p : Pass) t',
      p.op.exec t = (.ok (), t') → p.Applies changed t t' := by
  intro changed
  have hs := (leads_of_run (sound_start config hb) hrun).sound
  refine ⟨fun hlater => ⟨?_, fun others t hrest => ?_⟩, ?_⟩
  · rw [run, step_change hchange]
    change (s.withConfig (change.reconfigure s.engine.config)).run later >>= _ = _
    rw [run_withConfig hlater]
    rcases s.run later with _ | ⟨others, t⟩ <;> rfl
  · have hconfig := config_of_run hs hrest
    obtain ⟨hvalid, hbound⟩ := kept_of_run hlater hrest
    have hdeferred := deferred_withConfig changed t
    refine ⟨hconfig, hvalid, hbound, hdeferred, ?_⟩
    rintro ⟨view, rfl⟩
    have hcolor : ((Request.setView view).reconfigure s.engine.config).clearColor =
        s.engine.config.clearColor := rfl
    apply hdeferred.clearColor_iff.mpr
    intro _
    rw [hconfig]
    exact Request.clearColor_reconfigureAll hcolor later
  · intro others t hrun' p t' hexec
    have happlies := Pass.applies_of_op (leads_of_run hs hrun').sound hexec
    rwa [config_of_run hs hrun'] at happlies

/-- A bound model shows nothing of a nearer viewer until it is bound again, but the engine has the
new clear color at once. -/
theorem run_deferred_nearer :
    let layout := LayoutMap.empty.put ⟨0, 0⟩
      ⟨"block", .descriptor 0 0 .empty .uniformBuffer,
        .struct (.cons "view" 0 (.matrix .float 4 4 64) .nil) 64⟩ rfl
    let push : Resource := ⟨"push", .pushConstant .vertex, .matrix .float 4 4 64⟩
    let vertex : Reflection := ⟨.vertex, "main", [], [], [], [], [], [], [], some push⟩
    let model : Model := ⟨.ofList [(.vertex, vertex)], layout⟩
    let p : Pass := .install .empty model {}
    let later : List Request := [.writeBuffer ⟨0, 0⟩ 4 [1, 2], .takePending]
    let config : Config :=
      { view := { distance := .two }, clearColor := ⟨.one, .zero, .zero, .one⟩ }
    ∃ replies s others t t', (start {} {}).run [.pass p] = .ok (replies, s) ∧
      s.run later = .ok (others, t) ∧ t.engine.valid = true ∧
      s.run (.setConfig config :: later) = .ok (.ok .done :: others, t.withConfig config) ∧
      Deferred config t (t.withConfig config) ∧
      (t.withConfig config).engine.clearColor ≠ t.engine.clearColor ∧
      p.op.exec (t.withConfig config) = (.ok (), t') ∧
      p.Applies config (t.withConfig config) t' := by
  intro layout push vertex model p later config
  have hresult : ((start {} {}).run [.pass p] >>= fun r => (r.2.run later).map fun r' =>
      (r'.2.engine.valid, decide (r'.2.engine.config.clearColor = .opaqueBlack),
        (p.op.exec (r'.2.withConfig config)).1.isOk)) = .ok (true, true, true) := by
    decide +kernel
  obtain ⟨⟨replies, s⟩, hrun, hresult⟩ := Except.bind_eq_ok.mp hresult
  obtain ⟨⟨others, t⟩, hlater, heq⟩ := Except.map_eq_ok.mp hresult
  simp only [Prod.mk.injEq, decide_eq_true_eq] at heq
  obtain ⟨hvalid, hblack, hok⟩ := heq
  rcases hexec : p.op.exec (t.withConfig config) with ⟨_ | _, t'⟩ <;> rw [hexec] at hok
  · cases hok
  obtain ⟨hunseen, happlied⟩ := run_deferred Backend.valid_empty hrun
    (show (Request.setConfig config).isChange = true from rfl) later
  obtain ⟨hrun', hleft⟩ := hunseen (by decide +kernel)
  obtain ⟨-, -, -, hdeferred, -⟩ := hleft others t hlater
  rw [hlater] at hrun'
  refine ⟨replies, s, others, t, t', hrun, hlater, hvalid, hrun', hdeferred, ?_, hexec,
    happlied _ _ hrun' p t' hexec⟩
  intro hsame
  have hcolor : config.clearColor = t.engine.config.clearColor :=
    hdeferred.clearColor_iff.mp hsame hvalid
  rw [hblack] at hcolor
  exact absurd hcolor (by decide)

/-- No change of the configuration is seen in the clear color before a pass. -/
def HidesColors [Libraries] (s : Session) : Prop :=
  ∀ change later others t others' t', Request.isChange change = true →
    (∀ request ∈ later, request.pass? = none) → s.run later = .ok (others, t) →
    s.run (change :: later) = .ok (others', t') → t'.engine.clearColor = t.engine.clearColor

/-- The pass that follows a change of the configuration seeds all from its view if it succeeds. -/
def Reseeds [Libraries] (s : Session) : Prop :=
  ∀ change later others t (p : Pass) t', Request.isChange change = true →
    (∀ request ∈ later, request.pass? = none) → s.run (change :: later) = .ok (others, t) →
    p.op.exec t = (.ok (), t') →
    ∃ camera bound model, Camera.ofView t'.engine.config.view = .ok camera ∧
      t'.engine.bound = some bound ∧ t'.engine.model = some model ∧
      bound.Seeded camera model t'.backend

/-- Of a valid engine a new clear color is seen at once, and a pass for no more than the render pass
succeeds, but binds and seeds nothing. -/
theorem run_not_deferred : ∃ config b requests replies s, b.Valid ∧
    (start config b).run requests = .ok (replies, s) ∧ s.engine.valid = true ∧
    ¬ s.HidesColors ∧ ¬ s.Reseeds := by
  let push : Resource := ⟨"push", .pushConstant .vertex,
    .struct (.cons "view" 0 (.matrix .float 4 4 64) .nil) 64⟩
  let vertex : Reflection := ⟨.vertex, "main", [], [], [], [], [], [], [], some push⟩
  let model : Model := ⟨.ofList [(.vertex, vertex)], .empty⟩
  let recolor : Request := .setConfig { clearColor := ⟨.one, .zero, .zero, .one⟩ }
  let nearer : Request := .setView { distance := .two }
  let p : Pass := .reload .renderPass .empty {}
  -- After the pass the push constants are not those that the new view seeds.
  have hresult : ((start {} {}).run [.pass (.install .empty model {})] >>= fun r =>
      r.2.run [recolor] >>= fun c => (r.2.run [nearer]).map fun r' =>
        let t' := (p.op.exec r'.2).2
        (r.2.engine.valid, decide (c.2.engine.clearColor = r.2.engine.clearColor),
          (p.op.exec r'.2).1.isOk,
          decide (t'.engine.model.map (·.pushConstants) = some [(.vertex, push)]),
          t'.engine.bound.map fun bound => decide
            (bound.pushConstants.data.get? .vertex =
              (Camera.ofView t'.engine.config.view >>= push.type.initialBytes).toOption))) =
      .ok (true, false, true, true, some false) := by decide +kernel
  obtain ⟨⟨replies, s⟩, hrun, hresult⟩ := Except.bind_eq_ok.mp hresult
  obtain ⟨⟨others, c⟩, hrecolor, hresult⟩ := Except.bind_eq_ok.mp hresult
  obtain ⟨⟨others', t⟩, hnearer, heq⟩ := Except.map_eq_ok.mp hresult
  simp only [Prod.mk.injEq, decide_eq_true_eq, decide_eq_false_iff_not] at heq
  obtain ⟨hvalid, hcolor, hok, hmodel, hbound⟩ := heq
  refine ⟨{}, {}, _, replies, s, Backend.valid_empty, hrun, hvalid, ?_, ?_⟩
  · intro hhides
    exact hcolor (hhides recolor [] [] s others c rfl (List.forall_mem_nil _) rfl hrecolor)
  · intro hreseeds
    rcases hexec : p.op.exec t with ⟨_ | _, t'⟩ <;> rw [hexec] at hok hmodel hbound
    · cases hok
    obtain ⟨camera, bound, model', hcamera, hbound', hmodel', hseeded⟩ :=
      hreseeds nearer [] others' t p t' rfl (List.forall_mem_nil _) hnearer hexec
    rw [hmodel', Option.map_some, Option.some_inj] at hmodel
    obtain ⟨data, hdata, hheld⟩ :=
      hseeded.pushConstants (.vertex, push) (hmodel ▸ List.mem_singleton_self _)
    rw [hbound', hcamera] at hbound
    simp [hheld, Bind.bind, Except.bind, hdata, Except.toOption] at hbound

end Session

end ShaderBinding
