import ShaderBinding.Proofs.Engine.History

/-! # Coherence

In every state of a session the model, the shaders, what is bound and whether the engine is valid
fit together, whichever passes failed and at which stage.
-/

namespace ShaderBinding.Session

variable {s s' : Session} {moves : List Move}
  {request : Request} {reply : Except EngineError Reply}

/-- Whether the latest pass succeeded, if there was any, in what was served from last to first. -/
def lastOutcome (served : List (Request × Except EngineError Reply)) : Option Bool :=
  served.findSome? fun (request, reply) => request.outcome? reply

theorem lastOutcome_pass (p : Pass) (reply : Except EngineError Reply)
    (served : List (Request × Except EngineError Reply)) :
    lastOutcome ((.pass p, reply) :: served) = some reply.isOk := rfl

theorem lastOutcome_skip (h : request.pass? = none)
    (served : List (Request × Except EngineError Reply)) :
    lastOutcome ((request, reply) :: served) = lastOutcome served := by
  simp [lastOutcome, Request.outcome?, h]

/-- The engine is valid exactly if its latest pass succeeded and something is bound. -/
structure Coherent (moves : List Move) (s : Session) : Prop where
  model : s.engine.model.isSome = s.engine.bound.isSome
  shaders : s.engine.bound = none → s.engine.shaders = .empty
  valid : s.engine.valid = true ↔
    lastOutcome (moves.map Move.served) = some true ∧ s.engine.bound.isSome = true

namespace Coherent

theorem start (config : Config) (b : Backend) : Coherent [] (start config b) where
  model := rfl
  shaders _ := rfl
  valid := by simp [Session.start]

theorem succeeded [Libraries] {p : Pass} (h : Coherent moves s) (hp : p.Succeeds s s') :
    Coherent (⟨s, .pass p, .ok .done, s'⟩ :: moves) s' := by
  have houtcome : lastOutcome ((.pass p, .ok .done) :: moves.map Move.served) = some true :=
    lastOutcome_pass p _ _
  cases hp with
  | bound log _ _ _ hengine => constructor <;> simp [hengine, Move.served, houtcome]
  | kept _ _ hs' =>
    subst hs'
    exact ⟨h.model, h.shaders, by simp [Move.served, houtcome]⟩

theorem failed {p : Pass} {e : EngineError} (h : Coherent moves s) (hp : p.Fails s e s') :
    Coherent (⟨s, .pass p, .error e, s'⟩ :: moves) s' := by
  have houtcome : lastOutcome ((.pass p, .error e) :: moves.map Move.served) = some false :=
    lastOutcome_pass p _ _
  have hvalid := hp.valid_eq
  cases hp with
  | refused log _ hengine =>
    refine ⟨?_, ?_, by simp [hvalid, Move.served, houtcome]⟩
    · simpa [hengine] using h.model
    · simpa [hengine] using h.shaders
  | dropped log _ hengine => constructor <;> simp [hengine, Move.served, houtcome]

theorem carried (h : Coherent moves s) (hpass : request.pass? = none)
    (hs' : s.engine.Carries s'.engine) : Coherent (⟨s, request, reply, s'⟩ :: moves) s' := by
  have houtcome : lastOutcome ((⟨s, request, reply, s'⟩ :: moves).map Move.served) =
      lastOutcome (moves.map Move.served) := lastOutcome_skip hpass _
  have hbound := hs'.isSome_bound
  refine ⟨?_, fun hnone => ?_, ?_⟩
  · rw [hs'.model, hbound]
    exact h.model
  · rw [hs'.shaders]
    apply h.shaders
    rw [hnone] at hbound
    simpa using hbound.symm
  · rw [hs'.valid, hbound, houtcome]
    exact h.valid

theorem isSome_pipelineInputs (h : Coherent moves s) :
    s.engine.pipelineInputs.isSome = s.engine.valid := by
  unfold Engine.pipelineInputs
  cases hvalid : s.engine.valid with
  | false => rfl
  | true =>
    have hbound := (h.valid.mp hvalid).2
    have hmodel := h.model.trans hbound
    obtain ⟨bound, hbound⟩ := Option.isSome_iff_exists.mp hbound
    obtain ⟨model, hmodel⟩ := Option.isSome_iff_exists.mp hmodel
    simp [hbound, hmodel]

end Coherent

theorem Runs.coherent [Libraries] {config : Config} {b : Backend} (hb : b.Valid)
    (h : Runs (Session.start config b) moves s) : Coherent moves s :=
  h.invariant (sound_start config hb) (.start config b) Coherent.succeeded Coherent.failed
    Coherent.carried

/--
After any run there is a model exactly if something is bound, and without it there are no shaders.
The engine is valid exactly if the latest pass succeeded and something is bound; only then it has
inputs for a pipeline and clears to the configured color. An edit is refused as invalid exactly if
nothing is bound and, whatever comes of it, changes nothing but what is bound.
-/
theorem run_coherent [Libraries] (config : Config) {b : Backend} (hb : b.Valid)
    {requests : List Request} {replies : List (Except EngineError Reply)}
    (hrun : (start config b).run requests = .ok (replies, s)) :
    s.engine.model.isSome = s.engine.bound.isSome ∧
    (s.engine.bound = none → s.engine.shaders = .empty) ∧
    (s.engine.valid = true ↔
      lastOutcome (requests.zip replies).reverse = some true ∧ s.engine.bound.isSome = true) ∧
    s.engine.pipelineInputs.isSome = s.engine.valid ∧
    s.engine.clearColor =
      (if s.engine.valid then s.engine.config.clearColor else ⟨.one, .zero, .one, .one⟩) ∧
    ∀ request : Request, request.isEdit = true → ∀ outcome s', request.op.exec s = (outcome, s') →
      (outcome = .error (.error .invalid) ↔ s.engine.bound = none) ∧
      s'.engine.model = s.engine.model ∧ s'.engine.shaders = s.engine.shaders ∧
      s'.engine.valid = s.engine.valid ∧ s'.engine.pending = s.engine.pending := by
  have hcoherent := (runs_history hrun).coherent hb
  refine ⟨hcoherent.model, hcoherent.shaders, ?_, hcoherent.isSome_pipelineInputs, rfl, ?_⟩
  · rw [← map_history hrun]
    exact hcoherent.valid
  · intro request hedit outcome s' hexec
    obtain ⟨hedits, hinvalid⟩ := Request.isEdit_op hedit s
    rw [hexec] at hedits hinvalid
    exact ⟨hinvalid, by rw [hedits.rest], by rw [hedits.rest], by rw [hedits.rest],
      by rw [hedits.rest]⟩

/-- A model that is rejected later on stays bound and open to edits, but is not offered any more. -/
theorem run_coherent_rejected :
    let position : Resource := ⟨"position", .inputAttribute 0, .vector .float 4 16⟩
    let vertex : Reflection := ⟨.vertex, "main", [], [], [position], [], [], [], [], none⟩
    let requests : List Request :=
      [.pass (.install .empty ⟨.ofList [(.vertex, vertex)], .empty⟩ {}),
        .pass (.reload .validation .empty { maxVertexInputAttributes := 0 })]
    let config : Config := { placeholder := { width := 1, height := 1 } }
    ∃ replies s, (start config {}).run requests = .ok (replies, s) ∧
      s.engine.model.isSome = true ∧ s.engine.pipelineInputs = none ∧
      (Request.recordPushConstants.op.exec s).1 ≠ .error (.error .invalid) := by
  intro position vertex requests config
  have hresult : ((start config {}).run requests).map
      (fun r => (lastOutcome (requests.zip r.1).reverse, r.2.engine.bound.isSome)) =
        .ok (some false, true) := by decide +kernel
  obtain ⟨⟨replies, s⟩, hrun, heq⟩ := Except.map_eq_ok.mp hresult
  obtain ⟨hlast, hbound⟩ := Prod.mk.inj heq
  obtain ⟨hmodel, -, hvalid, hinputs, -, hedits⟩ := run_coherent config Backend.valid_empty hrun
  refine ⟨replies, s, hrun, hmodel.trans hbound, ?_, ?_⟩
  · have hinvalid : ¬ s.engine.valid = true := by
      rw [hvalid, hlast]
      simp
    simpa [hinvalid] using hinputs
  · rcases hexec : Request.recordPushConstants.op.exec s with ⟨outcome, s'⟩
    obtain ⟨hinvalid, -⟩ := hedits .recordPushConstants rfl outcome s' hexec
    rw [ne_eq, hinvalid]
    exact Option.isSome_iff_ne_none.mp hbound

end ShaderBinding.Session
