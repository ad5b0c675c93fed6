import ShaderBinding.Proofs.Engine.Coherence

/-! # Validity and the latest check

A model that a later check rejects stays bound, and the engine is invalid until a pass succeeds.
Not every pass runs a check: one that does not makes the engine valid again, whatever the latest
check has found.
-/

namespace ShaderBinding

namespace Move

/--
The verdict of the check that was run against the current model. A pass that replaces the model
checks the new one, which is the current one only if the pass succeeds.
-/
def check? (m : Move) : Option (Outcome LinkErrors Unit) := do
  let p ← m.request.pass?
  guard (p.validates && (!p.replaces || m.reply.isOk))
  let model ← m.after.engine.model
  return model.link p.limits

section Check

variable {s s' : Session} {p : Pass} {reply : Except EngineError Reply}

theorem check?_eq_some {model : Model} (hvalidates : p.validates = true)
    (hcurrent : p.replaces = false ∨ reply.isOk = true) (hmodel : s'.engine.model = some model) :
    check? ⟨s, .pass p, reply, s'⟩ = some (model.link p.limits) := by
  simp [check?, Request.pass?, hvalidates, hcurrent, hmodel]

theorem check?_eq_none (h : p.validates = false ∨ p.replaces = true ∧ reply.isOk = false ∨
    s'.engine.model = none) : check? ⟨s, .pass p, reply, s'⟩ = none := by
  rcases h with hvalidates | ⟨hreplaces, hfailed⟩ | hmodel
  · simp [check?, Request.pass?, hvalidates]
  · simp [check?, Request.pass?, hreplaces, hfailed]
  · simp [check?, Request.pass?, hmodel]

end Check

def unchecked (m : Move) : Bool := m.request.pass?.any fun p => !p.validates && m.reply.isOk

end Move

namespace Session

variable {s s' : Session} {moves : List Move} {m : Move} {request : Request}
  {reply : Except EngineError Reply} {p : Pass}

/--
The latest check of the current model has accepted it or, if the engine is valid in spite of it,
is followed by a pass without one. A pass with a check succeeds exactly if the check does.
-/
structure Vetted (moves : List Move) (s : Session) : Prop where
  latest : ∀ model, s.engine.model = some model → ∃ since m verdict,
    Latest Move.check? moves since m verdict ∧ m.after.engine.model = some model ∧
    (s.engine.valid = true → verdict = .ok () ∨ ∃ m' ∈ since, m'.unchecked = true)
  outcome : ∀ m ∈ moves, ∀ verdict, m.check? = some verdict → m.outcome? = some verdict.isOk

namespace Vetted

theorem start (config : Config) (b : Backend) : Vetted [] (start config b) where
  latest _ hmodel := by simp [Session.start] at hmodel
  outcome := by simp

theorem checked {verdict : Outcome LinkErrors Unit} (h : Vetted moves s)
    (hcheck : m.check? = some verdict) (houtcome : m.outcome? = some verdict.isOk)
    (hvalid : m.after.engine.valid = true → verdict = .ok ()) :
    Vetted (m :: moves) m.after where
  latest model hmodel := ⟨[], m, verdict, .now hcheck, hmodel, fun hv => Or.inl (hvalid hv)⟩
  outcome := by
    refine List.forall_mem_cons.mpr ⟨fun verdict' h' => ?_, h.outcome⟩
    rw [hcheck] at h'
    cases h'
    exact houtcome

/-- A move without a check may drop the model, but puts no other in its place. -/
theorem no_check (h : Vetted moves s) (hcheck : m.check? = none)
    (hmodel : m.after.engine.model = s.engine.model ∨ m.after.engine.model = none)
    (hvalid : m.after.engine.valid = true → s.engine.valid = true ∨ m.unchecked = true) :
    Vetted (m :: moves) m.after where
  latest model hcurrent := by
    have hold : s.engine.model = some model := by
      rcases hmodel with hsame | hnone
      · rw [← hsame, hcurrent]
      · rw [hnone] at hcurrent
        cases hcurrent
    obtain ⟨since, m', verdict, hlatest, hafter, hverdict⟩ := h.latest model hold
    refine ⟨m :: since, m', verdict, hlatest.later hcheck, hafter, fun hv => ?_⟩
    rcases hvalid hv with hv | hunchecked
    · rcases hverdict hv with hok | ⟨m'', hmem, hunchecked⟩
      · exact Or.inl hok
      · exact Or.inr ⟨m'', List.mem_cons_of_mem m hmem, hunchecked⟩
    · exact Or.inr ⟨m, List.mem_cons_self, hunchecked⟩
  outcome := by
    refine List.forall_mem_cons.mpr ⟨fun verdict' h' => ?_, h.outcome⟩
    rw [hcheck] at h'
    cases h'

theorem succeeded [Libraries] (h : Vetted moves s) (hp : p.Succeeds s s') :
    Vetted (⟨s, .pass p, .ok .done, s'⟩ :: moves) s' := by
  have hok : (Except.ok Reply.done : Except EngineError Reply).isOk = true := rfl
  cases hp with
  | bound log hreplaces hlink _ hengine =>
    have hcheck : Move.check? ⟨s, .pass p, .ok .done, s'⟩ = some (.ok ()) := by
      rw [← hlink]
      have hvalidates := Pass.validates_of_replaces hreplaces
      exact Move.check?_eq_some hvalidates (Or.inr hok) (by rw [hengine])
    exact h.checked hcheck rfl fun _ => rfl
  | kept hkeeps hlink hs' =>
    have hsame : s'.engine.model = s.engine.model := by rw [hs']
    cases hvalidates : p.validates with
    | true =>
      obtain ⟨model, hmodel, hlink⟩ := hlink hvalidates
      have hcheck : Move.check? ⟨s, .pass p, .ok .done, s'⟩ = some (.ok ()) := by
        rw [← hlink]
        exact Move.check?_eq_some hvalidates (Or.inr hok) (hsame.trans hmodel)
      exact h.checked hcheck rfl fun _ => rfl
    | false =>
      refine h.no_check (Move.check?_eq_none (Or.inl hvalidates)) (Or.inl hsame) fun _ => ?_
      simp [Move.unchecked, Request.pass?, hvalidates, hok]

theorem failed {e : EngineError} (h : Vetted moves s) (hp : p.Fails s e s') :
    Vetted (⟨s, .pass p, .error e, s'⟩ :: moves) s' := by
  have herror : (Except.error e : Except EngineError Reply).isOk = false := rfl
  have hinvalid : ¬ s'.engine.valid = true := by simp [hp.valid_eq]
  cases hp with
  -- Only a refusal by the check itself leaves a verdict on the model that stays.
  | refused log hdeclines hengine =>
    have hmodel : s'.engine.model = s.engine.model := by rw [hengine]
    cases hdeclines with
    | replacing hreplaces =>
      exact h.no_check (Move.check?_eq_none (Or.inr (Or.inl ⟨hreplaces, herror⟩))) (Or.inl hmodel)
        fun hv => absurd hv hinvalid
    | @rejected model errors hkeeps hvalidates hcurrent hlink =>
      have hcheck : Move.check? ⟨s, .pass p, .error (.link errors), s'⟩ = some (.fail errors) := by
        rw [← hlink]
        exact Move.check?_eq_some hvalidates (Or.inl hkeeps) (hmodel.trans hcurrent)
      exact h.checked hcheck rfl fun hv => absurd hv hinvalid
    | missing _ _ hnone =>
      exact h.no_check (Move.check?_eq_none (Or.inr (Or.inr (hmodel.trans hnone)))) (Or.inl hmodel)
        fun hv => absurd hv hinvalid
  | dropped log _ hengine =>
    have hnone : s'.engine.model = none := by rw [hengine]
    exact h.no_check (Move.check?_eq_none (Or.inr (Or.inr hnone))) (Or.inr hnone)
      fun hv => absurd hv hinvalid

theorem carried (h : Vetted moves s) (hpass : request.pass? = none)
    (hs' : s.engine.Carries s'.engine) : Vetted (⟨s, request, reply, s'⟩ :: moves) s' := by
  refine h.no_check (by simp [Move.check?, hpass]) (Or.inl hs'.model) ?_
  rw [hs'.valid]
  exact Or.inl

end Vetted

theorem Runs.vetted [Libraries] {config : Config} {b : Backend} (hb : b.Valid)
    (h : Runs (Session.start config b) moves s) : Vetted moves s :=
  h.invariant (sound_start config hb) (.start config b) Vetted.succeeded Vetted.failed
    Vetted.carried

/-- Once a pass has failed, the engine is invalid until another one succeeds. -/
theorem Coherent.invalid_since {since earlier : List Move} (h : Coherent moves s)
    (hmoves : moves = since ++ m :: earlier) (hfailed : m.outcome? = some false)
    (hsince : ∀ m' ∈ since, m'.outcome? ≠ some true) : s.engine.valid = false := by
  rw [← Bool.not_eq_true, h.valid]
  rintro ⟨hlast, -⟩
  have hlast : (since ++ m :: earlier).findSome? Move.outcome? = some true := by
    rw [← hmoves, ← hlast, lastOutcome, List.findSome?_map]
    rfl
  rw [List.findSome?_append, List.findSome?_cons, hfailed] at hlast
  cases hfound : since.findSome? Move.outcome? with
  | none => simp [hfound] at hlast
  | some outcome =>
    obtain ⟨m', hmem, houtcome⟩ := List.exists_of_findSome?_eq_some hfound
    rw [hfound] at hlast
    exact hsince m' hmem (houtcome.trans hlast)

/--
Whenever an engine is valid after a run, and so offers inputs for a pipeline, the latest check of
the current model has accepted it, or a pass without any check has succeeded since. Once a check
has rejected the current model, the engine is invalid until some pass succeeds.
-/
theorem run_vetted [Libraries] (config : Config) {b : Backend} (hb : b.Valid)
    {requests : List Request} {replies : List (Except EngineError Reply)}
    (hrun : (start config b).run requests = .ok (replies, s)) :
    s.engine.pipelineInputs.isSome = s.engine.valid ∧
    (s.engine.valid = true → ∃ since m verdict,
      Latest Move.check? ((start config b).history requests) since m verdict ∧
      m.after.engine.model = s.engine.model ∧
      (verdict = .ok () ∨ ∃ m' ∈ since, m'.unchecked = true)) ∧
    ∀ since m earlier errors, (start config b).history requests = since ++ m :: earlier →
      m.check? = some (.fail errors) → (∀ m' ∈ since, m'.outcome? ≠ some true) →
      s.engine.valid = false := by
  have hruns := runs_history hrun
  have hcoherent := hruns.coherent hb
  have hvetted := hruns.vetted hb
  refine ⟨hcoherent.isSome_pipelineInputs, fun hvalid => ?_, ?_⟩
  · have hbound := (hcoherent.valid.mp hvalid).2
    obtain ⟨model, hmodel⟩ := Option.isSome_iff_exists.mp (hcoherent.model.trans hbound)
    obtain ⟨since, m, verdict, hlatest, hafter, hverdict⟩ := hvetted.latest model hmodel
    exact ⟨since, m, verdict, hlatest, hafter.trans hmodel.symm, hverdict hvalid⟩
  · intro since m earlier errors hmoves hcheck hsince
    have hmem : m ∈ (start config b).history requests := by simp [hmoves]
    exact hcoherent.invalid_since hmoves (hvetted.outcome m hmem _ hcheck) hsince

/-- A pass for the pipeline does not see that the model was rejected before. -/
theorem run_vetted_pipeline :
    let position : Resource := ⟨"position", .inputAttribute 0, .vector .float 4 16⟩
    let vertex : Reflection := ⟨.vertex, "main", [], [], [position], [], [], [], [], none⟩
    let requests : List Request :=
      [.pass (.install .empty ⟨.ofList [(.vertex, vertex)], .empty⟩ {}),
        .pass (.reload .validation .empty { maxVertexInputAttributes := 0 }),
        .pass (.reload .pipeline .empty {})]
    let config : Config := { placeholder := { width := 1, height := 1 } }
    ∃ replies s, (start config {}).run requests = .ok (replies, s) ∧
      s.engine.pipelineInputs.isSome = true ∧ ∃ since m,
      Latest Move.check? ((start config {}).history requests) since m
        (.fail ⟨[.tooManyVertexAttributes 1 0]⟩) ∧
      m.after.engine.model = s.engine.model ∧ ∃ m' ∈ since, m'.unchecked = true := by
  intro position vertex requests config
  have hresult : ((start config {}).run requests).map (·.2.engine.valid) = .ok true := by
    decide +kernel
  have hcheck : ((start config {}).history requests).findSome? Move.check? =
      some (.fail ⟨[.tooManyVertexAttributes 1 0]⟩) := by decide +kernel
  obtain ⟨⟨replies, s⟩, hrun, hvalid⟩ := Except.map_eq_ok.mp hresult
  obtain ⟨hinputs, hlatest, -⟩ := run_vetted config Backend.valid_empty hrun
  obtain ⟨since, m, verdict, hlatest, hafter, hverdict⟩ := hlatest hvalid
  rw [hlatest.findSome?_eq] at hcheck
  cases hcheck
  exact ⟨replies, s, hrun, hinputs.trans hvalid, since, m, hlatest, hafter,
    hverdict.resolve_left nofun⟩

/-- So the engine can be valid with a model that the latest check has rejected. -/
theorem run_valid_after_rejection :
    ¬ ∀ (config : Config) (requests : List Request) (replies : List (Except EngineError Reply))
      (s : Session), (start config {}).run requests = .ok (replies, s) →
      s.engine.valid = true →
      ∃ since m, Latest Move.check? ((start config {}).history requests) since m (.ok ()) := by
  intro haccepted
  let position : Resource := ⟨"position", .inputAttribute 0, .vector .float 4 16⟩
  let vertex : Reflection := ⟨.vertex, "main", [], [], [position], [], [], [], [], none⟩
  let requests : List Request :=
    [.pass (.install .empty ⟨.ofList [(.vertex, vertex)], .empty⟩ {}),
      .pass (.reload .validation .empty { maxVertexInputAttributes := 0 }),
      .pass (.reload .pipeline .empty {})]
  let config : Config := { placeholder := { width := 1, height := 1 } }
  have hresult : ((start config {}).run requests).map (·.2.engine.valid) = .ok true := by
    decide +kernel
  have hcheck : ((start config {}).history requests).findSome? Move.check? =
      some (.fail ⟨[.tooManyVertexAttributes 1 0]⟩) := by decide +kernel
  obtain ⟨⟨replies, s⟩, hrun, hvalid⟩ := Except.map_eq_ok.mp hresult
  obtain ⟨since, m, hlatest⟩ := haccepted config requests replies s hrun hvalid
  rw [hlatest.findSome?_eq] at hcheck
  cases hcheck

end Session

end ShaderBinding
