import ShaderBinding.Proofs.Engine.History
import ShaderBinding.Proofs.Link.PushConstants

/-! # Bound models have linked

Whatever is bound has linked under the limits of the pass that bound it, whichever pass that was.
Its push constants therefore fit, and placing them cannot overflow.
-/

namespace ShaderBinding

theorem PushConstants.exists_ofModel {model : Model} {limits : Limits}
    (h : model.link limits = .ok ()) : ∃ p, ofModel model = .ok p := by
  rw [ofModel_eq, if_pos (total_le_of_link h).1]
  exact ⟨_, rfl⟩

theorem BoundModel.ranges_of_make [Libraries] {config : Config} {shaders : ShaderSet}
    {model : Model} {limits : Limits} {b b' : Backend} {bound : BoundModel}
    (h : (make config shaders model limits).exec b = (.ok bound, b')) :
    ∃ placed, PushConstants.ofModel model = .ok placed ∧
      bound.pushConstants.ranges = placed.ranges := by
  obtain ⟨parts⟩ := parts_of_make h
  exact ⟨parts.zeroed, parts.zeros, PushConstants.ranges_seed parts.pushConstants⟩

namespace Move

def binding? (m : Move) : Option Pass :=
  m.request.pass?.filter fun p => p.replaces && m.reply.isOk

theorem binding?_ok (s s' : Session) (p : Pass) :
    binding? ⟨s, .pass p, .ok .done, s'⟩ = if p.replaces then some p else none := by
  have hok : (Except.ok Reply.done : Except EngineError Reply).isOk = true := rfl
  simp [binding?, Request.pass?, Option.filter_some, hok]

theorem binding?_error (s s' : Session) (p : Pass) (e : EngineError) :
    binding? ⟨s, .pass p, .error e, s'⟩ = none := by
  have herror : (Except.error e : Except EngineError Reply).isOk = false := rfl
  simp [binding?, Request.pass?, herror]

end Move

namespace Session

variable {s s' : Session} {moves : List Move} {request : Request}
  {reply : Except EngineError Reply}

def Linked (moves : List Move) (s : Session) : Prop :=
  ∀ bound, s.engine.bound = some bound → ∃ model p since m,
    s.engine.model = some model ∧ Latest Move.binding? moves since m p ∧
    m.after.engine.model = some model ∧ model.link p.limits = .ok () ∧
    ∃ placed, PushConstants.ofModel model = .ok placed ∧
      bound.pushConstants.ranges = placed.ranges

namespace Linked

theorem start (config : Config) (b : Backend) : Linked [] (start config b) := nofun

theorem later {m : Move} (h : Linked moves s) (hnone : m.binding? = none)
    (hbound : Option.Rel (fun old new => new.pushConstants.ranges = old.pushConstants.ranges)
      s.engine.bound s'.engine.bound)
    (hmodel : s'.engine.model = s.engine.model) : Linked (m :: moves) s' := by
  intro new hnew
  obtain ⟨old, hold, hranges⟩ : ∃ old, s.engine.bound = some old ∧
      new.pushConstants.ranges = old.pushConstants.ranges := by
    rw [hnew] at hbound
    generalize s.engine.bound = before at hbound
    cases hbound with
    | some hranges => exact ⟨_, rfl, hranges⟩
  obtain ⟨model, p, since, m', hlinked, hlatest, hafter, hlink, placed, hplaced, hrest⟩ :=
    h old hold
  exact ⟨model, p, m :: since, m', hmodel.trans hlinked, hlatest.later hnone, hafter, hlink,
    placed, hplaced, hranges.trans hrest⟩

theorem succeeded [Libraries] {p : Pass} (h : Linked moves s) (hp : p.Succeeds s s') :
    Linked (⟨s, .pass p, .ok .done, s'⟩ :: moves) s' := by
  have hbinding := Move.binding?_ok s s' p
  cases hp with
  | bound log hreplaces hlink hmake hengine =>
    intro new hnew
    rw [hengine] at hnew
    cases hnew
    obtain ⟨placed, hplaced, hranges⟩ := BoundModel.ranges_of_make hmake
    rw [if_pos hreplaces] at hbinding
    exact ⟨_, p, [], _, by rw [hengine], .now hbinding, by rw [hengine], hlink, placed, hplaced,
      hranges⟩
  | kept hkeeps _ hs' =>
    subst hs'
    rw [if_neg (by simp [hkeeps])] at hbinding
    exact h.later hbinding (Engine.Edits.refl s.engine).bound rfl

theorem failed {p : Pass} {e : EngineError} (h : Linked moves s) (hp : p.Fails s e s') :
    Linked (⟨s, .pass p, .error e, s'⟩ :: moves) s' := by
  have hbinding := Move.binding?_error s s' p e
  cases hp with
  | refused log _ hengine =>
    refine h.later hbinding ?_ (by rw [hengine])
    rw [hengine]
    exact (Engine.Edits.refl s.engine).bound
  | dropped log _ hengine =>
    intro new hnew
    rw [hengine] at hnew
    cases hnew

theorem carried (h : Linked moves s) (hpass : request.pass? = none)
    (hs' : s.engine.Carries s'.engine) : Linked (⟨s, request, reply, s'⟩ :: moves) s' :=
  h.later (by simp [Move.binding?, hpass]) hs'.bound hs'.model

end Linked

theorem Runs.linked [Libraries] {config : Config} {b : Backend} (hb : b.Valid)
    (h : Runs (Session.start config b) moves s) : Linked moves s :=
  h.invariant (sound_start config hb) (.start config b) Linked.succeeded Linked.failed
    Linked.carried

/--
After any run, what is bound has linked under the limits of the pass that bound it, be it to
install or to reload. Its push constants are within those limits, each range for itself and all
of them together, and whatever a pass goes on to bind has push constants that can be placed.
-/
theorem run_binds_linked [Libraries] (config : Config) {b : Backend} (hb : b.Valid)
    {requests : List Request} {replies : List (Except EngineError Reply)}
    (hrun : (start config b).run requests = .ok (replies, s)) :
    (∀ bound, s.engine.bound = some bound → ∃ model p since m,
      s.engine.model = some model ∧
      Latest Move.binding? ((start config b).history requests) since m p ∧
      m.after.engine.model = some model ∧ model.link p.limits = .ok () ∧
      (∃ placed, PushConstants.ofModel model = .ok placed ∧
        bound.pushConstants.ranges = placed.ranges) ∧
      pushConstantTotal model.stages ≤ p.limits.maxPushConstantsSize ∧
      ∀ entry ∈ bound.pushConstants.ranges,
        entry.2.offset + entry.2.size ≤ p.limits.maxPushConstantsSize) ∧
    ∀ p : Pass, p.op = Engine.finish p.parts (p.prepare >>= p.bindPrepared) ∧
      ∀ shaders model s', p.prepare.exec s = (.ok (some (shaders, model)), s') →
        ∃ placed, PushConstants.ofModel model = .ok placed := by
  have hruns := runs_history hrun
  refine ⟨fun bound hbound => ?_, fun p => ⟨p.op_eq, fun shaders model s' hexec => ?_⟩⟩
  · obtain ⟨model, p, since, m, hmodel, hlatest, hafter, hlink, placed, hplaced, hranges⟩ :=
      hruns.linked hb bound hbound
    have htotal := (total_le_of_link hlink).2
    refine ⟨model, p, since, m, hmodel, hlatest, hafter, hlink, ⟨placed, hplaced, hranges⟩,
      htotal, fun entry hentry => ?_⟩
    rw [hranges] at hentry
    exact (PushConstants.stop_le_total hplaced hentry).trans htotal
  · have hends := p.ends_prepare (hruns.sound (sound_start config hb))
    unfold EngineM.Ends at hends
    rw [hexec] at hends
    obtain ⟨-, hprepared⟩ := hends
    cases hprepared with
    | offered log _ hlink => exact PushConstants.exists_ofModel hlink

/-- What was bound within its limit, to the last byte, is not lost to a pass with a lower limit. -/
theorem run_binds_linked_tight :
    let push (stage : Stage) (size : Nat) : Resource :=
      ⟨"push", .pushConstant stage, .struct .nil size⟩
    let vertex : Reflection := ⟨.vertex, "main", [], [], [], [], [], [], [],
      some (push .vertex 64)⟩
    let fragment : Reflection := ⟨.fragment, "main", [], [], [], [], [], [], [],
      some (push .fragment 32)⟩
    let model : Model := ⟨.ofList [(.vertex, vertex), (.fragment, fragment)], .empty⟩
    let requests : List Request :=
      [.pass (.install .empty model { maxPushConstantsSize := 96 }),
        .pass (.install .empty model { maxPushConstantsSize := 95 })]
    let config : Config := { placeholder := { width := 1, height := 1 } }
    ∃ replies s bound, (start config {}).run requests = .ok (replies, s) ∧
      s.engine.bound = some bound ∧
      bound.pushConstants.ranges.map (fun entry => (entry.2.offset, entry.2.size)) =
        [(0, 64), (64, 32)] ∧
      ∀ entry ∈ bound.pushConstants.ranges, entry.2.offset + entry.2.size ≤ 96 := by
  intro push vertex fragment model requests config
  have hresult : ((start config {}).run requests).map
      (fun r => r.2.engine.bound.map fun bound =>
        bound.pushConstants.ranges.map fun entry => (entry.2.offset, entry.2.size)) =
        .ok (some [(0, 64), (64, 32)]) := by decide +kernel
  have hbinding : (((start config {}).history requests).findSome? Move.binding?).map
      (·.limits.maxPushConstantsSize) = some 96 := by decide +kernel
  obtain ⟨⟨replies, s⟩, hrun, hmap⟩ := Except.map_eq_ok.mp hresult
  obtain ⟨bound, hbound, hranges⟩ := Option.map_eq_some_iff.mp hmap
  obtain ⟨_, p, _, _, -, hlatest, -, -, -, -, hstops⟩ :=
    (run_binds_linked config Backend.valid_empty hrun).1 bound hbound
  refine ⟨replies, s, bound, hrun, hbound, hranges, fun entry hentry => ?_⟩
  have hlimit : p.limits.maxPushConstantsSize = 96 := by
    simpa [hlatest.findSome?_eq] using hbinding
  rw [← hlimit]
  exact hstops entry hentry

end Session

end ShaderBinding
