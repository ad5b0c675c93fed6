import ShaderBinding.Proofs.Engine.Ownership
import ShaderBinding.Proofs.Engine.Phases

/-! # Passes

A sound session owns its live objects, besides those that were there before the engine. A pass
keeps a session sound, and one that fails is refused before the old model is touched or drops
everything: there is nothing in between.
-/

namespace ShaderBinding

open NativeObject

def Engine.objects (engine : Engine) : List NativeObject :=
  match engine.bound with
  | some bound => bound.objects
  | none => []

theorem Engine.objects_of_bound {engine : Engine} {bound : BoundModel}
    (h : engine.bound = some bound) : engine.objects = bound.objects := by
  rw [objects, h]

/-- The errors of loading, reflecting and linking, and that there is no model. -/
def EngineError.isRefusal : EngineError → Bool
  | shader _ | reflect _ | link _ | invalid => true
  | bind _ | device _ => false

namespace Session

/-- Besides the objects of `base`, those of the engine are live, and none else. -/
structure Sound (base : Multiset NativeObject) (s : Session) : Prop where
  closed : Closed base
  valid : s.backend.Valid
  live_eq : s.backend.live = base + s.engine.objects
  binder : ∀ bound, s.engine.bound = some bound → bound.binder.Sound

structure Leads (base : Multiset NativeObject) (s s' : Session) : Prop where
  sound : s'.Sound base
  reaches : s.backend.Reaches s'.backend

/--
A pass is refused: what is bound, the allocator and the device are as they were, and no call was
made but one to wait for the device that failed.
-/
structure Refused (s : Session) (error : EngineError) (s' : Session) : Prop where
  engine : s'.engine = { s.engine with valid := s'.engine.valid, log := s'.engine.log }
  allocator : s'.backend.allocator = s.backend.allocator
  device : s'.backend.device = s.backend.device
  cause : error.isRefusal ∧ s'.backend.trace = s.backend.trace ∨
    (∃ e, error = .device e) ∧ s'.backend.trace = s.backend.trace ++ [⟨.waitIdle, .failed⟩]

/-- A pass drops the old model after the device was idle, and nothing of either model is left. -/
structure Dropped (base : Multiset NativeObject) (s : Session) (s' : Session) : Prop where
  bound : s'.engine.bound = none
  model : s'.engine.model = none
  shaders : s'.engine.shaders = .empty
  live_eq : s'.backend.live = base
  idle : ∃ later, s'.backend.trace = s.backend.trace ++ ⟨.waitIdle, .done⟩ :: later

variable {base : Multiset NativeObject} {s s' s'' : Session}

theorem Leads.refl (h : s.Sound base) : Leads base s s := ⟨h, .refl h.valid⟩

theorem Leads.trans (h : Leads base s s') (h' : Leads base s' s'') (hs : s.Sound base) :
    Leads base s s'' := ⟨h'.sound, h.reaches.trans h'.reaches hs.valid⟩

theorem Leads.of_bound_eq (h : s.Sound base) (engine : Engine)
    (hb : engine.bound = s.engine.bound) : Leads base s ⟨engine, s.backend⟩ where
  sound := ⟨h.closed, h.valid, by rw [h.live_eq, Engine.objects, Engine.objects, hb],
    fun bound hbound => h.binder bound (hb ▸ hbound)⟩
  reaches := .refl h.valid

theorem Leads.of_live_eq (h : s.Sound base) {b : Backend} (hb : s.backend.Reaches b)
    (hlive : b.live = s.backend.live) : Leads base s ⟨s.engine, b⟩ where
  sound := ⟨h.closed, hb.valid, hlive.trans h.live_eq, h.binder⟩
  reaches := hb

theorem Refused.of_check (s : Session) {error : EngineError} (h : error.isRefusal) :
    Refused s error s := ⟨rfl, rfl, rfl, Or.inl ⟨h, rfl⟩⟩

end Session

open Session

namespace Engine

variable {base : Multiset NativeObject} {s s' : Session}

/-- Tearing down always succeeds and leaves nothing of the engine alive. -/
theorem exec_tearDown (h : s.Sound base) :
    ∃ b, tearDown.exec s = (.ok (), ⟨{ s.engine with
        bound := none, model := none, shaders := .empty }, b⟩) ∧
      s.backend.Reaches b ∧ b.live = base := by
  have hlive := h.live_eq
  unfold objects at hlive
  unfold tearDown
  cases hbound : s.engine.bound with
  | none =>
    rw [hbound] at hlive
    refine ⟨s.backend, EngineM.exec_bind_eq_ok.mpr ⟨s.engine, s, rfl, ?_⟩, .refl h.valid,
      hlive.trans (add_zero base)⟩
    rw [hbound]
    rfl
  | some bound =>
    rw [hbound] at hlive
    obtain ⟨b, hexec, hb, hlive'⟩ :=
      bound.frees_dispose (ε := EngineError) h.valid h.closed hlive
    refine ⟨b, EngineM.exec_bind_eq_ok.mpr ⟨s.engine, s, rfl, ?_⟩, hb, hlive'⟩
    rw [hbound]
    refine EngineM.exec_bind_eq_ok.mpr ⟨(), ⟨s.engine, b⟩, ?_, rfl⟩
    rw [EngineM.exec_native, hexec]

theorem ends_link (model : Model) (limits : Limits) (s : Session) :
    (link model limits).Ends s (fun _ s' => s' = s ∧ model.link limits = .ok ())
      fun e s' => s' = s ∧ ∃ errors, e = .link errors ∧ model.link limits = .fail errors := by
  refine .ofOutcome (.mapFailure _ (model.proper_link limits)) (fun _ h => ?_) fun e h => ?_
  · rcases hlink : model.link limits with (_ | _) | _ <;> rw [hlink] at h <;> cases h
    exact ⟨rfl, rfl⟩
  · rcases hlink : model.link limits with (_ | errors) | _ <;> rw [hlink] at h <;> cases h
    exact ⟨rfl, errors, rfl, rfl⟩

theorem ends_bindModel [Libraries] (h : s.Sound base) (shaders : ShaderSet) (model : Model)
    (limits : Limits) : (bindModel shaders model limits).Ends s
      (fun _ s' => Leads base s s' ∧ ∃ b bound,
        (BoundModel.make s.engine.config shaders model limits).exec b = (.ok bound, s'.backend) ∧
        s'.engine = { s.engine with
          bound := some bound, model := some model, shaders := shaders })
      fun _ s' => Leads base s s' ∧ s'.engine = { s.engine with
        bound := none, model := none, shaders := .empty } ∧ s'.backend.live = base := by
  obtain ⟨b, hexec, hb, hlive⟩ := exec_tearDown h
  refine .bind (.of_exec hexec ?_)
  refine .get_bind (.bind (.native ((BoundModel.makes_make _ _ _ _ hb.valid).exec.mono ?_ ?_)))
  · rintro bound b' ⟨⟨hb', hlive'⟩, hexec⟩
    refine .modify ⟨⟨⟨h.closed, hb'.valid, ?_, ?_⟩, hb.trans hb' h.valid⟩, b, bound, hexec, rfl⟩
    · exact hlive'.trans (by rw [hlive]; rfl)
    · rintro _ ⟨⟩
      exact BoundModel.sound_of_make hexec
  · rintro e b' ⟨⟨hb', hlive'⟩, -⟩
    have hbase : b'.live = base := hlive'.trans hlive
    refine ⟨⟨⟨h.closed, hb'.valid, ?_, nofun⟩, hb.trans hb' h.valid⟩, rfl, hbase⟩
    exact hbase.trans (add_zero base).symm

theorem exec_finish (flags : ReloadFlags) (pass : EngineM Unit) (s : Session) :
    (finish flags pass).exec s = ((pass.exec s).1,
      ⟨(pass.exec s).2.engine.settled flags (pass.exec s).1, (pass.exec s).2.backend⟩) := rfl

theorem ends_finish {flags : ReloadFlags} {pass : EngineM Unit} {done : Unit → Session → Prop}
    {failed : EngineError → Session → Prop}
    (h : pass.Ends s (fun _ s' => done () ⟨s'.engine.settled flags (.ok ()), s'.backend⟩)
      fun e s' => failed e ⟨s'.engine.settled flags (.error (.error e)), s'.backend⟩) :
    (finish flags pass).Ends s done failed := by
  unfold EngineM.Ends at h ⊢
  rw [exec_finish]
  generalize pass.exec s = r at h ⊢
  rcases r with ⟨(_ | e) | _, s'⟩ <;> exact h

theorem ends_loadModel [Libraries] (files : FileTree) (s : Session) :
    (loadModel files).Ends s (fun _ s' => ∃ log, s' = ⟨{ s.engine with log := log }, s.backend⟩)
      fun e s' => (∃ log, s' = ⟨{ s.engine with log := log }, s.backend⟩) ∧ e.isRefusal := by
  refine .get_bind (.bind (.ofOutcome (.ofExcept_map _ _) (fun shaders _ => ?_) fun e h => ?_))
  · refine .bind (.modify (.bind (.ofOutcome (.mapFailure _ shaders.proper_reflect)
      (fun _ _ => ⟨_, rfl⟩) fun e h => ⟨⟨_, rfl⟩, ?_⟩)))
    rcases hr : shaders.reflect with (_ | _) | _ <;> rw [hr] at h <;> cases h
    rfl
  · refine ⟨⟨_, rfl⟩, ?_⟩
    rcases hl : s.engine.config.source.load files with _ | _ <;> rw [hl] at h <;> cases h
    rfl

theorem ends_accept (h : s.Sound base) (shaders : ShaderSet) (model : Model) (limits : Limits) :
    (accept shaders model limits).Ends s
      (fun offer s' => Leads base s s' ∧ offer = some (shaders, model) ∧
        model.link limits = .ok () ∧ s'.engine = s.engine ∧
        s'.backend.trace = s.backend.trace ++ [⟨.waitIdle, .done⟩])
      fun e s' => Leads base s s' ∧ Refused s e s' := by
  refine .bind ((ends_link model limits s).mono ?_ ?_)
  · rintro _ _ ⟨rfl, hlink⟩
    refine .bind (.native (.mapError ((Native.ends_waitIdle h.valid).mono ?_ ?_)))
    · rintro _ b ⟨⟨hb, hlive⟩, htrace⟩
      exact .pure ⟨.of_live_eq h hb hlive, rfl, hlink, rfl, htrace⟩
    · rintro e b ⟨⟨hb, hlive⟩, rfl⟩
      exact ⟨.of_live_eq h hb hlive, rfl, rfl, rfl, Or.inr ⟨⟨e, rfl⟩, rfl⟩⟩
  · rintro _ _ ⟨rfl, errors, rfl, -⟩
    exact ⟨.refl h, .of_check _ rfl⟩

end Engine

namespace Pass

variable {base : Multiset NativeObject} {s : Session}

/-- What the first phase has found out when it ends in a session. -/
inductive Prepared (p : Pass) (s : Session) : Option (ShaderSet × Model) → Session → Prop
  | offered {shaders : ShaderSet} {model : Model} {s' : Session} (log : List Notice) :
      p.replaces = true → model.link p.limits = .ok () →
      s'.engine = { s.engine with log := log } →
      s'.backend.trace = s.backend.trace ++ [⟨.waitIdle, .done⟩] →
      Prepared p s (some (shaders, model)) s'
  | kept : p.replaces = false →
      (p.validates = true → ∃ model, s.engine.model = some model ∧
        model.link p.limits = .ok ()) → Prepared p s none s

/-- Why the first phase fails; without new shaders, the check is the only reason. -/
inductive Declines (p : Pass) (engine : Engine) : EngineError → Prop
  | replacing {e : EngineError} : p.replaces = true → Declines p engine e
  | rejected {model : Model} {errors : LinkErrors} : p.replaces = false → p.validates = true →
      engine.model = some model → model.link p.limits = .fail errors →
      Declines p engine (.link errors)
  | missing : p.replaces = false → p.validates = true → engine.model = none →
      Declines p engine .invalid

theorem ends_prepare [Libraries] (h : s.Sound base) (p : Pass) :
    p.prepare.Ends s (fun offer s' => Leads base s s' ∧ p.Prepared s offer s')
      fun e s' => Leads base s s' ∧ Refused s e s' ∧ p.Declines s.engine e := by
  cases p with
  | install shaders model limits =>
    have hreplaces : (install shaders model limits).replaces = true :=
      (by decide : ReloadFlags.reloadShaders.contains ReloadFlags.shaders = true)
    refine (Engine.ends_accept h shaders model limits).mono ?_ ?_
    · rintro _ s' ⟨hs', rfl, hlink, hengine, htrace⟩
      exact ⟨hs', .offered s.engine.log hreplaces hlink hengine htrace⟩
    · rintro e s' ⟨hs', hrefused⟩
      exact ⟨hs', hrefused, .replacing hreplaces⟩
  | reload flags files limits =>
    change (Engine.prepareParts flags.withImplied files limits).Ends s _ _
    unfold Engine.prepareParts
    split
    · rename_i hreplaces
      refine .bind ((Engine.ends_loadModel files s).mono ?_ ?_)
      · rintro ⟨shaders, model⟩ _ ⟨log, rfl⟩
        have hlog := Leads.of_bound_eq h { s.engine with log := log } rfl
        refine (Engine.ends_accept hlog.sound shaders model limits).mono ?_ ?_
        · rintro _ s' ⟨hs', rfl, hlink, hengine, htrace⟩
          exact ⟨hlog.trans hs' h, .offered log hreplaces hlink hengine htrace⟩
        · rintro e s' ⟨hs', hr⟩
          exact ⟨hlog.trans hs' h, ⟨hr.engine, hr.allocator, hr.device, hr.cause⟩,
            .replacing hreplaces⟩
      · rintro e _ ⟨⟨log, rfl⟩, he⟩
        exact ⟨.of_bound_eq h _ rfl, ⟨rfl, rfl, rfl, Or.inl ⟨he, rfl⟩⟩, .replacing hreplaces⟩
    · rename_i hreplaces
      have hkeeps : (reload flags files limits).replaces = false := Bool.not_eq_true _ ▸ hreplaces
      split
      · rename_i hvalidates
        refine .get_bind ?_
        cases hmodel : s.engine.model with
        | none =>
          exact .fail ⟨.refl h, .of_check s rfl, .missing hkeeps hvalidates hmodel⟩
        | some model =>
          refine .bind ((Engine.ends_link model limits s).mono ?_ ?_)
          · rintro _ _ ⟨rfl, hlink⟩
            exact .pure ⟨.refl h, .kept hkeeps fun _ => ⟨model, hmodel, hlink⟩⟩
          · rintro _ _ ⟨rfl, errors, rfl, hlink⟩
            exact ⟨.refl h, .of_check _ rfl, .rejected hkeeps hvalidates hmodel hlink⟩
      · rename_i hvalidates
        exact .pure ⟨.refl h, .kept hkeeps fun hv => absurd hv hvalidates⟩

/-- What a pass that succeeds does: it binds a model that links, or leaves all as it was. -/
inductive Succeeds [Libraries] (p : Pass) (s s' : Session) : Prop
  | bound {shaders : ShaderSet} {model : Model} {bound : BoundModel} {b : Backend}
      (log : List Notice) : p.replaces = true → model.link p.limits = .ok () →
      (BoundModel.make s.engine.config shaders model p.limits).exec b = (.ok bound, s'.backend) →
      s'.engine = { s.engine with
        bound := some bound, model := some model, shaders := shaders, valid := true
        pending := s.engine.pending ||| (p.parts &&& (.renderPass ||| .pipeline)), log := log } →
      Succeeds p s s'
  | kept : p.replaces = false →
      (p.validates = true → ∃ model, s.engine.model = some model ∧
        model.link p.limits = .ok ()) →
      s' = ⟨{ s.engine with
        valid := s.engine.bound.isSome
        pending := s.engine.pending ||| (p.parts &&& (.renderPass ||| .pipeline)) }, s.backend⟩ →
      Succeeds p s s'

/-- What a pass that fails does: it is refused, or drops all that was bound. -/
inductive Fails (p : Pass) (s : Session) (e : EngineError) (s' : Session) : Prop
  | refused (log : List Notice) : p.Declines s.engine e →
      s'.engine = { s.engine with valid := false, log := log } → Fails p s e s'
  | dropped (log : List Notice) : p.replaces = true →
      s'.engine = { s.engine with
        bound := none, model := none, shaders := .empty, valid := false, log := log } →
      Fails p s e s'

/-- All that can become of a pass; any pass leaves a sound session. -/
theorem ends_cases [Libraries] (h : s.Sound base) (p : Pass) :
    p.op.Ends s (fun _ s' => Leads base s s' ∧ p.Succeeds s s') fun e s' =>
      Leads base s s' ∧ p.Fails s e s' ∧ (Refused s e s' ∨ Dropped base s s') := by
  rw [op_eq]
  refine Engine.ends_finish (.bind ((p.ends_prepare h).mono ?_ ?_))
  · rintro offer s₁ ⟨hs₁, hprepared⟩
    cases hprepared with
    | offered log hreplaces hlink hengine htrace =>
      rename_i shaders model
      refine (Engine.ends_bindModel hs₁.sound shaders model p.limits).mono ?_ ?_
      · rintro _ s' ⟨hs', b, bound, hmake, hengine'⟩
        rw [hengine] at hmake hengine'
        refine ⟨(hs₁.trans hs' h).trans (.of_bound_eq hs'.sound _ rfl) h, ?_⟩
        exact .bound log hreplaces hlink hmake (by rw [hengine']; rfl)
      · rintro e s' ⟨hs', hengine', hlive⟩
        rw [hengine] at hengine'
        refine ⟨(hs₁.trans hs' h).trans (.of_bound_eq hs'.sound _ rfl) h, ?_, Or.inr ?_⟩
        · exact .dropped _ hreplaces (by rw [hengine']; rfl)
        · obtain ⟨later, hlater⟩ := hs'.reaches
          have htrace' := hlater.trace_eq
          refine ⟨by rw [hengine']; rfl, by rw [hengine']; rfl, by rw [hengine']; rfl, hlive,
            later, ?_⟩
          rw [htrace', htrace, List.append_assoc]
          rfl
    | kept hkeeps hlink =>
      exact .pure ⟨.of_bound_eq h _ rfl, .kept hkeeps hlink rfl⟩
  · rintro e s' ⟨hs', hr, hdeclines⟩
    refine ⟨hs'.trans (.of_bound_eq hs'.sound _ rfl) h, ?_, Or.inl ?_⟩
    · exact .refused _ hdeclines (by rw [hr.engine]; rfl)
    · exact ⟨by rw [hr.engine]; rfl, hr.allocator, hr.device, hr.cause⟩

theorem Fails.valid_eq {p : Pass} {e : EngineError} {s' : Session} (h : p.Fails s e s') :
    s'.engine.valid = false := by
  cases h with
  | refused log _ hengine => rw [hengine]
  | dropped log _ hengine => rw [hengine]

theorem ends_op [Libraries] (h : s.Sound base) (p : Pass) :
    p.op.Ends s (fun _ s' => Leads base s s') fun e s' =>
      Leads base s s' ∧ s'.engine.valid = false ∧ (Refused s e s' ∨ Dropped base s s') :=
  (p.ends_cases h).mono (fun _ _ h => h.1) fun _ _ h => ⟨h.1, h.2.1.valid_eq, h.2.2⟩

end Pass

end ShaderBinding
