import ShaderBinding.Proofs.Engine.Edits
import ShaderBinding.Proofs.Engine.Session

/-! # Histories

A history lists what a session has served, latest first. Every move in it is a pass, which binds,
keeps, is refused or drops, or it carries over all that a pass decides. What each kind of move
preserves holds after every run.
-/

namespace ShaderBinding

/-- A request that was served, with its reply and the sessions before and after it. -/
structure Move where
  before : Session
  request : Request
  reply : Except EngineError Reply
  after : Session

def Move.served (m : Move) : Request × Except EngineError Reply := (m.request, m.reply)

def Request.pass? : Request → Option Pass
  | pass p => some p
  | _ => none

def Request.outcome? (request : Request) (reply : Except EngineError Reply) : Option Bool :=
  request.pass?.map fun _ => reply.isOk

def Move.outcome? (m : Move) : Option Bool := m.request.outcome? m.reply

/-- What a pass decides is carried over, but for the contents of what is bound. -/
structure Engine.Carries (engine engine' : Engine) : Prop where
  model : engine'.model = engine.model
  shaders : engine'.shaders = engine.shaders
  valid : engine'.valid = engine.valid
  bound : Option.Rel (fun old new => new.pushConstants.ranges = old.pushConstants.ranges)
    engine.bound engine'.bound

namespace Engine

variable {engine engine' : Engine}

theorem Edits.carries (h : engine.Edits engine') : engine.Carries engine' :=
  ⟨by rw [h.rest], by rw [h.rest], by rw [h.rest], h.bound⟩

theorem Carries.isSome_bound (h : engine.Carries engine') :
    engine'.bound.isSome = engine.bound.isSome := by
  have hbound := h.bound
  generalize engine.bound = old at hbound
  generalize engine'.bound = new at hbound
  cases hbound <;> rfl

end Engine

theorem Request.carries_op [Libraries] {request : Request} (h : request.pass? = none)
    (s : Session) : s.engine.Carries (request.op.exec s).2.engine := by
  have hbound := (Engine.Edits.refl s.engine).bound
  cases request with
  | pass p => cases h
  | setConfig | setView | takePending | plan => exact ⟨rfl, rfl, rfl, hbound⟩
  | writeBuffer | replaceImage | writePushConstants | recordPushConstants =>
    exact (Request.isEdit_op rfl s).1.carries

namespace Session

variable {base : Multiset NativeObject} {first s s' : Session} {moves : List Move}
  {request : Request} {reply : Except EngineError Reply}

/-- All that can become of a request that does not fault. -/
inductive Served [Libraries] (s : Session) : Request → Except EngineError Reply → Session → Prop
  | succeeded {p : Pass} {s' : Session} : p.Succeeds s s' → Served s (.pass p) (.ok .done) s'
  | failed {p : Pass} {e : EngineError} {s' : Session} : p.Fails s e s' →
      Served s (.pass p) (.error e) s'
  | carried {request : Request} {reply : Except EngineError Reply} {s' : Session} :
      request.pass? = none → s.engine.Carries s'.engine → Served s request reply s'

theorem exec_of_step [Libraries] (h : s.step request = .ok (reply, s')) :
    request.op.exec s = (reply.mapError .error, s') := by
  unfold step at h
  split at h <;> cases h <;> assumption

theorem served_of_step [Libraries] (h : s.Sound base) (hstep : s.step request = .ok (reply, s')) :
    s.Served request reply s' := by
  have hexec := exec_of_step hstep
  cases hpass : request.pass? with
  | none =>
    have hcarries := Request.carries_op hpass s
    rw [hexec] at hcarries
    exact .carried hpass hcarries
  | some p =>
    obtain rfl : request = .pass p := by
      cases request <;> cases hpass
      rfl
    have hcases := p.ends_cases h
    have hop : (Request.pass p).op.exec s =
        ((p.op.exec s).1.map fun _ => Reply.done, (p.op.exec s).2) :=
      EngineM.exec_bind_pure p.op _ s
    rw [hop] at hexec
    unfold EngineM.Ends at hcases
    rcases hp : p.op.exec s with ⟨(fault | e) | u, s₁⟩
    · rw [hp] at hexec
      cases reply <;> cases hexec
    · rw [hp] at hexec hcases
      cases reply <;> cases hexec
      exact .failed hcases.2.1
    · rw [hp] at hexec hcases
      cases reply <;> cases hexec
      exact .succeeded hcases.2

def history [Libraries] (s : Session) : List Request → List Move
  | [] => []
  | request :: rest =>
    match s.step request with
    | .ok (reply, s') => s'.history rest ++ [⟨s, request, reply, s'⟩]
    | .error _ => []

/-- The latest move in which `f` finds something, and what has been served since. -/
structure Latest {α : Type} (f : Move → Option α) (moves since : List Move) (m : Move) (a : α) :
    Prop where
  split : ∃ earlier, moves = since ++ m :: earlier
  found : f m = some a
  since : ∀ m' ∈ since, f m' = none

namespace Latest

variable {α : Type} {f : Move → Option α} {since : List Move} {m m' : Move} {a : α}

theorem now (h : f m = some a) : Latest f (m :: moves) [] m a :=
  ⟨⟨moves, rfl⟩, h, by simp⟩

theorem later (hnone : f m' = none) (h : Latest f moves since m a) :
    Latest f (m' :: moves) (m' :: since) m a := by
  obtain ⟨earlier, rfl⟩ := h.split
  exact ⟨⟨earlier, rfl⟩, h.found, List.forall_mem_cons.mpr ⟨hnone, h.since⟩⟩

theorem findSome?_eq (h : Latest f moves since m a) : moves.findSome? f = some a := by
  obtain ⟨earlier, hmoves⟩ := h.split
  exact List.findSome?_eq_some_iff.mpr ⟨since, m, earlier, hmoves, h.found, h.since⟩

end Latest

/-- A history leads from one session to another. -/
inductive Runs [Libraries] (first : Session) : List Move → Session → Prop
  | start : Runs first [] first
  | serve {moves : List Move} {s s' : Session} {request : Request}
      {reply : Except EngineError Reply} : Runs first moves s →
      s.step request = .ok (reply, s') → Runs first (⟨s, request, reply, s'⟩ :: moves) s'

theorem Runs.prepend [Libraries] {second : Session}
    (hstep : first.step request = .ok (reply, second))
    (h : Runs second moves s) : Runs first (moves ++ [⟨first, request, reply, second⟩]) s := by
  induction h with
  | start => exact .serve .start hstep
  | serve _ hserve ih => exact .serve ih hserve

theorem runs_history [Libraries] {requests : List Request}
    {replies : List (Except EngineError Reply)}
    (h : s.run requests = .ok (replies, s')) : Runs s (s.history requests) s' := by
  induction requests generalizing s replies with
  | nil =>
    cases h
    exact .start
  | cons request rest ih =>
    obtain ⟨reply, s₁, others, hstep, hrest, rfl⟩ := exists_of_run_cons h
    rw [history, hstep]
    exact (ih hrest).prepend hstep

theorem map_history [Libraries] {requests : List Request}
    {replies : List (Except EngineError Reply)} (h : s.run requests = .ok (replies, s')) :
    (s.history requests).map Move.served = (requests.zip replies).reverse := by
  induction requests generalizing s replies with
  | nil => rfl
  | cons request rest ih =>
    obtain ⟨reply, s₁, others, hstep, hrest, rfl⟩ := exists_of_run_cons h
    rw [history, hstep]
    simp [ih hrest, Move.served]

theorem Runs.sound [Libraries] (hfirst : first.Sound base) (h : Runs first moves s) :
    s.Sound base := by
  induction h with
  | start => exact hfirst
  | serve _ hstep ih => exact ((step_spec ih _).2 _ _ hstep).sound

/-- Whatever every kind of move preserves holds after every run. -/
theorem Runs.invariant [Libraries] {P : List Move → Session → Prop} (hfirst : first.Sound base)
    (h : Runs first moves s) (hstart : P [] first)
    (hsucceeded : ∀ {moves s p s'}, P moves s → p.Succeeds s s' →
      P (⟨s, .pass p, .ok .done, s'⟩ :: moves) s')
    (hfailed : ∀ {moves s p e s'}, P moves s → p.Fails s e s' →
      P (⟨s, .pass p, .error e, s'⟩ :: moves) s')
    (hcarried : ∀ {moves s request reply s'}, P moves s → request.pass? = none →
      s.engine.Carries s'.engine → P (⟨s, request, reply, s'⟩ :: moves) s') : P moves s := by
  induction h with
  | start => exact hstart
  | serve hruns hstep ih =>
    cases served_of_step (hruns.sound hfirst) hstep with
    | succeeded hp => exact hsucceeded ih hp
    | failed hp => exact hfailed ih hp
    | carried hpass hcarries => exact hcarried ih hpass hcarries

end Session

end ShaderBinding
