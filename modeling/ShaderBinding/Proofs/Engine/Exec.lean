import ShaderBinding.Engine.Session
import ShaderBinding.Proofs.Native.Exec

/-! # Outcomes of engine operations

What holds in the end of an operation on an engine and its backend: the counterpart for engines
of what is stated for native computations.
-/

namespace ShaderBinding.EngineM

variable {α β : Type}

@[simp] theorem exec_native (x : Native EngineError α) (s : Session) :
    (Engine.native x).exec s = ((x.exec s.backend).1, ⟨s.engine, (x.exec s.backend).2⟩) := rfl

@[simp] theorem exec_get (s : Session) : (get : EngineM Engine).exec s = (.ok s.engine, s) := rfl

@[simp] theorem exec_modify (f : Engine → Engine) (s : Session) :
    (modify f : EngineM PUnit).exec s = (.ok (), ⟨f s.engine, s.backend⟩) := rfl

theorem exec_bind (op : EngineM α) (f : α → EngineM β) (s : Session) :
    (op >>= f).exec s = match op.exec s with
      | (.ok a, s') => (f a).exec s'
      | (.error failure, s') => (.error failure, s') := by
  have hcont : (op >>= f).exec s =
      exec (ExceptT.mk (ExceptT.bindCont f (op.exec s).1)) (op.exec s).2 := rfl
  rw [hcont]
  rcases op.exec s with ⟨_ | _, _⟩ <;> rfl

theorem exec_bind_eq_ok {op : EngineM α} {f : α → EngineM β} {s s' : Session} {c : β} :
    (op >>= f).exec s = (.ok c, s') ↔
      ∃ a s₁, op.exec s = (.ok a, s₁) ∧ (f a).exec s₁ = (.ok c, s') := by
  rw [exec_bind]
  rcases op.exec s with ⟨_ | a, s₁⟩
  · simp
  · exact ⟨fun h => ⟨a, s₁, rfl, h⟩, fun ⟨_, _, hop, h⟩ => by cases hop; exact h⟩

theorem exec_bind_eq_error {op : EngineM α} {f : α → EngineM β} {s s' : Session}
    {failure : Failure EngineError} : (op >>= f).exec s = (.error failure, s') ↔
      op.exec s = (.error failure, s') ∨
        ∃ a s₁, op.exec s = (.ok a, s₁) ∧ (f a).exec s₁ = (.error failure, s') := by
  rw [exec_bind]
  rcases op.exec s with ⟨_ | a, s₁⟩
  · simp
  · constructor
    · exact fun h => Or.inr ⟨a, s₁, rfl, h⟩
    · rintro (h | ⟨_, _, hop, h⟩)
      · cases h
      · cases hop
        exact h

theorem exec_ofOutcome_eq_ok {x : Outcome EngineError α} {s s' : Session} {a : α} :
    (Engine.ofOutcome x).exec s = (.ok a, s') ↔ x = .ok a ∧ s' = s :=
  ⟨fun h => ⟨congrArg Prod.fst h, (congrArg Prod.snd h).symm⟩, fun ⟨hx, hs⟩ => hx ▸ hs ▸ rfl⟩

theorem exec_native_eq_ok {x : Native EngineError α} {s s' : Session} {a : α} :
    (Engine.native x).exec s = (.ok a, s') ↔
      x.exec s.backend = (.ok a, s'.backend) ∧ s'.engine = s.engine := by
  rw [exec_native]
  obtain ⟨engine, b⟩ := s'
  rcases x.exec s.backend with ⟨_, _⟩
  simp only [Prod.mk.injEq, Session.mk.injEq]
  tauto

/-- What holds of a value or an error and of the session left with it. No fault is a misuse. -/
def Ends (op : EngineM α) (s : Session) (done : α → Session → Prop)
    (failed : EngineError → Session → Prop) : Prop :=
  match op.exec s with
  | (.ok a, s') => done a s'
  | (.error (.error error), s') => failed error s'
  | (.error (.fault fault), _) => fault.isMisuse = false

namespace Ends

variable {s : Session} {done done' : α → Session → Prop}
  {failed failed' : EngineError → Session → Prop}

theorem mono {op : EngineM α} (h : op.Ends s done failed) (hd : ∀ a s', done a s' → done' a s')
    (hf : ∀ e s', failed e s' → failed' e s') : op.Ends s done' failed' := by
  unfold Ends at h ⊢
  generalize op.exec s = r at h ⊢
  rcases r with ⟨(_ | e) | a, s'⟩
  · exact h
  · exact hf e s' h
  · exact hd a s' h

theorem of_exec {op : EngineM α} {a : α} {s' : Session} (h : op.exec s = (.ok a, s'))
    (hd : done a s') : op.Ends s done failed := by
  unfold Ends
  rw [h]
  exact hd

theorem of_ok {op : EngineM α} {a : α} {s' : Session} (h : op.Ends s done failed)
    (hexec : op.exec s = (.ok a, s')) : done a s' := by
  unfold Ends at h
  rwa [hexec] at h

theorem of_error {op : EngineM α} {e : EngineError} {s' : Session} (h : op.Ends s done failed)
    (hexec : op.exec s = (.error (.error e), s')) : failed e s' := by
  unfold Ends at h
  rwa [hexec] at h

theorem pure {a : α} (h : done a s) : (pure a : EngineM α).Ends s done failed := h

theorem fail {e : EngineError} (h : failed e s) :
    (throw (.error e) : EngineM α).Ends s done failed := h

theorem bind {op : EngineM α} {f : α → EngineM β} {done : β → Session → Prop}
    (h : op.Ends s (fun a s' => (f a).Ends s' done failed) failed) :
    (op >>= f).Ends s done failed := by
  unfold Ends at h ⊢
  rw [exec_bind]
  generalize op.exec s = r at h ⊢
  rcases r with ⟨(_ | e) | a, s'⟩ <;> exact h

theorem get_bind {f : Engine → EngineM α} (h : (f s.engine).Ends s done failed) :
    (get >>= f).Ends s done failed := .bind h

theorem modify {f : Engine → Engine} {done : Unit → Session → Prop}
    (h : done () ⟨f s.engine, s.backend⟩) : (modify f : EngineM Unit).Ends s done failed := h

theorem set {engine : Engine} {done : Unit → Session → Prop} (h : done () ⟨engine, s.backend⟩) :
    (set engine : EngineM Unit).Ends s done failed := h

theorem native {x : Native EngineError α}
    (h : x.Ends s.backend (fun a b' => done a ⟨s.engine, b'⟩) fun e b' => failed e ⟨s.engine, b'⟩) :
    (Engine.native x).Ends s done failed := by
  unfold Ends
  unfold Native.Ends at h
  rw [exec_native]
  generalize x.exec s.backend = r at h ⊢
  rcases r with ⟨(_ | e) | a, b'⟩ <;> exact h

theorem ofOutcome {x : Outcome EngineError α} (hx : x.Proper) (hd : ∀ a, x = .ok a → done a s)
    (hf : ∀ e, x = .error (.error e) → failed e s) :
    (Engine.ofOutcome x).Ends s done failed := by
  rcases x with (fault | e) | a
  · exact hx fault rfl
  · exact hf e rfl
  · exact hd a rfl

end Ends

end ShaderBinding.EngineM
