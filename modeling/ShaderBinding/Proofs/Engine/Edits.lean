import ShaderBinding.Proofs.Engine.Exec
import ShaderBinding.Proofs.PushConstants.Layout

/-! # Edits

An edit works on what is bound and is refused exactly if nothing is. Whatever comes of it, the
rest of the engine stays as it was.
-/

namespace ShaderBinding

variable {α β : Type}

/-- Only what is bound may have changed, and no range of it has moved. -/
structure Engine.Edits (engine engine' : Engine) : Prop where
  rest : engine' = { engine with bound := engine'.bound }
  bound : Option.Rel (fun old new => new.pushConstants.ranges = old.pushConstants.ranges)
    engine.bound engine'.bound

namespace Engine.Edits

variable {engine : Engine}

theorem refl (engine : Engine) : engine.Edits engine := by
  refine ⟨rfl, ?_⟩
  cases engine.bound with
  | none => exact .none
  | some bound => exact .some rfl

theorem of_bound {old new : BoundModel} (hold : engine.bound = some old)
    (hranges : new.pushConstants.ranges = old.pushConstants.ranges) :
    engine.Edits { engine with bound := some new } := by
  refine ⟨rfl, ?_⟩
  rw [hold]
  exact .some hranges

end Engine.Edits

namespace EngineM

theorem exec_bind_pure (op : EngineM α) (f : α → β) (s : Session) :
    (op >>= fun a => pure (f a)).exec s = ((op.exec s).1.map f, (op.exec s).2) := by
  rw [exec_bind]
  rcases op.exec s with ⟨_ | _, _⟩ <;> rfl

theorem exec_boundModel (s : Session) : Engine.boundModel.exec s = match s.engine.bound with
    | some bound => (.ok bound, s)
    | none => (.error (.error .invalid), s) := by
  have hget : (get : EngineM Engine).exec s = (.ok s.engine, s) := rfl
  rw [Engine.boundModel, exec_bind, hget]
  dsimp only
  cases s.engine.bound <;> rfl

def IsEdit (op : EngineM α) : Prop :=
  ∀ s : Session, s.engine.Edits (op.exec s).2.engine ∧
    ((op.exec s).1 = .error (.error .invalid) ↔ s.engine.bound = none)

namespace IsEdit

theorem bind_pure {op : EngineM α} (h : op.IsEdit) (f : α → β) :
    (op >>= fun a => pure (f a)).IsEdit := by
  intro s
  obtain ⟨hedits, hinvalid⟩ := h s
  rw [exec_bind_pure]
  refine ⟨hedits, ?_⟩
  rw [← hinvalid]
  cases (op.exec s).1 <;> simp [Except.map]

/-- The operation is given what is bound, and has no reason of its own to call it missing. -/
theorem of_bound {f : BoundModel → EngineM α}
    (hf : ∀ bound (s : Session), s.engine.bound = some bound →
      s.engine.Edits ((f bound).exec s).2.engine ∧
        ((f bound).exec s).1 ≠ .error (.error .invalid)) :
    (Engine.boundModel >>= f).IsEdit := by
  intro s
  rw [exec_bind, exec_boundModel]
  cases hbound : s.engine.bound with
  | none => exact ⟨.refl _, by simp⟩
  | some bound =>
    obtain ⟨hedits, hresult⟩ := hf bound s hbound
    exact ⟨hedits, by simp [hresult]⟩

end IsEdit

end EngineM

namespace Engine

open EngineM

theorem exec_mapError_ne_invalid (x : Native BindError α) (b : Backend) :
    ((Native.mapError .bind x).exec b).1 ≠ .error (.error EngineError.invalid) := by
  rw [Native.exec_mapError]
  rcases (x.exec b).1 with (_ | _) | _ <;> simp [Except.mapError, Failure.map]

theorem isEdit_writeBuffer (key : BindingKey) (offset : Nat) (data : Bytes) :
    (writeBuffer key offset data).IsEdit := by
  refine .of_bound fun bound s _ => ?_
  rw [exec_native]
  exact ⟨.refl _, exec_mapError_ne_invalid _ _⟩

theorem isEdit_replaceImage (key : BindingKey) (info : ImageInfo) (pixels : Bytes) :
    (replaceImage key info pixels).IsEdit := by
  refine .of_bound fun bound s hbound => ?_
  have hinvalid := exec_mapError_ne_invalid (bound.binder.replaceImage key info pixels) s.backend
  rw [exec_bind, exec_native]
  generalize (Native.mapError EngineError.bind
    (bound.binder.replaceImage key info pixels)).exec s.backend = r at hinvalid ⊢
  rcases r with ⟨failure | binder, b⟩
  · exact ⟨.refl _, by simpa using hinvalid⟩
  · exact ⟨.of_bound hbound rfl, nofun⟩

theorem isEdit_writePushConstants (stage : Stage) (offset : Nat) (data : Bytes) :
    (writePushConstants stage offset data).IsEdit := by
  refine .of_bound fun bound s hbound => ?_
  rw [exec_bind]
  cases hwrite : bound.pushConstants.write stage offset data with
  | error e => exact ⟨.refl _, nofun⟩
  | ok pushConstants =>
    exact ⟨.of_bound hbound (PushConstants.ranges_write hwrite), nofun⟩

theorem isEdit_recordPushConstants : recordPushConstants.IsEdit :=
  .of_bound fun _ _ _ => ⟨.refl _, nofun⟩

end Engine

def Request.isEdit : Request → Bool
  | writeBuffer .. | replaceImage .. | writePushConstants .. | recordPushConstants => true
  | _ => false

theorem Request.isEdit_op [Libraries] {request : Request} (h : request.isEdit = true) :
    request.op.IsEdit := by
  cases request with
  | writeBuffer key offset data => exact (Engine.isEdit_writeBuffer key offset data).bind_pure _
  | replaceImage key info pixels => exact (Engine.isEdit_replaceImage key info pixels).bind_pure _
  | writePushConstants stage offset data =>
    exact (Engine.isEdit_writePushConstants stage offset data).bind_pure _
  | recordPushConstants => exact Engine.isEdit_recordPushConstants.bind_pure _
  | _ => cases h

end ShaderBinding
