import ShaderBinding.Native.Backend
import ShaderBinding.Proofs.Fault

/-! # Outcomes of native computations

Running a computation gives an outcome and the backend it leaves. `Ends` states what holds of
both, separately for a value and for an error, and that a fault is never the misuse of an object.
There is one rule for each way of composing computations and one for each kind of call.
-/

namespace ShaderBinding

namespace Backend

def counted (b : Backend) (kind : CallKind) : Backend :=
  { b with failures := b.failures.advance kind }

def noted (b : Backend) (call : Call) (result : CallResult) : Backend :=
  { b with trace := b.trace ++ [⟨call, result⟩] }

end Backend

namespace FailurePlan

/-- Whether calls made one after the other fail by a plan as a script has it. -/
def Follows : FailurePlan → List ((kind : CallKind) × Option kind.Error) → Prop
  | _, [] => True
  | plan, ⟨kind, verdict⟩ :: rest => plan.due? kind = verdict ∧ (plan.advance kind).Follows rest

/-- The plan with one more call of a kind let pass at first. -/
def delay (kind : CallKind) : FailurePlan → FailurePlan
  | [] => []
  | failure :: rest =>
    if failure.kind = kind then { failure with passing := failure.passing + 1 } :: rest
    else failure :: delay kind rest

theorem due?_delay (kind : CallKind) (plan : FailurePlan) : (plan.delay kind).due? kind = none := by
  induction plan with
  | nil => rfl
  | cons failure rest ih =>
    by_cases hkind : failure.kind = kind
    · simp [delay, due?, hkind]
    · simp [delay, due?, hkind, ih]

theorem advance_delay (kind : CallKind) (plan : FailurePlan) :
    (plan.delay kind).advance kind = plan := by
  induction plan with
  | nil => rfl
  | cons failure rest ih =>
    by_cases hkind : failure.kind = kind
    · simp [delay, advance, hkind]
    · simp [delay, advance, hkind, ih]

/-- Calls can be planned to fail in every pattern. -/
theorem exists_follows (script : List ((kind : CallKind) × Option kind.Error)) :
    ∃ plan : FailurePlan, plan.Follows script := by
  induction script with
  | nil => exact ⟨[], trivial⟩
  | cons call rest ih =>
    obtain ⟨kind, verdict⟩ := call
    obtain ⟨plan, hplan⟩ := ih
    cases verdict with
    | none => exact ⟨plan.delay kind, due?_delay kind plan, (advance_delay kind plan).symm ▸ hplan⟩
    | some error =>
      have hadvance : advance kind (⟨kind, 0, error⟩ :: plan) = plan := by simp [advance]
      exact ⟨⟨kind, 0, error⟩ :: plan, by simp [due?], hadvance.symm ▸ hplan⟩

end FailurePlan

namespace Native

variable {ε δ α β : Type}

def exec (x : Native ε α) (b : Backend) : Outcome ε α × Backend := (x.run b).run

section Exec

@[simp] theorem exec_pure (a : α) (b : Backend) : (pure a : Native ε α).exec b = (.ok a, b) := rfl

@[simp] theorem exec_get (b : Backend) : (get : Native ε Backend).exec b = (.ok b, b) := rfl

@[simp] theorem exec_map_get (f : Backend → α) (b : Backend) :
    (f <$> get : Native ε α).exec b = (.ok (f b), b) := rfl

@[simp] theorem exec_modify (f : Backend → Backend) (b : Backend) :
    (modify f : Native ε PUnit).exec b = (.ok (), f b) := rfl

@[simp] theorem exec_fail (error : ε) (b : Backend) :
    (fail error : Native ε α).exec b = (.error (.error error), b) := rfl

@[simp] theorem exec_ofChecked (x : Checked α) (b : Backend) :
    (ofChecked x : Native ε α).exec b = (x.mapError .fault, b) := rfl

@[simp] theorem exec_ofExcept (x : Except ε α) (b : Backend) :
    (ofExcept x).exec b = (x.mapError .error, b) := rfl

theorem exec_mapError (f : ε → δ) (x : Native ε α) (b : Backend) :
    (mapError f x).exec b = ((x.exec b).1.mapError (Failure.map f), (x.exec b).2) := rfl

theorem exec_bind (x : Native ε α) (f : α → Native ε β) (b : Backend) :
    (x >>= f).exec b = match x.exec b with
      | (.ok a, b') => (f a).exec b'
      | (.error failure, b') => (.error failure, b') := by
  change (ExceptT.bindCont f (x.exec b).1).run (x.exec b).2 = _
  rcases x.exec b with ⟨_ | _, _⟩ <;> rfl

theorem exec_mk_bind (x : Native δ β) (f : Outcome δ β → StateM Backend (Outcome ε α))
    (b : Backend) : exec (ExceptT.mk (x.run >>= f)) b =
      exec (ExceptT.mk (f (x.exec b).1)) (x.exec b).2 := rfl

theorem exec_withUndo (undo : Native ε Unit) (x : Native ε α) (b : Backend) :
    (withUndo undo x).exec b = match x.exec b with
      | (.error (.error error), b') =>
        match undo.exec b' with
        | (.ok (), b'') => (.error (.error error), b'')
        | (.error failure, b'') => (.error failure, b'')
      | (result, b') => (result, b') := by
  unfold withUndo
  rw [exec_mk_bind]
  rcases x.exec b with ⟨(_ | error) | _, b'⟩
  · rfl
  · dsimp only
    rw [exec_mk_bind]
    rcases undo.exec b' with ⟨_ | _, _⟩ <;> rfl
  · rfl

/-- What a call comes to: the planned failure if one is due, and its effect otherwise. -/
def verdict {kind : CallKind} (effect : Backend → Outcome kind.Error (α × Backend)) (b : Backend) :
    Outcome kind.Error (α × Backend) :=
  match b.failures.due? kind with
  | some error => .error (.error error)
  | none => effect (b.counted kind)

variable {kind : CallKind} {call : Call} {result : α → CallResult}
  {effect : Backend → Outcome kind.Error (α × Backend)} {b b' : Backend}

theorem exec_attempt : (attempt kind call result effect).exec b = match verdict effect b with
    | .ok (a, b') => (.ok a, b'.noted call (result a))
    | .error (.error error) => (.error (.error error), (b.counted kind).noted call .failed)
    | .error (.fault fault) => (.error (.fault fault), b.counted kind) := by
  simp only [attempt, exec_bind, exec_get, exec_modify]
  unfold verdict
  cases b.failures.due? kind with
  | some error => rfl
  | none =>
    have hcounted : { b with failures := b.failures.advance kind } = b.counted kind := rfl
    rw [exec_bind, exec_map_get, hcounted]
    rcases effect (b.counted kind) with (_ | _) | ⟨_, _⟩ <;> rfl

theorem exec_perform {effect : Backend → Checked Backend} :
    (perform call effect : Native ε Unit).exec b = match effect b with
      | .ok b' => (.ok (), b'.noted call .done)
      | .error fault => (.error (.fault fault), b) := by
  simp only [perform, exec_bind, exec_get, exec_ofChecked]
  rcases effect b with _ | _ <;> rfl

end Exec

section Steps

variable {b b' : Backend}

theorem onAllocator_eq_ok {step : Allocator → Outcome ε (α × Allocator)} {a : α}
    (h : onAllocator step b = .ok (a, b')) :
    ∃ allocator, step b.allocator = .ok (a, allocator) ∧ b' = { b with allocator := allocator } := by
  obtain ⟨⟨a, allocator⟩, hs, heq⟩ := Except.bind_eq_ok.mp h
  cases heq
  exact ⟨allocator, hs, rfl⟩

theorem onDevice_eq_ok {step : Device → Outcome ε (α × Device)} {a : α}
    (h : onDevice step b = .ok (a, b')) :
    ∃ device, step b.device = .ok (a, device) ∧ b' = { b with device := device } := by
  obtain ⟨⟨a, device⟩, hs, heq⟩ := Except.bind_eq_ok.mp h
  cases heq
  exact ⟨device, hs, rfl⟩

theorem onDevice_eq_error {step : Device → Outcome ε (α × Device)} {failure : Failure ε}
    (h : onDevice step b = .error failure) : step b.device = .error failure := by
  unfold onDevice at h
  generalize step b.device = r at h ⊢
  cases r <;> cases h
  rfl

end Steps

section Value

variable {b b' : Backend}

theorem exec_bind_eq_ok {x : Native ε α} {f : α → Native ε β} {c : β} :
    (x >>= f).exec b = (.ok c, b') ↔
      ∃ a b₁, x.exec b = (.ok a, b₁) ∧ (f a).exec b₁ = (.ok c, b') := by
  rw [exec_bind]
  rcases x.exec b with ⟨_ | a, b₁⟩
  · simp
  · exact ⟨fun h => ⟨a, b₁, rfl, h⟩, fun ⟨_, _, hx, h⟩ => by cases hx; exact h⟩

theorem exec_withUndo_eq_ok {undo : Native ε Unit} {x : Native ε α} {a : α} :
    (withUndo undo x).exec b = (.ok a, b') ↔ x.exec b = (.ok a, b') := by
  rw [exec_withUndo]
  rcases x.exec b with ⟨(_ | _) | _, b₁⟩
  · rfl
  · dsimp only
    generalize undo.exec b₁ = r
    rcases r with ⟨_ | _, _⟩ <;> simp
  · rfl

theorem exec_mapError_eq_ok {f : ε → δ} {x : Native ε α} {a : α} :
    (mapError f x).exec b = (.ok a, b') ↔ x.exec b = (.ok a, b') := by
  rw [exec_mapError]
  rcases x.exec b with ⟨_ | _, _⟩ <;> simp [Except.mapError]

theorem exec_ofChecked_eq_ok {x : Checked α} {a : α} :
    (ofChecked x : Native ε α).exec b = (.ok a, b') ↔ x = .ok a ∧ b' = b := by
  cases x <;> simp [Except.mapError, eq_comm]

theorem exec_ofExcept_eq_ok {x : Except ε α} {a : α} :
    (ofExcept x).exec b = (.ok a, b') ↔ x = .ok a ∧ b' = b := by
  cases x <;> simp [Except.mapError, eq_comm]

theorem exec_attempt_eq_ok {kind : CallKind} {call : Call} {result : α → CallResult}
    {effect : Backend → Outcome kind.Error (α × Backend)} {a : α} :
    (attempt kind call result effect).exec b = (.ok a, b') ↔
      ∃ b₁, verdict effect b = .ok (a, b₁) ∧ b' = b₁.noted call (result a) := by
  rw [exec_attempt]
  rcases verdict effect b with (_ | _) | ⟨_, b₁⟩
  · simp
  · simp
  · constructor
    · rintro h
      cases h
      exact ⟨b₁, rfl, rfl⟩
    · rintro ⟨_, h, rfl⟩
      cases h
      rfl

/-- A call that fails has no effect but on the plan and the record. -/
theorem exec_attempt_eq_error {kind : CallKind} {call : Call} {result : α → CallResult}
    {effect : Backend → Outcome kind.Error (α × Backend)} {e : kind.Error}
    (h : (attempt kind call result effect).exec b = (.error (.error e), b')) :
    b' = (b.counted kind).noted call .failed := by
  rw [exec_attempt] at h
  generalize verdict effect b = r at h
  rcases r with (_ | _) | ⟨_, _⟩ <;> cases h
  rfl

theorem effect_of_verdict {kind : CallKind} {effect : Backend → Outcome kind.Error (α × Backend)}
    {a : α} (h : verdict effect b = .ok (a, b')) : effect (b.counted kind) = .ok (a, b') := by
  unfold verdict at h
  split at h
  · cases h
  · exact h

theorem exec_onDevice_eq_ok {kind : CallKind} {call : Call} {result : α → CallResult}
    {step : Device → Outcome kind.Error (α × Device)} {a : α}
    (h : (attempt kind call result (onDevice step)).exec b = (.ok a, b')) :
    step b.device = .ok (a, b'.device) ∧ b'.trace = b.trace ++ [⟨call, result a⟩] := by
  obtain ⟨b₁, hverdict, rfl⟩ := exec_attempt_eq_ok.mp h
  obtain ⟨device, hs, rfl⟩ := onDevice_eq_ok (effect_of_verdict hverdict)
  exact ⟨hs, rfl⟩

theorem exec_onAllocator_eq_ok {kind : CallKind} {call : Call} {result : α → CallResult}
    {step : Allocator → Outcome kind.Error (α × Allocator)} {a : α}
    (h : (attempt kind call result (onAllocator step)).exec b = (.ok a, b')) :
    step b.allocator = .ok (a, b'.allocator) ∧ b'.trace = b.trace ++ [⟨call, result a⟩] := by
  obtain ⟨b₁, hverdict, rfl⟩ := exec_attempt_eq_ok.mp h
  obtain ⟨allocator, hs, rfl⟩ := onAllocator_eq_ok (effect_of_verdict hverdict)
  exact ⟨hs, rfl⟩

theorem exec_perform_eq_ok {call : Call} {effect : Backend → Checked Backend} {u : Unit} :
    (perform call effect : Native ε Unit).exec b = (.ok u, b') ↔
      ∃ b₁, effect b = .ok b₁ ∧ b' = b₁.noted call .done := by
  rw [exec_perform]
  cases effect b <;> simp [eq_comm]

theorem exec_perform_allocator_eq_ok {call : Call} {step : Backend → Checked Allocator} {u : Unit}
    (h : (perform call (fun b => do return { b with allocator := ← step b }) :
      Native ε Unit).exec b = (.ok u, b')) :
    ∃ allocator, step b = .ok allocator ∧
      b' = { b with allocator := allocator }.noted call .done := by
  obtain ⟨_, heffect, rfl⟩ := exec_perform_eq_ok.mp h
  obtain ⟨allocator, hstep, heq⟩ := Except.bind_eq_ok.mp heffect
  cases heq
  exact ⟨allocator, hstep, rfl⟩

theorem exec_perform_device_eq_ok {call : Call} {step : Backend → Checked Device} {u : Unit}
    (h : (perform call (fun b => do return { b with device := ← step b }) :
      Native ε Unit).exec b = (.ok u, b')) :
    ∃ device, step b = .ok device ∧ b' = { b with device := device }.noted call .done := by
  obtain ⟨_, heffect, rfl⟩ := exec_perform_eq_ok.mp h
  obtain ⟨device, hstep, heq⟩ := Except.bind_eq_ok.mp heffect
  cases heq
  exact ⟨device, hstep, rfl⟩

end Value

section Error

variable {b b' : Backend}

theorem exec_bind_eq_error {x : Native ε α} {f : α → Native ε β} {failure : Failure ε} :
    (x >>= f).exec b = (.error failure, b') ↔ x.exec b = (.error failure, b') ∨
      ∃ a b₁, x.exec b = (.ok a, b₁) ∧ (f a).exec b₁ = (.error failure, b') := by
  rw [exec_bind]
  rcases x.exec b with ⟨_ | a, b₁⟩
  · simp
  · constructor
    · exact fun h => Or.inr ⟨a, b₁, rfl, h⟩
    · rintro (h | ⟨_, _, hx, h⟩)
      · cases h
      · cases hx
        exact h

theorem exec_mapError_eq_error {f : ε → δ} {x : Native ε α} {e : δ} :
    (mapError f x).exec b = (.error (.error e), b') ↔
      ∃ e', f e' = e ∧ x.exec b = (.error (.error e'), b') := by
  rw [exec_mapError]
  rcases x.exec b with ⟨(_ | _) | _, _⟩ <;> simp [Except.mapError, Failure.map]

def Quiet (x : Native ε α) : Prop := ∀ b e b', x.exec b ≠ (.error (.error e), b')

theorem Quiet.perform {call : Call} {effect : Backend → Checked Backend} :
    (perform call effect : Native ε Unit).Quiet := by
  intro b e b' h
  rw [exec_perform] at h
  generalize effect b = r at h
  cases r <;> cases h

theorem Quiet.bind {x : Native ε α} {f : α → Native ε β} (hx : x.Quiet) (hf : ∀ a, (f a).Quiet) :
    (x >>= f).Quiet := by
  intro b e b' h
  rcases exec_bind_eq_error.mp h with h | ⟨a, b₁, -, h⟩
  · exact hx _ _ _ h
  · exact hf a _ _ _ h

theorem Quiet.forM {f : α → Native ε Unit} (hf : ∀ a, (f a).Quiet) :
    ∀ items : List α, (items.forM f).Quiet
  | [] => by
    intro b e b' h
    cases h
  | a :: rest => .bind (hf a) fun _ => forM hf rest

/-- An error comes from the computation itself, and all that it had done was undone. -/
theorem exec_withUndo_eq_error {undo : Native ε Unit} {x : Native ε α} {e : ε}
    (hundo : undo.Quiet) : (withUndo undo x).exec b = (.error (.error e), b') ↔
      ∃ b₁, x.exec b = (.error (.error e), b₁) ∧ undo.exec b₁ = (.ok (), b') := by
  rw [exec_withUndo]
  rcases x.exec b with ⟨(_ | _) | _, b₁⟩
  · simp
  · rcases hexec : undo.exec b₁ with ⟨(_ | e') | _, b₂⟩
    · simp +contextual [hexec]
    · exact absurd hexec (hundo b₁ e' b₂)
    · simp +contextual [hexec]
  · simp

/-- Every error that a computation reports is of a certain kind. -/
def Reports (x : Native ε α) (p : ε → Prop) : Prop :=
  ∀ b e b', x.exec b = (.error (.error e), b') → p e

namespace Reports

variable {p : ε → Prop}

theorem of_quiet {x : Native ε α} (h : x.Quiet) : x.Reports p :=
  fun b e b' hexec => absurd hexec (h b e b')

theorem pure (a : α) : (pure a : Native ε α).Reports p := nofun

theorem bind {x : Native ε α} {f : α → Native ε β} (hx : x.Reports p) (hf : ∀ a, (f a).Reports p) :
    (x >>= f).Reports p := by
  intro b e b' h
  rcases exec_bind_eq_error.mp h with h | ⟨a, b₁, -, h⟩
  · exact hx _ _ _ h
  · exact hf a _ _ _ h

theorem map {x : Native ε α} {f : α → β} (hx : x.Reports p) : (f <$> x).Reports p :=
  map_eq_pure_bind f x ▸ hx.bind fun _ => .pure _

theorem mapError {x : Native δ α} {f : δ → ε} (hf : ∀ e, p (f e)) : (mapError f x).Reports p := by
  intro b e b' h
  obtain ⟨e', rfl, -⟩ := exec_mapError_eq_error.mp h
  exact hf e'

theorem withUndo {x : Native ε α} {undo : Native ε Unit} (hundo : undo.Quiet) (hx : x.Reports p) :
    (withUndo undo x).Reports p := by
  intro b e b' h
  obtain ⟨b₁, h, -⟩ := (exec_withUndo_eq_error hundo).mp h
  exact hx b e b₁ h

theorem ofChecked (x : Checked α) : (ofChecked x : Native ε α).Reports p := by
  intro b e b' h
  rw [exec_ofChecked] at h
  cases x <;> cases h

theorem ofExcept {x : Except ε α} (hx : ∀ e, x = .error e → p e) : (ofExcept x).Reports p := by
  intro b e b' h
  rw [exec_ofExcept] at h
  cases x <;> cases h
  exact hx e rfl

theorem makeAll {make : α → Native ε β} {undo : β → Native ε Unit} (hmake : ∀ a, (make a).Reports p)
    (hundo : ∀ c, (undo c).Quiet) : ∀ items : List α, (makeAll make undo items).Reports p
  | [] => .pure _
  | a :: rest => .bind (hmake a) fun c =>
      .bind (.withUndo (hundo c) (makeAll hmake hundo rest)) fun _ => .pure _

end Reports

end Error

/-- What holds of a value or an error and of the backend left with it. No fault is a misuse. -/
def Ends (x : Native ε α) (b : Backend) (done : α → Backend → Prop)
    (failed : ε → Backend → Prop) : Prop :=
  match x.exec b with
  | (.ok a, b') => done a b'
  | (.error (.error error), b') => failed error b'
  | (.error (.fault fault), _) => fault.isMisuse = false

namespace Ends

variable {b : Backend} {done done' : α → Backend → Prop} {failed failed' : ε → Backend → Prop}

theorem mono {x : Native ε α} (h : x.Ends b done failed) (hd : ∀ a b', done a b' → done' a b')
    (hf : ∀ e b', failed e b' → failed' e b') : x.Ends b done' failed' := by
  unfold Ends at h ⊢
  generalize x.exec b = r at h ⊢
  rcases r with ⟨(_ | e) | a, b'⟩
  · exact h
  · exact hf e b' h
  · exact hd a b' h

theorem of_exec {x : Native ε α} {a : α} {b' : Backend} (h : x.exec b = (.ok a, b'))
    (hd : done a b') : x.Ends b done failed := by
  unfold Ends
  rw [h]
  exact hd

theorem of_ok {x : Native ε α} {a : α} {b' : Backend} (h : x.Ends b done failed)
    (hexec : x.exec b = (.ok a, b')) : done a b' := by
  unfold Ends at h
  rwa [hexec] at h

theorem of_error {x : Native ε α} {e : ε} {b' : Backend} (h : x.Ends b done failed)
    (hexec : x.exec b = (.error (.error e), b')) : failed e b' := by
  unfold Ends at h
  rwa [hexec] at h

theorem exec {x : Native ε α} (h : x.Ends b done failed) :
    x.Ends b (fun a b' => done a b' ∧ x.exec b = (.ok a, b'))
      fun e b' => failed e b' ∧ x.exec b = (.error (.error e), b') := by
  unfold Ends at h ⊢
  generalize x.exec b = r at h ⊢
  rcases r with ⟨(_ | e) | a, b'⟩
  · exact h
  · exact ⟨h, rfl⟩
  · exact ⟨h, rfl⟩

theorem pure {a : α} (h : done a b) : (pure a : Native ε α).Ends b done failed := h

theorem fail {e : ε} (h : failed e b) : (fail e : Native ε α).Ends b done failed := h

theorem bind {x : Native ε α} {f : α → Native ε β} {done : β → Backend → Prop}
    (h : x.Ends b (fun a b' => (f a).Ends b' done failed) failed) :
    (x >>= f).Ends b done failed := by
  unfold Ends at h ⊢
  rw [exec_bind]
  generalize x.exec b = r at h ⊢
  rcases r with ⟨(_ | e) | a, b'⟩ <;> exact h

theorem get_bind {f : Backend → Native ε α} (h : (f b).Ends b done failed) :
    (get >>= f).Ends b done failed := .bind h

theorem mapError {x : Native ε α} {f : ε → δ} {failed : δ → Backend → Prop}
    (h : x.Ends b done fun e => failed (f e)) : (mapError f x).Ends b done failed := by
  unfold Ends at h ⊢
  rw [exec_mapError]
  generalize x.exec b = r at h ⊢
  rcases r with ⟨(_ | e) | a, b'⟩ <;> exact h

theorem withUndo {x : Native ε α} {undo : Native ε Unit}
    (h : x.Ends b done fun e b' => undo.Ends b' (fun _ => failed e) failed) :
    (withUndo undo x).Ends b done failed := by
  unfold Ends at h ⊢
  rw [exec_withUndo]
  generalize x.exec b = r at h ⊢
  rcases r with ⟨(_ | e) | a, b'⟩
  · exact h
  · change Ends undo b' _ _ at h
    unfold Ends at h
    dsimp only
    generalize undo.exec b' = r at h ⊢
    rcases r with ⟨(_ | _) | _, _⟩ <;> exact h
  · exact h

theorem ofChecked {x : Checked α} (hx : x.Proper) (h : ∀ a, x = .ok a → done a b) :
    (ofChecked x : Native ε α).Ends b done failed := by
  cases x with
  | ok a => exact h a rfl
  | error fault => exact hx fault rfl

theorem ofExcept {x : Except ε α} (hd : ∀ a, x = .ok a → done a b)
    (hf : ∀ e, x = .error e → failed e b) : (ofExcept x).Ends b done failed := by
  cases x with
  | ok a => exact hd a rfl
  | error e => exact hf e rfl

theorem ofOutcome {x : Outcome ε α} (hx : x.Proper) (hd : ∀ a, x = .ok a → done a b)
    (hf : ∀ e, x = .error (.error e) → failed e b) : (ofOutcome x).Ends b done failed := by
  rcases x with (fault | e) | a
  · exact hx fault rfl
  · exact hf e rfl
  · exact hd a rfl

theorem attempt {kind : CallKind} {call : Call} {result : α → CallResult}
    {effect : Backend → Outcome kind.Error (α × Backend)}
    {failed : kind.Error → Backend → Prop}
    (hd : ∀ a b', effect (b.counted kind) = .ok (a, b') → done a (b'.noted call (result a)))
    (hf : ∀ e, failed e ((b.counted kind).noted call .failed))
    (hx : Outcome.Proper (effect (b.counted kind))) :
    (attempt kind call result effect).Ends b done failed := by
  unfold Ends
  rw [exec_attempt, verdict]
  cases b.failures.due? kind with
  | some e => exact hf e
  | none =>
    rcases he : effect (b.counted kind) with (fault | e) | ⟨a, b'⟩
    · exact hx fault he
    · exact hf e
    · exact hd a b' he

theorem perform {call : Call} {effect : Backend → Checked Backend} {done : Unit → Backend → Prop}
    (hd : ∀ b', effect b = .ok b' → done () (b'.noted call .done))
    (hx : Checked.Proper (effect b)) :
    (perform call effect : Native ε Unit).Ends b done failed := by
  unfold Ends
  rw [exec_perform]
  cases he : effect b with
  | ok b' => exact hd b' he
  | error fault => exact hx fault he

end Ends

end Native

end ShaderBinding
