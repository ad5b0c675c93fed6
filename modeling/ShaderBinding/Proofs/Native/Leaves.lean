import Mathlib.Order.Defs.Unbundled
import ShaderBinding.Proofs.Native.Exec

/-! # What a computation leaves, whatever comes of it

A value, an error and a fault all leave a backend. `Leaves` relates it to the backend before, and
a relation that every call respects is respected by everything that is made of calls. One such
relation is that all events of a certain kind are on record, and no failure was planned anew.
-/

namespace ShaderBinding

variable {ε δ α β : Type}

namespace Native

/-- The backend before a computation is related to the one that it leaves. -/
def Leaves (x : Native ε α) (R : Backend → Backend → Prop) (b : Backend) : Prop :=
  R b (x.exec b).2

namespace Leaves

variable {R S : Backend → Backend → Prop} {b : Backend}

theorem mono {x : Native ε α} (h : x.Leaves R b) (hRS : ∀ b', R b b' → S b b') : x.Leaves S b :=
  hRS _ h

theorem rel {x : Native ε α} {r : Outcome ε α} {b' : Backend} (h : x.Leaves R b)
    (hexec : x.exec b = (r, b')) : R b b' := by
  unfold Leaves at h
  rwa [hexec] at h

/-- What an error or a fault leaves is the end; what a value leaves is gone on from. -/
theorem bind_of {x : Native ε α} {f : α → Native ε β}
    (hfailed : ∀ failure b₁, x.exec b = (.error failure, b₁) → R b b₁)
    (hdone : ∀ a b₁, x.exec b = (.ok a, b₁) → (f a).Leaves (fun _ => R b) b₁) :
    (x >>= f).Leaves R b := by
  unfold Leaves
  rw [exec_bind]
  rcases hx : x.exec b with ⟨failure | a, b₁⟩
  · exact hfailed failure b₁ hx
  · exact hdone a b₁ hx

theorem ofChecked_bind {x : Checked α} {f : α → Native ε β} (hR : R b b)
    (hf : ∀ a, x = .ok a → (f a).Leaves R b) : (ofChecked x >>= f).Leaves R b := by
  cases x with
  | ok a => exact hf a rfl
  | error fault => exact hR

theorem ofExcept_bind {x : Except ε α} {f : α → Native ε β} (hR : R b b)
    (hf : ∀ a, x = .ok a → (f a).Leaves R b) : (ofExcept x >>= f).Leaves R b := by
  cases x with
  | ok a => exact hf a rfl
  | error e => exact hR

theorem mapError {x : Native ε α} {f : ε → δ} (h : x.Leaves R b) :
    (Native.mapError f x).Leaves R b := h

theorem withUndo_of {x : Native ε α} {undo : Native ε Unit} (h : x.Leaves R b)
    (hundo : ∀ b', undo.Leaves S b') (hRS : ∀ b₁ b₂, R b b₁ → S b₁ b₂ → R b b₂) :
    (withUndo undo x).Leaves R b := by
  unfold Leaves at h ⊢
  rw [exec_withUndo]
  generalize x.exec b = r at h ⊢
  rcases r with ⟨(_ | error) | a, b₁⟩
  · exact h
  · have hb := hRS b₁ _ h (hundo b₁)
    dsimp only
    generalize undo.exec b₁ = r at hb ⊢
    rcases r with ⟨_ | _, _⟩ <;> exact hb
  · exact h

section Preorder

variable [IsPreorder Backend R]

theorem pure (a : α) : (pure a : Native ε α).Leaves R b := refl b

theorem fail (e : ε) : (fail e : Native ε α).Leaves R b := refl b

theorem ofChecked (x : Checked α) : (ofChecked x : Native ε α).Leaves R b := refl b

theorem ofExcept (x : Except ε α) : (ofExcept x).Leaves R b := refl b

theorem ofOutcome (x : Outcome ε α) : (ofOutcome x).Leaves R b := refl b

theorem bind {x : Native ε α} {f : α → Native ε β} (hx : x.Leaves R b)
    (hf : ∀ a b₁, x.exec b = (.ok a, b₁) → (f a).Leaves R b₁) : (x >>= f).Leaves R b := by
  unfold Leaves at hx
  refine bind_of (fun failure b₁ h => ?_) fun a b₁ h => ?_
  · rwa [h] at hx
  · rw [h] at hx
    exact IsTrans.trans _ _ _ hx (hf a b₁ h)

theorem get_bind {f : Backend → Native ε α} (h : (f b).Leaves R b) : (get >>= f).Leaves R b :=
  bind (refl b) fun _ _ hget => by cases hget; exact h

theorem map {x : Native ε α} {f : α → β} (hx : x.Leaves R b) : (f <$> x).Leaves R b :=
  map_eq_pure_bind f x ▸ bind hx fun _ _ _ => pure _

theorem withUndo {x : Native ε α} {undo : Native ε Unit} (h : x.Leaves R b)
    (hundo : ∀ b', undo.Leaves R b') : (Native.withUndo undo x).Leaves R b :=
  withUndo_of h hundo (IsTrans.trans _)

theorem makeAll {make : α → Native ε β} {undo : β → Native ε Unit}
    (hmake : ∀ a b, (make a).Leaves R b) (hundo : ∀ c b, (undo c).Leaves R b) :
    ∀ (items : List α) (b : Backend), (makeAll make undo items).Leaves R b
  | [], _ => pure _
  | a :: rest, b => bind (hmake a b) fun c b₁ _ =>
      bind (withUndo (makeAll hmake hundo rest b₁) (hundo c)) fun _ _ _ => pure _

theorem forM {f : α → Native ε Unit} (hf : ∀ a b, (f a).Leaves R b) :
    ∀ (items : List α) (b : Backend), (items.forM f).Leaves R b
  | [], _ => pure _
  | a :: rest, b => bind (hf a b) fun _ b₁ _ => forM hf rest b₁

end Preorder

theorem attempt {kind : CallKind} {call : Call} {result : α → CallResult}
    {effect : Backend → Outcome kind.Error (α × Backend)} (hfault : R b (b.counted kind))
    (hfailed : ∀ e, verdict effect b = .error (.error e) →
      R b ((b.counted kind).noted call .failed))
    (hdone : ∀ a b', effect (b.counted kind) = .ok (a, b') → R b (b'.noted call (result a))) :
    (attempt kind call result effect).Leaves R b := by
  unfold Leaves
  rw [exec_attempt]
  rcases hverdict : verdict effect b with (fault | e) | ⟨a, b'⟩
  · exact hfault
  · exact hfailed e hverdict
  · exact hdone a b' (effect_of_verdict hverdict)

theorem perform_of_ok {call : Call} {effect : Backend → Checked Backend} (hfault : R b b)
    (hdone : ∀ b', (perform call effect : Native ε Unit).exec b = (.ok (), b') → R b b') :
    (perform call effect : Native ε Unit).Leaves R b := by
  unfold Leaves
  rw [exec_perform] at hdone ⊢
  cases he : effect b with
  | ok b' => exact hdone _ (by rw [he])
  | error fault => exact hfault

end Leaves

end Native

namespace FailurePlan

/-- A call of a kind was planned to fail with an error at some time. -/
def Plans (plan : FailurePlan) (kind : CallKind) (error : kind.Error) : Prop :=
  ∃ passing, ⟨kind, passing, error⟩ ∈ plan

theorem plans_of_due? {plan : FailurePlan} {kind : CallKind} {error : kind.Error}
    (h : plan.due? kind = some error) : plan.Plans kind error := by
  induction plan with
  | nil => cases h
  | cons failure rest ih =>
    unfold due? at h
    split at h
    · rename_i hkind
      subst hkind
      split at h <;> cases h
      exact ⟨failure.passing, List.mem_cons_self⟩
    · obtain ⟨passing, hmem⟩ := ih h
      exact ⟨passing, List.mem_cons_of_mem _ hmem⟩

theorem plans_of_verdict {kind : CallKind} {b : Backend} {error : kind.Error}
    {effect : Backend → Outcome kind.Error (α × Backend)}
    (h : Native.verdict effect b = .error (.error error)) :
    b.failures.Plans kind error ∨ effect (b.counted kind) = .error (.error error) := by
  unfold Native.verdict at h
  split at h
  · rename_i hdue
    cases h
    exact Or.inl (plans_of_due? hdue)
  · exact Or.inr h

theorem plans_of_advance {plan : FailurePlan} {called kind : CallKind} {error : kind.Error}
    (h : (plan.advance called).Plans kind error) : plan.Plans kind error := by
  induction plan with
  | nil => exact h
  | cons failure rest ih =>
    obtain ⟨passing, hmem⟩ := h
    unfold advance at hmem
    split at hmem
    · rcases List.mem_cons.mp hmem with rfl | hmem
      · exact ⟨passing, List.mem_cons_self⟩
      · obtain ⟨passing, hmem⟩ := ih ⟨passing, hmem⟩
        exact ⟨passing, List.mem_cons_of_mem _ hmem⟩
    · split at hmem
      · exact ⟨passing, List.mem_cons_of_mem _ hmem⟩
      · rcases List.mem_cons.mp hmem with heq | hmem
        · cases heq
          exact ⟨failure.passing, List.mem_cons_self⟩
        · exact ⟨passing, List.mem_cons_of_mem _ hmem⟩

end FailurePlan

namespace Backend

variable {p q : Event → Prop} {b b' b'' : Backend}

/-- Only events of a certain kind have been put on record, and no failure was planned anew. -/
structure Extends (p : Event → Prop) (b b' : Backend) : Prop where
  record : ∃ events, b'.trace = b.trace ++ events ∧ ∀ event ∈ events, p event
  plan : ∀ kind error, b'.failures.Plans kind error → b.failures.Plans kind error

namespace Extends

theorem counted (h : b.Extends p b') (kind : CallKind) : b.Extends p (b'.counted kind) :=
  ⟨h.record, fun called error hplan => h.plan called error (FailurePlan.plans_of_advance hplan)⟩

theorem noted {call : Call} {result : CallResult} (h : b.Extends p b')
    (hp : p ⟨call, result⟩) : b.Extends p (b'.noted call result) := by
  obtain ⟨events, hevents, hall⟩ := h.record
  refine ⟨⟨events ++ [⟨call, result⟩], ?_, ?_⟩, h.plan⟩
  · rw [← List.append_assoc, ← hevents]
    rfl
  · simpa [or_imp, forall_and, hp] using hall

theorem mono (h : b.Extends p b') (hpq : ∀ event, p event → q event) : b.Extends q b' := by
  obtain ⟨events, hevents, hall⟩ := h.record
  exact ⟨⟨events, hevents, fun event hmem => hpq event (hall event hmem)⟩, h.plan⟩

theorem of_eq (htrace : b'.trace = b.trace) (hplan : b'.failures = b.failures) :
    b.Extends p b' := ⟨⟨[], by simp [htrace], by simp⟩, fun _ _ h => hplan ▸ h⟩

instance : IsPreorder Backend (Extends p) where
  refl b := .of_eq rfl rfl
  trans b b' b'' h h' := by
    obtain ⟨events, hevents, hall⟩ := h.record
    obtain ⟨later, hlater, hall'⟩ := h'.record
    refine ⟨⟨events ++ later, by rw [hlater, hevents, List.append_assoc], fun event hmem => ?_⟩,
      fun kind error hplan => h.plan kind error (h'.plan kind error hplan)⟩
    exact (List.mem_append.mp hmem).elim (hall event) (hall' event)

end Extends

end Backend

def Backend.Keeps {γ : Type} (part : Backend → γ) (b b' : Backend) : Prop := part b' = part b

instance {γ : Type} (part : Backend → γ) : IsPreorder Backend (Backend.Keeps part) where
  refl _ := rfl
  trans _ _ _ h h' := h'.trans h

namespace Native.Leaves

open Backend

variable {p : Event → Prop} {b : Backend} {kind : CallKind} {call : Call}

theorem onAllocator {result : α → CallResult}
    {step : Allocator → Outcome kind.Error (α × Allocator)} (hp : ∀ r, p ⟨call, r⟩) :
    (Native.attempt kind call result (Native.onAllocator step)).Leaves (Extends p) b := by
  have hcounted : b.Extends p (b.counted kind) := (refl b : b.Extends p b).counted kind
  refine attempt hcounted (fun _ _ => hcounted.noted (hp _)) fun a b' h => ?_
  obtain ⟨allocator, -, rfl⟩ := onAllocator_eq_ok h
  exact .noted ⟨hcounted.record, hcounted.plan⟩ (hp _)

theorem onDevice {result : α → CallResult}
    {step : Device → Outcome kind.Error (α × Device)} (hp : ∀ r, p ⟨call, r⟩) :
    (Native.attempt kind call result (Native.onDevice step)).Leaves (Extends p) b := by
  have hcounted : b.Extends p (b.counted kind) := (refl b : b.Extends p b).counted kind
  refine attempt hcounted (fun _ _ => hcounted.noted (hp _)) fun a b' h => ?_
  obtain ⟨device, -, rfl⟩ := onDevice_eq_ok h
  exact .noted ⟨hcounted.record, hcounted.plan⟩ (hp _)

theorem performAllocator {step : Backend → Checked Allocator} (hp : p ⟨call, .done⟩) :
    (Native.perform call (fun b => do return { b with allocator := ← step b }) :
      Native ε Unit).Leaves (Extends p) b := by
  refine perform_of_ok (refl b) fun b' h => ?_
  obtain ⟨allocator, -, rfl⟩ := exec_perform_allocator_eq_ok h
  exact .noted (.of_eq rfl rfl) hp

theorem performDevice {step : Backend → Checked Device} (hp : p ⟨call, .done⟩) :
    (Native.perform call (fun b => do return { b with device := ← step b }) :
      Native ε Unit).Leaves (Extends p) b := by
  refine perform_of_ok (refl b) fun b' h => ?_
  obtain ⟨device, -, rfl⟩ := exec_perform_device_eq_ok h
  exact .noted (.of_eq rfl rfl) hp

theorem deallocate (hp : ∀ kind handle r, p ⟨.deallocate kind handle, r⟩) (kind : BlockKind)
    (allocation : Allocation) :
    (Native.deallocate kind allocation : Native ε Unit).Leaves (Extends p) b :=
  performAllocator (hp _ _ _)

theorem destroy (hp : ∀ kind handle r, p ⟨.destroy kind handle, r⟩) (kind : ObjectKind)
    (handle : Nat) : (Native.destroy kind handle : Native ε Unit).Leaves (Extends p) b :=
  performDevice (hp _ _ _)

theorem updateSets {writes : List DescriptorWrite} (hp : ∀ r, p ⟨.updateSets writes, r⟩) :
    (Native.updateSets writes : Native ε Unit).Leaves (Extends p) b :=
  performDevice (hp _)

section Keeps

variable {γ : Type} {part : Backend → γ}

theorem attempt_keeps {result : α → CallResult}
    {effect : Backend → Outcome kind.Error (α × Backend)}
    (hpart : ∀ b failures trace, part { b with failures := failures, trace := trace } = part b)
    (heffect : ∀ b a b', effect b = .ok (a, b') → part b' = part b) :
    (Native.attempt kind call result effect).Leaves (Keeps part) b := by
  have hcounted : part (b.counted kind) = part b := hpart b _ b.trace
  refine attempt hcounted (fun _ _ => hpart b _ _) fun a b' h => ?_
  exact (hpart b' b'.failures _).trans ((heffect _ a b' h).trans hcounted)

theorem keeps_onAllocator {result : α → CallResult}
    {step : Allocator → Outcome kind.Error (α × Allocator)}
    (hpart : ∀ b failures trace, part { b with failures := failures, trace := trace } = part b)
    (hstep : ∀ b a allocator, step b.allocator = .ok (a, allocator) →
      part { b with allocator := allocator } = part b) :
    (Native.attempt kind call result (Native.onAllocator step)).Leaves (Keeps part) b := by
  refine attempt_keeps hpart fun b a b' h => ?_
  obtain ⟨allocator, hallocator, rfl⟩ := onAllocator_eq_ok h
  exact hstep b a allocator hallocator

theorem keeps_onDevice {result : α → CallResult}
    {step : Device → Outcome kind.Error (α × Device)}
    (hpart : ∀ b failures trace, part { b with failures := failures, trace := trace } = part b)
    (hstep : ∀ b a device, step b.device = .ok (a, device) →
      part { b with device := device } = part b) :
    (Native.attempt kind call result (Native.onDevice step)).Leaves (Keeps part) b := by
  refine attempt_keeps hpart fun b a b' h => ?_
  obtain ⟨device, hdevice, rfl⟩ := onDevice_eq_ok h
  exact hstep b a device hdevice

theorem keeps_performAllocator {step : Backend → Checked Allocator}
    (hpart : ∀ b failures trace, part { b with failures := failures, trace := trace } = part b)
    (hstep : ∀ allocator, step b = .ok allocator →
      part { b with allocator := allocator } = part b) :
    (Native.perform call (fun b => do return { b with allocator := ← step b }) :
      Native ε Unit).Leaves (Keeps part) b := by
  refine perform_of_ok rfl fun b' h => ?_
  obtain ⟨allocator, hallocator, rfl⟩ := exec_perform_allocator_eq_ok h
  exact (hpart { b with allocator := allocator } b.failures _).trans (hstep allocator hallocator)

theorem keeps_performDevice {step : Backend → Checked Device}
    (hpart : ∀ b failures trace, part { b with failures := failures, trace := trace } = part b)
    (hstep : ∀ device, step b = .ok device → part { b with device := device } = part b) :
    (Native.perform call (fun b => do return { b with device := ← step b }) :
      Native ε Unit).Leaves (Keeps part) b := by
  refine perform_of_ok rfl fun b' h => ?_
  obtain ⟨device, hdevice, rfl⟩ := exec_perform_device_eq_ok h
  exact (hpart { b with device := device } b.failures _).trans (hstep device hdevice)

end Keeps

end Native.Leaves

end ShaderBinding
