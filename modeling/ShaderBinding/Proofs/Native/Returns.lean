import ShaderBinding.Proofs.Native.Leaves

/-! # Computations that return

A computation returns a value unless a call of a certain kind is on record that failed. So where
no such call is on record there is a value, and neither an error nor a fault.
-/

namespace ShaderBinding

open Native Backend

variable {ε δ α β : Type} {p : Event → Prop} {b b' b'' : Backend}

namespace Backend

def Shows (p : Event → Prop) (b b' : Backend) : Prop :=
  ∃ events, b'.trace = b.trace ++ events ∧ ∃ event ∈ events, p event

theorem Shows.extend (h : b.Shows p b') (h' : b'.Extends (fun _ => True) b'') : b.Shows p b'' := by
  obtain ⟨events, hevents, event, hmem, hp⟩ := h
  obtain ⟨later, hlater, -⟩ := h'.record
  exact ⟨events ++ later, by rw [hlater, hevents, List.append_assoc], event,
    List.mem_append_left _ hmem, hp⟩

theorem Extends.shows (h : b.Extends (fun _ => True) b') (h' : b'.Shows p b'') :
    b.Shows p b'' := by
  obtain ⟨events, hevents, -⟩ := h.record
  obtain ⟨later, hlater, event, hmem, hp⟩ := h'
  exact ⟨events ++ later, by rw [hlater, hevents, List.append_assoc], event,
    List.mem_append_right _ hmem, hp⟩

theorem not_shows {events : List Event} (htrace : b'.trace = b.trace ++ events)
    (h : ∀ event ∈ events, ¬ p event) : ¬ b.Shows p b' := by
  rintro ⟨others, hothers, event, hmem, hp⟩
  obtain rfl := List.append_cancel_left (htrace.symm.trans hothers)
  exact h event hmem hp

end Backend

namespace Native

/-- There is a value, or an event on record tells why not. -/
def Returns (x : Native ε α) (p : Event → Prop) (b : Backend) : Prop :=
  match x.exec b with
  | (.ok _, b') => b.Extends (fun _ => True) b'
  | (.error _, b') => b.Shows p b'

namespace Returns

theorem exists_ok {x : Native ε α} (h : x.Returns p b) (hb : ∀ failure b',
    x.exec b = (.error failure, b') → ¬ b.Shows p b') : ∃ a b', x.exec b = (.ok a, b') := by
  unfold Returns at h
  rcases hexec : x.exec b with ⟨failure | a, b'⟩ <;> rw [hexec] at h
  · exact absurd h (hb failure b' hexec)
  · exact ⟨a, b', rfl⟩

theorem pure (a : α) : (pure a : Native ε α).Returns p b := refl b

theorem bind {x : Native ε α} {f : α → Native ε β} (hx : x.Returns p b)
    (hf : ∀ a b', (f a).Returns p b') : (x >>= f).Returns p b := by
  unfold Returns at hx ⊢
  rw [exec_bind]
  generalize x.exec b = r at hx ⊢
  rcases r with ⟨failure | a, b₁⟩
  · exact hx
  · have hrest := hf a b₁
    unfold Returns at hrest
    dsimp only at hx ⊢
    generalize (f a).exec b₁ = r at hrest ⊢
    rcases r with ⟨failure | c, b₂⟩
    · exact hx.shows hrest
    · exact IsTrans.trans _ _ _ hx hrest

theorem map {x : Native ε α} {f : α → β} (hx : x.Returns p b) : (f <$> x).Returns p b :=
  map_eq_pure_bind f x ▸ bind hx fun _ _ => pure _

theorem mapError {x : Native ε α} {f : ε → δ} (hx : x.Returns p b) :
    (Native.mapError f x).Returns p b := by
  unfold Returns at hx ⊢
  rw [exec_mapError]
  generalize x.exec b = r at hx ⊢
  rcases r with ⟨failure | a, b₁⟩ <;> exact hx

theorem withUndo {x : Native ε α} {undo : Native ε Unit} (hx : x.Returns p b)
    (hundo : ∀ b', undo.Leaves (Extends fun _ => True) b') :
    (Native.withUndo undo x).Returns p b := by
  unfold Returns at hx ⊢
  rw [exec_withUndo]
  generalize x.exec b = r at hx ⊢
  rcases r with ⟨(fault | e) | a, b₁⟩
  · exact hx
  · have hrest := hundo b₁
    unfold Leaves at hrest
    dsimp only at hx ⊢
    generalize undo.exec b₁ = r at hrest ⊢
    rcases r with ⟨failure | u, b₂⟩ <;> exact hx.extend hrest
  · exact hx

theorem makeAll {make : α → Native ε β} {undo : β → Native ε Unit}
    (hundo : ∀ c b, (undo c).Leaves (Extends fun _ => True) b) :
    ∀ {items : List α}, (∀ a ∈ items, ∀ b, (make a).Returns p b) →
      ∀ b, (makeAll make undo items).Returns p b
  | [], _, _ => pure _
  | a :: _, h, b => bind (h a List.mem_cons_self b) fun c b₁ =>
      bind (withUndo (makeAll hundo (fun a ha => h a (List.mem_cons_of_mem _ ha)) b₁) (hundo c))
        fun _ _ => pure _

section Calls

variable {kind : CallKind} {call : Call} {result : α → CallResult}

theorem attempt {effect : Backend → Outcome kind.Error (α × Backend)}
    (hrecord : (Native.attempt kind call result effect).Leaves (Extends fun _ => True) b)
    (hfault : ∀ fault, effect (b.counted kind) ≠ .error (.fault fault)) (hp : p ⟨call, .failed⟩) :
    (Native.attempt kind call result effect).Returns p b := by
  have hfailed : b.Shows p ((b.counted kind).noted call .failed) :=
    ⟨[⟨call, .failed⟩], rfl, _, List.mem_cons_self, hp⟩
  unfold Returns Leaves at *
  rw [exec_attempt, verdict] at hrecord ⊢
  cases hdue : b.failures.due? kind with
  | some e => exact hfailed
  | none =>
    rw [hdue] at hrecord
    dsimp only at hrecord ⊢
    rcases heffect : effect (b.counted kind) with (fault | e) | ⟨a, b₁⟩
    · exact absurd heffect (hfault fault)
    · exact hfailed
    · rw [heffect] at hrecord
      exact hrecord

theorem onAllocator {step : Allocator → Outcome kind.Error (α × Allocator)}
    (hstep : ∀ fault, step b.allocator ≠ .error (.fault fault)) (hp : p ⟨call, .failed⟩) :
    (Native.attempt kind call result (Native.onAllocator step)).Returns p b := by
  refine attempt (.onAllocator fun _ => trivial) (fun fault h => hstep fault ?_) hp
  have hallocator : (b.counted kind).allocator = b.allocator := rfl
  unfold Native.onAllocator at h
  rw [hallocator] at h
  generalize step b.allocator = r at h ⊢
  cases r <;> cases h
  rfl

theorem onDevice {step : Device → Outcome kind.Error (α × Device)}
    (hstep : ∀ fault, step b.device ≠ .error (.fault fault)) (hp : p ⟨call, .failed⟩) :
    (Native.attempt kind call result (Native.onDevice step)).Returns p b := by
  refine attempt (.onDevice fun _ => trivial) (fun fault h => hstep fault ?_) hp
  exact onDevice_eq_error (b := b.counted kind) h

end Calls

end Returns

end Native

end ShaderBinding
