import ShaderBinding.Proofs.Fault

/-! # Problems of an input

All problems of an input are listed beside the computation that stops at the first of them. That it
does so is shown step by step: there is one rule for each way of composing computations.
-/

namespace ShaderBinding

namespace Outcome

variable {ε δ α β : Type} {problems others : List ε} {fits room : Prop}

/-- A computation succeeds only on an input without problems, reports the first of them otherwise,
and does not fault on an input that fits. -/
structure Reports (x : Outcome ε α) (problems : List ε) (fits : Prop) : Prop where
  ok : ∀ a, x = .ok a → problems = []
  error : ∀ e, x = .fail e → problems.head? = some e
  fault : ∀ fault, x = .error (.fault fault) → ¬ fits

namespace Reports

theorem pure (a : α) : Reports (Pure.pure a : Outcome ε α) [] fits :=
  ⟨fun _ _ => rfl, nofun, nofun⟩

theorem fail (e : ε) : Reports (Outcome.fail e : Outcome ε α) [e] fits := by
  refine ⟨nofun, ?_, nofun⟩
  rintro _ ⟨⟩
  rfl

theorem ofChecked {x : Checked α} (h : fits → ∃ a, x = .ok a) :
    Reports (x.mapError .fault : Outcome ε α) [] fits := by
  cases x with
  | ok a => exact pure a
  | error fault =>
    refine ⟨nofun, nofun, fun _ _ hfits => ?_⟩
    obtain ⟨a, ha⟩ := h hfits
    cases ha

theorem mono {x : Outcome ε α} (hx : x.Reports problems fits) (h : room → fits) :
    x.Reports problems room :=
  ⟨hx.ok, hx.error, fun fault hfault hroom => hx.fault fault hfault (h hroom)⟩

theorem bind_of_eq {x : Outcome ε α} {f : α → Outcome ε β} (hx : x.Reports problems fits)
    (hf : ∀ a, x = .ok a → (f a).Reports others room) :
    (x >>= f).Reports (problems ++ others) (fits ∧ room) := by
  rcases x with (fault | e) | a
  · refine ⟨nofun, nofun, ?_⟩
    rintro _ - ⟨hfits, -⟩
    exact hx.fault fault rfl hfits
  · refine ⟨nofun, ?_, nofun⟩
    rintro _ ⟨⟩
    simp [List.head?_append, hx.error e rfl]
  · rw [hx.ok a rfl]
    exact (hf a rfl).mono And.right

theorem bind {x : Outcome ε α} {f : α → Outcome ε β} (hx : x.Reports problems fits)
    (hf : ∀ a, (f a).Reports others room) :
    (x >>= f).Reports (problems ++ others) (fits ∧ room) := hx.bind_of_eq fun a _ => hf a

theorem bind_pure {x : Outcome ε α} (hx : x.Reports problems fits) (f : α → β) :
    Reports (x >>= fun a => Pure.pure (f a)) problems fits := by
  have hpure (a : α) : Reports (Pure.pure (f a) : Outcome ε β) [] True := pure (f a)
  simpa using hx.bind hpure

theorem mapFailure {x : Outcome ε α} (f : ε → δ) (hx : x.Reports problems fits) :
    (x.mapFailure f).Reports (problems.map f) fits := by
  rcases x with (fault | e) | a
  · exact ⟨nofun, nofun, fun _ _ => hx.fault fault rfl⟩
  · refine ⟨nofun, ?_, nofun⟩
    rintro _ ⟨⟩
    simp [hx.error e rfl]
  · exact ⟨fun _ _ => by simp [hx.ok a rfl], nofun, nofun⟩

theorem mapM {f : α → Outcome ε β} {problemsOf : α → List ε} {fitsOf : α → Prop}
    (hf : ∀ a, (f a).Reports (problemsOf a) (fitsOf a)) (xs : List α) :
    (xs.mapM f).Reports (xs.flatMap problemsOf) (∀ a ∈ xs, fitsOf a) := by
  induction xs with
  | nil => exact pure []
  | cons a rest ih =>
    rw [List.mapM_cons, List.flatMap_cons, List.forall_mem_cons]
    exact (hf a).bind fun b => ih.bind_pure _

theorem fail_iff {x : Outcome ε α} {e : ε} (hx : x.Reports problems fits)
    (hfault : ∀ fault, x ≠ .error (.fault fault)) : x = .fail e ↔ problems.head? = some e := by
  refine ⟨hx.error e, fun hhead => ?_⟩
  rcases x with (fault | e') | a
  · exact absurd rfl (hfault fault)
  · rw [hx.error e' rfl] at hhead
    cases hhead
    rfl
  · rw [hx.ok a rfl] at hhead
    cases hhead

theorem exists_ok_iff {x : Outcome ε α} (hx : x.Reports problems fits)
    (hfault : ∀ fault, x ≠ .error (.fault fault)) : (∃ a, x = .ok a) ↔ problems = [] := by
  refine ⟨fun ⟨a, ha⟩ => hx.ok a ha, fun hnone => ?_⟩
  rcases x with (fault | e) | a
  · exact absurd rfl (hfault fault)
  · have hhead := hx.error e rfl
    rw [hnone] at hhead
    cases hhead
  · exact ⟨a, rfl⟩

end Reports

end Outcome

end ShaderBinding
