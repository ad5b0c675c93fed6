import ShaderBinding.Fault
import ShaderBinding.Proofs.Related

/-! # Faults that are not misuse

A checked sum fails exactly if the whole sum leaves the width. A computation without native calls
may leave a width or an index range, but it has no objects or mappings to misuse. That it is proper
in this sense is shown step by step: there is one rule for each way of composing computations.
-/

namespace ShaderBinding

variable {ε δ α β : Type}

theorem Except.bind_eq_ok {x : Except ε α} {f : α → Except ε β} {b : β} :
    x >>= f = .ok b ↔ ∃ a, x = .ok a ∧ f a = .ok b := by
  cases x with
  | ok a => exact ⟨fun h => ⟨a, rfl, h⟩, fun ⟨_, ha, h⟩ => by cases ha; exact h⟩
  | error e => exact ⟨nofun, nofun⟩

theorem Except.bind_eq_error {x : Except ε α} {f : α → Except ε β} {e : ε} :
    x >>= f = .error e ↔ x = .error e ∨ ∃ a, x = .ok a ∧ f a = .error e := by
  cases x with
  | ok a => simp [bind, Except.bind]
  | error e' => simp [bind, Except.bind]

theorem Except.map_eq_ok {x : Except ε α} {f : α → β} {b : β} :
    x.map f = .ok b ↔ ∃ a, x = .ok a ∧ f a = b := by
  cases x <;> simp [Except.map]

theorem Except.mapError_eq_ok {x : Except ε α} {f : ε → δ} {a : α} :
    x.mapError f = .ok a ↔ x = .ok a := by
  cases x <;> simp [Except.mapError]

theorem Except.mapM_eq_ok {f : α → Except ε β} {xs : List α} {ys : List β} :
    xs.mapM f = .ok ys ↔ List.Forall₂ (fun x y => f x = .ok y) xs ys := by
  induction xs generalizing ys with
  | nil =>
    rw [List.mapM_nil, List.forall₂_nil_left_iff]
    exact ⟨fun h => (Except.ok.inj h).symm, fun h => h ▸ rfl⟩
  | cons x rest ih =>
    rw [List.mapM_cons, List.forall₂_cons_left_iff, bind_eq_ok]
    constructor
    · rintro ⟨y, hy, h⟩
      obtain ⟨others, hothers, heq⟩ := bind_eq_ok.mp h
      exact ⟨y, others, hy, ih.mp hothers, (Except.ok.inj heq).symm⟩
    · rintro ⟨y, others, hy, hothers, rfl⟩
      exact ⟨y, hy, bind_eq_ok.mpr ⟨others, ih.mpr hothers, rfl⟩⟩

theorem Except.mapM_eq_error {f : α → Except ε β} {xs : List α} {e : ε}
    (h : xs.mapM f = .error e) : ∃ x ∈ xs, f x = .error e := by
  induction xs with
  | nil => cases h
  | cons x rest ih =>
    rw [List.mapM_cons] at h
    rcases bind_eq_error.mp h with hx | ⟨y, -, h⟩
    · exact ⟨x, List.mem_cons_self, hx⟩
    rcases bind_eq_error.mp h with hrest | ⟨ys, -, ⟨⟩⟩
    obtain ⟨x', hmem, hx'⟩ := ih hrest
    exact ⟨x', List.mem_cons_of_mem _ hmem, hx'⟩

namespace Checked

theorem foldlM_add {width : Width} (values : List Nat) {start : Nat} (h : start < width.bound) :
    values.foldlM (add width) start =
      if start + values.sum < width.bound then .ok (start + values.sum)
      else .error .addOverflow := by
  induction values generalizing start with
  | nil => simp [h]; rfl
  | cons value rest ih =>
    rw [List.foldlM_cons, List.sum_cons, ← Nat.add_assoc]
    by_cases hfits : start + value < width.bound
    · have hadd : add width start value = .ok (start + value) := add_eq_ok_iff.mpr ⟨hfits, rfl⟩
      rw [hadd]
      exact ih hfits
    · have hadd : add width start value = .error .addOverflow := if_neg hfits
      have htotal : ¬ start + value + rest.sum < width.bound := by omega
      rw [hadd, if_neg htotal]
      rfl

/-- Some partial sum leaves the width exactly if the whole sum does. -/
theorem sum_eq (width : Width) (values : List Nat) :
    sum width values =
      if values.sum < width.bound then .ok values.sum else .error .addOverflow := by
  have hbound : 0 < width.bound := by cases width <;> decide
  simpa [sum] using foldlM_add values hbound

end Checked

/-- A fault of the computation is no misuse. -/
def Checked.Proper (x : Checked α) : Prop :=
  ∀ fault, x = .error fault → fault.isMisuse = false

def Outcome.Proper (x : Outcome ε α) : Prop :=
  ∀ fault, x = .error (.fault fault) → fault.isMisuse = false

namespace Checked.Proper

theorem pure (a : α) : Checked.Proper (pure a) := nofun

theorem fault {f : Fault} (h : f.isMisuse = false) : Checked.Proper (throw f : Checked α) := by
  rintro _ ⟨⟩
  exact h

theorem bind_of_eq {x : Checked α} {f : α → Checked β} (hx : x.Proper)
    (hf : ∀ a, x = .ok a → (f a).Proper) : Checked.Proper (x >>= f) := by
  cases x with
  | ok a => exact hf a rfl
  | error fault =>
    rintro _ ⟨⟩
    exact hx fault rfl

theorem bind {x : Checked α} {f : α → Checked β} (hx : x.Proper) (hf : ∀ a, (f a).Proper) :
    Checked.Proper (x >>= f) := bind_of_eq hx fun a _ => hf a

theorem map {x : Checked α} (f : α → β) (hx : x.Proper) : Checked.Proper (x.map f) := by
  cases x with
  | ok a => exact nofun
  | error fault =>
    rintro _ ⟨⟩
    exact hx fault rfl

theorem foldlM {f : β → α → Checked β} (hf : ∀ b a, (f b a).Proper) (xs : List α) (b : β) :
    (xs.foldlM f b).Proper := by
  induction xs generalizing b with
  | nil => exact pure b
  | cons a rest ih => exact bind (hf b a) ih

end Checked.Proper

namespace Outcome.Proper

theorem pure (a : α) : (Pure.pure a : Outcome ε α).Proper := nofun

theorem fail (e : ε) : (Outcome.fail e : Outcome ε α).Proper := nofun

theorem fault {f : Fault} (h : f.isMisuse = false) :
    (throw (.fault f) : Outcome ε α).Proper := by
  rintro _ ⟨⟩
  exact h

theorem bind {x : Outcome ε α} {f : α → Outcome ε β} (hx : x.Proper) (hf : ∀ a, (f a).Proper) :
    (x >>= f).Proper := by
  cases x with
  | ok a => exact hf a
  | error failure =>
    rintro fault ⟨⟩
    exact hx fault rfl

theorem map {x : Outcome ε α} (f : α → β) (hx : x.Proper) : Outcome.Proper (x.map f) := by
  cases x with
  | ok a => exact nofun
  | error failure =>
    rintro fault ⟨⟩
    exact hx fault rfl

theorem ofChecked {x : Checked α} (hx : x.Proper) :
    Outcome.Proper (x.mapError .fault : Outcome ε α) := by
  cases x with
  | ok a => exact nofun
  | error fault =>
    rintro _ ⟨⟩
    exact hx fault rfl

theorem ofExcept_map (x : Except ε α) (f : ε → δ) :
    Outcome.Proper (x.mapError fun e => Failure.error (f e)) := by
  cases x <;> exact nofun

theorem ofExcept (x : Except ε α) : Outcome.Proper (x.mapError Failure.error) := ofExcept_map x id

theorem mapFailure {x : Outcome ε α} (f : ε → δ) (hx : x.Proper) :
    (x.mapFailure f).Proper := by
  rcases x with (fault | e) | a
  · rintro _ ⟨⟩
    exact hx fault rfl
  · exact nofun
  · exact nofun

theorem mapM {f : α → Outcome ε β} (hf : ∀ a, (f a).Proper) (xs : List α) : (xs.mapM f).Proper := by
  induction xs with
  | nil => exact pure []
  | cons a rest ih =>
    rw [List.mapM_cons]
    exact bind (hf a) fun _ => bind ih fun _ => pure _

theorem foldlM {f : β → α → Outcome ε β} (hf : ∀ b a, (f b a).Proper) (xs : List α) (b : β) :
    (xs.foldlM f b).Proper := by
  induction xs generalizing b with
  | nil => exact pure b
  | cons a rest ih => exact bind (hf b a) ih

end Outcome.Proper

end ShaderBinding
