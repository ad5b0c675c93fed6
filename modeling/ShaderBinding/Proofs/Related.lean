import Mathlib.Algebra.Ring.Nat
import Mathlib.Data.List.Forall2

/-! # Related lists

What relates two lists element by element also relates their members, and a list to what a
function that fails on none of its members leaves of it.
-/

namespace ShaderBinding

variable {α β γ : Type} {R : α → β → Prop} {xs : List α} {ys : List β}

theorem exists_right_of_forall₂ {x : α} (h : List.Forall₂ R xs ys) (hx : x ∈ xs) :
    ∃ y ∈ ys, R x y := by
  induction h with
  | nil => cases hx
  | cons hR _ ih =>
    rcases List.mem_cons.mp hx with rfl | hx
    · exact ⟨_, List.mem_cons_self, hR⟩
    · obtain ⟨y, hy, hR⟩ := ih hx
      exact ⟨y, List.mem_cons_of_mem _ hy, hR⟩

theorem exists_left_of_forall₂ {y : β} (h : List.Forall₂ R xs ys) (hy : y ∈ ys) :
    ∃ x ∈ xs, R x y := exists_right_of_forall₂ (R := flip R) (List.Forall₂.flip h) hy

theorem exists_getLast?_of_forall₂ {x : α} (h : List.Forall₂ R xs ys)
    (hx : xs.getLast? = some x) : ∃ y, ys.getLast? = some y ∧ R x y := by
  have hreverse := List.rel_reverse h
  simp only [List.getLast?_eq_head?_reverse] at hx ⊢
  generalize xs.reverse = first at hreverse hx
  generalize ys.reverse = second at hreverse
  cases hreverse with
  | nil => cases hx
  | cons hR _ =>
    cases hx
    exact ⟨_, rfl, hR⟩

theorem forall₂_of_filterMap {f : α → Option β} {S : β → γ → Prop} {T : α → γ → Prop}
    {zs : List γ} (hsome : ∀ x ∈ xs, (f x).isSome) (h : List.Forall₂ S (xs.filterMap f) zs)
    (hT : ∀ x y z, f x = some y → S y z → T x z) : List.Forall₂ T xs zs := by
  induction xs generalizing zs with
  | nil => exact List.forall₂_nil_left_iff.mpr (List.forall₂_nil_left_iff.mp h)
  | cons x rest ih =>
    obtain ⟨hx, hrest⟩ := List.forall_mem_cons.mp hsome
    obtain ⟨y, hy⟩ := Option.isSome_iff_exists.mp hx
    rw [List.filterMap_cons_some hy] at h
    obtain ⟨z, others, hz, hothers, rfl⟩ := List.forall₂_cons_left_iff.mp h
    exact .cons (hT x y z hy hz) (ih hrest hothers)

theorem forall₂_iff_eq_map {f : α → β} (hR : ∀ x y, R x y ↔ y = f x) :
    List.Forall₂ R xs ys ↔ ys = xs.map f := by
  induction xs generalizing ys with
  | nil => simp
  | cons x rest ih =>
    simp only [List.forall₂_cons_left_iff, List.map_cons, hR, ih]
    constructor
    · rintro ⟨_, _, rfl, rfl, rfl⟩
      rfl
    · rintro rfl
      exact ⟨_, _, rfl, rfl, rfl⟩

theorem map_eq_map_of_forall₂ {f : α → γ} {g : β → γ} (h : List.Forall₂ R xs ys)
    (hfg : ∀ x y, R x y → f x = g y) : xs.map f = ys.map g := by
  induction h with
  | nil => rfl
  | cons hR _ ih => rw [List.map_cons, List.map_cons, hfg _ _ hR, ih]

end ShaderBinding
