import ShaderBinding.Type.Matching

/-! # Types up to their layout

Matching compares what is left of two types without their layout. It is therefore an equivalence,
and what the members of a struct are called and where they lie makes no difference to it.
-/

namespace ShaderBinding

namespace ShaderType

mutual

/-- A type differs from another one at most in the names and offsets of members, at any depth. -/
inductive Relabels : ShaderType → ShaderType → Prop where

  | refl (type : ShaderType) : Relabels type type

  | array {dims : List ArrayDim} {element element' : ShaderType} {stride size : Nat} :
      Relabels element element' →
      Relabels (.array dims element stride size) (.array dims element' stride size)

  | struct {fields fields' : Fields} {size : Nat} : RelabelsFields fields fields' →
      Relabels (.struct fields size) (.struct fields' size)

inductive RelabelsFields : Fields → Fields → Prop where

  | nil : RelabelsFields .nil .nil

  | cons {name name' : String} {offset offset' : Nat} {type type' : ShaderType}
      {rest rest' : Fields} : Relabels type type' → RelabelsFields rest rest' →
      RelabelsFields (.cons name offset type rest) (.cons name' offset' type' rest')

end

mutual

theorem shape_of_relabels : ∀ {a b : ShaderType}, a.Relabels b → a.shape = b.shape
  | _, _, .refl _ => rfl
  | _, _, .array h => by rw [shape, shape, shape_of_relabels h]
  | _, _, .struct h => by rw [shape, shape, shape_of_relabelsFields h]

theorem shape_of_relabelsFields : ∀ {a b : Fields}, RelabelsFields a b → a.shape = b.shape
  | _, _, .nil => rfl
  | _, _, .cons htype hrest => by
    rw [Fields.shape, Fields.shape, shape_of_relabels htype, shape_of_relabelsFields hrest]

end

variable {a b c a' b' : ShaderType}

theorem feeds_refl (a : ShaderType) : a.feeds a = true := (feeds_iff a a).mpr rfl

theorem feeds_symm (h : a.feeds b = true) : b.feeds a = true :=
  (feeds_iff b a).mpr ((feeds_iff a b).mp h).symm

theorem feeds_trans (h : a.feeds b = true) (h' : b.feeds c = true) : a.feeds c = true :=
  (feeds_iff a c).mpr (((feeds_iff a b).mp h).trans ((feeds_iff b c).mp h'))

theorem feeds_relabel (ha : a.Relabels a') (hb : b.Relabels b') : a.feeds b = a'.feeds b' := by
  rw [Bool.eq_iff_iff, feeds_iff, feeds_iff, shape_of_relabels ha, shape_of_relabels hb]

/--
A type matches another one exactly if the two are equal without their layout: matching is an
equivalence that no renaming or moving of members affects.
-/
theorem feeds_up_to_layout :
    (∀ a b : ShaderType, a.feeds b = true ↔ a.shape = b.shape) ∧
      (Equivalence fun a b : ShaderType => a.feeds b = true) ∧
      ∀ a a' b b' : ShaderType, a.Relabels a' → b.Relabels b' → a.feeds b = a'.feeds b' :=
  ⟨feeds_iff, ⟨feeds_refl, feeds_symm, feeds_trans⟩, fun _ _ _ _ => feeds_relabel⟩

/-- Blocks of lights match whatever their members are called. One more member is one too many. -/
theorem feeds_up_to_layout_renamed :
    let light (name : String) (offset : Nat) (rest : Fields) : ShaderType :=
      .array [⟨4, false⟩] (.struct (.cons name offset (.vector .float 4 16) rest) 32) 32 128
    let tail : Fields := .cons "weight" 16 (.vector .float 1 4) .nil
    (light "color" 0 tail).Relabels (light "tint" 16 tail) ∧
      (light "tint" 16 tail).feeds (light "color" 0 tail) = true ∧
      (light "tint" 16 tail).feeds (light "color" 0 .nil) = false := by
  intro light tail
  have hrelabels : (light "color" 0 tail).Relabels (light "tint" 16 tail) :=
    .array (.struct (.cons (.refl _) (.cons (.refl _) .nil)))
  obtain ⟨-, hequivalence, hrelabel⟩ := feeds_up_to_layout
  refine ⟨hrelabels, ?_, ?_⟩
  · rw [← hrelabel _ _ _ _ hrelabels (.refl _)]
    exact hequivalence.refl _
  · rw [← hrelabel _ _ _ _ hrelabels (.refl _)]
    rfl

end ShaderType

end ShaderBinding
