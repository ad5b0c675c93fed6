import ShaderBinding.LayoutMap

/-! # Declaring descriptors

A layout map grows by one declaration after the other, and a declaration that is refused leaves
it as it was. No entry goes and no stage leaves an entry. An entry names every stage that declared
it, but for the stage that came first, if its resource did not name it: the first declaration of a
key is stored as it is, and only a later one adds its stage.
-/

namespace ShaderBinding.LayoutMap

def declare (m : LayoutMap) (decl : Stage × Resource) : LayoutMap :=
  match m.insert decl.2 decl.1 with
  | .ok m' => m'
  | .error _ => m

def declareAll (decls : List (Stage × Resource)) : LayoutMap := decls.foldl declare empty

variable {m m' m'' : LayoutMap} {resource : Resource} {stage : Stage} {key : BindingKey}

inductive Enters (stage : Stage) (resource : Resource) : Option Resource → Resource → Prop where

  | first : Enters stage resource none resource

  | shared {old : Resource} : old.sameDeclaration resource →
      Enters stage resource (some old) (old.addStage stage)

/-- An accepted declaration changes the entry of its key and no other. -/
theorem insert_eq_ok (h : m.insert resource stage = .ok m') :
    ∃ key entry, resource.key? = some key ∧ Enters stage resource (m.get? key) entry ∧
      ∀ other, m'.get? other = if other = key then some entry else m.get? other := by
  cases hkey : resource.key? with
  | none =>
    unfold insert at h
    split at h
    · cases h
    · simp_all
  | some key =>
    cases hget : m.get? key with
    | none =>
      rw [insert_of_get?_eq_none hkey hget] at h
      cases h
      exact ⟨key, resource, rfl, hget ▸ .first, get?_put m hkey⟩
    | some old =>
      cases hsame : old.sameDeclaration resource with
      | false =>
        rw [insert_of_not_same hkey hget hsame] at h
        cases h
      | true =>
        rw [insert_of_same hkey hget hsame] at h
        cases h
        exact ⟨key, old.addStage stage, rfl, hget ▸ .shared hsame, get?_put m _⟩

/-- Entries stay what they are, up to stages that join them. -/
structure Grows (m m' : LayoutMap) : Prop where
  kept : ∀ key old, m.get? key = some old →
    ∃ new, m'.get? key = some new ∧ new.withoutStages = old.withoutStages ∧
      new.stages.contains old.stages

theorem Grows.refl (m : LayoutMap) : m.Grows m where
  kept _ old h := ⟨old, h, rfl, Flags.contains_self _⟩

theorem Grows.trans (h : m.Grows m') (h' : m'.Grows m'') : m.Grows m'' where
  kept key old hold := by
    obtain ⟨new, hnew, hsame, hstages⟩ := h.kept key old hold
    obtain ⟨newer, hnewer, hsame', hstages'⟩ := h'.kept key new hnew
    exact ⟨newer, hnewer, hsame'.trans hsame, Flags.contains_trans hstages' hstages⟩

theorem grows_insert (h : m.insert resource stage = .ok m') : m.Grows m' where
  kept other old hold := by
    obtain ⟨key, entry, -, henters, hget⟩ := insert_eq_ok h
    by_cases hother : other = key
    · subst hother
      rw [hold] at henters
      cases henters with
      | shared hsame =>
        refine ⟨_, (hget other).trans (if_pos rfl), Resource.withoutStages_addStage old stage, ?_⟩
        rw [Resource.stages_addStage (key?_of_get? hold)]
        exact Flags.contains_or_left (Flags.contains_self _) _
    · exact ⟨old, ((hget other).trans (if_neg hother)).trans hold, rfl, Flags.contains_self _⟩

theorem declare_of_ok {decl : Stage × Resource} (h : m.insert decl.2 decl.1 = .ok m') :
    m.declare decl = m' := by
  rw [declare, h]

theorem declare_of_error {decl : Stage × Resource} {error : ReflectError}
    (h : m.insert decl.2 decl.1 = .error error) : m.declare decl = m := by
  rw [declare, h]

theorem grows_declare (m : LayoutMap) (decl : Stage × Resource) : m.Grows (m.declare decl) := by
  cases h : m.insert decl.2 decl.1 with
  | ok m' =>
    rw [declare_of_ok h]
    exact grows_insert h
  | error error =>
    rw [declare_of_error h]
    exact .refl m

theorem grows_foldl (decls : List (Stage × Resource)) (m : LayoutMap) :
    m.Grows (decls.foldl declare m) := by
  induction decls generalizing m with
  | nil => exact .refl m
  | cons decl rest ih => exact (grows_declare m decl).trans (ih _)

theorem declareAll_concat (decls : List (Stage × Resource)) (decl : Stage × Resource) :
    declareAll (decls ++ [decl]) = (declareAll decls).declare decl := by
  rw [declareAll, List.foldl_append]
  rfl

theorem grows_declareAll (decls later : List (Stage × Resource)) :
    (declareAll decls).Grows (declareAll (decls ++ later)) := by
  rw [declareAll, declareAll, List.foldl_append]
  exact grows_foldl later _

/-- The stage joins the entry, unless it comes first and its resource does not name it. -/
theorem contains_flag_iff (h : m.insert resource stage = .ok m') :
    ∃ key entry, resource.key? = some key ∧ m'.get? key = some entry ∧
      (entry.stages.contains stage.flag ↔
        (m.get? key).isSome ∨ resource.stages.contains stage.flag) := by
  obtain ⟨key, entry, hkey, henters, hget⟩ := insert_eq_ok h
  refine ⟨key, entry, hkey, (hget key).trans (if_pos rfl), ?_⟩
  generalize hold : m.get? key = before at henters
  cases henters with
  | first => simp
  | shared hsame =>
    rw [Resource.stages_addStage (key?_of_get? hold)]
    exact iff_of_true (Flags.contains_or_right (Flags.contains_self _) _) (Or.inl rfl)

/--
Whatever was declared before, a refused declaration changes nothing, and no declaration moves an
entry away from its key, removes one, or takes a stage from one. An accepted declaration has its
stage in the entry of its key exactly if the key was declared before or the resource names the
stage itself, and then the stage stays there whatever is declared later.
-/
theorem declareAll_records (earlier later : List (Stage × Resource)) (stage : Stage)
    (resource : Resource) :
    let before := declareAll earlier
    let after := declareAll (earlier ++ [(stage, resource)])
    (∀ error, before.insert resource stage = .error error → after = before) ∧
    (∀ key entry, (key, entry) ∈ after.entries → entry.key? = some key) ∧
    before.Grows after ∧
    ∀ m, before.insert resource stage = .ok m → m = after ∧
      ∃ key entry, resource.key? = some key ∧ after.get? key = some entry ∧
        (entry.stages.contains stage.flag ↔
          (before.get? key).isSome ∨ resource.stages.contains stage.flag) ∧
        (entry.stages.contains stage.flag →
          ∃ last, (declareAll (earlier ++ (stage, resource) :: later)).get? key = some last ∧
            last.stages.contains stage.flag) := by
  intro before after
  have hafter : after = before.declare (stage, resource) := declareAll_concat earlier _
  refine ⟨fun error h => hafter.trans (declare_of_error h), fun key entry => after.keyed _,
    grows_declareAll earlier _, fun m h => ?_⟩
  obtain rfl : m = after := (declare_of_ok h).symm.trans hafter.symm
  obtain ⟨key, entry, hkey, hget, hflag⟩ := contains_flag_iff h
  refine ⟨rfl, key, entry, hkey, hget, hflag, fun hstage => ?_⟩
  have hgrows := grows_declareAll (earlier ++ [(stage, resource)]) later
  rw [← List.append_cons] at hgrows
  obtain ⟨last, hlast, -, hstages⟩ := hgrows.kept key entry hget
  exact ⟨last, hlast, Flags.contains_trans hstages hstage⟩

/-- A resource that the fragment stage declares after the vertex stage gets both stages, although
it names neither; the vertex stage has named itself. -/
theorem declareAll_records_second :
    let shared (stages : StageFlags) : Resource :=
      ⟨"Globals", .descriptor 0 1 stages .uniformBuffer, .vector .float 4 16⟩
    let first := (Stage.vertex, shared Stage.vertex.flag)
    let later := [(Stage.geometry, shared .empty)]
    let m := declareAll ([first] ++ (.fragment, shared .empty) :: later)
    ∃ entry, m.get? ⟨0, 1⟩ = some entry ∧ entry.stages.contains Stage.fragment.flag := by
  intro shared first later m
  obtain ⟨-, -, -, hrecords⟩ := declareAll_records [first] later .fragment (shared .empty)
  obtain ⟨-, key, entry, hkey, -, hflag, hlast⟩ := hrecords _ rfl
  cases hkey
  exact hlast (hflag.mpr (Or.inl rfl))

/-- The first stage that declares a resource which does not name it is not recorded. -/
theorem declareAll_drops_first :
    ¬ ∀ (earlier : List (Stage × Resource)) (stage : Stage) (resource : Resource) (m : LayoutMap),
      (declareAll earlier).insert resource stage = .ok m →
        ∃ key entry, resource.key? = some key ∧ m.get? key = some entry ∧
          entry.stages.contains stage.flag := by
  intro hall
  obtain ⟨key, entry, hkey, hget, hflag⟩ := hall [] .vertex
    ⟨"Globals", .descriptor 0 1 .empty .uniformBuffer, .vector .float 4 16⟩ _ rfl
  cases hkey
  cases hget
  exact absurd hflag (by decide)

end ShaderBinding.LayoutMap
