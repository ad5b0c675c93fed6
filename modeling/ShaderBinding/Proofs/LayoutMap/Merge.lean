import ShaderBinding.Proofs.Model.Classified

/-! # Merging declarations

Merging goes through the declared descriptors one after the other. It succeeds exactly if the
declarations of each key agree, and otherwise it stops at the first one that does not agree with
an earlier one.
-/

namespace ShaderBinding

/-- The descriptors that stages declare, in pipeline order and then bucket by bucket. -/
def declarations (stages : StageMap Reflection) : List (Stage × Resource) :=
  stages.toList.flatMap fun entry => entry.2.descriptors.map (entry.1, ·)

def Reflection.declares (reflection : Reflection) (key : BindingKey) : Bool :=
  reflection.descriptors.any (·.key? = some key)

def Agree (decls : List (Stage × Resource)) : Prop :=
  ∀ a ∈ decls, ∀ b ∈ decls, a.2.key? = b.2.key? → a.2.sameDeclaration b.2 = true

/-- The error of the first declaration that differs from an earlier one of its key. -/
def FirstClash (decls : List (Stage × Resource)) (error : ReflectError) : Prop :=
  ∃ earlier stage resource later key,
    decls = earlier ++ (stage, resource) :: later ∧ Agree earlier ∧
    resource.key? = some key ∧
    (∃ decl ∈ earlier, decl.2.key? = some key ∧ decl.2.sameDeclaration resource = false) ∧
    error = .incompatibleBinding key.set key.binding stage

namespace LayoutMap

theorem merge_eq (stages : StageMap Reflection) :
    merge stages = (declarations stages).foldlM (fun m decl => m.insert decl.2 decl.1) empty := by
  have hfold (entries : List (Stage × Reflection)) (m : LayoutMap) :
      entries.foldlM (fun m entry =>
        entry.2.descriptors.foldlM (fun m resource => m.insert resource entry.1) m) m =
      (entries.flatMap fun entry => entry.2.descriptors.map (entry.1, ·)).foldlM
        (fun m decl => m.insert decl.2 decl.1) m := by
    induction entries generalizing m with
    | nil => rfl
    | cons entry rest ih =>
      rw [List.foldlM_cons, List.flatMap_cons, List.foldlM_append, List.foldlM_map]
      exact congrArg _ (funext ih)
  exact hfold stages.toList empty

def Declared (decl : Stage × Resource) : Prop :=
  (∃ key, decl.2.key? = some key) ∧ decl.2.stages = decl.1.flag

/-- A layout map holds what a list of declarations amounts to. -/
structure Merges (decls : List (Stage × Resource)) (m : LayoutMap) : Prop where
  isSome_iff : ∀ key, (m.get? key).isSome ↔ ∃ decl ∈ decls, decl.2.key? = some key
  same : ∀ key resource, m.get? key = some resource →
    ∀ decl ∈ decls, decl.2.key? = some key → resource.sameDeclaration decl.2 = true
  stages : ∀ key resource, m.get? key = some resource →
    resource.stages =
      Flags.union ((decls.filter (·.2.key? = some key)).map (·.1.flag))

variable {decls : List (Stage × Resource)} {m : LayoutMap} {decl : Stage × Resource}
  {key : BindingKey}

theorem merges_empty : empty.Merges [] where
  isSome_iff := by simp
  same := nofun
  stages := nofun

/-- Declarations that differ from nothing in a map agree with each other. -/
theorem Merges.agree (h : m.Merges decls) (hdecls : ∀ decl ∈ decls, Declared decl) :
    Agree decls := by
  intro a ha b hb hkeys
  obtain ⟨⟨key, hkey⟩, -⟩ := hdecls a ha
  obtain ⟨resource, hget⟩ := Option.isSome_iff_exists.mp ((h.isSome_iff key).mpr ⟨a, ha, hkey⟩)
  have hsame_a := Resource.sameDeclaration_iff.mp (h.same key resource hget a ha hkey)
  have hsame_b := Resource.sameDeclaration_iff.mp (h.same key resource hget b hb (hkeys ▸ hkey))
  exact Resource.sameDeclaration_iff.mpr (hsame_a.symm.trans hsame_b)

theorem Merges.put (h : m.Merges decls) (hkey : decl.2.key? = some key) {resource : Resource}
    (hresource : resource.key? = some key)
    (hsame : ∀ d ∈ decls ++ [decl], d.2.key? = some key → resource.sameDeclaration d.2 = true)
    (hstages : resource.stages =
      Flags.union ((decls.filter (·.2.key? = some key)).map (·.1.flag)) ||| decl.1.flag) :
    (m.put key resource hresource).Merges (decls ++ [decl]) where
  isSome_iff other := by
    rw [get?_put]
    split
    · rename_i heq
      simp [heq, hkey]
    · rename_i hne
      simp [h.isSome_iff, hkey, Ne.symm hne, or_and_right, exists_or]
  same other found hfound d hd hother := by
    rw [get?_put] at hfound
    split at hfound
    · rename_i heq
      cases hfound
      exact hsame d hd (heq ▸ hother)
    · rename_i hne
      rcases List.mem_append.mp hd with hd | hd
      · exact h.same other found hfound d hd hother
      · obtain rfl := List.mem_singleton.mp hd
        exact absurd (Option.some_inj.mp (hother.symm.trans hkey)) hne
  stages other found hfound := by
    rw [get?_put] at hfound
    split at hfound
    · rename_i heq
      cases hfound
      simp [heq, hkey, List.filter_append, Flags.union_concat, hstages]
    · rename_i hne
      rw [h.stages other found hfound]
      simp [List.filter_append, hkey, Ne.symm hne]

/-- One more declaration joins the map, unless it differs from what is there under its key. -/
theorem Merges.insert (h : m.Merges decls) (hdecl : Declared decl) :
    (∃ m', m.insert decl.2 decl.1 = .ok m' ∧ m'.Merges (decls ++ [decl])) ∨
      ∃ key, decl.2.key? = some key ∧
        (∃ d ∈ decls, d.2.key? = some key ∧ d.2.sameDeclaration decl.2 = false) ∧
        m.insert decl.2 decl.1 = .error (.incompatibleBinding key.set key.binding decl.1) := by
  obtain ⟨⟨key, hkey⟩, hstages⟩ := hdecl
  cases hget : m.get? key with
  | none =>
    have hnew : ∀ d ∈ decls, d.2.key? ≠ some key := by
      intro d hd hd'
      have hsome := (h.isSome_iff key).mpr ⟨d, hd, hd'⟩
      simp [hget] at hsome
    refine Or.inl ⟨_, insert_of_get?_eq_none hkey hget decl.1, h.put hkey hkey ?_ ?_⟩
    · intro d hd hd'
      rcases List.mem_append.mp hd with hd | hd
      · exact absurd hd' (hnew d hd)
      · rw [List.mem_singleton.mp hd]
        exact Resource.sameDeclaration_iff.mpr rfl
    · have hfilter : decls.filter (·.2.key? = some key) = [] := by
        simpa using hnew
      rw [hfilter, hstages]
      exact (Flags.union_singleton _).symm.trans (Flags.union_concat [] _)
  | some old =>
    cases hsame : old.sameDeclaration decl.2 with
    | false =>
      refine Or.inr ⟨key, hkey, ?_, insert_of_not_same hkey hget hsame decl.1⟩
      -- The map may hold more stages than any declaration, so the clash is carried back to one.
      obtain ⟨d, hd, hd'⟩ := (h.isSome_iff key).mp (Option.isSome_iff_exists.mpr ⟨old, hget⟩)
      refine ⟨d, hd, hd', ?_⟩
      have hold := Resource.sameDeclaration_iff.mp (h.same key old hget d hd hd')
      rw [← Bool.not_eq_true, Resource.sameDeclaration_iff] at hsame ⊢
      exact hold ▸ hsame
    | true =>
      refine Or.inl ⟨_, insert_of_same hkey hget hsame decl.1, h.put hkey _ ?_ ?_⟩
      · intro d hd hd'
        rw [Resource.sameDeclaration_iff, Resource.withoutStages_addStage,
          ← Resource.sameDeclaration_iff]
        rcases List.mem_append.mp hd with hd | hd
        · exact h.same key old hget d hd hd'
        · rw [List.mem_singleton.mp hd]
          exact hsame
      · rw [Resource.stages_addStage (key?_of_get? hget), h.stages key old hget]

/-- Merging goes on to the end or stops at the first declaration that clashes. -/
theorem Merges.foldlM (h : m.Merges decls) (rest : List (Stage × Resource))
    (hall : ∀ decl ∈ decls ++ rest, Declared decl) :
    (∃ m', rest.foldlM (fun m decl => m.insert decl.2 decl.1) m = .ok m' ∧
        m'.Merges (decls ++ rest)) ∨
      ∃ error, rest.foldlM (fun m decl => m.insert decl.2 decl.1) m = .error error ∧
        FirstClash (decls ++ rest) error := by
  induction rest generalizing decls m with
  | nil => exact Or.inl ⟨m, rfl, by simpa using h⟩
  | cons decl rest ih =>
    rw [List.foldlM_cons]
    rcases h.insert (hall decl (by simp)) with ⟨m', hm', h'⟩ | ⟨key, hkey, hclash, herror⟩
    · rw [hm', List.append_cons]
      exact ih h' (by simpa using hall)
    · rw [herror]
      have hagree := h.agree fun d hd => hall d (List.mem_append_left _ hd)
      exact Or.inr ⟨_, rfl, decls, decl.1, decl.2, rest, key, rfl, hagree, hkey, hclash, rfl⟩

theorem not_agree_of_firstClash {error : ReflectError} (h : FirstClash decls error) :
    ¬ Agree decls := by
  obtain ⟨earlier, stage, resource, later, key, rfl, -, hkey, ⟨d, hd, hd', hclash⟩, -⟩ := h
  intro hagree
  have hsame := hagree d (by simp [hd]) (stage, resource) (by simp) (hd'.trans hkey.symm)
  simp [hclash] at hsame

theorem union_declaring (stages : StageMap Reflection) (key : BindingKey) :
    Flags.union (((declarations stages).filter (·.2.key? = some key)).map (·.1.flag)) =
      Flags.union ((stages.toList.filter (·.2.declares key)).map (·.1.flag)) := by
  apply Flags.union_congr
  intro flags
  simp only [declarations, Reflection.declares, List.mem_map, List.mem_filter, List.mem_flatMap,
    List.any_eq_true, decide_eq_true_eq]
  constructor
  · rintro ⟨_, ⟨⟨entry, hentry, resource, hresource, rfl⟩, hkey⟩, rfl⟩
    exact ⟨entry, ⟨hentry, resource, hresource, hkey⟩, rfl⟩
  · rintro ⟨entry, ⟨hentry, resource, hresource, hkey⟩, rfl⟩
    exact ⟨(entry.1, resource), ⟨⟨entry, hentry, resource, hresource, rfl⟩, hkey⟩, rfl⟩

theorem declared_of_classified {stages : StageMap Reflection} (h : stages.Classified) :
    ∀ decl ∈ declarations stages, Declared decl := by
  intro decl hmem
  obtain ⟨entry, hentry, hdecl⟩ := List.mem_flatMap.mp hmem
  obtain ⟨resource, hresource, rfl⟩ := List.mem_map.mp hdecl
  obtain ⟨interface, hstage, hclassify⟩ := h entry.1 entry.2 (StageMap.mem_toList.mp hentry)
  rw [← hstage]
  exact Interface.descriptor_of_classify hclassify hresource

/-- A layout map is the merge of what stages declare. -/
structure IsMerge (stages : StageMap Reflection) (layout : LayoutMap) : Prop where
  keys : ∀ key, (∃ resource, (key, resource) ∈ layout.entries) ↔
    ∃ decl ∈ declarations stages, decl.2.key? = some key
  same : ∀ entry ∈ layout.entries, ∀ decl ∈ declarations stages,
    decl.2.key? = some entry.1 → entry.2.sameDeclaration decl.2 = true
  flags : ∀ entry ∈ layout.entries, entry.2.stages =
    Flags.union ((stages.toList.filter (·.2.declares entry.1)).map (·.1.flag))

theorem Merges.isMerge {stages : StageMap Reflection} (h : m.Merges (declarations stages)) :
    m.IsMerge stages where
  keys key := by
    simp only [← h.isSome_iff, Option.isSome_iff_exists, get?_eq_some_iff]
  same entry hentry := h.same entry.1 entry.2 (get?_eq_some_iff.mpr hentry)
  flags entry hentry := by
    rw [h.stages entry.1 entry.2 (get?_eq_some_iff.mpr hentry), union_declaring]

/--
Merging succeeds exactly if all declarations of a key agree. The map then has the declared keys,
under each the resource as declared, for the stages that declare it. A failure names the first
declaration that differs from an earlier one of its key.
-/
theorem merge_exact {stages : StageMap Reflection} (h : stages.Classified) :
    ((∃ layout, merge stages = .ok layout) ↔ Agree (declarations stages)) ∧
      (∀ layout, merge stages = .ok layout → layout.IsMerge stages) ∧
      ∀ error, merge stages = .error error → FirstClash (declarations stages) error := by
  have hdeclared := declared_of_classified h
  rw [merge_eq]
  rcases merges_empty.foldlM (declarations stages) hdeclared with
    ⟨layout, hlayout, hmerges⟩ | ⟨error, herror, hclash⟩
  · rw [hlayout]
    refine ⟨⟨fun _ => hmerges.agree hdeclared, fun _ => ⟨layout, rfl⟩⟩, ?_, nofun⟩
    rintro _ ⟨⟩
    exact hmerges.isMerge
  · rw [herror]
    refine ⟨⟨nofun, fun hagree => ?_⟩, nofun, ?_⟩
    · exact absurd hagree (not_agree_of_firstClash hclash)
    · rintro _ ⟨⟩
      exact hclash

/-- A stage in the middle that declares another size than the stages around it. -/
theorem merge_exact_between :
    let block (stage : Stage) (size : Nat) : Interface :=
      { stage, bindings := [⟨"globals", 0, 0, .uniformBuffer,
          { base := .struct, members := [{ vectorSize := 4 }], size }⟩] }
    ∃ stages, Model.classifyAll .empty
        [block .fragment 16, block .geometry 32, block .vertex 16] = .ok stages ∧
      stages.Classified ∧ ¬ Agree (declarations stages) ∧
      FirstClash (declarations stages) (.incompatibleBinding 0 0 .geometry) := by
  intro block
  have hresult : (Model.classifyAll .empty
      [block .fragment 16, block .geometry 32, block .vertex 16]).map (fun stages => merge stages) =
      .ok (.error (.incompatibleBinding 0 0 .geometry)) := by decide +kernel
  obtain ⟨stages, hstages, hmerge⟩ := Except.map_eq_ok.mp hresult
  have hclassified : stages.Classified := Model.classified_of_classifyAll hstages
  obtain ⟨hiff, -, herror⟩ := merge_exact hclassified
  refine ⟨stages, hstages, hclassified, fun hagree => ?_, herror _ hmerge⟩
  obtain ⟨layout, hlayout⟩ := hiff.mpr hagree
  cases hmerge.symm.trans hlayout

end LayoutMap

end ShaderBinding
