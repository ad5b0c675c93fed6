import ShaderBinding.Proofs.Model.Classified

/-! # Interfaces in any order

A model is made of interfaces that can all be classified, each for a stage of its own. Neither of
this, nor what is then held for a stage, depends on the order in which the interfaces come, even
though classifying stops at the first interface that is not accepted.
-/

namespace ShaderBinding.Model

variable {interfaces others : List Interface} {stages : StageMap Reflection}

structure Collects (interfaces : List Interface) (stages : StageMap Reflection) : Prop where
  distinct : (interfaces.map (·.stage)).Nodup
  classified : ∀ interface ∈ interfaces, ∃ reflection, interface.classify = .ok reflection
  get? : ∀ stage reflection, stages.get? stage = some reflection ↔
    ∃ interface ∈ interfaces, interface.stage = stage ∧ interface.classify = .ok reflection

theorem exists_classifyAll :
    (∃ result, classifyAll stages interfaces = .ok result) ↔
      (interfaces.map (·.stage)).Nodup ∧ ∀ interface ∈ interfaces,
        stages.get? interface.stage = none ∧ ∃ reflection, interface.classify = .ok reflection := by
  induction interfaces generalizing stages with
  | nil => exact ⟨fun _ => ⟨.nil, by simp⟩, fun _ => ⟨stages, rfl⟩⟩
  | cons interface rest ih =>
    rw [List.map_cons, List.nodup_cons, List.forall_mem_cons]
    constructor
    · rintro ⟨result, h⟩
      obtain ⟨reflection, hreflection, h⟩ := Except.bind_eq_ok.mp h
      split at h
      · cases h
      rename_i hfree
      obtain ⟨hdistinct, hrest⟩ := ih.mp ⟨result, h⟩
      -- A later interface of the same stage would find it taken.
      refine ⟨⟨fun hmem => ?_, hdistinct⟩, ⟨?_, reflection, hreflection⟩, fun other hother => ?_⟩
      · obtain ⟨other, hother, hstage⟩ := List.mem_map.mp hmem
        have htaken := (hrest other hother).1
        rw [StageMap.get?_insert, if_pos hstage] at htaken
        cases htaken
      · simpa [StageMap.contains] using hfree
      · obtain ⟨hget, hother⟩ := hrest other hother
        rw [StageMap.get?_insert] at hget
        split at hget
        · cases hget
        · exact ⟨hget, hother⟩
    · rintro ⟨⟨hnew, hdistinct⟩, ⟨hfree, reflection, hreflection⟩, hrest⟩
      have hothers : ∀ other ∈ rest,
          (stages.insert interface.stage reflection).get? other.stage = none ∧
            ∃ reflection, other.classify = .ok reflection := by
        intro other hother
        have hne : other.stage ≠ interface.stage := fun hstage =>
          hnew (List.mem_map.mpr ⟨other, hother, hstage⟩)
        rw [StageMap.get?_insert, if_neg hne]
        exact hrest other hother
      obtain ⟨result, hresult⟩ := ih.mpr ⟨hdistinct, hothers⟩
      refine ⟨result, Except.bind_eq_ok.mpr ⟨reflection, hreflection, ?_⟩⟩
      rwa [if_neg (by simp [StageMap.contains, hfree])]

theorem classifyAll_eq_ok_iff :
    classifyAll .empty interfaces = .ok stages ↔ Collects interfaces stages := by
  have hget {result : StageMap Reflection} (h : classifyAll .empty interfaces = .ok result)
      (stage : Stage) (reflection : Reflection) : result.get? stage = some reflection ↔
        ∃ interface ∈ interfaces, interface.stage = stage ∧
          interface.classify = .ok reflection := by
    refine (get?_of_classifyAll h stage).trans ?_
    simp
  constructor
  · intro h
    obtain ⟨hdistinct, hclassified⟩ := exists_classifyAll.mp ⟨stages, h⟩
    exact ⟨hdistinct, fun interface hmem => (hclassified interface hmem).2, hget h⟩
  · rintro ⟨hdistinct, hclassified, hstages⟩
    obtain ⟨result, hresult⟩ := exists_classifyAll.mpr ⟨hdistinct, fun interface hmem =>
      ⟨StageMap.get?_empty _, hclassified interface hmem⟩⟩
    rw [hresult, StageMap.eq_of_get?_eq fun stage => Option.ext fun reflection =>
      (hget hresult stage reflection).trans (hstages stage reflection).symm]

theorem Collects.perm (h : interfaces.Perm others) (hc : Collects interfaces stages) :
    Collects others stages where
  distinct := (h.map _).nodup_iff.mp hc.distinct
  classified interface hmem := hc.classified interface (h.mem_iff.mpr hmem)
  get? stage reflection := by
    simpa only [h.mem_iff] using hc.get? stage reflection

theorem ofInterfaces_eq_ok_of_perm (h : interfaces.Perm others) {model : Model}
    (hmodel : ofInterfaces interfaces = .ok model) : ofInterfaces others = .ok model := by
  obtain ⟨hstages, hlayout⟩ := ofInterfaces_eq_ok.mp hmodel
  have hcollects := (classifyAll_eq_ok_iff.mp hstages).perm h
  exact ofInterfaces_eq_ok.mpr ⟨classifyAll_eq_ok_iff.mpr hcollects, hlayout⟩

theorem distinct_of_ofInterfaces {model : Model} (h : ofInterfaces interfaces = .ok model) :
    (interfaces.map (·.stage)).Nodup :=
  (classifyAll_eq_ok_iff.mp (ofInterfaces_eq_ok.mp h).1).distinct

/--
In whatever order interfaces come, the same model is made of them or none is. None is made if two
interfaces are for one stage: that ends in an error, or before it in a fault of a size.
-/
theorem ofInterfaces_perm (h : interfaces.Perm others) :
    (∀ model, ofInterfaces interfaces = .ok model ↔ ofInterfaces others = .ok model) ∧
      (¬ (interfaces.map (·.stage)).Nodup →
        (∃ e, ofInterfaces others = .fail e) ∨
          ∃ fault, ofInterfaces others = .error (.fault fault)) := by
  refine ⟨fun model => ?_, fun hrepeated => ?_⟩
  · exact ⟨ofInterfaces_eq_ok_of_perm h, ofInterfaces_eq_ok_of_perm h.symm⟩
  · rcases hresult : ofInterfaces others with (fault | e) | model
    · exact Or.inr ⟨fault, rfl⟩
    · exact Or.inl ⟨e, rfl⟩
    · exact absurd ((h.map _).nodup_iff.mpr (distinct_of_ofInterfaces hresult)) hrepeated

/-- A fragment shader that comes before the vertex shader it shares a buffer with. -/
theorem ofInterfaces_perm_shared :
    let block (stage : Stage) : Interface :=
      { stage, bindings := [⟨"globals", 0, 0, .uniformBuffer,
          { base := .struct, members := [{ vectorSize := 4 }], size := 16 }⟩] }
    ∃ model, ofInterfaces [block .fragment, block .vertex] = .ok model ∧
      ofInterfaces [block .vertex, block .fragment] = .ok model ∧
      model.layout.entries.map (fun entry => (entry.1, entry.2.stages)) =
        [(⟨0, 0⟩, Stage.vertex.flag ||| Stage.fragment.flag)] ∧
      ∃ e, ofInterfaces [block .vertex, block .fragment, block .vertex] = .fail e := by
  intro block
  have hresult : (ofInterfaces [block .fragment, block .vertex]).map (fun model =>
      model.layout.entries.map fun entry => (entry.1, entry.2.stages)) =
        .ok [(⟨0, 0⟩, Stage.vertex.flag ||| Stage.fragment.flag)] := by decide +kernel
  obtain ⟨model, hmodel, hentries⟩ := Except.map_eq_ok.mp hresult
  have hswap := (ofInterfaces_perm (.swap (block .vertex) (block .fragment) [])).1 model
  have hrepeated : [block .vertex, block .vertex, block .fragment].Perm
      [block .vertex, block .fragment, block .vertex] := .cons _ (.swap _ _ [])
  refine ⟨model, hmodel, hswap.mp hmodel, hentries, ?_⟩
  refine ((ofInterfaces_perm hrepeated).2 (by decide)).resolve_right ?_
  rintro ⟨fault, hfault⟩
  have hrefused : (ofInterfaces [block .vertex, block .fragment, block .vertex]).map (fun _ => ()) =
      .error (.error (.general "vertex shader declared twice")) := by decide +kernel
  rw [hfault] at hrefused
  cases hrefused

end ShaderBinding.Model
