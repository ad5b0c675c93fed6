import Mathlib.Data.Fin.Tuple.Take
import Mathlib.Data.List.Nodup
import Mathlib.Data.List.Perm.Subperm
import Mathlib.Data.List.Permutation
import ShaderBinding.Proofs.Link.Rules
import ShaderBinding.Proofs.Model.Classified

/-! # What feeds an input

A link check goes through the outputs of a stage and only counts the inputs of the next one. That
no input is left unfed follows by counting, as long as no two outputs share a location.
-/

namespace ShaderBinding

theorem mem_zip_tail {α : Type} (key : α → Nat) {xs : List α}
    (hsorted : xs.Pairwise fun a b => key a < key b) {a b : α} (ha : a ∈ xs) (hb : b ∈ xs)
    (hlt : key a < key b) (hnone : ∀ c ∈ xs, key a < key c → key b ≤ key c) :
    (a, b) ∈ xs.zip xs.tail := by
  induction xs with
  | nil => cases ha
  | cons x rest ih =>
    obtain ⟨hx, hrest⟩ := List.pairwise_cons.mp hsorted
    have hb' : b ∈ rest := by
      rcases List.mem_cons.mp hb with rfl | hb
      · rcases List.mem_cons.mp ha with rfl | ha
        · omega
        · have := hx a ha
          omega
      · exact hb
    cases rest with
    | nil => cases hb'
    | cons y rest =>
      simp only [List.tail_cons, List.zip_cons_cons, List.mem_cons]
      rcases List.mem_cons.mp ha with rfl | ha
      · have hy := hnone y (by simp) (hx y (by simp))
        rcases List.mem_cons.mp hb' with rfl | hb'
        · exact Or.inl rfl
        · have := (List.pairwise_cons.mp hrest).1 b hb'
          omega
      · exact Or.inr (ih hrest ha hb' fun c hc => hnone c (List.mem_cons_of_mem _ hc))

theorem StageMap.mem_pairs {α : Type} {m : StageMap α} {first second : Stage} {a b : α}
    (ha : m.get? first = some a) (hb : m.get? second = some b)
    (hlt : first.index < second.index)
    (hnone : ∀ stage, first.index < stage.index → stage.index < second.index →
      m.get? stage = none) : (a, b) ∈ m.pairs := by
  have hmem : ((first, a), (second, b)) ∈ m.toList.zip m.toList.tail := by
    apply mem_zip_tail (fun entry => entry.1.index) m.pairwise_toList
      (mem_toList.mpr ha) (mem_toList.mpr hb) hlt
    intro entry hentry hfirst
    by_contra hsecond
    have habsent := hnone entry.1 hfirst (Nat.not_le.mp hsecond)
    cases habsent.symm.trans (mem_toList.mp hentry)
  rw [pairs, values, ← List.map_tail, List.zip_map]
  exact List.mem_map_of_mem hmem

namespace Reflection

variable {source target : Reflection}

structure Fits (source target : Reflection) : Prop where
  count : source.outputs.length = target.inputs.length
  taken : ∀ output ∈ source.outputs, ∃ input : Variable,
    input.LastAt target.inputs output.location ∧ output.type.feeds input.type = true

theorem fits_of_report (h : source.PairReport target []) : source.Fits target := by
  generalize hnil : ([] : List LinkError) = errors at h
  cases h with
  | counts => cases hnil
  | outputs hcount hreports =>
    refine ⟨hcount, fun output houtput => ?_⟩
    obtain ⟨report, hmem, hreport⟩ := exists_right_of_forall₂ hreports houtput
    obtain rfl : report = [] := List.flatten_eq_nil_iff.mp hnil.symm report hmem
    cases hreport with
    | matched hlast hfeeds => exact ⟨_, hlast, hfeeds⟩

def Feeds (source : Reflection) (input : Variable) : Prop :=
  ∃ output ∈ source.outputs, output.location = input.location ∧
    output.type.feeds input.type = true

/-- An input is fed exactly if it could be the last one at a location with an output. -/
theorem Fits.feeds_iff (h : source.Fits target) {input last : Variable}
    (hlast : last.LastAt target.inputs input.location) :
    source.Feeds input ↔ (∃ output ∈ source.outputs, output.location = input.location) ∧
      last.type.feeds input.type = true := by
  have htaken {output : Variable} (houtput : output ∈ source.outputs)
      (hlocation : output.location = input.location) : output.type.shape = last.type.shape := by
    obtain ⟨other, hother, hfeeds⟩ := h.taken output houtput
    rw [hlocation] at hother
    rw [hlast.unique hother]
    exact (ShaderType.feeds_iff _ _).mp hfeeds
  unfold Feeds
  simp only [ShaderType.feeds_iff]
  constructor
  · rintro ⟨output, houtput, hlocation, hfeeds⟩
    exact ⟨⟨output, houtput, hlocation⟩, (htaken houtput hlocation).symm.trans hfeeds⟩
  · rintro ⟨⟨output, houtput, hlocation⟩, hsame⟩
    exact ⟨output, houtput, hlocation, (htaken houtput hlocation).trans hsame⟩

/-- Outputs at locations of their own take up all the inputs, each at a location of its own. -/
theorem Fits.perm_locations (h : source.Fits target)
    (hnodup : (source.outputs.map (·.location)).Nodup) :
    (source.outputs.map (·.location)).Perm (target.inputs.map (·.location)) := by
  have hsubset : source.outputs.map (·.location) ⊆ target.inputs.map (·.location) := by
    intro location hlocation
    obtain ⟨output, houtput, rfl⟩ := List.mem_map.mp hlocation
    obtain ⟨input, hlast, -⟩ := h.taken output houtput
    exact List.mem_map.mpr ⟨input, hlast.mem, hlast.location_eq⟩
  -- The counts agree, so nothing is left beside the locations that the outputs take up.
  apply (List.subperm_of_subset hnodup hsubset).perm_of_length_le
  simp [h.count]

theorem Fits.feeds (h : source.Fits target) (hnodup : (source.outputs.map (·.location)).Nodup)
    {input : Variable} (hinput : input ∈ target.inputs) : source.Feeds input := by
  have hperm := h.perm_locations hnodup
  obtain ⟨output, houtput, hlocation⟩ :=
    List.mem_map.mp (hperm.mem_iff.mpr (List.mem_map_of_mem hinput))
  obtain ⟨last, hlast, -⟩ := h.taken output houtput
  rw [hlocation] at hlast
  have hsame : last = input :=
    List.inj_on_of_nodup_map (hperm.nodup_iff.mp hnodup) hlast.mem hinput hlast.location_eq
  rw [h.feeds_iff hlast, hsame, ShaderType.feeds_iff]
  exact ⟨⟨output, houtput, hlocation⟩, rfl⟩

end Reflection

section

variable {stages : StageMap Reflection} {limits : Limits}

theorem link_eq_ok (h : link stages limits = .ok ()) :
    ∃ vertex, stages.get? .vertex = some vertex ∧ pushConstantTotal stages < 2 ^ 32 ∧
      LinkReport stages limits vertex [] := by
  cases hvertex : stages.get? .vertex with
  | none =>
    rw [link_of_no_vertex hvertex] at h
    cases h
  | some vertex =>
    rw [link_eq hvertex] at h
    split at h
    · rename_i hsize
      split at h
      · rename_i hnil
        exact ⟨vertex, rfl, hsize, linkReport_iff.mpr hnil.symm⟩
      · cases h
    · cases h

theorem fits_of_link (h : link stages limits = .ok ()) {source target : Reflection}
    (hpair : (source, target) ∈ stages.pairs) : source.Fits target := by
  obtain ⟨vertex, -, -, hreport⟩ := link_eq_ok h
  have hnil := linkReport_iff.mp hreport
  simp only [linkErrors, Reflection.chainErrors_eq, List.nil_eq, List.append_eq_nil_iff,
    List.flatMap_eq_nil_iff] at hnil
  have herrors : source.pairErrors target = [] := hnil.2 _ hpair
  exact Reflection.fits_of_report (Reflection.pairReport_iff.mpr herrors.symm)

end

namespace VariableDeclaration

/-- An output declares the location and a matching type of an input. -/
def Feeds (output input : VariableDeclaration) : Prop :=
  output.location = input.location ∧ ∃ source target,
    reflectType output.type = .ok source ∧ reflectType input.type = .ok target ∧
      source.feeds target = true

def Alike (a b : VariableDeclaration) : Prop :=
  ∀ s t, reflectType a.type = .ok s → reflectType b.type = .ok t → s.feeds t = true

theorem alike_iff {a b : VariableDeclaration} {v w : Variable} (hv : a.reflect = .ok v)
    (hw : b.reflect = .ok w) : a.Alike b ↔ v.type.feeds w.type = true := by
  obtain ⟨s, hs, rfl⟩ := reflect_eq_ok.mp hv
  obtain ⟨t, ht, rfl⟩ := reflect_eq_ok.mp hw
  simp [Alike, hs, ht]

def LastAt (decls : List VariableDeclaration) (location : Nat) (decl : VariableDeclaration) :
    Prop :=
  ((user decls).filter (·.location = location)).getLast? = some decl

theorem exists_lastAt {decls : List VariableDeclaration} {decl : VariableDeclaration}
    (h : decl ∈ user decls) : ∃ last, LastAt decls decl.location last := by
  have hmem : decl ∈ (user decls).filter (·.location = decl.location) :=
    List.mem_filter.mpr ⟨h, by simp⟩
  exact Option.isSome_iff_exists.mp (List.getLast?_isSome.mpr (List.ne_nil_of_mem hmem))

end VariableDeclaration

def Interface.Feeds (producer : Interface) (input : VariableDeclaration) : Prop :=
  ∃ output ∈ VariableDeclaration.user producer.outputs, output.Feeds input

structure Interface.Consecutive (interfaces : List Interface) (producer consumer : Interface) :
    Prop where
  producer_mem : producer ∈ interfaces
  consumer_mem : consumer ∈ interfaces
  lt : producer.stage.index < consumer.stage.index
  between : ∀ other ∈ interfaces,
    ¬ (producer.stage.index < other.stage.index ∧ other.stage.index < consumer.stage.index)

section

variable {interfaces : List Interface} {model : Model} {limits : Limits}
  {producer consumer : Interface} {source target : Reflection}

theorem fits_of_consecutive (hmodel : Model.ofInterfaces interfaces = .ok model)
    (hlink : model.link limits = .ok ())
    (hnext : Interface.Consecutive interfaces producer consumer) :
    ∃ source target : Reflection, producer.classify = .ok source ∧
      consumer.classify = .ok target ∧ source.Fits target := by
  obtain ⟨source, hsource, hget⟩ := Model.get?_of_mem hmodel hnext.producer_mem
  obtain ⟨target, htarget, hget'⟩ := Model.get?_of_mem hmodel hnext.consumer_mem
  refine ⟨source, target, hsource, htarget, fits_of_link hlink ?_⟩
  apply StageMap.mem_pairs hget hget' hnext.lt
  intro stage hfirst hsecond
  cases hstage : model.stages.get? stage with
  | none => rfl
  | some reflection =>
    obtain ⟨other, hother, rfl, -⟩ := (Model.get?_of_ofInterfaces hmodel stage).mp hstage
    exact absurd ⟨hfirst, hsecond⟩ (hnext.between other hother)

theorem feeds_iff_of_reflect (hsource : producer.classify = .ok source)
    {input : VariableDeclaration} {v : Variable} (hinput : input.reflect = .ok v) :
    producer.Feeds input ↔ source.Feeds v := by
  have houtputs := Interface.outputs_of_classify hsource
  obtain ⟨target, htarget, rfl⟩ := VariableDeclaration.reflect_eq_ok.mp hinput
  constructor
  · rintro ⟨decl, hdecl, hlocation, s, t, hs, ht, hfeeds⟩
    obtain ⟨output, houtput, hreflect⟩ := VariableDeclaration.mem_of_declared houtputs hdecl
    obtain ⟨s', hs', rfl⟩ := VariableDeclaration.reflect_eq_ok.mp hreflect
    obtain rfl := Except.ok.inj (hs.symm.trans hs')
    obtain rfl := Except.ok.inj (ht.symm.trans htarget)
    exact ⟨_, houtput, hlocation, hfeeds⟩
  · rintro ⟨output, houtput, hlocation, hfeeds⟩
    obtain ⟨decl, hdecl, hreflect⟩ := VariableDeclaration.declared_of_mem houtputs houtput
    obtain ⟨s, hs, rfl⟩ := VariableDeclaration.reflect_eq_ok.mp hreflect
    exact ⟨decl, hdecl, hlocation, s, target, hs, htarget, hfeeds⟩

theorem exists_output_iff (hsource : producer.classify = .ok source) (location : Nat) :
    (∃ output ∈ VariableDeclaration.user producer.outputs, output.location = location) ↔
      ∃ output ∈ source.outputs, output.location = location := by
  have hperm := VariableDeclaration.perm_locations (Interface.outputs_of_classify hsource)
  rw [← List.mem_map, ← List.mem_map]
  exact hperm.mem_iff.symm

/--
If interfaces are linked, no input is left unfed by a stage whose outputs have locations of their
own. In general an input is fed exactly if some output has its location and the last input there
has a type like its own.
-/
theorem link_feeds (hmodel : Model.ofInterfaces interfaces = .ok model)
    (hlink : model.link limits = .ok ())
    (hnext : Interface.Consecutive interfaces producer consumer) :
    (((VariableDeclaration.user producer.outputs).map (·.location)).Nodup →
      ∀ input ∈ VariableDeclaration.user consumer.inputs, producer.Feeds input) ∧
    ∀ input ∈ VariableDeclaration.user consumer.inputs,
      ∃ last, VariableDeclaration.LastAt consumer.inputs input.location last ∧
        (producer.Feeds input ↔
          (∃ output ∈ VariableDeclaration.user producer.outputs,
            output.location = input.location) ∧ last.Alike input) := by
  obtain ⟨source, target, hsource, htarget, hfits⟩ := fits_of_consecutive hmodel hlink hnext
  have hinputs := Interface.inputs_of_classify htarget
  constructor
  · intro hnodup input hinput
    obtain ⟨v, hv, hreflect⟩ := VariableDeclaration.mem_of_declared hinputs hinput
    have houtputs := VariableDeclaration.perm_locations (Interface.outputs_of_classify hsource)
    rw [feeds_iff_of_reflect hsource hreflect]
    exact hfits.feeds (houtputs.nodup_iff.mpr hnodup) hv
  · intro input hinput
    obtain ⟨v, -, hreflect⟩ := VariableDeclaration.mem_of_declared hinputs hinput
    obtain ⟨last, hlast⟩ := VariableDeclaration.exists_lastAt hinput
    obtain ⟨w, hw, hreflect'⟩ :=
      exists_getLast?_of_forall₂ (VariableDeclaration.declared_at hinputs input.location) hlast
    refine ⟨last, hlast, ?_⟩
    rw [feeds_iff_of_reflect hsource hreflect, VariableDeclaration.alike_iff hreflect' hreflect,
      exists_output_iff hsource]
    rw [← VariableDeclaration.location_of_reflect hreflect] at hw ⊢
    exact hfits.feeds_iff hw

/-- Inputs in another order than the outputs that feed them. -/
theorem link_feeds_two_locations :
    let v (name : String) (location length : Nat) : VariableDeclaration :=
      ⟨name, location, false, { vectorSize := length }⟩
    let vertex : Interface := { stage := .vertex, outputs := [v "normal" 0 3, v "uv" 1 2] }
    let fragment : Interface := { stage := .fragment, inputs := [v "uv" 1 2, v "normal" 0 3] }
    ∃ model, Model.ofInterfaces [fragment, vertex] = .ok model ∧ model.link {} = .ok () ∧
      Interface.Consecutive [fragment, vertex] vertex fragment ∧
      ∀ input ∈ VariableDeclaration.user fragment.inputs, vertex.Feeds input := by
  intro v vertex fragment
  have hresult : (Model.ofInterfaces [fragment, vertex]).map (·.link {}) = .ok (.ok ()) := by
    cbv
  obtain ⟨model, hmodel, hlink⟩ := Except.map_eq_ok.mp hresult
  have hnext : Interface.Consecutive [fragment, vertex] vertex fragment :=
    ⟨by simp, by simp, by decide, by simp [vertex, fragment]⟩
  exact ⟨model, hmodel, hlink, hnext, (link_feeds hmodel hlink hnext).1 (by decide)⟩

end

/-- Two outputs at one location take one input, and the input at another location stays unfed. -/
theorem link_leaves_input_unfed :
    ¬ ∀ (interfaces : List Interface) (model : Model) (limits : Limits)
        (producer consumer : Interface),
      Model.ofInterfaces interfaces = .ok model → model.link limits = .ok () →
      Interface.Consecutive interfaces producer consumer →
      ∀ input ∈ VariableDeclaration.user consumer.inputs, producer.Feeds input := by
  intro hfed
  let v (name : String) (location : Nat) : VariableDeclaration :=
    ⟨name, location, false, { vectorSize := 2 }⟩
  let vertex : Interface := { stage := .vertex, outputs := [v "a" 0, v "b" 0] }
  let fragment : Interface := { stage := .fragment, inputs := [v "c" 0, v "d" 1] }
  have hresult : (Model.ofInterfaces [vertex, fragment]).map (·.link {}) = .ok (.ok ()) := by
    cbv
  obtain ⟨model, hmodel, hlink⟩ := Except.map_eq_ok.mp hresult
  have hnext : Interface.Consecutive [vertex, fragment] vertex fragment :=
    ⟨by simp, by simp, by decide, by simp [vertex, fragment]⟩
  have hunfed : ∀ output ∈ VariableDeclaration.user vertex.outputs, output.location ≠ 1 := by decide
  obtain ⟨output, houtput, hlocation, -⟩ :=
    hfed _ model {} vertex fragment hmodel hlink hnext (v "d" 1) (.tail _ (.head _))
  exact hunfed output houtput hlocation

end ShaderBinding
