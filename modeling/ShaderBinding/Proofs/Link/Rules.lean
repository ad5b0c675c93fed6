import Mathlib.Data.List.Forall2
import Mathlib.Data.List.Induction
import Mathlib.Logic.Basic
import ShaderBinding.Link
import ShaderBinding.Proofs.Fault

/-! # The rules of linking

Each rule says when it is violated and by which error that is reported. A link check reports
exactly the violated rules, one after the other.
-/

namespace ShaderBinding

namespace Variable

variable {vars : List Variable} {location : Nat} {v : Variable}

def LastAt (vars : List Variable) (location : Nat) (v : Variable) : Prop :=
  (vars.filter (·.location = location)).getLast? = some v

theorem byLocation_eq : byLocation vars location =
    (vars.filter (·.location = location)).getLast? := by
  induction vars using List.reverseRecOn with
  | nil => rfl
  | append_singleton vars w ih =>
    rw [byLocation, List.foldl_append, List.filter_append]
    change (if location = w.location then some w else byLocation vars location) = _
    by_cases h : w.location = location
    · simp [h]
    · simp [h, ih, Ne.symm h]

theorem byLocation_eq_some_iff :
    byLocation vars location = some v ↔ LastAt vars location v := by
  rw [byLocation_eq, LastAt]

theorem byLocation_eq_none_iff :
    byLocation vars location = none ↔ ∀ v ∈ vars, v.location ≠ location := by
  rw [byLocation_eq, List.getLast?_eq_none_iff, List.filter_eq_nil_iff]
  simp

theorem LastAt.mem (h : LastAt vars location v) : v ∈ vars :=
  (List.mem_filter.mp (List.mem_of_getLast? h)).1

theorem LastAt.location_eq (h : LastAt vars location v) : v.location = location := by
  simpa using (List.mem_filter.mp (List.mem_of_getLast? h)).2

theorem LastAt.unique {w : Variable} (h : LastAt vars location v) (h' : LastAt vars location w) :
    v = w := Option.some_inj.mp (h.symm.trans h')

end Variable

namespace Reflection

variable {source target : Reflection} {output : Variable} {errors : List LinkError}

/-- What is reported of an output whose stage and the next one match in count. -/
inductive OutputReport (source target : Reflection) (output : Variable) : List LinkError → Prop
  | matched {input : Variable} : input.LastAt target.inputs output.location →
      output.type.feeds input.type = true → OutputReport source target output []
  | unmatched : (∀ input ∈ target.inputs, input.location ≠ output.location) →
      OutputReport source target output
        [.noMatchingInput source.stage target.stage output.location output.name]
  | mismatched {input : Variable} : input.LastAt target.inputs output.location →
      output.type.feeds input.type = false →
      OutputReport source target output [.typeMismatch source.stage target.stage output.location]

/-- What is reported of two neighbours: the counts differ, or each output is looked at. -/
inductive PairReport (source target : Reflection) : List LinkError → Prop
  | counts : source.outputs.length ≠ target.inputs.length →
      PairReport source target
        [.countMismatch source.stage target.stage source.outputs.length target.inputs.length]
  | outputs {reports : List (List LinkError)} : source.outputs.length = target.inputs.length →
      List.Forall₂ (source.OutputReport target) source.outputs reports →
      PairReport source target reports.flatten

theorem outputReport_iff : source.OutputReport target output errors ↔
    errors = source.outputErrors target (Variable.byLocation target.inputs) output := by
  cases htable : Variable.byLocation target.inputs output.location with
  | none =>
    have hnone := Variable.byLocation_eq_none_iff.mp htable
    simp only [outputErrors, htable]
    constructor
    · rintro (⟨hlast, -⟩ | - | ⟨hlast, -⟩)
      · exact absurd hlast.location_eq (hnone _ hlast.mem)
      · rfl
      · exact absurd hlast.location_eq (hnone _ hlast.mem)
    · rintro rfl
      exact .unmatched hnone
  | some input =>
    have hinput := Variable.byLocation_eq_some_iff.mp htable
    simp only [outputErrors, htable]
    constructor
    · rintro (⟨hlast, hfeeds⟩ | hnone | ⟨hlast, hfeeds⟩)
      · simp [hinput.unique hlast, hfeeds]
      · exact absurd hinput.location_eq (hnone _ hinput.mem)
      · simp [hinput.unique hlast, hfeeds]
    · rintro rfl
      split
      · rename_i hfeeds
        exact .matched hinput hfeeds
      · rename_i hfeeds
        exact .mismatched hinput (Bool.not_eq_true _ ▸ hfeeds)

theorem pairReport_iff : source.PairReport target errors ↔ errors = source.pairErrors target := by
  have houtputs {reports : List (List LinkError)} :
      List.Forall₂ (source.OutputReport target) source.outputs reports ↔
        reports = source.outputs.map
          (source.outputErrors target (Variable.byLocation target.inputs)) :=
    forall₂_iff_eq_map fun _ _ => outputReport_iff
  unfold pairErrors
  constructor
  · rintro (hcount | ⟨hcount, hreports⟩)
    · rw [if_neg hcount]
    · rw [if_pos hcount, houtputs.mp hreports, List.flatMap_def]
  · rintro rfl
    split
    · rename_i hcount
      rw [List.flatMap_def]
      exact .outputs hcount (houtputs.mpr rfl)
    · rename_i hcount
      exact .counts hcount

theorem chainErrors_eq (chain : List Reflection) :
    chainErrors chain = (chain.zip chain.tail).flatMap fun pair => pair.1.pairErrors pair.2 := by
  induction chain with
  | nil => rfl
  | cons source rest ih =>
    cases rest with
    | nil => rfl
    | cons target rest =>
      rw [chainErrors, ih]
      rfl

end Reflection

/-- An error is reported exactly if its rule is violated. -/
def Listed (violated : Prop) (error : LinkError) (errors : List LinkError) : Prop :=
  (violated ∧ errors = [error]) ∨ (¬ violated ∧ errors = [])

theorem listed_iff {violated : Prop} [Decidable violated] {error : LinkError}
    {errors : List LinkError} :
    Listed violated error errors ↔ errors = if violated then [error] else [] := by
  unfold Listed
  split <;> simp [*]

/-- Each two consecutive present stages; absent stages in between are skipped. -/
def StageMap.pairs {α : Type} (stages : StageMap α) : List (α × α) :=
  stages.values.zip stages.values.tail

def pushConstantTotal (stages : StageMap Reflection) : Nat :=
  ((pushConstantBlocks stages).map (·.2.type.size)).sum

/-- The rule on fragment outputs, which needs a fragment stage to be violated. -/
def FragmentReport (limits : Limits) : Option Reflection → List LinkError → Prop
  | none, errors => errors = []
  | some fragment, errors =>
    Listed (limits.maxFragmentOutputAttachments < Width.word.wrap fragment.outputs.length)
      (.tooManyFragmentOutputs (Width.word.wrap fragment.outputs.length)
        limits.maxFragmentOutputAttachments) errors

/-- What is reported of stages of which one is a vertex stage, rule after rule. -/
inductive LinkReport (stages : StageMap Reflection) (limits : Limits) (vertex : Reflection) :
    List LinkError → Prop
  | intro {tessellation attributes outputs pushConstants : List LinkError}
      {pairs : List (List LinkError)} :
      Listed (Xor (stages.contains .tessControl) (stages.contains .tessEval))
        .unpairedTessellation tessellation →
      Listed (limits.maxVertexInputAttributes < Width.word.wrap vertex.inputAttributes.length)
        (.tooManyVertexAttributes (Width.word.wrap vertex.inputAttributes.length)
          limits.maxVertexInputAttributes) attributes →
      FragmentReport limits (stages.get? .fragment) outputs →
      Listed (limits.maxPushConstantsSize < pushConstantTotal stages)
        (.pushConstantsTooLarge (pushConstantTotal stages) limits.maxPushConstantsSize)
        pushConstants →
      List.Forall₂ (fun pair errors => pair.1.PairReport pair.2 errors) stages.pairs pairs →
      LinkReport stages limits vertex
        (tessellation ++ attributes ++ outputs ++ pushConstants ++ pairs.flatten)

section

variable {stages : StageMap Reflection} {limits : Limits} {vertex : Reflection}
  {errors : List LinkError}

theorem listed_tessellation :
    Listed (Xor (stages.contains .tessControl) (stages.contains .tessEval))
      .unpairedTessellation errors ↔ errors = tessellationErrors stages := by
  unfold tessellationErrors Listed
  cases stages.contains .tessControl <;> cases stages.contains .tessEval <;> simp [Xor]

theorem fragmentReport_iff {fragment : Option Reflection} :
    FragmentReport limits fragment errors ↔ errors = fragmentErrors limits fragment := by
  cases fragment with
  | none => rfl
  | some fragment => exact listed_iff

theorem linkReport_iff : LinkReport stages limits vertex errors ↔
    errors = linkErrors stages limits vertex (pushConstantTotal stages) := by
  have hpairs {pairs : List (List LinkError)} :
      List.Forall₂ (fun pair errors => pair.1.PairReport pair.2 errors) stages.pairs pairs ↔
        pairs = stages.pairs.map fun pair => pair.1.pairErrors pair.2 :=
    forall₂_iff_eq_map fun _ _ => Reflection.pairReport_iff
  unfold linkErrors
  rw [Reflection.chainErrors_eq, List.flatMap_def]
  constructor
  · rintro ⟨htessellation, hattributes, houtputs, hpush, hreports⟩
    rw [listed_tessellation.mp htessellation, listed_iff.mp hattributes,
      fragmentReport_iff.mp houtputs, listed_iff.mp hpush, hpairs.mp hreports]
    rfl
  · rintro rfl
    exact .intro (listed_tessellation.mpr rfl) (listed_iff.mpr rfl) (fragmentReport_iff.mpr rfl)
      (listed_iff.mpr rfl) (hpairs.mpr rfl)

theorem link_of_no_vertex (h : stages.get? .vertex = none) :
    link stages limits = .fail ⟨[.missingVertexStage]⟩ := by
  rw [link, h]

/-- With a vertex stage, the check faults exactly if the push constants leave the width. -/
theorem link_eq (h : stages.get? .vertex = some vertex) :
    link stages limits =
      if pushConstantTotal stages < 2 ^ 32 then
        if linkErrors stages limits vertex (pushConstantTotal stages) = [] then .ok ()
        else .fail ⟨linkErrors stages limits vertex (pushConstantTotal stages)⟩
      else .error (.fault .addOverflow) := by
  simp only [link, h, Checked.sum32, Checked.sum_eq]
  change _ = if pushConstantTotal stages < Width.word.bound then _ else _
  unfold pushConstantTotal
  split
  · simp only [List.isEmpty_iff]
    rfl
  · rfl

def LinkError.isInterface : LinkError → Bool
  | countMismatch .. | noMatchingInput .. | typeMismatch .. => true
  | _ => false

theorem Reflection.isInterface_of_mem_pairErrors {source target : Reflection} {error : LinkError}
    (h : error ∈ source.pairErrors target) : error.isInterface = true := by
  unfold pairErrors at h
  split at h
  · obtain ⟨output, -, herror⟩ := List.mem_flatMap.mp h
    unfold outputErrors at herror
    split at herror
    · rw [List.mem_singleton.mp herror]
      rfl
    · split at herror
      · cases herror
      · rw [List.mem_singleton.mp herror]
        rfl
  · rw [List.mem_singleton.mp h]
    rfl

theorem Reflection.isInterface_of_mem_chainErrors {chain : List Reflection} {error : LinkError}
    (h : error ∈ chainErrors chain) : error.isInterface = true := by
  rw [chainErrors_eq] at h
  obtain ⟨pair, -, herror⟩ := List.mem_flatMap.mp h
  exact isInterface_of_mem_pairErrors herror

/-- A missing vertex stage is reported alone. -/
theorem notMem_linkErrors {total : Nat} :
    .missingVertexStage ∉ linkErrors stages limits vertex total := by
  simp only [linkErrors, List.mem_append, not_or]
  refine ⟨⟨⟨⟨?_, ?_⟩, ?_⟩, ?_⟩, ?_⟩
  · unfold tessellationErrors
    split <;> simp
  · unfold attributeErrors
    dsimp only
    split <;> simp
  · unfold fragmentErrors
    split
    · simp
    · dsimp only
      split <;> simp
  · unfold pushConstantErrors
    dsimp only
    split <;> simp
  · intro hchain
    cases Reflection.isInterface_of_mem_chainErrors hchain

theorem severity_linkErrors {total : Nat}
    (h : linkErrors stages limits vertex total ≠ []) :
    (LinkErrors.mk (linkErrors stages limits vertex total)).severity ≠ .warning := by
  obtain ⟨error, hmem⟩ := List.exists_mem_of_ne_nil _ h
  intro hwarning
  have hall := (Severity.worst_eq_warning_iff _).mp hwarning
  have herror : error.severity = .warning := hall _ (List.mem_map_of_mem hmem)
  cases error with
  | missingVertexStage => exact notMem_linkErrors hmem
  | _ => cases herror

/--
A check without a vertex stage reports that alone. Any other check reports exactly the violated
rules and is passed exactly if there are none. Only a missing vertex stage makes it a warning.
-/
theorem link_reports (stages : StageMap Reflection) (limits : Limits)
    (hsize : pushConstantTotal stages < 2 ^ 32) :
    (stages.get? .vertex = none → link stages limits = .fail ⟨[.missingVertexStage]⟩) ∧
      (∀ vertex, stages.get? .vertex = some vertex →
        ∃ errors, (∀ report, LinkReport stages limits vertex report ↔ report = errors) ∧
          link stages limits = if errors = [] then .ok () else .fail ⟨errors⟩) ∧
      ∀ e, link stages limits = .fail e →
        (e.severity = .warning ↔ stages.get? .vertex = none) := by
  refine ⟨link_of_no_vertex, fun vertex hvertex => ?_, fun e he => ?_⟩
  · exact ⟨_, fun _ => linkReport_iff, by rw [link_eq hvertex, if_pos hsize]⟩
  · cases hvertex : stages.get? .vertex with
    | none =>
      rw [link_of_no_vertex hvertex] at he
      cases he
      simp [LinkErrors.severity, LinkError.severity, Severity.worst, Severity.max]
    | some vertex =>
      rw [link_eq hvertex, if_pos hsize] at he
      split at he
      · cases he
      · rename_i herrors
        cases he
        simp [severity_linkErrors herrors]

/-- An output that the last input of its location takes, one without input, and too many bytes. -/
theorem link_reports_two_rules :
    let v (name : String) (location length : Nat) : Variable :=
      ⟨name, location, .vector .float length (4 * length)⟩
    let push (stage : Stage) (size : Nat) : Resource :=
      ⟨"push", .pushConstant stage, .struct .nil size⟩
    let vertex : Reflection := ⟨.vertex, "main", [], [v "normal" 0 3, v "uv" 1 2], [], [], [], [],
      [], some (push .vertex 64)⟩
    let fragment : Reflection := ⟨.fragment, "main", [v "first" 0 2, v "second" 0 3], [], [], [],
      [], [], [], some (push .fragment 80)⟩
    let stages : StageMap Reflection := .ofList [(.vertex, vertex), (.fragment, fragment)]
    let errors : List LinkError :=
      [.pushConstantsTooLarge 144 128, .noMatchingInput .vertex .fragment 1 "uv"]
    pushConstantTotal stages < 2 ^ 32 ∧ LinkReport stages {} vertex errors ∧
      link stages {} = .fail ⟨errors⟩ := by
  intro v push vertex fragment stages errors
  have hsize : pushConstantTotal stages < 2 ^ 32 := by decide
  obtain ⟨reported, hreport, hlink⟩ := (link_reports stages {} hsize).2.1 vertex rfl
  have hfail : link stages {} = .fail ⟨errors⟩ := by decide +kernel
  have hreported : errors = reported := by
    rw [hfail] at hlink
    split at hlink
    · cases hlink
    · cases hlink
      rfl
  exact ⟨hsize, (hreport errors).mpr hreported, hfail⟩

end

end ShaderBinding
