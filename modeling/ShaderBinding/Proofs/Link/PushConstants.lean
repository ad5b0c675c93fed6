import ShaderBinding.Model
import ShaderBinding.Proofs.Link.Feeding

/-! # The limit on push constants

The check compares the exact total of all push constant blocks with the limit whenever that total
can be counted. A total that cannot be counted is never accepted: it ends the check with a fault.
-/

namespace ShaderBinding

variable {stages : StageMap Reflection} {limits : Limits} {vertex : Reflection}

theorem mem_pushConstantErrors {total size limit : Nat} :
    .pushConstantsTooLarge size limit ∈ pushConstantErrors limits total ↔
      limits.maxPushConstantsSize < total ∧ size = total ∧
        limit = limits.maxPushConstantsSize := by
  unfold pushConstantErrors
  dsimp only
  split <;> simp [*]

theorem tooLarge_mem_linkErrors {total size limit : Nat} :
    .pushConstantsTooLarge size limit ∈ linkErrors stages limits vertex total ↔
      limits.maxPushConstantsSize < total ∧ size = total ∧
        limit = limits.maxPushConstantsSize := by
  have htessellation : .pushConstantsTooLarge size limit ∉ tessellationErrors stages := by
    unfold tessellationErrors
    split <;> simp
  have hattributes : .pushConstantsTooLarge size limit ∉ attributeErrors limits vertex := by
    unfold attributeErrors
    dsimp only
    split <;> simp
  have hfragment :
      .pushConstantsTooLarge size limit ∉ fragmentErrors limits (stages.get? .fragment) := by
    unfold fragmentErrors
    split
    · simp
    · dsimp only
      split <;> simp
  have hchain : .pushConstantsTooLarge size limit ∉ Reflection.chainErrors stages.values := by
    intro hchain
    cases Reflection.isInterface_of_mem_chainErrors hchain
  simp [linkErrors, htessellation, hattributes, hfragment, hchain, mem_pushConstantErrors]

theorem total_le_of_link (h : link stages limits = .ok ()) :
    pushConstantTotal stages < 2 ^ 32 ∧
      pushConstantTotal stages ≤ limits.maxPushConstantsSize := by
  obtain ⟨vertex, -, hsize, hreport⟩ := link_eq_ok h
  refine ⟨hsize, Nat.le_of_not_lt fun hlarge => ?_⟩
  have hmem : .pushConstantsTooLarge (pushConstantTotal stages) limits.maxPushConstantsSize ∈
      linkErrors stages limits vertex (pushConstantTotal stages) :=
    tooLarge_mem_linkErrors.mpr ⟨hlarge, rfl, rfl⟩
  rw [← linkReport_iff.mp hreport] at hmem
  cases hmem

section Vertex

variable (hvertex : stages.get? .vertex = some vertex)
include hvertex

theorem reports_tooLarge_iff (hsize : pushConstantTotal stages < 2 ^ 32) {size limit : Nat} :
    (∃ e, link stages limits = .fail e ∧ .pushConstantsTooLarge size limit ∈ e.errors) ↔
      limits.maxPushConstantsSize < pushConstantTotal stages ∧
        size = pushConstantTotal stages ∧ limit = limits.maxPushConstantsSize := by
  have hlink : link stages limits = _ := link_eq hvertex
  rw [if_pos hsize] at hlink
  constructor
  · rintro ⟨e, hfail, hmem⟩
    rw [hfail] at hlink
    split at hlink <;> cases hlink
    exact tooLarge_mem_linkErrors.mp hmem
  · intro hlarge
    have hmem : .pushConstantsTooLarge size limit ∈
        linkErrors stages limits vertex (pushConstantTotal stages) :=
      tooLarge_mem_linkErrors.mpr hlarge
    rw [if_neg (List.ne_nil_of_mem hmem)] at hlink
    exact ⟨_, hlink, hmem⟩

theorem link_eq_fault_iff {fault : Fault} :
    link stages limits = .error (.fault fault) ↔
      2 ^ 32 ≤ pushConstantTotal stages ∧ fault = .addOverflow := by
  rw [link_eq hvertex]
  by_cases hsize : pushConstantTotal stages < 2 ^ 32
  · rw [if_pos hsize]
    constructor
    · intro h
      split at h <;> cases h
    · rintro ⟨hlarge, -⟩
      omega
  · rw [if_neg hsize]
    constructor
    · rintro ⟨⟩
      exact ⟨Nat.le_of_not_lt hsize, rfl⟩
    · rintro ⟨-, rfl⟩
      rfl

end Vertex

/--
Of stages with a vertex stage, none are accepted whose push constants exceed the limit. A total
that can be counted in 32 bits is reported exactly if it exceeds the limit; any other total makes
the check fault, and nothing else does.
-/
theorem link_limits_push_constants (stages : StageMap Reflection) (limits : Limits)
    (hvertex : (stages.get? .vertex).isSome) :
    (link stages limits = .ok () → pushConstantTotal stages ≤ limits.maxPushConstantsSize) ∧
      (pushConstantTotal stages < 2 ^ 32 → ∀ size limit,
        (∃ e, link stages limits = .fail e ∧ .pushConstantsTooLarge size limit ∈ e.errors) ↔
          limits.maxPushConstantsSize < pushConstantTotal stages ∧
            size = pushConstantTotal stages ∧ limit = limits.maxPushConstantsSize) ∧
      ∀ fault, link stages limits = .error (.fault fault) ↔
        2 ^ 32 ≤ pushConstantTotal stages ∧ fault = .addOverflow := by
  obtain ⟨vertex, hvertex⟩ := Option.isSome_iff_exists.mp hvertex
  refine ⟨fun h => (total_le_of_link h).2, fun hsize size limit => ?_, fun fault => ?_⟩
  · exact reports_tooLarge_iff hvertex hsize
  · exact link_eq_fault_iff hvertex

/-- Two blocks that together take one byte less than can be counted are reported. -/
theorem link_limits_push_constants_almost :
    let push (stage : Stage) (size : Nat) : Resource :=
      ⟨"push", .pushConstant stage, .struct .nil size⟩
    let vertex : Reflection := ⟨.vertex, "main", [], [], [], [], [], [], [],
      some (push .vertex 2147483647)⟩
    let fragment : Reflection := ⟨.fragment, "main", [], [], [], [], [], [], [],
      some (push .fragment 2147483648)⟩
    let stages : StageMap Reflection := .ofList [(.vertex, vertex), (.fragment, fragment)]
    ∃ e, link stages {} = .fail e ∧ .pushConstantsTooLarge 4294967295 128 ∈ e.errors := by
  intro push vertex fragment stages
  have hlimits := (link_limits_push_constants stages {} rfl).2.1 (by decide)
  exact (hlimits 4294967295 128).mpr (by decide)

/-- Two blocks that together take one byte more than can be counted are not reported. -/
theorem link_faults_beyond_width :
    ¬ ∀ (interfaces : List Interface) (model : Model) (limits : Limits),
      Model.ofInterfaces interfaces = .ok model → (model.stages.get? .vertex).isSome →
      limits.maxPushConstantsSize < pushConstantTotal model.stages →
      ∃ e size limit, model.link limits = .fail e ∧
        .pushConstantsTooLarge size limit ∈ e.errors := by
  intro hreported
  let matrix : TypeDescription := { name := "model", vectorSize := 4, columns := 4 }
  let push : BlockDeclaration :=
    ⟨"Push", { base := .struct, members := [matrix], size := 2147483648 }⟩
  let vertex : Interface := { stage := .vertex, pushConstants := [push] }
  let fragment : Interface := { stage := .fragment, pushConstants := [push] }
  have hresult : (Model.ofInterfaces [vertex, fragment]).map (fun model => (model.link {},
      (model.stages.get? .vertex).isSome, pushConstantTotal model.stages)) =
      .ok (.error (.fault .addOverflow), true, 2 ^ 32) := by decide +kernel
  obtain ⟨model, hmodel, heq⟩ := Except.map_eq_ok.mp hresult
  obtain ⟨hlink, hrest⟩ := Prod.mk.inj heq
  obtain ⟨hvertex, htotal⟩ := Prod.mk.inj hrest
  obtain ⟨e, _, _, hfail, -⟩ := hreported _ model {} hmodel hvertex (by rw [htotal]; decide)
  rw [hlink] at hfail
  cases hfail

end ShaderBinding
