import Mathlib.Data.List.Induction
import ShaderBinding.Proofs.Descriptor.PoolSizes

/-! # Entries of extended pool sizes

The counted types come first, in counter order. Every other type follows where a binding first has
it, and each entry holds the total of its type. The entries are the same for every order of the
bindings, and they exist exactly if all totals fit in 32 bits.
-/

namespace ShaderBinding

variable {type : DescriptorType} {bindings bindings' : List LayoutBinding}

theorem demand_perm (h : bindings.Perm bindings') : demand type bindings = demand type bindings' :=
  ((h.filter _).map _).sum_nat

/-- The first binding of one type stands before that of the other. -/
def FirstBefore (bindings : List LayoutBinding) (a b : DescriptorType) : Prop :=
  (bindings.map (·.type)).idxOf a < (bindings.map (·.type)).idxOf b

namespace FirstBefore

variable {a b : DescriptorType}

theorem append (h : FirstBefore bindings a b) (later : List LayoutBinding) :
    FirstBefore (bindings ++ later) a b := by
  unfold FirstBefore at *
  have ha : a ∈ bindings.map (·.type) :=
    List.idxOf_lt_length_iff.mp (Nat.lt_of_lt_of_le h List.idxOf_le_length)
  rw [List.map_append, List.idxOf_append_of_mem ha]
  by_cases hb : b ∈ bindings.map (·.type)
  · rwa [List.idxOf_append_of_mem hb]
  · have hlt := List.idxOf_lt_length_iff.mpr ha
    rw [List.idxOf_append_of_notMem hb]
    omega

theorem concat {binding : LayoutBinding} (ha : a ∈ bindings.map (·.type))
    (hnew : binding.type ∉ bindings.map (·.type)) :
    FirstBefore (bindings ++ [binding]) a binding.type := by
  have hlt := List.idxOf_lt_length_iff.mpr ha
  unfold FirstBefore
  rw [List.map_append, List.idxOf_append_of_mem ha, List.idxOf_append_of_notMem hnew]
  omega

end FirstBefore

namespace PoolSizes

variable {sizes : PoolSizes} {list list' : List PoolSize}

def furtherTypes (list : List PoolSize) : List DescriptorType :=
  (list.map (·.type)).drop types.length

/-- A list of sizes holds the totals of counters and further bindings, type by type. -/
structure Totals (sizes : PoolSizes) (bindings : List LayoutBinding) (list : List PoolSize) :
    Prop where
  nodup : (list.map (·.type)).Nodup
  counted : (list.map (·.type)).take types.length = types
  mem_further : ∀ type, type ∈ furtherTypes list ↔
    type ∉ types ∧ ∃ binding ∈ bindings, binding.type = type
  pairwise_further : (furtherTypes list).Pairwise (FirstBefore bindings)
  count : ∀ size ∈ list, size.count = sizes.get size.type + demand size.type bindings

theorem withBindings_concat_eq_ok {binding : LayoutBinding} :
    sizes.withBindings (bindings ++ [binding]) = .ok list' ↔
      ∃ list, sizes.withBindings bindings = .ok list ∧
        addSize binding.type binding.count list = .ok list' := by
  unfold withBindings
  rw [List.foldlM_append, Except.bind_eq_ok]
  simp only [List.foldlM_cons, List.foldlM_nil, bind_pure]

theorem mem_further_iff (h : sizes.withBindings bindings = .ok list)
    {further : List DescriptorType} (hlist : list.map (·.type) = types ++ further)
    (type : DescriptorType) :
    type ∈ further ↔ type ∉ types ∧ ∃ binding ∈ bindings, binding.type = type := by
  have hmem := mem_types_withBindings h type
  obtain ⟨hnodup, -⟩ := withBindings_eq_ok h
  rw [hlist, List.mem_append] at hmem
  rw [hlist, List.nodup_append] at hnodup
  constructor
  · intro hfurther
    have hnot : type ∉ types := fun hcounted => hnodup.2.2 type hcounted type hfurther rfl
    exact ⟨hnot, (hmem.mp (.inr hfurther)).resolve_left hnot⟩
  · rintro ⟨hnot, hbound⟩
    exact (hmem.mpr (.inr hbound)).resolve_left hnot

/-- A new type gets the last entry, and its first binding is the last one so far. -/
theorem types_withBindings (h : sizes.withBindings bindings = .ok list) :
    ∃ further, list.map (·.type) = types ++ further ∧
      further.Pairwise (FirstBefore bindings) := by
  -- From the right: whether a type is new is a question about the bindings before it.
  induction bindings using List.reverseRecOn generalizing list with
  | nil =>
    cases h
    exact ⟨[], rfl, .nil⟩
  | append_singleton before binding ih =>
    obtain ⟨mid, hmid, hadd⟩ := withBindings_concat_eq_ok.mp h
    obtain ⟨further, hfurther, hpairwise⟩ := ih hmid
    have hpairwise' := hpairwise.imp fun hfirst => FirstBefore.append hfirst [binding]
    have htypes := types_addSize hadd
    split at htypes
    · exact ⟨further, htypes.trans hfurther, hpairwise'⟩
    · rename_i hnew
      refine ⟨further ++ [binding.type], by rw [htypes, hfurther, List.append_assoc], ?_⟩
      rw [mem_types_withBindings hmid, not_or] at hnew
      refine List.pairwise_append.mpr ⟨hpairwise', List.pairwise_singleton _ _, ?_⟩
      rintro type htype _ (_ | ⟨_, ⟨⟩⟩)
      obtain ⟨-, hbound⟩ := (mem_further_iff hmid hfurther type).mp htype
      exact .concat (List.mem_map.mpr hbound) fun hmem => hnew.2 (List.mem_map.mp hmem)

theorem totals_of_withBindings (h : sizes.withBindings bindings = .ok list) :
    Totals sizes bindings list := by
  obtain ⟨further, hlist, hpairwise⟩ := types_withBindings h
  have hfurther : furtherTypes list = further := by
    rw [furtherTypes, hlist, List.drop_left]
  constructor
  case nodup => exact (withBindings_eq_ok h).1
  case counted => rw [hlist, List.take_left]
  case mem_further => exact hfurther ▸ mem_further_iff h hlist
  case pairwise_further => exact hfurther ▸ hpairwise
  case count => exact fun size => count_of_withBindings h

theorem mem_withBindings (h : sizes.withBindings bindings = .ok list) (size : PoolSize) :
    size ∈ list ↔ (size.type ∈ types ∨ ∃ binding ∈ bindings, binding.type = size.type) ∧
      size.count = sizes.get size.type + demand size.type bindings := by
  rw [← mem_types_withBindings h]
  constructor
  · intro hmem
    exact ⟨List.mem_map_of_mem hmem, count_of_withBindings h hmem⟩
  · rintro ⟨hmem, hcount⟩
    obtain ⟨⟨type, count⟩, hother, rfl⟩ := List.mem_map.mp hmem
    obtain rfl : count = size.count := (count_of_withBindings h hother).trans hcount.symm
    exact hother

/-- Another order of the bindings gives the same entries in another order. -/
theorem perm_of_withBindings (hperm : bindings.Perm bindings')
    (h : sizes.withBindings bindings = .ok list) (h' : sizes.withBindings bindings' = .ok list') :
    list.Perm list' := by
  have hnodup := (withBindings_eq_ok h).1.of_map
  have hnodup' := (withBindings_eq_ok h').1.of_map
  refine (List.perm_ext_iff_of_nodup hnodup hnodup').mpr fun size => ?_
  rw [mem_withBindings h, mem_withBindings h', demand_perm hperm]
  simp only [hperm.mem_iff]

/-! A total that does not fit is found when one of its bindings is added. -/

theorem error_of_addSize {n : Nat} {fault : Fault} (h : addSize type n list = .error fault) :
    fault = .addOverflow := by
  induction list with
  | nil => cases h
  | cons size rest ih =>
    unfold addSize at h
    split at h
    · rcases Except.bind_eq_error.mp h with hadd | ⟨_, -, ⟨⟩⟩
      unfold Checked.add32 Checked.add at hadd
      split at hadd
      · cases hadd
      · exact (Except.error.inj hadd).symm
    · rcases Except.bind_eq_error.mp h with hrest | ⟨_, -, ⟨⟩⟩
      exact ih hrest

theorem error_of_withBindings {fault : Fault} (h : sizes.withBindings bindings = .error fault) :
    fault = .addOverflow := by
  unfold withBindings at h
  generalize sizes.toList = start at h
  induction bindings generalizing start with
  | nil => cases h
  | cons binding rest ih =>
    rcases Except.bind_eq_error.mp h with hadd | ⟨next, -, h⟩
    · exact error_of_addSize hadd
    · exact ih next h

theorem lt_of_addSize {n : Nat} (hn : n < 2 ^ 32) (hlist : ∀ size ∈ list, size.count < 2 ^ 32)
    (h : addSize type n list = .ok list') : ∀ size ∈ list', size.count < 2 ^ 32 := by
  induction list generalizing list' with
  | nil =>
    cases h
    simpa using hn
  | cons size rest ih =>
    obtain ⟨hsize, hrest⟩ := List.forall_mem_cons.mp hlist
    unfold addSize at h
    split at h
    · obtain ⟨total, htotal, h⟩ := Except.bind_eq_ok.mp h
      obtain ⟨hfits, rfl⟩ := Checked.add_eq_ok_iff.mp htotal
      cases h
      exact List.forall_mem_cons.mpr ⟨hfits, hrest⟩
    · obtain ⟨others, hothers, h⟩ := Except.bind_eq_ok.mp h
      cases h
      exact List.forall_mem_cons.mpr ⟨hsize, ih hrest hothers⟩

theorem lt_of_withBindings (hsizes : ∀ type, sizes.get type < 2 ^ 32)
    (hbindings : ∀ binding ∈ bindings, binding.count < 2 ^ 32)
    (h : sizes.withBindings bindings = .ok list) : ∀ size ∈ list, size.count < 2 ^ 32 := by
  induction bindings using List.reverseRecOn generalizing list with
  | nil =>
    cases h
    intro size hmem
    obtain ⟨type, -, rfl⟩ := List.mem_map.mp hmem
    exact hsizes type
  | append_singleton before binding ih =>
    obtain ⟨mid, hmid, hadd⟩ := withBindings_concat_eq_ok.mp h
    obtain ⟨hbefore, hbinding⟩ := List.forall_mem_append.mp hbindings
    exact lt_of_addSize (hbinding binding List.mem_cons_self) (ih hbefore hmid) hadd

theorem withBindings_eq_error (hsizes : ∀ type, sizes.get type < 2 ^ 32)
    (hbindings : ∀ binding ∈ bindings, binding.count < 2 ^ 32)
    (h : 2 ^ 32 ≤ sizes.get type + demand type bindings) :
    sizes.withBindings bindings = .error .addOverflow := by
  cases hlist : sizes.withBindings bindings with
  | error fault => rw [error_of_withBindings hlist]
  | ok list =>
    -- The entry of the type would hold the total.
    obtain ⟨hnodup, hsupply⟩ := withBindings_eq_ok hlist
    have hpos : 0 < supply type list := by
      rw [hsupply]
      omega
    obtain ⟨size, hmem, -, hcount⟩ := exists_of_supply hnodup hpos
    have hlt := lt_of_withBindings hsizes hbindings hlist size hmem
    rw [hcount, hsupply] at hlt
    omega

/--
If the total of each type fits in 32 bits, a list of all totals comes out: an entry for each type,
first the counted ones and then the others in order of their first bindings. As entries of their
types these are the same for all orders of the bindings. If a total of counters and counts of 32
bits does not fit, the addition overflows.
-/
theorem withBindings_exact (sizes : PoolSizes) (bindings : List LayoutBinding) :
    ((∀ type, sizes.get type + demand type bindings < 2 ^ 32) →
      ∃ list, sizes.withBindings bindings = .ok list ∧ Totals sizes bindings list ∧
        ∀ bindings', bindings.Perm bindings' →
          ∃ list', sizes.withBindings bindings' = .ok list' ∧ list.Perm list') ∧
    ((∀ type, sizes.get type < 2 ^ 32) → (∀ binding ∈ bindings, binding.count < 2 ^ 32) →
      ∀ type, 2 ^ 32 ≤ sizes.get type + demand type bindings →
        sizes.withBindings bindings = .error .addOverflow) := by
  constructor
  · intro hfits
    obtain ⟨list, hlist⟩ := exists_withBindings hfits
    refine ⟨list, hlist, totals_of_withBindings hlist, fun bindings' hperm => ?_⟩
    have hfits' (type : DescriptorType) : sizes.get type + demand type bindings' < 2 ^ 32 :=
      demand_perm hperm ▸ hfits type
    obtain ⟨list', hlist'⟩ := exists_withBindings hfits'
    exact ⟨list', hlist', perm_of_withBindings hperm hlist hlist'⟩
  · intro hsizes hbindings type
    exact withBindings_eq_error hsizes hbindings

/-- Types without a counter are listed as they come, and a counter can be filled to the brim. -/
theorem withBindings_exact_reversed :
    let bindings : List LayoutBinding := [⟨0, .inputAttachment, 2, .empty⟩,
      ⟨1, .uniformBuffer, 4294967294, .empty⟩, ⟨2, .inputAttachment, 3, .empty⟩,
      ⟨3, .sampler, 0, .empty⟩]
    let counted : List PoolSize := [⟨.uniformBuffer, 4294967295⟩, ⟨.uniformBufferDynamic, 1⟩,
      ⟨.storageBuffer, 1⟩, ⟨.storageBufferDynamic, 1⟩, ⟨.combinedImageSampler, 1⟩,
      ⟨.storageImage, 1⟩]
    let list := counted ++ [⟨.inputAttachment, 5⟩, ⟨.sampler, 0⟩]
    let reversed := counted ++ [⟨.sampler, 0⟩, ⟨.inputAttachment, 5⟩]
    (baseline.withBindings bindings = .ok list ∧ Totals baseline bindings list) ∧
      (baseline.withBindings bindings.reverse = .ok reversed ∧ list.Perm reversed) ∧
      baseline.withBindings (⟨4, .uniformBuffer, 1, .empty⟩ :: bindings) =
        .error .addOverflow := by
  intro bindings counted list reversed
  have hlist : baseline.withBindings bindings = .ok list := by decide +kernel
  have hreversed : baseline.withBindings bindings.reverse = .ok reversed := by decide +kernel
  have hfits (type : DescriptorType) : baseline.get type + demand type bindings < 2 ^ 32 := by
    cases type <;> decide
  have hcounters (type : DescriptorType) : baseline.get type < 2 ^ 32 := by
    cases type <;> decide
  obtain ⟨_, hlist', htotals, hperm⟩ := (withBindings_exact baseline bindings).1 hfits
  cases hlist.symm.trans hlist'
  obtain ⟨_, hreversed', hsame⟩ := hperm bindings.reverse (List.reverse_perm _).symm
  cases hreversed.symm.trans hreversed'
  exact ⟨⟨hlist, htotals⟩, ⟨hreversed, hsame⟩,
    (withBindings_exact baseline _).2 hcounters (by decide) .uniformBuffer (by decide)⟩

end PoolSizes

end ShaderBinding
