import Mathlib.Data.List.Nodup
import ShaderBinding.Descriptor.PoolSizes
import ShaderBinding.Proofs.Fault

/-! # What pool sizes count

Every counter is the number of descriptors that count for its type, and one more. The sizes of a
pool have one entry per type, which holds the counter and all further bindings of the type.
-/

namespace ShaderBinding

/-- How many descriptors of a type bindings take. -/
def demand (type : DescriptorType) (bindings : List LayoutBinding) : Nat :=
  ((bindings.filter (·.type = type)).map (·.count)).sum

def supply (type : DescriptorType) (sizes : List PoolSize) : Nat :=
  ((sizes.filter (·.type = type)).map (·.count)).sum

variable {type : DescriptorType}

theorem demand_cons (binding : LayoutBinding) (rest : List LayoutBinding) :
    demand type (binding :: rest) =
      (if binding.type = type then binding.count else 0) + demand type rest := by
  unfold demand
  split <;> simp [*]

theorem demand_append (bindings later : List LayoutBinding) :
    demand type (bindings ++ later) = demand type bindings + demand type later := by
  simp [demand]

theorem supply_cons (size : PoolSize) (rest : List PoolSize) :
    supply type (size :: rest) =
      (if size.type = type then size.count else 0) + supply type rest := by
  unfold supply
  split <;> simp [*]

theorem exists_of_supply {sizes : List PoolSize} (hnodup : (sizes.map (·.type)).Nodup)
    (h : 0 < supply type sizes) :
    ∃ size ∈ sizes, size.type = type ∧ size.count = supply type sizes := by
  induction sizes with
  | nil => cases h
  | cons size rest ih =>
    obtain ⟨hnew, hrest⟩ := List.nodup_cons.mp hnodup
    rw [supply_cons] at h ⊢
    by_cases htype : size.type = type
    · have hnone : supply type rest = 0 := by
        by_contra hsome
        obtain ⟨other, hmem, hother, -⟩ := ih hrest (Nat.pos_of_ne_zero hsome)
        exact hnew (List.mem_map.mpr ⟨other, hmem, hother.trans htype.symm⟩)
      exact ⟨size, List.mem_cons_self, htype, by rw [if_pos htype, hnone, Nat.add_zero]⟩
    · rw [if_neg htype, Nat.zero_add] at h ⊢
      obtain ⟨other, hmem, hother⟩ := ih hrest h
      exact ⟨other, List.mem_cons_of_mem _ hmem, hother⟩

theorem count_le_supply {size : PoolSize} {sizes : List PoolSize} (hmem : size ∈ sizes) :
    size.count ≤ supply size.type sizes := by
  induction hmem with
  | head =>
    rw [supply_cons, if_pos rfl]
    exact Nat.le_add_right ..
  | tail _ _ ih =>
    rw [supply_cons]
    exact Nat.le_trans ih (Nat.le_add_left ..)

theorem count_of_mem {sizes : List PoolSize} (hnodup : (sizes.map (·.type)).Nodup)
    {size : PoolSize} (hmem : size ∈ sizes) : size.count = supply size.type sizes := by
  have hle := count_le_supply hmem
  rcases Nat.eq_zero_or_pos (supply size.type sizes) with hzero | hpos
  · omega
  · obtain ⟨other, hother, htype, hcount⟩ := exists_of_supply hnodup hpos
    obtain rfl : size = other := List.inj_on_of_nodup_map hnodup hmem hother htype.symm
    exact hcount

namespace PoolSizes

variable {sizes sizes' : PoolSizes}

theorem get_put (sizes : PoolSizes) (n : Nat) (type other : DescriptorType) :
    (sizes.put n type).get other = if other = type ∧ type ∈ types then n else sizes.get other := by
  cases type <;> cases other <;> rfl

theorem get_raise {amount : DescriptorType → Nat} {listed : List DescriptorType}
    (hnodup : listed.Nodup) (hlisted : ∀ type ∈ listed, type ∈ types)
    (h : raise amount sizes listed = (.ok (), sizes')) (type : DescriptorType) :
    sizes'.get type = sizes.get type + if type ∈ listed then amount type else 0 := by
  induction listed generalizing sizes with
  | nil => cases h; simp
  | cons first rest ih =>
    obtain ⟨hfirst, hrest⟩ := List.nodup_cons.mp hnodup
    obtain ⟨hcounted, hothers⟩ := List.forall_mem_cons.mp hlisted
    unfold raise at h
    split at h
    · rename_i n hn
      obtain ⟨-, rfl⟩ := Checked.add_eq_ok_iff.mp hn
      rw [ih hrest hothers h, get_put]
      by_cases heq : type = first
      · subst heq
        simp [hcounted, hfirst]
      · simp [heq]
    · cases h

theorem get_count {category : Category} {n : Nat} (h : sizes.count category n = .ok sizes')
    (type : DescriptorType) :
    sizes'.get type = sizes.get type + if type ∈ countedAs category then n else 0 := by
  unfold count at h
  rcases hraise : raise (fun _ => n) sizes (countedAs category) with ⟨_ | _, raised⟩
  · rw [hraise] at h
    cases h
  · rw [hraise] at h
    cases h
    exact get_raise (by cases category <;> decide) (by cases category <;> decide) hraise type

theorem get_ofLayoutMap {layout : LayoutMap} (h : ofLayoutMap layout = .ok sizes)
    (type : DescriptorType) :
    sizes.get type = baseline.get type +
      (layout.resources.filterMap (·.category?)).countP (type ∈ countedAs ·) := by
  unfold ofLayoutMap at h
  generalize layout.resources.filterMap (·.category?) = categories at h ⊢
  generalize baseline = start at h ⊢
  induction categories generalizing start with
  | nil => cases h; simp
  | cons category rest ih =>
    obtain ⟨next, hcount, h⟩ := Except.bind_eq_ok.mp h
    rw [ih next h, get_count hcount, List.countP_cons, Nat.add_assoc, Nat.add_comm (ite ..)]
    simp

theorem get_eq_zero_iff {layout : LayoutMap} (h : ofLayoutMap layout = .ok sizes)
    (type : DescriptorType) : sizes.get type = 0 ↔ type ∉ types := by
  have hbaseline : baseline.get type = 0 ↔ type ∉ types := by cases type <;> decide
  rw [← hbaseline]
  constructor
  · intro hzero
    rw [get_ofLayoutMap h] at hzero
    omega
  · intro hnone
    cases type <;> first | rfl | cases hnone

/-! Few enough descriptors can be counted. -/

theorem exists_raise {amount : DescriptorType → Nat} {listed : List DescriptorType}
    (hnodup : listed.Nodup) (h : ∀ type ∈ listed, sizes.get type + amount type < 2 ^ 32) :
    ∃ raised, raise amount sizes listed = (.ok (), raised) := by
  induction listed generalizing sizes with
  | nil => exact ⟨sizes, rfl⟩
  | cons first rest ih =>
    obtain ⟨hfirst, hrest⟩ := List.nodup_cons.mp hnodup
    obtain ⟨hfits, hothers⟩ := List.forall_mem_cons.mp h
    have hadd : Checked.add32 (sizes.get first) (amount first) =
        .ok (sizes.get first + amount first) := Checked.add_eq_ok_iff.mpr ⟨hfits, rfl⟩
    rw [raise, hadd]
    refine ih hrest fun type hmem => ?_
    rw [get_put, if_neg (by rintro ⟨rfl, -⟩; exact hfirst hmem)]
    exact hothers type hmem

theorem exists_count (category : Category) {n : Nat} (h : ∀ type, sizes.get type + n < 2 ^ 32) :
    ∃ counted, sizes.count category n = .ok counted := by
  have hnodup : (countedAs category).Nodup := by cases category <;> decide
  obtain ⟨raised, hraise⟩ := exists_raise hnodup fun type _ => h type
  exact ⟨raised, by rw [count, hraise]; rfl⟩

theorem exists_foldlM_count (categories : List Category) {start : PoolSizes}
    (h : ∀ type, start.get type + categories.length < 2 ^ 32) :
    ∃ counters, categories.foldlM (fun sizes category => sizes.count category 1) start =
      .ok counters := by
  induction categories generalizing start with
  | nil => exact ⟨start, rfl⟩
  | cons category rest ih =>
    simp only [List.length_cons] at h
    have hfits (type : DescriptorType) : start.get type + 1 < 2 ^ 32 := by
      have hstart := h type
      omega
    obtain ⟨next, hnext⟩ := exists_count category hfits
    rw [List.foldlM_cons, hnext]
    refine ih fun type => ?_
    have hstart := h type
    rw [get_count hnext]
    split <;> omega

theorem exists_ofLayoutMap {layout : LayoutMap} (h : layout.size + 1 < 2 ^ 32) :
    ∃ counters, ofLayoutMap layout = .ok counters := by
  refine exists_foldlM_count _ fun type => ?_
  have hcategories := List.length_filterMap_le (·.category?) layout.resources
  have hresources : layout.resources.length = layout.size := List.length_map _
  have hbaseline : baseline.get type ≤ 1 := by cases type <;> decide
  omega

theorem supply_toList (sizes : PoolSizes) (type : DescriptorType) :
    supply type sizes.toList = sizes.get type := by
  cases type <;> rfl

theorem types_addSize {n : Nat} {list list' : List PoolSize}
    (h : addSize type n list = .ok list') :
    list'.map (·.type) = if type ∈ list.map (·.type) then list.map (·.type)
      else list.map (·.type) ++ [type] := by
  induction list generalizing list' with
  | nil => cases h; rfl
  | cons size rest ih =>
    unfold addSize at h
    split at h
    · rename_i htype
      obtain ⟨_, -, h⟩ := Except.bind_eq_ok.mp h
      cases h
      simp [htype]
    · rename_i htype
      obtain ⟨others, hothers, h⟩ := Except.bind_eq_ok.mp h
      cases h
      rw [List.map_cons, ih hothers]
      by_cases hmem : type ∈ rest.map (·.type)
      · rw [if_pos hmem, List.map_cons, if_pos (List.mem_cons_of_mem _ hmem)]
      · rw [if_neg hmem, List.map_cons, if_neg (by simpa [Ne.symm htype] using hmem)]
        rfl

theorem supply_addSize {n : Nat} {list list' : List PoolSize}
    (h : addSize type n list = .ok list') (other : DescriptorType) :
    supply other list' = supply other list + if type = other then n else 0 := by
  induction list generalizing list' with
  | nil =>
    cases h
    rw [supply_cons]
    exact Nat.add_comm ..
  | cons size rest ih =>
    unfold addSize at h
    split at h
    · rename_i htype
      obtain ⟨total, htotal, h⟩ := Except.bind_eq_ok.mp h
      obtain ⟨-, rfl⟩ := Checked.add_eq_ok_iff.mp htotal
      cases h
      rw [supply_cons, supply_cons, htype]
      by_cases hother : type = other
      · simp only [if_pos hother]
        omega
      · simp only [if_neg hother, Nat.add_zero]
    · obtain ⟨others, hothers, h⟩ := Except.bind_eq_ok.mp h
      cases h
      rw [supply_cons, supply_cons, ih hothers, Nat.add_assoc]

/-- The sizes of a pool have one entry per type, with room for the counter and the bindings. -/
theorem withBindings_eq_ok {bindings : List LayoutBinding} {list : List PoolSize}
    (h : sizes.withBindings bindings = .ok list) :
    (list.map (·.type)).Nodup ∧
      ∀ type, supply type list = sizes.get type + demand type bindings := by
  have hstart : (sizes.toList.map (·.type)).Nodup := by
    rw [toList, List.map_map]
    exact (by decide : types.Nodup)
  simp only [← supply_toList]
  unfold withBindings at h
  generalize sizes.toList = start at h hstart ⊢
  induction bindings generalizing start with
  | nil => cases h; exact ⟨hstart, fun _ => rfl⟩
  | cons binding rest ih =>
    obtain ⟨next, hnext, h⟩ := Except.bind_eq_ok.mp h
    have htypes := types_addSize hnext
    have hnodup : (next.map (·.type)).Nodup := by
      rw [htypes]
      split
      · exact hstart
      · rename_i hnew
        exact List.concat_eq_append ▸ hstart.concat hnew
    obtain ⟨hlist, hsupply⟩ := ih next h hnodup
    refine ⟨hlist, fun type => ?_⟩
    rw [hsupply, supply_addSize hnext, demand_cons, Nat.add_assoc]

theorem mem_types_addSize {n : Nat} {list list' : List PoolSize}
    (h : addSize type n list = .ok list') (other : DescriptorType) :
    other ∈ list'.map (·.type) ↔ other ∈ list.map (·.type) ∨ other = type := by
  rw [types_addSize h]
  split
  · rename_i hmem
    exact (or_iff_left_of_imp fun heq => heq ▸ hmem).symm
  · rw [List.mem_append, List.mem_singleton]

theorem mem_types_withBindings {bindings : List LayoutBinding} {list : List PoolSize}
    (h : sizes.withBindings bindings = .ok list) (type : DescriptorType) :
    type ∈ list.map (·.type) ↔ type ∈ types ∨ ∃ binding ∈ bindings, binding.type = type := by
  have hstart : sizes.toList.map (·.type) = types := rfl
  rw [← hstart]
  unfold withBindings at h
  generalize sizes.toList = start at h ⊢
  induction bindings generalizing start with
  | nil => cases h; simp
  | cons binding rest ih =>
    obtain ⟨next, hnext, h⟩ := Except.bind_eq_ok.mp h
    refine (ih next h).trans ?_
    rw [mem_types_addSize hnext, List.exists_mem_cons_iff, or_assoc, @eq_comm _ binding.type]

theorem count_of_withBindings {bindings : List LayoutBinding} {list : List PoolSize}
    (h : sizes.withBindings bindings = .ok list) {size : PoolSize} (hmem : size ∈ list) :
    size.count = sizes.get size.type + demand size.type bindings := by
  obtain ⟨hnodup, hsupply⟩ := withBindings_eq_ok h
  rw [count_of_mem hnodup hmem, hsupply]

/-! Bindings with few enough descriptors can be added. -/

theorem exists_addSize {n : Nat} {list : List PoolSize} (h : supply type list + n < 2 ^ 32) :
    ∃ list', addSize type n list = .ok list' := by
  induction list with
  | nil => exact ⟨[⟨type, n⟩], rfl⟩
  | cons size rest ih =>
    rw [supply_cons] at h
    rw [addSize]
    by_cases htype : size.type = type
    · rw [if_pos htype] at h
      have hfits : size.count + n < 2 ^ 32 := by omega
      have hadd : Checked.add32 size.count n = .ok (size.count + n) :=
        Checked.add_eq_ok_iff.mpr ⟨hfits, rfl⟩
      exact ⟨⟨type, size.count + n⟩ :: rest, by rw [if_pos htype, hadd]; rfl⟩
    · rw [if_neg htype, Nat.zero_add] at h
      obtain ⟨others, hothers⟩ := ih h
      exact ⟨size :: others, by rw [if_neg htype, hothers]; rfl⟩

theorem exists_withBindings {bindings : List LayoutBinding}
    (h : ∀ type, sizes.get type + demand type bindings < 2 ^ 32) :
    ∃ list, sizes.withBindings bindings = .ok list := by
  simp only [← supply_toList] at h
  unfold withBindings
  generalize sizes.toList = start at h ⊢
  induction bindings generalizing start with
  | nil => exact ⟨start, rfl⟩
  | cons binding rest ih =>
    have hfits : supply binding.type start + binding.count < 2 ^ 32 := by
      have hfits := h binding.type
      rw [demand_cons, if_pos rfl] at hfits
      omega
    obtain ⟨next, hnext⟩ := exists_addSize hfits
    rw [List.foldlM_cons, hnext]
    refine ih next fun type => ?_
    have hfits := h type
    rw [demand_cons] at hfits
    rw [supply_addSize hnext]
    omega

end PoolSizes

end ShaderBinding
