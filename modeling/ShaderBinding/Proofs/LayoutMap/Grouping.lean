import Mathlib.Data.List.Chain
import ShaderBinding.Proofs.LayoutMap.Declaring
import ShaderBinding.Proofs.Fault

/-! # Descriptors by set

Grouping looks only at whether neighbours belong to the same set. Whatever the entries are, the
groups have them in their order, none is empty, and neighbouring groups are of different sets; no
other groups are like that. That the entries ascend makes the sets of the groups ascend, so that
every set has one group.
-/

namespace ShaderBinding

theorem eraseReps_cons {α : Type} [DecidableEq α] (x : α) (xs : List α) :
    (x :: xs).eraseReps = if xs.head? = some x then xs.eraseReps else x :: xs.eraseReps := by
  have hloop (rest : List α) (x : α) (seen : List α) :
      List.eraseRepsBy.loop (· == ·) x rest seen =
        seen.reverse ++ List.eraseRepsBy.loop (· == ·) x rest [] := by
    induction rest generalizing x seen with
    | nil => simp [List.eraseRepsBy.loop]
    | cons y rest ih =>
      unfold List.eraseRepsBy.loop
      split
      · exact ih x seen
      · rw [ih y (x :: seen), ih y [x]]
        simp
  cases xs with
  | nil => rfl
  | cons y rest =>
    change List.eraseRepsBy.loop (· == ·) x (y :: rest) [] = _
    unfold List.eraseRepsBy.loop
    by_cases h : x = y
    · subst h
      simp [List.eraseReps, List.eraseRepsBy]
    · have hbeq : (x == y) = false := beq_false_of_ne h
      simp [hbeq, Ne.symm h, hloop rest y [x], List.eraseReps, List.eraseRepsBy]

namespace LayoutMap

variable {m m' : LayoutMap} {entries : List (BindingKey × Resource)}
  {groups : List (Nat × List (Nat × Resource))}

def ungroup (groups : List (Nat × List (Nat × Resource))) : List (BindingKey × Resource) :=
  groups.flatMap fun group => group.2.map fun bound => (⟨group.1, bound.1⟩, bound.2)

theorem mem_ungroup {key : BindingKey} {resource : Resource} :
    (key, resource) ∈ ungroup groups ↔
      ∃ group ∈ groups, group.1 = key.set ∧ (key.binding, resource) ∈ group.2 := by
  obtain ⟨set, binding⟩ := key
  simp only [ungroup, List.mem_flatMap, List.mem_map, Prod.mk.injEq, BindingKey.mk.injEq]
  constructor
  · rintro ⟨group, hgroup, bound, hbound, ⟨rfl, rfl⟩, rfl⟩
    exact ⟨group, hgroup, rfl, hbound⟩
  · rintro ⟨group, hgroup, rfl, hbound⟩
    exact ⟨group, hgroup, _, hbound, ⟨rfl, rfl⟩, rfl⟩

theorem head?_groupBySet (entries : List (BindingKey × Resource)) :
    (groupBySet entries).head?.map (·.1) = entries.head?.map (·.1.set) := by
  cases entries with
  | nil => rfl
  | cons entry rest =>
    unfold groupBySet
    split
    · rfl
    · split
      · rename_i hset
        exact congrArg some hset
      · rfl

section cons

variable {key : BindingKey} {resource : Resource} {rest : List (BindingKey × Resource)}

theorem groupBySet_join {bindings : List (Nat × Resource)}
    (h : groupBySet rest = (key.set, bindings) :: groups) :
    groupBySet ((key, resource) :: rest) =
      (key.set, (key.binding, resource) :: bindings) :: groups := by
  rw [groupBySet, h]
  exact if_pos rfl

theorem groupBySet_start (h : (groupBySet rest).head?.map (·.1) ≠ some key.set) :
    groupBySet ((key, resource) :: rest) =
      (key.set, [(key.binding, resource)]) :: groupBySet rest := by
  rw [groupBySet]
  split
  · rename_i hrest
    rw [hrest]
  · rename_i hrest
    rw [hrest] at h ⊢
    exact if_neg fun hset => h (congrArg some hset)

/-- An entry joins the group of the entry after it, if that is of the same set, and otherwise
starts a group of its own. -/
theorem groupBySet_cons (key : BindingKey) (resource : Resource)
    (rest : List (BindingKey × Resource)) :
    (rest.head?.map (·.1.set) = some key.set ∧
      ∃ bindings groups, groupBySet rest = (key.set, bindings) :: groups ∧
        groupBySet ((key, resource) :: rest) =
          (key.set, (key.binding, resource) :: bindings) :: groups) ∨
    (rest.head?.map (·.1.set) ≠ some key.set ∧
      groupBySet ((key, resource) :: rest) =
        (key.set, [(key.binding, resource)]) :: groupBySet rest) := by
  rw [← head?_groupBySet]
  by_cases h : (groupBySet rest).head?.map (·.1) = some key.set
  · obtain ⟨⟨_, bindings⟩, hhead, rfl⟩ := Option.map_eq_some_iff.mp h
    obtain ⟨groups, hrest⟩ := List.head?_eq_some_iff.mp hhead
    exact Or.inl ⟨h, bindings, groups, hrest, groupBySet_join hrest⟩
  · exact Or.inr ⟨h, groupBySet_start h⟩

end cons

theorem ungroup_groupBySet (entries : List (BindingKey × Resource)) :
    ungroup (groupBySet entries) = entries := by
  induction entries with
  | nil => rfl
  | cons entry rest ih =>
    rcases groupBySet_cons entry.1 entry.2 rest with ⟨-, bindings, groups, hrest, h⟩ | ⟨-, h⟩
    · rw [hrest] at ih
      rw [h, ← ih]
      rfl
    · rw [h]
      exact congrArg (entry :: ·) ih

theorem groupBySet_ne_nil (entries : List (BindingKey × Resource)) :
    ∀ group ∈ groupBySet entries, group.2 ≠ [] := by
  induction entries with
  | nil => exact nofun
  | cons entry rest ih =>
    rcases groupBySet_cons entry.1 entry.2 rest with ⟨-, bindings, groups, hrest, h⟩ | ⟨-, h⟩
    · rw [hrest] at ih
      rw [h]
      exact List.forall_mem_cons.mpr
        ⟨List.cons_ne_nil _ _, fun group hgroup => ih group (List.mem_cons_of_mem _ hgroup)⟩
    · rw [h]
      exact List.forall_mem_cons.mpr ⟨List.cons_ne_nil _ _, ih⟩

theorem map_groupBySet (entries : List (BindingKey × Resource)) :
    (groupBySet entries).map (·.1) = (entries.map (·.1.set)).eraseReps := by
  induction entries with
  | nil => rfl
  | cons entry rest ih =>
    rw [List.map_cons, eraseReps_cons, List.head?_map, ← ih]
    rcases groupBySet_cons entry.1 entry.2 rest with
      ⟨hset, bindings, groups, hrest, h⟩ | ⟨hset, h⟩
    · rw [if_pos hset, hrest, h]
      rfl
    · rw [if_neg hset, h]
      rfl

theorem isChain_groupBySet (entries : List (BindingKey × Resource)) :
    ((groupBySet entries).map (·.1)).IsChain (· ≠ ·) := by
  induction entries with
  | nil => exact .nil
  | cons entry rest ih =>
    rcases groupBySet_cons entry.1 entry.2 rest with
      ⟨-, bindings, groups, hrest, h⟩ | ⟨hset, h⟩
    · rw [hrest] at ih
      rw [h]
      exact ih
    · rw [h, List.map_cons, List.isChain_cons]
      refine ⟨fun set hhead heq => hset ?_, ih⟩
      rw [← head?_groupBySet, ← List.head?_map, hhead, ← heq]

theorem groupBySet_group {set : Nat} {bindings : List (Nat × Resource)} (hne : bindings ≠ [])
    (hset : groups.head?.map (·.1) ≠ some set) (h : groupBySet (ungroup groups) = groups) :
    groupBySet (ungroup ((set, bindings) :: groups)) = (set, bindings) :: groups := by
  induction bindings with
  | nil => exact absurd rfl hne
  | cons bound rest ih =>
    cases rest with
    | nil =>
      rw [← h] at hset
      exact (groupBySet_start hset).trans (congrArg ((set, [bound]) :: ·) h)
    | cons next rest => exact groupBySet_join (ih (List.cons_ne_nil _ _))

/-- These properties determine the groups, in whatever order the entries are gone through. -/
theorem groupBySet_eq_iff :
    groupBySet entries = groups ↔
      ungroup groups = entries ∧ (∀ group ∈ groups, group.2 ≠ []) ∧
        (groups.map (·.1)).IsChain (· ≠ ·) := by
  constructor
  · rintro rfl
    exact ⟨ungroup_groupBySet _, groupBySet_ne_nil _, isChain_groupBySet _⟩
  · rintro ⟨rfl, hne, hchain⟩
    induction groups with
    | nil => rfl
    | cons group rest ih =>
      rw [List.map_cons, List.isChain_cons] at hchain
      obtain ⟨hgroup, hrest⟩ := List.forall_mem_cons.mp hne
      refine groupBySet_group hgroup (fun hhead => ?_) (ih hrest hchain.2)
      exact hchain.1 _ (List.head?_map.trans hhead) rfl

section Ascending

variable (h : entries.Pairwise fun a b => a.1 < b.1)

include h

theorem pairwise_bindings : ∀ group ∈ groupBySet entries, (group.2.map (·.1)).Pairwise (· < ·) := by
  rw [← ungroup_groupBySet entries, ungroup, List.pairwise_flatMap] at h
  intro group hgroup
  refine List.pairwise_map.mpr ((List.pairwise_map.mp (h.1 group hgroup)).imp fun hlt => ?_)
  exact (BindingKey.lt_iff.mp hlt).elim (fun hset => absurd hset (Nat.lt_irrefl _)) (·.2)

theorem pairwise_sets : ((groupBySet entries).map (·.1)).Pairwise (· < ·) := by
  rw [← ungroup_groupBySet entries, ungroup, List.pairwise_flatMap] at h
  have hle : ((groupBySet entries).map (·.1)).Pairwise (· ≤ ·) := by
    refine List.pairwise_map.mpr (h.2.imp_of_mem fun {a b} ha hb hlt => ?_)
    obtain ⟨first, hfirst⟩ := List.exists_mem_of_ne_nil _ (groupBySet_ne_nil entries a ha)
    obtain ⟨second, hsecond⟩ := List.exists_mem_of_ne_nil _ (groupBySet_ne_nil entries b hb)
    have hkeys := hlt _ (List.mem_map_of_mem hfirst) _ (List.mem_map_of_mem hsecond)
    exact (BindingKey.lt_iff.mp hkeys).elim Nat.le_of_lt fun hset => Nat.le_of_eq hset.1
  have hne := isChain_groupBySet entries
  rw [List.isChain_iff_getElem] at hne
  rw [← List.isChain_iff_pairwise, List.isChain_iff_getElem]
  intro i hi
  exact Nat.lt_of_le_of_ne (List.pairwise_iff_getElem.mp hle i (i + 1) _ hi (Nat.lt_succ_self i))
    (hne i hi)

end Ascending

/-- All views of a map show the same entries in the same order. -/
structure Grouped (m : LayoutMap) : Prop where
  ascending : m.entries.Pairwise fun a b => a.1 < b.1
  flatten : ungroup m.sets = m.entries
  sets : (m.sets.map (·.1)).Pairwise (· < ·)
  ne_nil : ∀ group ∈ m.sets, group.2 ≠ []
  bindings : ∀ group ∈ m.sets, (group.2.map (·.1)).Pairwise (· < ·)
  indices : m.setIndices = m.sets.map (·.1)
  listed : ∀ key resource, m.get? key = some resource ↔
    ∃ group ∈ m.sets, group.1 = key.set ∧ (key.binding, resource) ∈ group.2

theorem grouped (m : LayoutMap) : m.Grouped where
  ascending := m.sorted
  flatten := ungroup_groupBySet m.entries
  sets := pairwise_sets m.sorted
  ne_nil := groupBySet_ne_nil m.entries
  bindings := pairwise_bindings m.sorted
  indices := (map_groupBySet m.entries).symm
  listed key resource := by
    rw [get?_eq_some_iff, ← mem_ungroup, LayoutMap.sets, ungroup_groupBySet]

theorem mem_keys_iff {key : BindingKey} :
    key ∈ m.entries.map (·.1) ↔ (m.get? key).isSome := by
  simp only [Option.isSome_iff_exists, get?_eq_some_iff, List.mem_map, Prod.exists,
    exists_and_right, exists_eq_right]

theorem mem_keys_insert {resource : Resource} {stage : Stage}
    (h : m.insert resource stage = .ok m') (key : BindingKey) :
    key ∈ m'.entries.map (·.1) ↔ key ∈ m.entries.map (·.1) ∨ resource.key? = some key := by
  obtain ⟨declared, entry, hdeclared, -, hget⟩ := insert_eq_ok h
  rw [mem_keys_iff, mem_keys_iff, hget, hdeclared, Option.some_inj]
  split
  · rename_i heq
    exact iff_of_true rfl (Or.inr heq.symm)
  · rename_i hne
    exact (or_iff_left (Ne.symm hne)).symm

theorem mem_keys_foldlM {decls : List (Stage × Resource)}
    (h : decls.foldlM (fun m decl => m.insert decl.2 decl.1) m = .ok m') (key : BindingKey) :
    key ∈ m'.entries.map (·.1) ↔
      key ∈ m.entries.map (·.1) ∨ ∃ decl ∈ decls, decl.2.key? = some key := by
  induction decls generalizing m with
  | nil =>
    cases h
    simp
  | cons decl rest ih =>
    rw [List.foldlM_cons] at h
    obtain ⟨next, hnext, h⟩ := Except.bind_eq_ok.mp h
    rw [ih h, mem_keys_insert hnext]
    simp only [List.mem_cons, exists_eq_or_imp, or_assoc]

/--
Whatever sequence of accepted declarations built a map, it has each declared key once and no other,
in ascending order of the sets and, in a set, of the bindings. Its groups hold the same entries in
the same order: every set has one group, which is not empty. Looking up a key finds what is listed
under it.
-/
theorem insertAll_grouped {decls : List (Stage × Resource)}
    (h : decls.foldlM (fun m decl => m.insert decl.2 decl.1) empty = .ok m) :
    m.Grouped ∧ (m.entries.map (·.1)).Nodup ∧
      ∀ key, key ∈ m.entries.map (·.1) ↔ ∃ decl ∈ decls, decl.2.key? = some key := by
  refine ⟨m.grouped, m.nodup_keys, fun key => ?_⟩
  rw [mem_keys_foldlM h]
  exact or_iff_right List.not_mem_nil

/-- Three keys in two sets, one of them declared by two stages, out of order and with gaps. -/
theorem insertAll_grouped_sparse :
    let block (set binding : Nat) : Resource :=
      ⟨"Globals", .descriptor set binding .empty .uniformBuffer, .vector .float 4 16⟩
    let decls := [(Stage.vertex, block 2 3), (Stage.vertex, block 0 1),
      (Stage.fragment, block 2 0), (Stage.fragment, block 2 3)]
    ∃ m : LayoutMap, decls.foldlM (fun m decl => m.insert decl.2 decl.1) empty = .ok m ∧
      m.Grouped ∧ (m.entries.map (·.1)).Nodup ∧ m.setIndices = [0, 2] ∧
      ∃ resource, (⟨2, 3⟩, resource) ∈ m.entries := by
  intro block decls
  have hbuilt : decls.foldlM (fun m decl => m.insert decl.2 decl.1) empty = .ok _ := rfl
  obtain ⟨hgrouped, hnodup, hkeys⟩ := insertAll_grouped hbuilt
  obtain ⟨⟨_, resource⟩, hmem, rfl⟩ := List.mem_map.mp
    ((hkeys ⟨2, 3⟩).mpr ⟨(.vertex, block 2 3), List.mem_cons_self, rfl⟩)
  exact ⟨_, hbuilt, hgrouped, hnodup, rfl, resource, hmem⟩

end LayoutMap

end ShaderBinding
