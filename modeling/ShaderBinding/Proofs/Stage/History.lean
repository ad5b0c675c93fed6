import Mathlib.Logic.Function.Basic
import ShaderBinding.Proofs.Stage.Map

/-! # Histories of stage maps

A stage map that some sequence of operations has made is the partial function that the same
operations make. What it looks up, lists, counts and collects is read off that function.
-/

namespace ShaderBinding

namespace Stage

theorem getLsbD_flag (stage : Stage) (i : Nat) :
    stage.flag.bits.getLsbD i = decide (i = stage.index) := by
  have hbits : stage.flag.bits = BitVec.twoPow 5 stage.index := by cases stage <;> rfl
  rw [hbits, BitVec.getLsbD_twoPow]
  simp [eq_comm]

theorem contains_union_flag_iff {stages : List Stage} {stage : Stage} :
    (Flags.union (stages.map flag)).contains stage.flag = true ↔ stage ∈ stages := by
  simp [Flags.contains_iff, Flags.getLsbD_union, getLsbD_flag, index_inj]

end Stage

namespace StageMap

variable {α β : Type}

theorem get?_modify (m : StageMap α) (stage other : Stage) (f : α → α) :
    (m.modify stage f).get? other =
      if other = stage then (m.get? stage).map f else m.get? other :=
  get?_put m _ stage other

theorem updateFrom_ok (f : Stage → α → α) {stages : List Stage} (hnodup : stages.Nodup)
    (m : StageMap α) :
    ∃ m', updateFrom (fun stage value => .ok (f stage value)) stages m = (.ok (), m') ∧
      ∀ other, m'.get? other =
        if other ∈ stages then (m.get? other).map (f other) else m.get? other := by
  induction stages generalizing m with
  | nil => exact ⟨m, rfl, fun other => by simp⟩
  | cons stage rest ih =>
    obtain ⟨hnot, hrest⟩ := List.nodup_cons.mp hnodup
    rw [updateFrom]
    cases hvalue : m.get? stage with
    | none =>
      obtain ⟨m', hrun, hget⟩ := ih hrest m
      refine ⟨m', hrun, fun other => ?_⟩
      rw [hget]
      by_cases hother : other = stage
      · simp [hother, hvalue]
      · simp [hother]
    | some value =>
      -- The slot that changes here is not visited again.
      obtain ⟨m', hrun, hget⟩ := ih hrest (m.insert stage (f stage value))
      refine ⟨m', hrun, fun other => ?_⟩
      rw [hget, get?_insert]
      by_cases hother : other = stage
      · simp [hother, hvalue, hnot]
      · simp [hother]

theorem map_fst_slots (m : StageMap α) : m.slots.map (·.1) = Stage.all := by
  rw [slots_eq, List.map_map]
  rfl

/-- Changing the values in place, slot by slot, is changing all of them at once. -/
theorem update_ok (f : Stage → α → α) (m : StageMap α) :
    m.update (fun stage value => .ok (f stage value)) = (.ok (), m.map f) := by
  obtain ⟨m', hrun, hget⟩ := updateFrom_ok f (by decide : Stage.all.Nodup) m
  have hmap : m' = m.map f := by
    apply eq_of_get?_eq
    intro stage
    rw [hget, if_pos stage.mem_all, get?_map]
  rw [update, map_fst_slots, hrun, hmap]

/-- A slot that a stage addresses is read back as the slot of this stage. -/
theorem getElem?_array_eq_some_iff {m : StageMap α} {i : Nat} {slot : Option α} :
    m.array[i]? = some slot ↔ ∃ stage, Stage.ofIndex i = .ok stage ∧ slot = m.get? stage := by
  rw [← Vector.getElem?_toList, toList_array, List.getElem?_map, Option.map_eq_some_iff]
  simp only [Stage.ofIndex_eq_ok_iff, ← Stage.ofIndex?_eq_some_iff, eq_comm (a := slot)]
  rfl

theorem getElem?_slots_eq_some_iff {m : StageMap α} {i : Nat} {stage : Stage} {slot : Option α} :
    m.slots[i]? = some (stage, slot) ↔ i = stage.index ∧ slot = m.get? stage := by
  rw [slots_eq, List.getElem?_map, Option.map_eq_some_iff, ← Stage.ofIndex?_eq_some_iff]
  constructor
  · rintro ⟨_, hstage, ⟨⟩⟩
    exact ⟨hstage, rfl⟩
  · rintro ⟨hstage, rfl⟩
    exact ⟨stage, hstage, rfl⟩

theorem eq_of_toList_eq {a b : StageMap α} (h : a.toList = b.toList) : a = b := by
  apply eq_of_get?_eq
  intro stage
  ext value
  rw [← mem_toList, ← mem_toList, h]

theorem ofList_toList (m : StageMap α) : ofList m.toList = m :=
  eq_of_toList_eq (toList_ofList m.pairwise_toList)

theorem map_fst_toList (m : StageMap α) :
    m.toList.map (·.1) = Stage.all.filter fun stage => (m.get? stage).isSome := by
  rw [toList_eq, List.map_filterMap, ← List.filterMap_eq_filter]
  refine List.filterMap_congr fun stage _ => ?_
  cases h : m.get? stage <;> simp [Option.guard, h]

/--
A map is a partial function, listed in pipeline order. The slot at position `i` is the one of the
stage that `Stage.ofIndex` gives for `i`, and there is no slot where it gives none.
-/
structure Represents (m : StageMap α) (f : Stage → Option α) : Prop where
  get? : ∀ stage, m.get? stage = f stage
  contains : ∀ stage, m.contains stage = (f stage).isSome
  array : ∀ i slot,
    m.array[i]? = some slot ↔ ∃ stage, Stage.ofIndex i = .ok stage ∧ slot = f stage
  slots : ∀ i stage slot, m.slots[i]? = some (stage, slot) ↔ i = stage.index ∧ slot = f stage
  mem_toList : ∀ stage value, (stage, value) ∈ m.toList ↔ f stage = some value
  pairwise_toList : m.toList.Pairwise fun a b => a.1.index < b.1.index
  length_toList : m.toList.length = m.size
  size : m.size = Stage.all.countP fun stage => (f stage).isSome
  isEmpty : m.isEmpty = true ↔ ∀ stage, f stage = none
  flags : m.flags = Flags.union ((Stage.all.filter fun stage => (f stage).isSome).map Stage.flag)
  contains_flags : ∀ stage, m.flags.contains stage.flag = (f stage).isSome
  ofList_toList : ofList m.toList = m

theorem represents_get? (m : StageMap α) : Represents m m.get? := by
  have hsize : m.size = Stage.all.countP fun stage => (m.get? stage).isSome := by
    rw [StageMap.size, toList_array, List.countP_map]
    rfl
  have hflags : m.flags =
      Flags.union ((Stage.all.filter fun stage => (m.get? stage).isSome).map Stage.flag) := by
    rw [← map_fst_toList, List.map_map]
    rfl
  constructor
  case get? => exact fun _ => rfl
  case contains => exact fun _ => rfl
  case array => exact fun _ _ => getElem?_array_eq_some_iff
  case slots => exact fun _ _ _ => getElem?_slots_eq_some_iff
  case mem_toList => exact fun _ _ => StageMap.mem_toList
  case pairwise_toList => exact m.pairwise_toList
  case length_toList =>
    rw [hsize, ← List.length_map, map_fst_toList, List.countP_eq_length_filter]
  case size => exact hsize
  case isEmpty => simp [StageMap.isEmpty, toList_array, Stage.mem_all]
  case flags => exact hflags
  case contains_flags =>
    intro stage
    rw [hflags, Bool.eq_iff_iff, Stage.contains_union_flag_iff]
    simp [Stage.mem_all]
  case ofList_toList => exact m.ofList_toList

/-- A sequence of operations that leads to a map. A change of all values may change their type. -/
inductive History : Type → Type 1 where
  | empty {α : Type} : History α
  | insert {α : Type} (before : History α) (stage : Stage) (value : α) : History α
  | erase {α : Type} (before : History α) (stage : Stage) : History α
  | modify {α : Type} (before : History α) (stage : Stage) (f : α → α) : History α
  | update {α : Type} (before : History α) (f : Stage → α → α) : History α
  | map {α β : Type} (before : History α) (f : Stage → α → β) : History β
  | ofList {α : Type} (pairs : List (Stage × α)) : History α

namespace History

def run : {α : Type} → History α → StageMap α
  | _, .empty => .empty
  | _, .insert before stage value => before.run.insert stage value
  | _, .erase before stage => before.run.erase stage
  | _, .modify before stage f => before.run.modify stage f
  | _, .update before f => (before.run.update fun stage value => .ok (f stage value)).2
  | _, .map before f => before.run.map f
  | _, .ofList pairs => .ofList pairs

/-- The partial function that the same operations make; the last pair of a stage wins. -/
def value? : {α : Type} → History α → Stage → Option α
  | _, .empty => fun _ => none
  | _, .insert before stage value => Function.update before.value? stage (some value)
  | _, .erase before stage => Function.update before.value? stage none
  | _, .modify before stage f =>
    Function.update before.value? stage ((before.value? stage).map f)
  | _, .update before f => fun stage => (before.value? stage).map (f stage)
  | _, .map before f => fun stage => (before.value? stage).map (f stage)
  | _, .ofList pairs => fun stage => (pairs.reverse.find? (·.1 = stage)).map (·.2)

theorem get?_run (history : History α) (stage : Stage) :
    history.run.get? stage = history.value? stage := by
  induction history generalizing stage with
  | empty => exact get?_empty stage
  | insert before target value ih =>
    rw [run, get?_insert, ih, value?, Function.update_apply]
  | erase before target ih => rw [run, get?_erase, ih, value?, Function.update_apply]
  | modify before target f ih =>
    rw [run, get?_modify, ih, ih, value?, Function.update_apply]
  | update before f ih => rw [run, update_ok, get?_map, ih, value?]
  | map before f ih => rw [run, get?_map, ih, value?]
  | ofList pairs => exact get?_ofList pairs stage

/--
Whatever the operations are that have made a map, it is the partial function that they make of
stages: for each stage it has the value of the function, each slot of the array is the one of the
stage at its position, and the listing, the number of values and the flags are those of the
function.
-/
theorem run_represents {α : Type} (history : History α) :
    Represents history.run history.value? := by
  have hget : history.run.get? = history.value? := funext history.get?_run
  exact hget ▸ history.run.represents_get?

example : (((History.ofList [(.fragment, 1), (.vertex, 2), (.fragment, 3)]).erase .vertex).map
    fun stage n => (n, stage.flag.text)).run.toList = [(.fragment, 3, "FRAGMENT")] := by
  decide

end History

end StageMap

end ShaderBinding
