import ShaderBinding.Stage.Basic

/-! # Maps from stages

A `StageMap` is an array with a slot for each stage. A stage addresses its slot by `Stage.index`,
and a walk over the slots finds the stage of each position by `Stage.ofIndex?`.
-/

namespace ShaderBinding

@[ext]
structure StageMap (α : Type) where
  array : Vector (Option α) 5
  deriving DecidableEq, Repr

namespace StageMap

variable {α β : Type}

def empty : StageMap α := ⟨.replicate 5 none⟩

instance : Inhabited (StageMap α) := ⟨empty⟩

def get? (m : StageMap α) (stage : Stage) : Option α := m.array[stage.index]

def put (m : StageMap α) (value : Option α) (stage : Stage) : StageMap α :=
  ⟨m.array.set stage.index value⟩

def insert (m : StageMap α) (stage : Stage) (value : α) : StageMap α := m.put (some value) stage

def erase (m : StageMap α) (stage : Stage) : StageMap α := m.put none stage

def modify (m : StageMap α) (stage : Stage) (f : α → α) : StageMap α :=
  m.put ((m.get? stage).map f) stage

def contains (m : StageMap α) (stage : Stage) : Bool := (m.get? stage).isSome

/-- Every slot with the stage of its position, occupied or not. -/
def slots (m : StageMap α) : List (Stage × Option α) :=
  m.array.toList.zipIdx.filterMap fun (slot, i) => (Stage.ofIndex? i).map (·, slot)

def toList (m : StageMap α) : List (Stage × α) :=
  m.slots.filterMap fun (stage, slot) => slot.map (stage, ·)

def values (m : StageMap α) : List α := m.toList.map (·.2)

def size (m : StageMap α) : Nat := m.array.toList.countP Option.isSome

def isEmpty (m : StageMap α) : Bool := m.array.toList.all Option.isNone

def flags (m : StageMap α) : StageFlags := Flags.union (m.toList.map (·.1.flag))

def map (f : Stage → α → β) (m : StageMap α) : StageMap β :=
  m.toList.foldl (fun out pair => out.insert pair.1 (f pair.1 pair.2)) empty

def updateFrom (f : Stage → α → Checked α) : List Stage → StageMap α → Checked Unit × StageMap α
  | [], m => (.ok (), m)
  | stage :: rest, m =>
    match (m.get? stage).map (f stage) with
    | none => updateFrom f rest m
    | some (.ok value) => updateFrom f rest (m.insert stage value)
    | some (.error fault) => (.error fault, m)

/-- Change the values slot by slot, up to the first fault. -/
def update (f : Stage → α → Checked α) (m : StageMap α) : Checked Unit × StageMap α :=
  updateFrom f (m.slots.map (·.1)) m

/-- Collect pairs; a later pair replaces an earlier one of the same stage. -/
def ofList (pairs : List (Stage × α)) : StageMap α :=
  pairs.foldl (fun m pair => m.insert pair.1 pair.2) empty

/-- An empty slot comes before an occupied one, and an earlier slot decides first. -/
def compare [Ord α] (a b : StageMap α) : Ordering :=
  (a.array.toList.zip b.array.toList).foldr
    (fun pair rest => (Ord.compare pair.1 pair.2).then rest) .eq

theorem get?_put (m : StageMap α) (value : Option α) (stage other : Stage) :
    (m.put value stage).get? other = if other = stage then value else m.get? other := by
  simp [get?, put, Vector.getElem_set, Stage.index_inj, eq_comm]

@[simp]
theorem get?_empty (stage : Stage) : (empty : StageMap α).get? stage = none := by
  simp [get?, empty]

theorem get?_insert (m : StageMap α) (stage other : Stage) (value : α) :
    (m.insert stage value).get? other = if other = stage then some value else m.get? other :=
  get?_put m (some value) stage other

theorem get?_erase (m : StageMap α) (stage other : Stage) :
    (m.erase stage).get? other = if other = stage then none else m.get? other :=
  get?_put m none stage other

/-- The array holds the value of each stage in pipeline order. -/
theorem toList_array (m : StageMap α) : m.array.toList = Stage.all.map m.get? := by
  apply List.ext_getElem
  · simp [Stage.all]
  · intro i _ hall
    rw [List.length_map] at hall
    have hindex : i = Stage.all[i].index :=
      Stage.ofIndex?_eq_some_iff.mp (List.getElem?_eq_getElem hall)
    simp [get?, ← hindex]

theorem eq_of_get?_eq {a b : StageMap α} (h : ∀ stage, a.get? stage = b.get? stage) : a = b := by
  apply StageMap.ext
  apply Vector.toList_inj.mp
  rw [toList_array, toList_array, funext h]

theorem slots_eq (m : StageMap α) : m.slots = Stage.all.map fun stage => (stage, m.get? stage) := by
  rw [slots, toList_array]
  rfl

theorem toList_eq (m : StageMap α) :
    m.toList = Stage.all.filterMap fun stage => (m.get? stage).map (stage, ·) := by
  rw [toList, slots_eq, List.filterMap_map]
  rfl

theorem mem_toList {m : StageMap α} {stage : Stage} {value : α} :
    (stage, value) ∈ m.toList ↔ m.get? stage = some value := by
  simp [toList_eq, Stage.mem_all]

theorem pairwise_toList (m : StageMap α) :
    m.toList.Pairwise fun a b => a.1.index < b.1.index := by
  have hall : Stage.all.Pairwise fun a b => a.index < b.index := by decide
  rw [toList_eq]
  refine List.pairwise_filterMap.mpr (hall.imp fun {a b} hlt => ?_)
  simp only [Option.map_eq_some_iff]
  rintro _ ⟨_, -, rfl⟩ _ ⟨_, -, rfl⟩
  exact hlt

end StageMap

end ShaderBinding
