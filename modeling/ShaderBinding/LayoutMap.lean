import ShaderBinding.Reflection
import ShaderBinding.Stage.Map

/-! # Layout maps

The descriptors of all stages under their keys, in ascending key order. Stages that declare
one key have to agree on the resource; its stage flags then name every one of them.
-/

namespace ShaderBinding

/-- Keys ascend strictly, and every resource is bound where its key says. -/
structure LayoutMap where
  entries : List (BindingKey × Resource)
  sorted : entries.Pairwise fun a b => a.1 < b.1
  keyed : ∀ entry ∈ entries, entry.2.key? = some entry.1
  deriving DecidableEq, Repr

namespace LayoutMap

def empty : LayoutMap := ⟨[], .nil, by simp⟩

instance : Inhabited LayoutMap := ⟨empty⟩

def size (m : LayoutMap) : Nat := m.entries.length

def isEmpty (m : LayoutMap) : Bool := m.entries.isEmpty

def resources (m : LayoutMap) : List Resource := m.entries.map (·.2)

def get? (m : LayoutMap) (key : BindingKey) : Option Resource :=
  (m.entries.find? (·.1 = key)).map (·.2)

def putEntry (key : BindingKey) (resource : Resource) :
    List (BindingKey × Resource) → List (BindingKey × Resource)
  | [] => [(key, resource)]
  | (k, r) :: rest =>
    if key < k then (key, resource) :: (k, r) :: rest
    else if key = k then (key, resource) :: rest
    else (k, r) :: putEntry key resource rest

theorem mem_putEntry {key : BindingKey} {resource : Resource}
    {entries : List (BindingKey × Resource)} {entry : BindingKey × Resource}
    (h : entry ∈ putEntry key resource entries) : entry = (key, resource) ∨ entry ∈ entries := by
  induction entries with
  | nil => simpa [putEntry] using h
  | cons head rest ih =>
    unfold putEntry at h
    split at h
    · simpa using h
    · split at h
      · exact (List.mem_cons.mp h).imp_right (List.mem_cons_of_mem _)
      · rcases List.mem_cons.mp h with rfl | h
        · exact Or.inr List.mem_cons_self
        · exact (ih h).imp_right (List.mem_cons_of_mem _)

theorem sorted_putEntry {key : BindingKey} {resource : Resource}
    {entries : List (BindingKey × Resource)} (h : entries.Pairwise fun a b => a.1 < b.1) :
    (putEntry key resource entries).Pairwise fun a b => a.1 < b.1 := by
  induction entries with
  | nil => simp [putEntry]
  | cons head rest ih =>
    obtain ⟨hhead, hrest⟩ := List.pairwise_cons.mp h
    unfold putEntry
    split
    · rename_i hlt
      refine List.pairwise_cons.mpr ⟨fun entry hmem => ?_, h⟩
      rcases List.mem_cons.mp hmem with rfl | hmem
      · exact hlt
      · exact BindingKey.lt_trans hlt (hhead entry hmem)
    · rename_i hlt
      split
      · rename_i heq
        exact List.pairwise_cons.mpr ⟨fun entry hmem => heq ▸ hhead entry hmem, hrest⟩
      · rename_i hne
        refine List.pairwise_cons.mpr ⟨fun entry hmem => ?_, ih hrest⟩
        rcases mem_putEntry hmem with rfl | hmem
        · exact (BindingKey.lt_trichotomy key head.1).resolve_left hlt |>.resolve_left hne
        · exact hhead entry hmem

def put (m : LayoutMap) (key : BindingKey) (resource : Resource)
    (h : resource.key? = some key) : LayoutMap where
  entries := putEntry key resource m.entries
  sorted := sorted_putEntry m.sorted
  keyed entry hmem := by
    rcases mem_putEntry hmem with rfl | hmem
    · exact h
    · exact m.keyed entry hmem

@[simp]
theorem get?_empty (key : BindingKey) : empty.get? key = none := rfl

theorem find?_putEntry {key : BindingKey} {resource : Resource}
    (entries : List (BindingKey × Resource)) (other : BindingKey) :
    (putEntry key resource entries).find? (·.1 = other) =
      if other = key then some (key, resource) else entries.find? (·.1 = other) := by
  induction entries with
  | nil => by_cases h : key = other <;> simp [putEntry, h, eq_comm]
  | cons head rest ih =>
    unfold putEntry
    by_cases h : key = other
    · subst h
      split
      · simp
      · split
        · simp
        · rename_i hne
          simp [ih, Ne.symm hne]
    · split
      · simp [h, Ne.symm h]
      · split
        · rename_i heq
          simp [h, Ne.symm h, ← heq]
        · simp [ih, List.find?_cons, Ne.symm h]

theorem get?_put (m : LayoutMap) {key : BindingKey} {resource : Resource}
    (h : resource.key? = some key) (other : BindingKey) :
    (m.put key resource h).get? other = if other = key then some resource else m.get? other := by
  unfold get? put
  rw [find?_putEntry]
  split <;> rfl

theorem get?_eq_some_iff {m : LayoutMap} {key : BindingKey} {resource : Resource} :
    m.get? key = some resource ↔ (key, resource) ∈ m.entries := by
  unfold get?
  constructor
  · intro h
    obtain ⟨⟨found, _⟩, hfind, rfl⟩ := Option.map_eq_some_iff.mp h
    obtain rfl : found = key := by simpa using List.find?_some hfind
    exact List.mem_of_find?_eq_some hfind
  · intro h
    have hsorted := m.sorted
    generalize m.entries = entries at h hsorted
    induction entries with
    | nil => cases h
    | cons head rest ih =>
      obtain ⟨hhead, hrest⟩ := List.pairwise_cons.mp hsorted
      rcases List.mem_cons.mp h with rfl | h
      · simp
      · have hlt : head.1 < key := hhead _ h
        have hne : head.1 ≠ key := fun heq => BindingKey.lt_irrefl key (heq ▸ hlt)
        rw [List.find?_cons_of_neg (by simpa using hne)]
        exact ih h hrest

theorem nodup_keys (m : LayoutMap) : (m.entries.map (·.1)).Nodup := by
  refine List.pairwise_map.mpr (m.sorted.imp fun {a b} hlt heq => ?_)
  exact BindingKey.lt_irrefl b.1 (heq ▸ hlt)

theorem key?_of_get? {m : LayoutMap} {key : BindingKey} {resource : Resource}
    (h : m.get? key = some resource) : resource.key? = some key :=
  m.keyed _ (get?_eq_some_iff.mp h)

/--
Add a descriptor declared by a stage. A key declared before keeps its resource, which has to be
the same declaration, and the stage joins its flags.
-/
def insert (m : LayoutMap) (resource : Resource) (stage : Stage) :
    Except ReflectError LayoutMap :=
  match hkey : resource.key? with
  | none => .error (.general s!"'{resource.name}' is not a descriptor resource")
  | some key =>
    match hold : m.get? key with
    | none => .ok (m.put key resource hkey)
    | some old =>
      if old.sameDeclaration resource then
        .ok (m.put key (old.addStage stage) ((old.key?_addStage stage).trans (key?_of_get? hold)))
      else .error (.incompatibleBinding key.set key.binding stage)

section insert

variable {m : LayoutMap} {resource old : Resource} {key : BindingKey}

theorem insert_eq (hkey : resource.key? = some key) (stage : Stage) :
    m.insert resource stage =
      match hget : m.get? key with
      | none => .ok (m.put key resource hkey)
      | some old =>
        if old.sameDeclaration resource then
          .ok (m.put key (old.addStage stage)
            ((old.key?_addStage stage).trans (key?_of_get? hget)))
        else .error (.incompatibleBinding key.set key.binding stage) := by
  unfold insert
  split
  · simp_all
  · rename_i found hfound
    obtain rfl : key = found := by simpa [hkey] using hfound
    rfl

theorem insert_of_get?_eq_none (hkey : resource.key? = some key) (hget : m.get? key = none)
    (stage : Stage) : m.insert resource stage = .ok (m.put key resource hkey) := by
  rw [insert_eq hkey]
  split
  · rfl
  · simp_all

theorem insert_of_same (hkey : resource.key? = some key) (hget : m.get? key = some old)
    (hsame : old.sameDeclaration resource = true) (stage : Stage) :
    m.insert resource stage = .ok (m.put key (old.addStage stage)
      ((old.key?_addStage stage).trans (key?_of_get? hget))) := by
  rw [insert_eq hkey]
  split
  · simp_all
  · rename_i other hother
    obtain rfl : old = other := by simpa [hget] using hother
    exact if_pos hsame

theorem insert_of_not_same (hkey : resource.key? = some key) (hget : m.get? key = some old)
    (hsame : old.sameDeclaration resource = false) (stage : Stage) :
    m.insert resource stage = .error (.incompatibleBinding key.set key.binding stage) := by
  rw [insert_eq hkey]
  split
  · simp_all
  · rename_i other hother
    obtain rfl : old = other := by simpa [hget] using hother
    exact if_neg (by simp [hsame])

end insert

/-- Merge the descriptors of all stages, in pipeline order. -/
def merge (stages : StageMap Reflection) : Except ReflectError LayoutMap :=
  stages.toList.foldlM (fun m entry =>
    entry.2.descriptors.foldlM (fun m resource => m.insert resource entry.1) m) empty

def setIndices (m : LayoutMap) : List Nat := (m.entries.map (·.1.set)).eraseReps

def groupBySet : List (BindingKey × Resource) → List (Nat × List (Nat × Resource))
  | [] => []
  | (key, resource) :: rest =>
    match groupBySet rest with
    | [] => [(key.set, [(key.binding, resource)])]
    | (set, bindings) :: groups =>
      if set = key.set then (set, (key.binding, resource) :: bindings) :: groups
      else (key.set, [(key.binding, resource)]) :: (set, bindings) :: groups

def sets (m : LayoutMap) : List (Nat × List (Nat × Resource)) := groupBySet m.entries

end LayoutMap

end ShaderBinding
