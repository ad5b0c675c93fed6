import ShaderBinding.Proofs.Native.History

/-! # Careful records

A call uses the objects that it names, and a write of descriptors also the objects that those
refer to. A record of calls is careful if every call uses only objects that are alive at the time:
live before the record or created in it, and not released since.
-/

namespace ShaderBinding

def Descriptor.objects : Descriptor → List NativeObject
  | uniformBuffer buffer .. | storageBuffer buffer .. => [.buffer buffer]
  | combinedImageSampler sampler view => [.sampler sampler, .view view]
  | storageImage view => [.view view]

/-- Whether all objects that a call uses are alive. Memory belongs to the block of its handle. -/
def Call.Uses (alive : NativeObject → Prop) : Call → Prop
  | mapMemory memory .. | unmapMemory memory =>
    ∃ kind : BlockKind, alive (kind.object memory)
  | transferImage image .. | createView image _ => alive (.image image)
  | deallocate kind handle => alive (kind.object handle)
  | allocateSets pool layouts => alive (.pool pool) ∧ ∀ layout ∈ layouts, alive (.layout layout)
  | updateSets writes => ∀ write ∈ writes, (∃ home, alive (.set home write.set.id)) ∧
      ∀ o ∈ write.descriptor.objects, alive o
  | destroy kind handle => ∀ o, kind.object? handle = some o → alive o
  | allocateBuffer .. | allocateImage .. | createLayout _ | createPool .. | createSampler
  | createModule _ | waitIdle | pushConstants .. => True

theorem Call.Uses.mono {alive alive' : NativeObject → Prop} {call : Call} (h : call.Uses alive)
    (halive : ∀ o, alive o → alive' o) : call.Uses alive' := by
  cases call with
  | mapMemory memory | unmapMemory memory =>
    obtain ⟨kind, hkind⟩ := h
    exact ⟨kind, halive _ hkind⟩
  | transferImage image | createView image | deallocate kind handle => exact halive _ h
  | allocateSets pool layouts => exact ⟨halive _ h.1, fun layout hl => halive _ (h.2 layout hl)⟩
  | updateSets writes =>
    intro write hwrite
    obtain ⟨⟨home, hhome⟩, hobjects⟩ := h write hwrite
    exact ⟨⟨home, halive _ hhome⟩, fun o ho => halive o (hobjects o ho)⟩
  | destroy kind handle => exact fun o ho => halive o (h o ho)
  | _ => trivial

namespace Record

theorem created_cons (event : Event) (rest : List Event) :
    created (event :: rest) = event.created ++ created rest := rfl

theorem released_cons (event : Event) (rest : List Event) :
    released (event :: rest) = event.released?.toList ++ released rest := by
  unfold released
  cases h : event.released? <;> simp [h]

theorem created_nil : created [] = [] := rfl

theorem released_nil : released [] = [] := rfl

/-- An object that was live or has been created, and that has not been released since. -/
def Alive (live : Multiset NativeObject) (past : List Event) (o : NativeObject) : Prop :=
  (o ∈ live ∨ o ∈ created past) ∧ o.owner ∉ released past

/-- After some past, every event uses only what is alive by then. -/
def Careful (live : Multiset NativeObject) (past : List Event) : List Event → Prop
  | [] => True
  | event :: rest => event.call.Uses (Alive live past) ∧ Careful live (past ++ [event]) rest

variable {live : Multiset NativeObject} {past events later : List Event}

theorem careful_append : Careful live past (events ++ later) ↔
    Careful live past events ∧ Careful live (past ++ events) later := by
  induction events generalizing past with
  | nil => simp [Careful]
  | cons event rest ih => simp [Careful, ih, and_assoc]

theorem careful_of_forall (hpast : released past = [])
    (h : ∀ event ∈ events, event.call.Uses (· ∈ live) ∧ event.released? = none) :
    Careful live past events := by
  induction events generalizing past with
  | nil => trivial
  | cons event rest ih =>
    obtain ⟨⟨huses, hkept⟩, hrest⟩ := List.forall_mem_cons.mp h
    refine ⟨huses.mono fun o ho => ⟨Or.inl ho, by simp [hpast]⟩, ih ?_ hrest⟩
    rw [released_append, released_cons, hpast, hkept]
    rfl

end Record

namespace Backend.History

open Record

variable {b b' b'' : Backend} {events later : List Event}

theorem alive_append (h : History b events b') (h' : History b' later b'') (hb : b.Valid)
    {past : List Event} (hpast : past ⊆ later) {o : NativeObject} (ho : Alive b'.live past o) :
    Alive b.live (events ++ past) o := by
  obtain ⟨hpresent, hkept⟩ := ho
  unfold Alive
  rw [created_append, released_append, List.mem_append, List.mem_append, not_or]
  rcases hpresent with hlive | hcreated
  · obtain ⟨hbefore, hunreleased⟩ := (h.mem_live o).mp hlive
    exact ⟨hbefore.imp_right Or.inl, hunreleased, hkept⟩
  · have hlater : o ∈ created later := by
      obtain ⟨event, hevent, ho⟩ := List.mem_flatMap.mp hcreated
      exact List.mem_flatMap.mpr ⟨event, hpast hevent, ho⟩
    exact ⟨Or.inr (Or.inr hcreated), h.owner_notMem_released h' hb hlater, hkept⟩

theorem careful_append (h : History b events b') (h' : History b' later b'') (hb : b.Valid)
    (hevents : Careful b.live [] events) (hlater : Careful b'.live [] later) :
    Careful b.live [] (events ++ later) := by
  have hrest : ∀ past rest, later = past ++ rest → Careful b'.live past rest →
      Careful b.live (events ++ past) rest := by
    intro past rest hsplit hcareful
    induction rest generalizing past with
    | nil => trivial
    | cons event rest ih =>
      obtain ⟨huses, hcareful⟩ := hcareful
      constructor
      · refine huses.mono fun o ho => h.alive_append h' hb ?_ ho
        rw [hsplit]
        exact List.subset_append_left past _
      · rw [List.append_assoc]
        exact ih (past ++ [event]) (by rw [hsplit, List.append_assoc]; rfl) hcareful
  rw [Record.careful_append]
  refine ⟨hevents, ?_⟩
  simpa using hrest [] later rfl hlater

end Backend.History

namespace Backend

variable {b b' b'' : Backend}

def ReachesCarefully (b b' : Backend) : Prop :=
  ∃ events, History b events b' ∧ Record.Careful b.live [] events

theorem Reaches.carefully {events : List Event} (h : b.Reaches b')
    (htrace : b'.trace = b.trace ++ events) (hcareful : Record.Careful b.live [] events) :
    b.ReachesCarefully b' := by
  obtain ⟨others, hothers⟩ := h
  obtain rfl := List.append_cancel_left (hothers.trace_eq.symm.trans htrace)
  exact ⟨others, hothers, hcareful⟩

theorem ReachesCarefully.refl (hb : b.Valid) : b.ReachesCarefully b := ⟨[], .refl hb, trivial⟩

theorem ReachesCarefully.trans (h : b.ReachesCarefully b') (h' : b'.ReachesCarefully b'')
    (hb : b.Valid) : b.ReachesCarefully b'' := by
  obtain ⟨events, hevents, hcareful⟩ := h
  obtain ⟨later, hlater, hcareful'⟩ := h'
  exact ⟨_, hevents.trans hlater hb, hevents.careful_append hlater hb hcareful hcareful'⟩

end Backend

end ShaderBinding
