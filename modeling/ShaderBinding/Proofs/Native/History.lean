import ShaderBinding.Proofs.Native.Object

/-! # Histories

A history of events leads from one backend to another. Every event creates objects under handles
that were not known before, releases one live object with the sets it owns, or does neither.
Histories compose, so that what holds of single calls holds of whole runs: what is live in the
end was live or created and not released, and nothing is released twice.
-/

namespace ShaderBinding

open NativeObject Record

namespace Backend

variable {b b' b'' : Backend}

theorem mem_live_iff {o : NativeObject} :
    o ∈ b.live ↔ o ∈ b.allocator.held ∨ o ∈ b.device.held := Multiset.mem_add

theorem Valid.closed (h : b.Valid) : Closed b.live :=
  (Closed.of_owner_eq fun _ => Allocator.owner_of_mem_held).add h.device.closed

theorem Valid.live_nodup (h : b.Valid) : b.live.Nodup := by
  refine Multiset.nodup_add.mpr ⟨h.allocator.held_nodup, h.device.held_nodup, ?_⟩
  refine Multiset.disjoint_left.mpr fun {o} ha hd => ?_
  obtain ⟨⟨_, ⟨_ | _, _⟩⟩, _, rfl⟩ := Allocator.mem_held.mp ha <;>
    obtain ⟨⟨_, object⟩, _, ho⟩ := Device.mem_held.mp hd <;> cases object <;> cases ho

theorem Valid.known (h : b.Valid) {o : NativeObject} (ho : o ∈ b.live) : b.Knows o := by
  rcases mem_live_iff.mp ho with ho | ho
  · obtain ⟨⟨_, ⟨_ | _, _⟩⟩, hmem, rfl⟩ := Allocator.mem_held.mp ho <;>
      exact h.allocator.lt_next _ hmem
  · obtain ⟨⟨_, object⟩, hmem, rfl⟩ := Device.mem_held.mp ho
    cases object <;> exact h.device.lt_next _ hmem

theorem Knows.mono {o : NativeObject} (h : b.Knows o) (ha : b.allocator.next ≤ b'.allocator.next)
    (hd : b.device.next ≤ b'.device.next) : b'.Knows o := by
  cases o <;> exact lt_of_lt_of_le h (by assumption)

/-- Only owners are released: an object dies when its owner does. -/
structure History (b : Backend) (events : List Event) (b' : Backend) : Prop where
  trace_eq : b'.trace = b.trace ++ events
  valid : b'.Valid
  known : ∀ o, b.Knows o → b'.Knows o
  fresh : ∀ o ∈ created events, ¬ b.Knows o ∧ b'.Knows o
  created_owner : ∀ o ∈ created events, o.owner ∈ b.live ∨ o.owner ∈ created events
  released_live : ∀ o ∈ released events, o ∈ b.live ∨ o ∈ created events
  mem_live : ∀ o, o ∈ b'.live ↔ (o ∈ b.live ∨ o ∈ created events) ∧ o.owner ∉ released events
  released_nodup : (released events).Nodup

namespace History

variable {events later : List Event}

/-- Events that create and release nothing. -/
theorem idle (hc : created events = []) (hr : released events = [])
    (htrace : b'.trace = b.trace ++ events) (hv : b'.Valid) (hlive : b'.live = b.live)
    (hknown : ∀ o, b.Knows o → b'.Knows o) : History b events b' where
  trace_eq := htrace
  valid := hv
  known := hknown
  fresh := by simp [hc]
  created_owner := by simp [hc]
  released_live := by simp [hr]
  mem_live o := by simp [hc, hr, hlive]
  released_nodup := by simp [hr]

theorem refl (h : b.Valid) : History b [] b :=
  idle rfl rfl (by simp) h rfl fun _ => id

theorem create {event : Event} (hr : event.released? = none)
    (htrace : b'.trace = b.trace ++ [event]) (hv : b'.Valid)
    (hlive : b'.live = b.live + event.created) (hknown : ∀ o, b.Knows o → b'.Knows o)
    (hfresh : ∀ o ∈ event.created, ¬ b.Knows o) : History b [event] b' := by
  have hc : created [event] = event.created := by simp [created]
  have hr' : released [event] = [] := by simp [released, hr]
  have hmem : ∀ o, o ∈ b'.live ↔ o ∈ b.live ∨ o ∈ event.created := by simp [hlive]
  refine ⟨htrace, hv, hknown, ?_, ?_, by simp [hr'], by simp [hr', hc, hmem], by simp [hr']⟩
  · intro o ho
    rw [hc] at ho
    exact ⟨hfresh o ho, hv.known ((hmem o).mpr (Or.inr ho))⟩
  · intro o ho
    rw [hc] at ho ⊢
    exact (hmem o.owner).mp (hv.closed o ((hmem o).mpr (Or.inr ho)))

theorem release {event : Event} {o : NativeObject} (hc : event.created = [])
    (hr : event.released? = some o) (htrace : b'.trace = b.trace ++ [event]) (hv : b'.Valid)
    (ho : o ∈ b.live) (hlive : b'.live = b.live.filter (·.owner ≠ o))
    (hknown : ∀ o, b.Knows o → b'.Knows o) : History b [event] b' := by
  have hc' : created [event] = [] := by simp [created, hc]
  have hr' : released [event] = [o] := by simp [released, hr]
  refine ⟨htrace, hv, hknown, by simp [hc'], by simp [hc'], ?_, ?_, by simp [hr']⟩
  · rw [hr']
    exact fun _ hmem => Or.inl (List.mem_singleton.mp hmem ▸ ho)
  · simp [hc', hr', hlive]

theorem known_of_released (h : History b events b') (hb : b.Valid) {o : NativeObject}
    (ho : o ∈ released events) : b'.Knows o :=
  (h.released_live o ho).elim (fun hl => h.known o (hb.known hl)) fun hc => (h.fresh o hc).2

theorem owner_notMem_released (h : History b events b') (h' : History b' later b'')
    (hb : b.Valid) {o : NativeObject} (ho : o ∈ created later) : o.owner ∉ released events := by
  intro hr
  rcases h'.created_owner o ho with hl | hc
  · exact ((h.mem_live _).mp hl).2 (o.owner_owner.symm ▸ hr)
  · exact (h'.fresh _ hc).1 (h.known_of_released hb hr)

theorem trans (h : History b events b') (h' : History b' later b'') (hb : b.Valid) :
    History b (events ++ later) b'' := by
  have hback : ∀ o, o ∈ b'.live ∨ o ∈ created later →
      o ∈ b.live ∨ o ∈ created (events ++ later) := by
    intro o ho
    rw [created_append, List.mem_append, ← or_assoc]
    exact ho.imp_left fun hl => ((h.mem_live o).mp hl).1
  refine ⟨?_, h'.valid, fun o ho => h'.known o (h.known o ho), ?_, ?_, ?_, ?_, ?_⟩
  · rw [h'.trace_eq, h.trace_eq, List.append_assoc]
  · intro o ho
    rw [created_append, List.mem_append] at ho
    rcases ho with ho | ho
    · exact ⟨(h.fresh o ho).1, h'.known o (h.fresh o ho).2⟩
    · exact ⟨fun hk => (h'.fresh o ho).1 (h.known o hk), (h'.fresh o ho).2⟩
  · intro o ho
    rw [created_append, List.mem_append] at ho
    rcases ho with ho | ho
    · exact (h.created_owner o ho).imp_right fun hc => by simp [hc]
    · exact hback _ (h'.created_owner o ho)
  · intro o ho
    rw [released_append, List.mem_append] at ho
    rcases ho with ho | ho
    · exact (h.released_live o ho).imp_right fun hc => by simp [hc]
    · exact hback _ (h'.released_live o ho)
  · intro o
    rw [h'.mem_live, h.mem_live, created_append, released_append, List.mem_append,
      List.mem_append]
    have hlater := h.owner_notMem_released h' hb (o := o)
    tauto
  · rw [released_append]
    refine List.nodup_append.mpr ⟨h.released_nodup, h'.released_nodup, ?_⟩
    rintro o ho _ ho' rfl
    rcases h'.released_live o ho' with hl | hc
    · exact ((h.mem_live o).mp hl).2 ((owner_of_mem_released ho).symm ▸ ho)
    · exact (h'.fresh o hc).1 (h.known_of_released hb ho)

/-- Nothing is destroyed twice. -/
theorem endings_le_one (h : History b events b') (o : NativeObject) : endings events o ≤ 1 :=
  List.nodup_iff_count_le_one.mp h.released_nodup o.owner

theorem endings_eq_zero (h : History b events b') {o : NativeObject} (ho : o ∈ b'.live) :
    endings events o = 0 :=
  List.count_eq_zero.mpr ((h.mem_live o).mp ho).2

theorem endings_eq_one (h : History b events b') {o : NativeObject} (hc : o ∈ created events)
    (ho : o ∉ b'.live) : endings events o = 1 := by
  have hr : o.owner ∈ released events := by
    by_contra hr
    exact ho ((h.mem_live o).mpr ⟨Or.inr hc, hr⟩)
  exact le_antisymm (h.endings_le_one o) (List.count_pos_iff.mpr hr)

theorem not_mem_of_created (h : History b events b') (hb : b.Valid) {o : NativeObject}
    (hc : o ∈ created events) : o ∉ b.live := fun ho => (h.fresh o hc).1 (hb.known ho)

end History

def Reaches (b b' : Backend) : Prop := ∃ events, History b events b'

theorem Reaches.refl (h : b.Valid) : Reaches b b := ⟨[], .refl h⟩

theorem Reaches.trans (h : Reaches b b') (h' : Reaches b' b'') (hb : b.Valid) : Reaches b b'' :=
  let ⟨_, he⟩ := h
  let ⟨_, hl⟩ := h'
  ⟨_, he.trans hl hb⟩

theorem Reaches.valid (h : Reaches b b') : b'.Valid := h.elim fun _ h => h.valid

theorem Reaches.trace_subset (h : Reaches b b') : b.trace ⊆ b'.trace := by
  obtain ⟨events, hevents⟩ := h
  exact hevents.trace_eq ▸ List.subset_append_left _ _

end Backend

end ShaderBinding
