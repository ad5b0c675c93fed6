import ShaderBinding.Proofs.Engine.Pass

/-! # Whole sessions

Every request keeps a session sound, so that after any run the live objects are those that were
there before and those of the model that is bound. What a run created and does not own any more
it has destroyed, each object once, and disposing of the engine takes the rest.
-/

namespace ShaderBinding

open NativeObject Session

namespace EngineM

variable {α β : Type}

/-- An operation that leaves a sound session, whether it succeeds or not. -/
def Keeps (op : EngineM α) : Prop :=
  ∀ ⦃base : Multiset NativeObject⦄ ⦃s : Session⦄, s.Sound base →
    op.Ends s (fun _ s' => Leads base s s') fun _ s' => Leads base s s'

namespace Keeps

theorem bind_pure {op : EngineM α} {f : α → β} (h : op.Keeps) :
    (op >>= fun a => pure (f a)).Keeps := fun _ _ hs => .bind (h hs)

end Keeps

end EngineM

namespace Engine

open EngineM

theorem ends_boundModel (s : Session) :
    boundModel.Ends s (fun bound s' => s' = s ∧ s.engine.bound = some bound) fun _ s' => s' = s := by
  refine .get_bind ?_
  cases hbound : s.engine.bound with
  | none => exact .fail rfl
  | some bound => exact .pure ⟨rfl, rfl⟩

theorem keeps_edit {α : Type} {f : BoundModel → EngineM α}
    (hf : ∀ ⦃base : Multiset NativeObject⦄ ⦃s : Session⦄ bound, s.Sound base →
      s.engine.bound = some bound →
        (f bound).Ends s (fun _ s' => Leads base s s') fun _ s' => Leads base s s') :
    (boundModel >>= f).Keeps := by
  intro base s hs
  refine .bind ((ends_boundModel s).mono ?_ ?_)
  · rintro bound _ ⟨rfl, hbound⟩
    exact hf bound hs hbound
  · rintro _ _ rfl
    exact .refl hs

theorem keeps_writeBuffer (key : BindingKey) (offset : Nat) (data : Bytes) :
    (writeBuffer key offset data).Keeps := by
  refine keeps_edit fun base s bound hs _ => .native (.mapError ?_)
  refine (Binder.makes_writeBuffer bound.binder key offset data hs.valid).mono ?_ ?_
  · exact fun _ b h => .of_live_eq hs h.1 (by simpa using h.2)
  · exact fun _ b h => .of_live_eq hs h.1 h.2

theorem keeps_replaceImage (key : BindingKey) (info : ImageInfo) (pixels : Bytes) :
    (replaceImage key info pixels).Keeps := by
  refine keeps_edit fun base s bound hs hbound => .bind (.native (.mapError ?_))
  have hbinder := hs.binder bound hbound
  -- The shader modules are not touched, so that they count as part of the rest.
  have hlive : s.backend.live = base + bound.modules.flatMap (·.objects) + bound.binder.objects := by
    rw [hs.live_eq, objects_of_bound hbound, bound.objects_eq, add_assoc]
  have howns := Binder.owns_replaceImage hbinder key info pixels hs.valid
    (hs.closed.add (BoundModel.closed_modules _)) hlive
  refine howns.exec.mono ?_ ?_
  · rintro changed b ⟨⟨hb, hlive'⟩, hexec⟩
    refine .modify ⟨⟨hs.closed, hb.valid, ?_, ?_⟩, hb⟩
    · rw [hlive', objects_of_bound rfl, BoundModel.objects_eq, add_assoc]
    · rintro _ ⟨⟩
      exact Binder.sound_of_replaceImage hbinder hexec
  · rintro e b ⟨⟨hb, hlive'⟩, -⟩
    exact .of_live_eq hs hb (hlive'.trans hlive.symm)

theorem keeps_writePushConstants (stage : Stage) (offset : Nat) (data : Bytes) :
    (writePushConstants stage offset data).Keeps := by
  refine keeps_edit fun base s bound hs hbound => .bind ?_
  refine .ofOutcome (.ofExcept_map _ _) (fun pushConstants _ => ?_) fun _ _ => .refl hs
  refine .modify ⟨⟨hs.closed, hs.valid, ?_, ?_⟩, .refl hs.valid⟩
  · rw [hs.live_eq, objects_of_bound hbound, objects_of_bound rfl, bound.objects_eq,
      BoundModel.objects_eq]
  · rintro _ ⟨⟩
    exact hs.binder bound hbound

theorem keeps_recordPushConstants : recordPushConstants.Keeps :=
  keeps_edit fun _ _ _ hs _ => .pure (.refl hs)

end Engine

theorem Request.keeps_op [Libraries] (request : Request) : request.op.Keeps := by
  cases request with
  | pass p =>
    exact .bind_pure fun base s hs => (p.ends_op hs).mono (fun _ _ h => h) fun _ _ h => h.1
  | setConfig config => exact fun _ _ hs => .bind (.modify (.pure (.of_bound_eq hs _ rfl)))
  | setView view => exact fun _ _ hs => .bind (.modify (.pure (.of_bound_eq hs _ rfl)))
  | takePending =>
    exact fun base s hs => .get_bind (.bind (.set (.pure (.of_bound_eq hs _ rfl))))
  | writeBuffer key offset data => exact (Engine.keeps_writeBuffer key offset data).bind_pure
  | replaceImage key info pixels => exact (Engine.keeps_replaceImage key info pixels).bind_pure
  | writePushConstants stage offset data =>
    exact (Engine.keeps_writePushConstants stage offset data).bind_pure
  | recordPushConstants => exact Engine.keeps_recordPushConstants.bind_pure
  | plan failures =>
    intro base s hs
    refine .bind (.native ?_)
    have hreaches : s.backend.Reaches { s.backend with failures := failures } :=
      ⟨[], .idle rfl rfl (by simp) ⟨hs.valid.1, hs.valid.2⟩ rfl fun _ => id⟩
    exact Leads.of_live_eq hs hreaches rfl

namespace Session

variable {base : Multiset NativeObject} {s s' : Session}

theorem sound_start (config : Config) {b : Backend} (hb : b.Valid) :
    (start config b).Sound b.live where
  closed := hb.closed
  valid := hb
  live_eq := (add_zero _).symm
  binder := nofun

theorem step_spec [Libraries] (h : s.Sound base) (request : Request) :
    (s.step request).Proper ∧
      ∀ reply s', s.step request = .ok (reply, s') → Leads base s s' := by
  have hends := request.keeps_op h
  unfold EngineM.Ends at hends
  rcases hexec : request.op.exec s with ⟨(fault | e) | reply, s₁⟩
  · rw [hexec] at hends
    have hstep : s.step request = .error fault := by rw [step, hexec]
    rw [hstep]
    exact ⟨.fault hends, fun _ _ h => by cases h⟩
  · rw [hexec] at hends
    have hstep : s.step request = .ok (.error e, s₁) := by rw [step, hexec]
    rw [hstep]
    exact ⟨.pure _, fun _ _ h => by cases h; exact hends⟩
  · rw [hexec] at hends
    have hstep : s.step request = .ok (.ok reply, s₁) := by rw [step, hexec]
    rw [hstep]
    exact ⟨.pure _, fun _ _ h => by cases h; exact hends⟩

theorem proper_run [Libraries] (h : s.Sound base) (requests : List Request) :
    (s.run requests).Proper := by
  induction requests generalizing s with
  | nil => exact .pure _
  | cons request rest ih =>
    obtain ⟨hproper, hleads⟩ := step_spec h request
    refine .bind_of_eq hproper fun ⟨reply, s₁⟩ hstep => ?_
    exact .bind (ih (hleads reply s₁ hstep).sound) fun _ => .pure _

theorem exists_of_run_cons [Libraries] {request : Request} {rest : List Request}
    {replies : List (Except EngineError Reply)} (h : s.run (request :: rest) = .ok (replies, s')) :
    ∃ reply s₁ others, s.step request = .ok (reply, s₁) ∧ s₁.run rest = .ok (others, s') ∧
      replies = reply :: others := by
  obtain ⟨⟨reply, s₁⟩, hstep, h⟩ := Except.bind_eq_ok.mp h
  obtain ⟨⟨others, _⟩, hrest, ⟨⟩⟩ := Except.bind_eq_ok.mp h
  exact ⟨reply, s₁, others, hstep, hrest, rfl⟩

theorem leads_of_run [Libraries] (h : s.Sound base) {requests : List Request}
    {replies : List (Except EngineError Reply)} (hrun : s.run requests = .ok (replies, s')) :
    Leads base s s' := by
  induction requests generalizing s replies with
  | nil =>
    cases hrun
    exact .refl h
  | cons request rest ih =>
    obtain ⟨reply, s₁, others, hstep, hrest, -⟩ := exists_of_run_cons hrun
    have hleads := (step_spec h request).2 reply s₁ hstep
    exact hleads.trans (ih hleads.sound hrest) h

/--
Whatever an engine is asked for and whichever calls fail, no object is misused; after every run
the live objects are those of before and those of the bound model, everything else that was
created is destroyed, nothing is destroyed twice, and disposing of the engine leaves only what was
live before.
-/
theorem run_owns [Libraries] (config : Config) {b : Backend} (hb : b.Valid)
    (requests : List Request) : ((start config b).run requests).Proper ∧
    ∀ replies s, (start config b).run requests = .ok (replies, s) →
      s.backend.live = b.live + s.engine.objects ∧ s.backend.live.Nodup ∧
      (∃ events, s.backend.trace = b.trace ++ events ∧
        (∀ o, Record.endings events o ≤ 1) ∧ (∀ o ∈ b.live, Record.endings events o = 0) ∧
        ∀ o ∈ Record.created events, o ∈ s.engine.objects ↔ Record.endings events o = 0) ∧
      ∃ s' later, (Engine.dispose).exec s = (.ok (), s') ∧ s'.backend.live = b.live ∧
        s'.backend.trace = b.trace ++ later ∧
        ∀ o ∈ Record.created later, Record.endings later o = 1 := by
  have hstart := sound_start config hb
  refine ⟨proper_run hstart requests, fun replies s hrun => ?_⟩
  have hleads := leads_of_run hstart hrun
  have hsound := hleads.sound
  have hlive (o : NativeObject) : o ∈ s.backend.live ↔ o ∈ b.live ∨ o ∈ s.engine.objects := by
    rw [hsound.live_eq, Multiset.mem_add, Multiset.mem_coe]
  obtain ⟨events, hevents⟩ := hleads.reaches
  refine ⟨hsound.live_eq, hsound.valid.live_nodup, ⟨events, hevents.trace_eq,
    hevents.endings_le_one, fun o ho => ?_, fun o ho => ⟨fun howned => ?_, fun hzero => ?_⟩⟩, ?_⟩
  · exact hevents.endings_eq_zero ((hlive o).mpr (Or.inl ho))
  · exact hevents.endings_eq_zero ((hlive o).mpr (Or.inr howned))
  · have hmem : o ∈ s.backend.live :=
      (hevents.mem_live o).mpr ⟨Or.inr ho, List.count_eq_zero.mp hzero⟩
    exact ((hlive o).mp hmem).resolve_left (hevents.not_mem_of_created hb ho)
  · obtain ⟨b', hexec, hb', hlive'⟩ := Engine.exec_tearDown hsound
    obtain ⟨later, hlater⟩ := hleads.reaches.trans hb' hb
    refine ⟨_, later, hexec, hlive', hlater.trace_eq, fun o ho => ?_⟩
    exact hlater.endings_eq_one ho (hlive' ▸ hlater.not_mem_of_created hb ho)

theorem run_owns_no_pool :
    let vertex : Reflection := ⟨.vertex, "main", [], [], [], [], [], [], [], none⟩
    let layout := LayoutMap.empty.put ⟨0, 0⟩
      ⟨"block", .descriptor 0 0 .empty .uniformBuffer, .vector .float 4 16⟩ rfl
    let requests : List Request :=
      [.plan [⟨.createPool, 0, .deviceLost⟩],
        .pass (.install .empty ⟨.ofList [(.vertex, vertex)], layout⟩ {}), .takePending]
    let config : Config := { placeholder := { width := 1, height := 1 } }
    ∃ replies s, (start config {}).run requests = .ok (replies, s) ∧
      Record.created s.backend.trace = [.buffer 0, .layout 0] ∧ s.backend.live = 0 := by
  intro vertex layout requests config
  have hresult : ((start config {}).run requests).map
      (fun r => (Record.created r.2.backend.trace, r.2.engine.objects)) =
        .ok ([.buffer 0, .layout 0], []) := by decide +kernel
  obtain ⟨⟨replies, s⟩, hrun, heq⟩ := Except.map_eq_ok.mp hresult
  obtain ⟨hcreated, hbound⟩ := Prod.mk.inj heq
  obtain ⟨hlive, -⟩ := (run_owns config Backend.valid_empty requests).2 replies s hrun
  exact ⟨replies, s, hrun, hcreated, hlive.trans (congrArg _ (congrArg _ hbound))⟩

/--
A pass that fails after any run has exactly one of two outcomes. It is refused, so that all that
is bound and everything on the backend is as it was; or the device was idle, and then the model
and all that the engine ever created are gone.
-/
theorem pass_all_or_nothing [Libraries] (config : Config) {b : Backend} (hb : b.Valid)
    {requests : List Request} {replies : List (Except EngineError Reply)} {s s' : Session}
    (hrun : (start config b).run requests = .ok (replies, s)) (p : Pass) {error : EngineError}
    (hpass : p.op.exec s = (.error (.error error), s')) :
    s'.engine.valid = false ∧ Xor (Refused s error s') (Dropped b.live s s') := by
  have hends := p.ends_op (leads_of_run (sound_start config hb) hrun).sound
  unfold EngineM.Ends at hends
  rw [hpass] at hends
  obtain ⟨-, hvalid, houtcome⟩ := hends
  have hdisjoint (hr : Refused s error s') (hd : Dropped b.live s s') : False := by
    obtain ⟨later, hidle⟩ := hd.idle
    rcases hr.cause with ⟨-, htrace⟩ | ⟨-, htrace⟩
    · simp [hidle] at htrace
    · simp [hidle] at htrace
  refine ⟨hvalid, houtcome.imp ?_ ?_⟩
  · exact fun hr => ⟨hr, hdisjoint hr⟩
  · exact fun hd => ⟨hd, fun hr => hdisjoint hr hd⟩

theorem pass_all_or_nothing_no_pool :
    let b : Backend := { failures := [⟨.createPool, 0, .deviceLost⟩] }
    let vertex : Reflection := ⟨.vertex, "main", [], [], [], [], [], [], [], none⟩
    let layout := LayoutMap.empty.put ⟨0, 0⟩
      ⟨"block", .descriptor 0 0 .empty .uniformBuffer, .vector .float 4 16⟩ rfl
    let p : Pass := .install .empty ⟨.ofList [(.vertex, vertex)], layout⟩ {}
    let config : Config := { placeholder := { width := 1, height := 1 } }
    let s := start config b
    ∃ s', p.op.exec s = (.error (.error (.bind (.device .deviceLost))), s') ∧
      Dropped b.live s s' := by
  intro b vertex layout p config s
  have hb : b.Valid := ⟨Backend.valid_empty.allocator, Backend.valid_empty.device⟩
  have hresult : (p.op.exec s).1 = .error (.error (.bind (.device .deviceLost))) := by
    decide +kernel
  rcases hexec : p.op.exec s with ⟨result, s'⟩
  obtain rfl : result = .error (.error (.bind (.device .deviceLost))) := by rw [← hresult, hexec]
  have hrun : (start config b).run [] = .ok ([], s) := rfl
  obtain ⟨-, houtcome⟩ := pass_all_or_nothing config hb hrun p hexec
  refine ⟨s', rfl, houtcome.or.resolve_left fun hr => ?_⟩
  rcases hr.cause with ⟨h, -⟩ | ⟨⟨_, h⟩, -⟩ <;> cases h

end Session

end ShaderBinding
