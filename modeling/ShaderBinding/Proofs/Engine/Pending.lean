import ShaderBinding.Proofs.Engine.History

/-! # Pending parts

What a pass has invalidated is pending until it is taken, and it is taken once: after every run
the parts taken and those still pending are together those that successful passes have
invalidated.
-/

namespace ShaderBinding

/-- The parts outside of the engine that a request has invalidated. Only a pass that succeeded
invalidates any. -/
def Request.invalidated? (request : Request) (reply : Except EngineError Reply) :
    Option ReloadFlags :=
  (request.pass?.filter fun _ => reply.isOk).map fun p => p.parts &&& (.renderPass ||| .pipeline)

def Reply.taken? : Except EngineError Reply → Option ReloadFlags
  | .ok (pending parts) => some parts
  | _ => none

def Request.takes : Request → Bool
  | takePending => true
  | _ => false

namespace Move

def invalidated? (m : Move) : Option ReloadFlags := m.request.invalidated? m.reply

def taken? (m : Move) : Option ReloadFlags := Reply.taken? m.reply

end Move

namespace Session

variable {base : Multiset NativeObject} {first s s' : Session} {moves : List Move}
  {request : Request} {reply : Except EngineError Reply}

/-- The pending parts are handed out, or whatever the request has invalidated joins them. -/
inductive Pends (s : Session) : Request → Except EngineError Reply → Session → Prop
  | taken {s' : Session} : s'.engine.pending = .empty →
      Pends s .takePending (.ok (.pending s.engine.pending)) s'
  | joined {request : Request} {reply : Except EngineError Reply} {s' : Session} :
      request.takes = false → Reply.taken? reply = none →
      s'.engine.pending = s.engine.pending ||| (request.invalidated? reply).getD .empty →
      Pends s request reply s'

theorem Pends.unchanged (hpass : request.pass? = none) (htakes : request.takes = false)
    (hreply : Reply.taken? reply = none) (h : s'.engine.pending = s.engine.pending) :
    s.Pends request reply s' := by
  have hnone : request.invalidated? reply = none := by simp [Request.invalidated?, hpass]
  exact .joined htakes hreply (by rw [h, hnone]; exact (Flags.or_empty _).symm)

theorem taken?_of_exec_bind {α : Type} {op : EngineM α} {f : α → Reply}
    (hf : ∀ a, Reply.taken? (.ok (f a)) = none)
    (h : (op >>= fun a => pure (f a)).exec s = (reply.mapError .error, s')) :
    Reply.taken? reply = none := by
  rw [EngineM.exec_bind_pure] at h
  have hreply := congrArg Prod.fst h
  rcases reply with e | reply
  · rfl
  · obtain ⟨a, -, rfl⟩ := Except.map_eq_ok.mp hreply
    exact hf a

theorem pends_of_edit [Libraries] (hedit : request.isEdit = true)
    (htaken : Reply.taken? reply = none)
    (hexec : request.op.exec s = (reply.mapError .error, s')) : s.Pends request reply s' := by
  have hedits := (request.isEdit_op hedit s).1
  rw [hexec] at hedits
  have hpending : s'.engine.pending = s.engine.pending := by rw [hedits.rest]
  have hpass : request.pass? = none := by cases request <;> first | rfl | cases hedit
  have htakes : request.takes = false := by cases request <;> first | rfl | cases hedit
  exact .unchanged hpass htakes htaken hpending

theorem Pends.succeeded [Libraries] {p : Pass} (hp : p.Succeeds s s') : s.Pends (.pass p)
    (.ok .done) s' := by
  refine .joined rfl rfl ?_
  cases hp with
  | bound log _ _ _ hengine => rw [hengine]; rfl
  | kept _ _ hs' => rw [hs']; rfl

/-- A pass that fails neither adds nor drops anything. -/
theorem Pends.failed {p : Pass} {e : EngineError} (hp : p.Fails s e s') :
    s.Pends (.pass p) (.error e) s' := by
  refine .joined rfl rfl ?_
  have hpending : s'.engine.pending = s.engine.pending := by
    cases hp with
    | refused log _ hengine => rw [hengine]
    | dropped log _ hengine => rw [hengine]
  exact hpending.trans (Flags.or_empty _).symm

theorem pends_of_step [Libraries] (h : s.Sound base) (hstep : s.step request = .ok (reply, s')) :
    s.Pends request reply s' := by
  have hexec := exec_of_step hstep
  cases request with
  | pass p =>
    cases served_of_step h hstep with
    | succeeded hp => exact .succeeded hp
    | failed hp => exact .failed hp
    | carried hpass => cases hpass
  | takePending =>
    cases reply <;> cases hexec
    exact .taken rfl
  | setConfig | setView | plan =>
    cases reply <;> cases hexec
    exact .unchanged rfl rfl rfl rfl
  | writeBuffer | replaceImage | writePushConstants | recordPushConstants =>
    exact pends_of_edit rfl (taken?_of_exec_bind (fun _ => rfl) hexec) hexec

/-- What was invalidated since pending parts were taken last. -/
def collected (moves : List Move) : ReloadFlags :=
  .union ((moves.takeWhile fun m => !m.request.takes).filterMap Move.invalidated?)

/-- No invalidated part is lost and none is invented, in what was served from last to first. -/
structure Balanced (moves : List Move) (s : Session) : Prop where
  pending : s.engine.pending = collected moves
  total : .union (moves.filterMap Move.taken?) ||| s.engine.pending =
    .union (moves.filterMap Move.invalidated?)

theorem Balanced.start (config : Config) (b : Backend) : Balanced [] (start config b) :=
  ⟨rfl, Flags.or_empty _⟩

theorem Balanced.step (h : Balanced moves s) (hs' : s.Pends request reply s') :
    Balanced (⟨s, request, reply, s'⟩ :: moves) s' := by
  cases hs' with
  | taken hpending =>
    refine ⟨hpending, ?_⟩
    rw [Flags.union_filterMap_cons, Flags.union_filterMap_cons, hpending, Flags.or_empty,
      ← h.total, Flags.or_comm (.union _)]
    exact (Flags.empty_or _).symm
  | joined htakes htaken hpending =>
    have hcollected : collected (⟨s, request, reply, s'⟩ :: moves) =
        (request.invalidated? reply).getD .empty ||| collected moves := by
      unfold collected
      rw [List.takeWhile_cons_of_pos (by simp [htakes])]
      exact Flags.union_filterMap_cons _ _ _
    have htaken' : Move.taken? ⟨s, request, reply, s'⟩ = none := htaken
    refine ⟨by rw [hcollected, hpending, h.pending, Flags.or_comm], ?_⟩
    rw [List.filterMap_cons_none htaken', Flags.union_filterMap_cons, ← h.total, hpending,
      ← Flags.or_assoc, Flags.or_comm]
    rfl

theorem Runs.balanced [Libraries] {config : Config} {b : Backend} (hb : b.Valid)
    (h : Runs (Session.start config b) moves s) : Balanced moves s := by
  have hstart := sound_start config hb
  induction h with
  | start => exact .start config b
  | serve hruns hstep ih => exact ih.step (pends_of_step (hruns.sound hstart) hstep)

theorem Runs.split [Libraries] {later earlier : List Move} {m : Move}
    (h : Runs first (later ++ m :: earlier) s) :
    Runs first earlier m.before ∧ m.before.step m.request = .ok (m.reply, m.after) := by
  induction later generalizing s with
  | nil =>
    cases h with
    | serve hruns hstep => exact ⟨hruns, hstep⟩
  | cons m' later ih =>
    cases h with
    | serve hruns _ => exact ih hruns

/--
After any run the parts handed out together with those still pending are those that successful
passes have invalidated. Whenever parts are taken, they are those invalidated since they were taken
last, and a pass that fails changes nothing of what is pending.
-/
theorem run_pending [Libraries] (config : Config) {b : Backend} (hb : b.Valid)
    {requests : List Request} {replies : List (Except EngineError Reply)}
    (hrun : (start config b).run requests = .ok (replies, s)) :
    (.union (((start config b).history requests).filterMap Move.taken?) ||| s.engine.pending =
      .union (((start config b).history requests).filterMap Move.invalidated?)) ∧
    (∀ later m earlier, (start config b).history requests = later ++ m :: earlier →
      m.request = .takePending → m.reply = .ok (.pending (collected earlier))) ∧
    ∀ m ∈ (start config b).history requests, m.outcome? = some false →
      m.after.engine.pending = m.before.engine.pending := by
  have hruns := runs_history hrun
  have hstart := sound_start config hb
  refine ⟨(hruns.balanced hb).total, ?_, ?_⟩
  · rintro later ⟨before, request, reply, after⟩ earlier hmoves rfl
    rw [hmoves] at hruns
    obtain ⟨hearlier, hstep⟩ := hruns.split
    have hpends : before.Pends .takePending reply after :=
      pends_of_step (hearlier.sound hstart) hstep
    cases hpends with
    | taken => rw [(hearlier.balanced hb).pending]
    | joined htakes => cases htakes
  · rintro ⟨before, request, reply, after⟩ hm hfailed
    obtain ⟨later, earlier, hmoves⟩ := List.append_of_mem hm
    rw [hmoves] at hruns
    obtain ⟨hearlier, hstep⟩ := hruns.split
    obtain ⟨p, hpass, hreply⟩ := Option.map_eq_some_iff.mp hfailed
    have hnone : request.invalidated? reply = none := by
      simp [Request.invalidated?, hpass, hreply]
    have hpends : before.Pends request reply after :=
      pends_of_step (hearlier.sound hstart) hstep
    cases hpends with
    | taken => cases hfailed
    | joined _ _ hpending =>
      rw [hnone] at hpending
      exact hpending.trans (Flags.or_empty _)

/-- A rejected model takes nothing back, and the pipeline is handed out once. -/
theorem run_pending_rejected :
    let position : Resource := ⟨"position", .inputAttribute 0, .vector .float 4 16⟩
    let vertex : Reflection := ⟨.vertex, "main", [], [], [position], [], [], [], [], none⟩
    let requests : List Request :=
      [.pass (.install .empty ⟨.ofList [(.vertex, vertex)], .empty⟩ {}),
        .pass (.reload .validation .empty { maxVertexInputAttributes := 0 }), .takePending,
        .pass (.reload .renderPass .empty {}), .takePending, .takePending]
    let config : Config := { placeholder := { width := 1, height := 1 } }
    ∃ replies s, (start config {}).run requests = .ok (replies, s) ∧
      replies.map Reply.taken? = [none, none, some .pipeline, none, some .reloadRenderPass,
        some .empty] ∧
      .union (((start config {}).history requests).filterMap Move.invalidated?) =
        ReloadFlags.reloadRenderPass ||| s.engine.pending := by
  intro position vertex requests config
  have hresult : ((start config {}).run requests).map (fun r => r.1.map Reply.taken?) =
      .ok [none, none, some .pipeline, none, some .reloadRenderPass, some .empty] := by
    decide +kernel
  obtain ⟨⟨replies, s⟩, hrun, htaken⟩ := Except.map_eq_ok.mp hresult
  obtain ⟨htotal, -⟩ := run_pending config Backend.valid_empty hrun
  refine ⟨replies, s, hrun, htaken, ?_⟩
  rw [← htotal]
  have hunion : .union (((start config {}).history requests).filterMap Move.taken?) =
      ReloadFlags.reloadRenderPass := by decide +kernel
  rw [hunion]

end Session

end ShaderBinding
