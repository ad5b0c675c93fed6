import ShaderBinding.Proofs.Native.Exec

/-! # Computations that do not read

No call gives back what is in memory. On backends that differ in nothing but that, computations
that differ in nothing but the bytes they write do the same, and their backends differ in nothing
else afterwards.
-/

namespace ShaderBinding

def Memory.blank (m : Memory) : Memory := ⟨m.length, [], Nat.zero_le _⟩

def Block.blank (block : Block) : Block := { block with memory := block.memory.blank }

namespace Allocator

def blank (a : Allocator) : Allocator :=
  { a with blocks := a.blocks.map fun entry => (entry.1, entry.2.blank) }

theorem block?_blank (a : Allocator) (id : Nat) :
    a.blank.block? id = (a.block? id).map (·.blank) := by
  simp [block?, blank, List.find?_map, Function.comp_def]

theorem memory?_blank (a : Allocator) (id : Nat) :
    a.blank.memory? id = (a.memory? id).map (·.blank) := by
  simp [memory?, block?_blank, Function.comp_def, Block.blank]

theorem live_blank (a : Allocator) (kind : BlockKind) : a.blank.live kind = a.live kind := by
  simp [live, blank, List.filter_map, Function.comp_def, Block.blank]

theorem map_blank (a : Allocator) (id start stop : Nat) :
    a.blank.map id start stop = (a.map id start stop).map (·.blank) := by
  unfold map
  rw [memory?_blank]
  cases a.memory? id with
  | none => rfl
  | some memory =>
    have hlength : memory.blank.length = memory.length := rfl
    dsimp only [Option.map]
    rw [hlength]
    split <;> rfl

theorem unmap_blank (a : Allocator) : a.blank.unmap = a.unmap.map (·.blank) := by
  have hmapped : a.blank.mapped = a.mapped := rfl
  unfold unmap
  rw [hmapped]
  split <;> rfl

theorem release_blank (a : Allocator) (kind : BlockKind) (handle : Nat) :
    a.blank.release kind handle = (a.release kind handle).map (·.blank) := by
  unfold release
  rw [live_blank]
  split
  · simp [Except.map, blank, List.filter_map, Function.comp_def]
  · rfl

theorem blank_write (a : Allocator) (id offset : Nat) (data : Bytes) :
    (a.modifyMemory id (·.write offset data)).blank = a.blank := by
  unfold modifyMemory blank
  congr 1
  rw [List.map_map]
  refine List.map_congr_left fun entry _ => ?_
  by_cases hid : entry.1 = id
  · simp [hid, Block.blank, Memory.blank]
  · simp [hid]

end Allocator

/-- Backends that differ in nothing but what is in memory. -/
structure Backend.Alike (b b' : Backend) : Prop where
  allocator : b.allocator.blank = b'.allocator.blank
  device : b.device = b'.device
  failures : b.failures = b'.failures
  trace : b.trace = b'.trace

namespace Backend.Alike

variable {b b' : Backend}

theorem refl (b : Backend) : b.Alike b := ⟨rfl, rfl, rfl, rfl⟩

theorem counted (h : b.Alike b') (kind : CallKind) : (b.counted kind).Alike (b'.counted kind) :=
  ⟨h.allocator, h.device, congrArg (·.advance kind) h.failures, h.trace⟩

theorem noted (h : b.Alike b') (call : Call) (result : CallResult) :
    (b.noted call result).Alike (b'.noted call result) :=
  ⟨h.allocator, h.device, h.failures, congrArg (· ++ [Event.mk call result]) h.trace⟩

theorem withDevice (h : b.Alike b') (device : Device) :
    { b with device := device }.Alike { b' with device := device } :=
  ⟨h.allocator, rfl, h.failures, h.trace⟩

theorem withAllocator (h : b.Alike b') {a a' : Allocator} (ha : a.blank = a'.blank) :
    { b with allocator := a }.Alike { b' with allocator := a' } :=
  ⟨ha, h.device, h.failures, h.trace⟩

end Backend.Alike

/-- Both have values that are related, or both fail in the same way. -/
inductive Except.Alike {ε α β : Type} (R : α → β → Prop) : Except ε α → Except ε β → Prop
  | ok {a : α} {c : β} (h : R a c) : Alike R (.ok a) (.ok c)
  | error (e : ε) : Alike R (.error e) (.error e)

namespace Except.Alike

variable {ε δ α β γ κ : Type} {R : α → β → Prop} {x : Except ε α} {y : Except ε β}

theorem mapError (h : Alike R x y) (f : ε → δ) : Alike R (x.mapError f) (y.mapError f) := by
  cases h with
  | ok h => exact .ok h
  | error e => exact .error (f e)

theorem refl (x : Except ε α) : Alike Eq x x := by
  cases x with
  | ok a => exact .ok rfl
  | error e => exact .error e

theorem refl_of_eq (x : Except ε α) : Alike (fun a c => a = c ∧ x = .ok a) x x := by
  cases x with
  | ok a => exact .ok ⟨rfl, rfl⟩
  | error e => exact .error e

theorem map {f : α → γ} {g : β → κ} {S : γ → κ → Prop} (h : Alike R x y)
    (hfg : ∀ a c, R a c → S (f a) (g c)) : Alike S (x.map f) (y.map g) := by
  cases h with
  | ok h => exact .ok (hfg _ _ h)
  | error e => exact .error e

theorem map_eq {f : α → γ} {g : β → γ} (h : Alike R x y) (hfg : ∀ a c, R a c → f a = g c) :
    x.map f = y.map g := by
  cases h with
  | ok h => exact congrArg Except.ok (hfg _ _ h)
  | error e => rfl

theorem bind {f : α → Except ε γ} {g : β → Except ε κ} {S : γ → κ → Prop} (h : Alike R x y)
    (hfg : ∀ a c, R a c → Alike S (f a) (g c)) : Alike S (x >>= f) (y >>= g) := by
  cases h with
  | ok h => exact hfg _ _ h
  | error e => exact .error e

theorem mapM {f : γ → Except ε α} {g : γ → Except ε β} (h : ∀ c, Alike R (f c) (g c)) :
    ∀ items : List γ, Alike (List.Forall₂ R) (items.mapM f) (items.mapM g)
  | [] => .ok .nil
  | c :: rest => by
    rw [List.mapM_cons, List.mapM_cons]
    exact (h c).bind fun _ _ hR => (mapM h rest).bind fun _ _ hrest => .ok (.cons hR hrest)

theorem of_map {x y : Except ε α} {f : α → β} (h : x.map f = y.map f) :
    Alike (fun a c => f a = f c) x y := by
  cases x with
  | ok a =>
    cases y with
    | ok c => exact .ok (Except.ok.inj h)
    | error e => cases h
  | error e =>
    cases y with
    | ok c => cases h
    | error e' =>
      cases h
      exact .error e

end Except.Alike

namespace Native

variable {ε δ α β γ κ : Type}

/-- Two computations do the same on backends that differ in memory, and have related values. -/
def Alike (R : α → β → Prop) (x : Native ε α) (y : Native ε β) : Prop :=
  ∀ b b', b.Alike b' →
    Except.Alike R (x.exec b).1 (y.exec b').1 ∧ (x.exec b).2.Alike (y.exec b').2

/-- A computation is not influenced by what is in memory. -/
def Blind (x : Native ε α) : Prop := Alike Eq x x

namespace Alike

variable {R : α → β → Prop} {S : γ → κ → Prop}

theorem pure {a : α} {c : β} (h : R a c) : Alike R (pure a : Native ε α) (pure c) :=
  fun _ _ hb => ⟨.ok h, hb⟩

theorem bind {x : Native ε α} {y : Native ε β} {f : α → Native ε γ} {g : β → Native ε κ}
    (hxy : Alike R x y) (hfg : ∀ a c, R a c → Alike S (f a) (g c)) :
    Alike S (x >>= f) (y >>= g) := by
  intro b b' hb
  obtain ⟨hout, hback⟩ := hxy b b' hb
  rw [exec_bind, exec_bind]
  generalize x.exec b = r at hout hback ⊢
  generalize y.exec b' = r' at hout hback ⊢
  obtain ⟨r, b₁⟩ := r
  obtain ⟨r', b₁'⟩ := r'
  cases hout with
  | ok h => exact hfg _ _ h b₁ b₁' hback
  | error failure => exact ⟨.error failure, hback⟩

theorem mapError {x : Native ε α} {y : Native ε β} (h : Alike R x y) (f : ε → δ) :
    Alike R (mapError f x) (mapError f y) := by
  intro b b' hb
  obtain ⟨hout, hback⟩ := h b b' hb
  rw [exec_mapError, exec_mapError]
  exact ⟨hout.mapError _, hback⟩

theorem withUndo {x : Native ε α} {y : Native ε β} {undo : Native ε Unit} (hundo : undo.Blind)
    (h : Alike R x y) : Alike R (withUndo undo x) (withUndo undo y) := by
  intro b b' hb
  obtain ⟨hout, hback⟩ := h b b' hb
  rw [exec_withUndo, exec_withUndo]
  generalize x.exec b = r at hout hback ⊢
  generalize y.exec b' = r' at hout hback ⊢
  obtain ⟨r, b₁⟩ := r
  obtain ⟨r', b₁'⟩ := r'
  cases hout with
  | ok h => exact ⟨.ok h, hback⟩
  | error failure =>
    cases failure with
    | fault fault => exact ⟨.error _, hback⟩
    | error e =>
      obtain ⟨hundone, hleft⟩ := hundo b₁ b₁' hback
      dsimp only
      generalize undo.exec b₁ = u at hundone hleft ⊢
      generalize undo.exec b₁' = u' at hundone hleft ⊢
      obtain ⟨u, b₂⟩ := u
      obtain ⟨u', b₂'⟩ := u'
      cases hundone with
      | ok => exact ⟨.error _, hleft⟩
      | error failure => exact ⟨.error failure, hleft⟩

theorem forM {f g : α → Native ε Unit} (h : ∀ a, Alike Eq (f a) (g a)) :
    ∀ items : List α, Alike Eq (items.forM f) (items.forM g)
  | [] => .pure rfl
  | a :: rest => .bind (h a) fun _ _ _ => forM h rest

theorem ofOutcome {x : Outcome ε α} {y : Outcome ε β} (h : Except.Alike R x y) :
    Alike R (ofOutcome x) (ofOutcome y) := fun _ _ hb => ⟨h, hb⟩

theorem ofChecked {x : Checked α} {y : Checked β} (h : Except.Alike R x y) :
    Alike R (ofChecked x : Native ε α) (ofChecked y) := fun _ _ hb => ⟨h.mapError _, hb⟩

end Alike

namespace Blind

theorem pure (a : α) : (pure a : Native ε α).Blind := Alike.pure rfl

theorem fail (e : ε) : (fail e : Native ε α).Blind := fun _ _ hb => ⟨.error _, hb⟩

theorem ofExcept (x : Except ε α) : (ofExcept x).Blind :=
  fun _ _ hb => ⟨(Except.Alike.refl x).mapError _, hb⟩

theorem bind {x : Native ε α} {f : α → Native ε β} (hx : x.Blind) (hf : ∀ a, (f a).Blind) :
    (x >>= f).Blind := Alike.bind hx fun a _ heq => heq ▸ hf a

theorem forM {f : α → Native ε Unit} (hf : ∀ a, (f a).Blind) (items : List α) :
    (items.forM f).Blind := Alike.forM hf items

theorem makeAll {make : α → Native ε β} {undo : β → Native ε Unit} (hmake : ∀ a, (make a).Blind)
    (hundo : ∀ c, (undo c).Blind) : ∀ items : List α, (makeAll make undo items).Blind
  | [] => pure []
  | a :: rest => bind (hmake a) fun c =>
      bind (Alike.withUndo (hundo c) (makeAll hmake hundo rest)) fun _ => pure _

section Calls

variable {call : Call}

theorem onDevice {kind : CallKind} {result : α → CallResult}
    {step : Device → Outcome kind.Error (α × Device)} :
    (attempt kind call result (onDevice step)).Blind := by
  intro b b' hb
  have hcounted := hb.counted kind
  rw [exec_attempt, exec_attempt, verdict, verdict, ← hb.failures]
  cases b.failures.due? kind with
  | some error => exact ⟨.error _, hcounted.noted call .failed⟩
  | none =>
    have hdevice : (b.counted kind).device = (b'.counted kind).device := hcounted.device
    simp only [Native.onDevice, hdevice]
    rcases step (b'.counted kind).device with (_ | _) | ⟨a, device⟩
    · exact ⟨.error _, hcounted⟩
    · exact ⟨.error _, hcounted.noted call .failed⟩
    · exact ⟨.ok rfl, (hcounted.withDevice device).noted call (result a)⟩

theorem performDevice {step : Backend → Checked Device}
    (hstep : ∀ b b', b.Alike b' → step b = step b') :
    (perform call (fun b => do return { b with device := ← step b }) : Native ε Unit).Blind := by
  intro b b' hb
  rw [exec_perform, exec_perform, hstep b b' hb]
  rcases step b' with _ | device
  · exact ⟨.error _, hb⟩
  · exact ⟨.ok rfl, (hb.withDevice device).noted call .done⟩

theorem performAllocator {step : Backend → Checked Allocator}
    (hstep : ∀ b b', b.Alike b' →
      Except.Alike (fun a a' => a.blank = a'.blank) (step b) (step b')) :
    (perform call (fun b => do return { b with allocator := ← step b }) :
      Native ε Unit).Blind := by
  intro b b' hb
  have hstep := hstep b b' hb
  rw [exec_perform, exec_perform]
  generalize step b = r at hstep ⊢
  generalize step b' = r' at hstep ⊢
  cases hstep with
  | ok h => exact ⟨.ok rfl, (hb.withAllocator h).noted call .done⟩
  | error fault => exact ⟨.error _, hb⟩

theorem onAllocator {kind : CallKind} {result : α → CallResult}
    {step : Allocator → Outcome kind.Error (α × Allocator)}
    (hstep : ∀ a a', a.blank = a'.blank →
      Except.Alike (fun r r' => r.1 = r'.1 ∧ r.2.blank = r'.2.blank) (step a) (step a')) :
    (attempt kind call result (onAllocator step)).Blind := by
  intro b b' hb
  have hcounted := hb.counted kind
  have hstep := hstep _ _ hcounted.allocator
  rw [exec_attempt, exec_attempt, verdict, verdict, ← hb.failures]
  cases b.failures.due? kind with
  | some error => exact ⟨.error _, hcounted.noted call .failed⟩
  | none =>
    simp only [Native.onAllocator]
    generalize step (b.counted kind).allocator = r at hstep ⊢
    generalize step (b'.counted kind).allocator = r' at hstep ⊢
    cases hstep with
    | error failure =>
      cases failure with
      | fault fault => exact ⟨.error _, hcounted⟩
      | error e => exact ⟨.error _, hcounted.noted call .failed⟩
    | @ok r r' h =>
      obtain ⟨a, allocator⟩ := r
      obtain ⟨a', allocator'⟩ := r'
      obtain ⟨rfl, hblank⟩ := h
      exact ⟨.ok rfl, (hcounted.withAllocator hblank).noted call (result a)⟩

theorem destroy (kind : ObjectKind) (handle : Nat) :
    (destroy kind handle : Native ε Unit).Blind :=
  performDevice fun _ _ hb => congrArg (·.destroy kind handle) hb.device

theorem deallocate (kind : BlockKind) (allocation : Allocation) :
    (deallocate kind allocation : Native ε Unit).Blind :=
  performAllocator fun b b' hb => .of_map (by
    rw [← Allocator.release_blank, ← Allocator.release_blank, hb.allocator])

theorem unmapMemory (memory : Nat) : (unmapMemory memory : Native ε Unit).Blind :=
  performAllocator fun b b' hb => .of_map (by
    rw [← Allocator.unmap_blank, ← Allocator.unmap_blank, hb.allocator])

theorem mapMemory (memory start stop : Nat) : (mapMemory memory start stop).Blind := by
  refine onAllocator fun a a' ha => ?_
  have hmap : Except.Alike (fun a a' => a.blank = a'.blank) (a.map memory start stop)
      (a'.map memory start stop) := .of_map (by
    rw [← Allocator.map_blank, ← Allocator.map_blank, ha])
  generalize a.map memory start stop = r at hmap ⊢
  generalize a'.map memory start stop = r' at hmap ⊢
  cases hmap with
  | ok h => exact .ok ⟨rfl, h⟩
  | error e => exact .error _

end Calls

end Blind

theorem Alike.copyIn (memory offset : Nat) (data data' : Bytes) :
    Alike Eq (copyIn memory offset data : Native ε Unit) (copyIn memory offset data') := by
  intro b b' hb
  have hblank := hb.allocator
  rw [← Allocator.blank_write b.allocator memory offset data,
    ← Allocator.blank_write b'.allocator memory offset data'] at hblank
  exact ⟨.ok rfl, hb.withAllocator hblank⟩

theorem Alike.writeBytes (allocation : Allocation) (offset : Nat) {data data' : Bytes}
    (hlength : data.length = data'.length) :
    Alike Eq (writeBytes allocation offset data) (writeBytes allocation offset data') := by
  have hempty : data.isEmpty = data'.isEmpty := by
    rw [Bool.eq_iff_iff, List.isEmpty_iff, List.isEmpty_iff, ← List.length_eq_zero_iff,
      ← List.length_eq_zero_iff, hlength]
  unfold Native.writeBytes
  rw [hlength, hempty]
  dsimp only
  split
  · exact Blind.fail _
  · split
    · exact .pure rfl
    · exact .bind (Blind.mapMemory _ _ _) fun _ _ _ =>
        .bind (Alike.copyIn _ _ _ _) fun _ _ _ => Blind.unmapMemory _

end Native

end ShaderBinding
