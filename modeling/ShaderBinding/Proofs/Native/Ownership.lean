import Mathlib.Algebra.Order.Group.Multiset
import ShaderBinding.Proofs.Native.History

/-! # Ownership of native objects

A triple `Owns` says which live objects a computation takes over, which it leaves with its value
and which with its error, whatever else is live. `Frees` is the triple of a computation that
always returns and releases what it takes over. Undoing and making one thing per item have
rules of their own.
-/

namespace ShaderBinding.Native

open NativeObject

variable {ε δ α β : Type}

/-- With `before` among the live objects, `after` or `failed` is in its place in the end. -/
def Owns (x : Native ε α) (before : Multiset NativeObject) (after : α → Multiset NativeObject)
    (failed : Multiset NativeObject) : Prop :=
  ∀ ⦃b : Backend⦄ ⦃rest : Multiset NativeObject⦄, b.Valid → Closed rest → b.live = rest + before →
    x.Ends b (fun a b' => b.Reaches b' ∧ b'.live = rest + after a)
      fun _ b' => b.Reaches b' ∧ b'.live = rest + failed

/-- A computation that fails without a trace among the live objects. -/
def Makes (x : Native ε α) (objects : α → List NativeObject) : Prop :=
  ∀ ⦃b : Backend⦄, b.Valid →
    x.Ends b (fun a b' => b.Reaches b' ∧ b'.live = b.live + objects a)
      fun _ b' => b.Reaches b' ∧ b'.live = b.live

/-- A computation that always returns and takes what it is given from the live objects. -/
def Frees (x : Native ε Unit) (objects : Multiset NativeObject) : Prop :=
  ∀ ⦃b : Backend⦄ ⦃rest : Multiset NativeObject⦄, b.Valid → Closed rest → b.live = rest + objects →
    ∃ b', x.exec b = (.ok (), b') ∧ b.Reaches b' ∧ b'.live = rest

/-- After an error has left `objects` behind, releasing them is all that is missing. -/
theorem Frees.undo {undo : Native ε Unit} {objects rest : Multiset NativeObject}
    (h : Frees undo objects) {b b' : Backend} (hr : Closed rest) (hv : b.Valid)
    (hb : b.Reaches b') (hlive : b'.live = rest + objects) :
    undo.Ends b' (fun _ b' => b.Reaches b' ∧ b'.live = rest)
      fun _ b' => b.Reaches b' ∧ b'.live = rest := by
  obtain ⟨b'', hexec, hb', hlive'⟩ := h hb.valid hr hlive
  exact .of_exec hexec ⟨hb.trans hb' hv, hlive'⟩

namespace Owns

variable {before failed m : Multiset NativeObject} {after after' : α → Multiset NativeObject}

theorem pure {a : α} (h : before = after a) : Owns (pure a : Native ε α) before after failed :=
  fun _ _ hv _ hlive => ⟨.refl hv, h ▸ hlive⟩

theorem fail {e : ε} : Owns (fail e : Native ε α) failed after failed :=
  fun _ _ hv _ hlive => ⟨.refl hv, hlive⟩

theorem bind {x : Native ε α} {f : α → Native ε β} {mid : α → Multiset NativeObject}
    {after : β → Multiset NativeObject} (hx : Owns x before mid failed)
    (hf : ∀ a, Owns (f a) (mid a) after failed) : Owns (x >>= f) before after failed := by
  intro b rest hv hr hlive
  refine .bind ((hx hv hr hlive).mono ?_ fun _ _ h => h)
  rintro a b' ⟨hb, hlive'⟩
  exact (hf a hb.valid hr hlive').mono (fun _ _ h => ⟨hb.trans h.1 hv, h.2⟩)
    fun _ _ h => ⟨hb.trans h.1 hv, h.2⟩

theorem mapError {x : Native ε α} {f : ε → δ} (hx : Owns x before after failed) :
    Owns (mapError f x) before after failed :=
  fun _ _ hv hr hlive => .mapError (hx hv hr hlive)

theorem withUndo_bind {x : Native ε β} {f : β → Native ε α} {undo : Native ε Unit}
    {mid n : β → Multiset NativeObject} (hx : Owns x before mid (failed + m)) (hu : Frees undo m)
    (hf : ∀ a, Owns (f a) (mid a) after (failed + n a)) (hu' : ∀ a, Frees undo (n a))
    (hc : Closed failed) : Owns (Native.withUndo undo (x >>= f)) before after failed := by
  intro b rest hv hr hlive
  refine .withUndo (.bind ((hx hv hr hlive).mono ?_ ?_))
  · rintro a b' ⟨hb, hlive'⟩
    refine (hf a hb.valid hr hlive').mono (fun _ _ h => ⟨hb.trans h.1 hv, h.2⟩) ?_
    rintro e b'' ⟨hb', hlive''⟩
    exact (hu' a).undo (hr.add hc) hv (hb.trans hb' hv) (by rw [hlive'', add_assoc])
  · rintro e b' ⟨hb, hlive'⟩
    exact hu.undo (hr.add hc) hv hb (by rw [hlive', add_assoc])

theorem withUndo {x : Native ε α} {undo : Native ε Unit} (hx : Owns x before after (failed + m))
    (hu : Frees undo m) (hc : Closed failed) : Owns (Native.withUndo undo x) before after failed := by
  intro b rest hv hr hlive
  refine .withUndo ((hx hv hr hlive).mono (fun _ _ h => h) ?_)
  rintro e b' ⟨hb, hlive'⟩
  exact hu.undo (hr.add hc) hv hb (by rw [hlive', add_assoc])

theorem congr {x : Native ε α} {before' failed' : Multiset NativeObject}
    (h : Owns x before after failed) (hb : before' = before) (ha : ∀ a, after' a = after a)
    (hf : failed' = failed) : Owns x before' after' failed' := by
  obtain rfl : after' = after := funext ha
  exact hb ▸ hf ▸ h

theorem ofChecked_bind {x : Checked α} {f : α → Native ε β} {after : β → Multiset NativeObject}
    (hx : x.Proper) (hf : ∀ a, Owns (f a) m after failed) :
    Owns (ofChecked x >>= f) m after failed := by
  intro b rest hv hr hlive
  exact .bind (.ofChecked hx fun a _ => hf a hv hr hlive)

theorem ofOutcome_bind {x : Outcome ε α} {f : α → Native ε β} {after : β → Multiset NativeObject}
    (hx : x.Proper) (hf : ∀ a, Owns (f a) m after m) : Owns (ofOutcome x >>= f) m after m := by
  intro b rest hv hr hlive
  exact .bind (.ofOutcome hx (fun a _ => hf a hv hr hlive) fun _ _ => ⟨.refl hv, hlive⟩)

theorem ofExcept_bind {x : Except ε α} {f : α → Native ε β} {after : β → Multiset NativeObject}
    (hf : ∀ a, x = .ok a → Owns (f a) m after m) : Owns (ofExcept x >>= f) m after m := by
  intro b rest hv hr hlive
  exact .bind (.ofExcept (fun a ha => hf a ha hv hr hlive) fun _ _ => ⟨.refl hv, hlive⟩)

theorem ofExcept_ok {x : Except ε α} {f : α → Native ε β} {after : β → Multiset NativeObject}
    {a : α} (hx : x = .ok a) (h : Owns (f a) before after failed) :
    Owns (ofExcept x >>= f) before after failed := hx ▸ h

end Owns

namespace Makes

variable {objects : α → List NativeObject}

theorem done {a : α} (h : objects a = []) : Makes (pure a : Native ε α) objects :=
  fun _ hv => .pure ⟨.refl hv, by rw [h, Multiset.coe_nil, add_zero]⟩

theorem bind_pure {x : Native ε α} {f : α → β} {objects' : β → List NativeObject}
    (h : Makes x objects) (hf : ∀ a, objects' (f a) = objects a) :
    Makes (x >>= fun a => pure (f a)) objects' := fun _ hv =>
  .bind ((h hv).mono (fun a _ h => ⟨h.1, (hf a).symm ▸ h.2⟩) fun _ _ h => h)

theorem map {x : Native ε α} {f : α → β} {objects' : β → List NativeObject} (h : Makes x objects)
    (hf : ∀ a, objects' (f a) = objects a) : Makes (f <$> x) objects' :=
  map_eq_pure_bind f x ▸ h.bind_pure hf

theorem owns {x : Native ε α} (h : Makes x objects) (m : Multiset NativeObject) :
    Owns x m (fun a => m + objects a) m := by
  intro b rest hv _ hlive
  refine (h hv).mono ?_ ?_
  · rintro a b' ⟨hb, hlive'⟩
    exact ⟨hb, by rw [hlive', hlive, add_assoc]⟩
  · rintro e b' ⟨hb, hlive'⟩
    exact ⟨hb, hlive'.trans hlive⟩

theorem of_owns {x : Native ε α} (h : Owns x 0 (fun a => objects a) 0) : Makes x objects := by
  intro b hv
  refine (h hv hv.closed (add_zero _).symm).mono (fun _ _ h => h) ?_
  rintro e b' ⟨hb, hlive⟩
  exact ⟨hb, by rw [hlive, add_zero]⟩

theorem mapError {x : Native ε α} {f : ε → δ} (h : Makes x objects) :
    Makes (Native.mapError f x) objects := fun _ hv => .mapError (h hv)

theorem makeAll {make : α → Native ε β} {undo : β → Native ε Unit}
    {objects : β → List NativeObject} (hmake : ∀ a, Makes (make a) objects)
    (hundo : ∀ b, Frees (undo b) (objects b)) :
    ∀ items, Makes (makeAll make undo items) fun made => made.flatMap objects
  | [] => done rfl
  | a :: rest => of_owns <| by
    refine ((hmake a).owns 0).bind fun b => ?_
    have hrest : Owns (Native.makeAll make undo rest) (0 + objects b)
        (fun others => objects b + others.flatMap objects) (0 + objects b) := by
      rw [zero_add]
      exact (makeAll hmake hundo rest).owns _
    exact (hrest.withUndo (hundo b) .zero).bind fun others => .pure rfl

theorem forM {f : α → Native ε Unit} (hf : ∀ a, Makes (f a) fun _ => []) (items : List α) :
    Makes (items.forM f) fun _ => [] := by
  induction items with
  | nil => exact done rfl
  | cons a rest ih =>
    intro b hv
    refine .bind ((hf a hv).mono (fun _ b' h => ?_) fun _ _ h => h)
    have hlive : b'.live = b.live := by simpa using h.2
    exact (ih h.1.valid).mono (fun _ _ h' => ⟨h.1.trans h'.1 hv, hlive ▸ h'.2⟩)
      fun _ _ h' => ⟨h.1.trans h'.1 hv, hlive ▸ h'.2⟩

end Makes

namespace Owns

variable {m : Multiset NativeObject} {objects : α → List NativeObject}
  {after : β → Multiset NativeObject} {x : Native ε α} {f : α → Native ε β}

/-- What is made first is there for what follows. -/
theorem make (hx : Makes x objects) (hf : ∀ a, Owns (f a) (m + objects a) after m) :
    Owns (x >>= f) m after m := (hx.owns m).bind hf

theorem idle (hx : Makes x fun _ => []) (hf : ∀ a, Owns (f a) m after m) :
    Owns (x >>= f) m after m :=
  make hx fun a => (hf a).congr (add_zero m) (fun _ => rfl) rfl

end Owns

namespace Frees

variable {m n : Multiset NativeObject}

theorem congr {x : Native ε Unit} (h : Frees x m) (hm : n = m) : Frees x n := hm ▸ h

theorem done : Frees (Pure.pure () : Native ε Unit) 0 :=
  fun b _ hv _ hlive => ⟨b, rfl, .refl hv, hlive.trans (add_zero _)⟩

theorem seq {x y : Native ε Unit} (hx : Frees x m) (hy : Frees y n) (hn : Closed n) :
    Frees (do x; y) (m + n) := by
  intro b rest hv hr hlive
  obtain ⟨b₁, hexec, hb, hlive₁⟩ :=
    hx hv (hr.add hn) (by rw [hlive, add_assoc, add_comm m])
  obtain ⟨b₂, hexec', hb', hlive₂⟩ := hy hb.valid hr hlive₁
  exact ⟨b₂, exec_bind_eq_ok.mpr ⟨(), b₁, hexec, hexec'⟩, hb.trans hb' hv, hlive₂⟩

theorem forM {f : α → Native ε Unit} {objects : α → List NativeObject}
    (hf : ∀ a, Frees (f a) (objects a)) (hc : ∀ a, Closed (objects a : Multiset NativeObject)) :
    ∀ items : List α, Frees (items.forM f) (items.flatMap objects) ∧
      Closed (items.flatMap objects : Multiset NativeObject)
  | [] => ⟨done, .zero⟩
  | a :: rest => by
    obtain ⟨hrest, hclosed⟩ := forM hf hc rest
    rw [List.flatMap_cons, ← Multiset.coe_add]
    exact ⟨(hf a).seq hrest hclosed, (hc a).add hclosed⟩

theorem forM_reverse {f : α → Native ε Unit} {objects : α → List NativeObject}
    (hf : ∀ a, Frees (f a) (objects a)) (hc : ∀ a, Closed (objects a : Multiset NativeObject))
    (items : List α) : Frees (items.reverse.forM f) (items.flatMap objects) := by
  have hperm : (items.reverse.flatMap objects).Perm (items.flatMap objects) :=
    (List.reverse_perm items).flatMap_right objects
  exact Multiset.coe_eq_coe.mpr hperm ▸ (forM hf hc items.reverse).1

theorem owns {x : Native ε Unit} {failed : Multiset NativeObject} (h : Frees x m) (hn : Closed n) :
    Owns x (n + m) (fun _ => n) failed := by
  intro b rest hv hr hlive
  obtain ⟨b', hexec, h'⟩ := h hv (hr.add hn) (by rw [hlive, add_assoc])
  exact .of_exec hexec h'

end Frees

end ShaderBinding.Native
