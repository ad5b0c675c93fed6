/-! # Flag sets

A set of named flags is a bit vector with one bit per flag. Its text lists the names of all
declared constants whose bits it contains.
-/

namespace ShaderBinding

@[ext]
structure Flags (width : Nat) where
  bits : BitVec width
  deriving DecidableEq, Repr

namespace Flags

variable {width : Nat}

def empty : Flags width := ⟨0⟩

instance : Inhabited (Flags width) := ⟨empty⟩

instance : OrOp (Flags width) := ⟨fun a b => ⟨a.bits ||| b.bits⟩⟩

instance : AndOp (Flags width) := ⟨fun a b => ⟨a.bits &&& b.bits⟩⟩

def toNat (flags : Flags width) : Nat := flags.bits.toNat

def truncate (n : Nat) : Flags width := ⟨BitVec.ofNat width n⟩

def ofNat? (n : Nat) : Option (Flags width) :=
  let known := truncate n
  if known.toNat = n then some known else none

def contains (flags part : Flags width) : Bool := flags &&& part = part

def union (sets : List (Flags width)) : Flags width := sets.foldl (· ||| ·) empty

theorem getLsbD_foldl_or (sets : List (Flags width)) (start : Flags width) (i : Nat) :
    (sets.foldl (· ||| ·) start).bits.getLsbD i =
      (start.bits.getLsbD i || sets.any (·.bits.getLsbD i)) := by
  induction sets generalizing start with
  | nil => simp
  | cons flags rest ih =>
    rw [List.foldl_cons, ih, List.any_cons, ← Bool.or_assoc]
    congr 1
    exact BitVec.getLsbD_or

/-- A flag is in the union exactly if it is in one of the sets. -/
theorem getLsbD_union (sets : List (Flags width)) (i : Nat) :
    (union sets).bits.getLsbD i = sets.any (·.bits.getLsbD i) := by
  rw [union, getLsbD_foldl_or]
  simp [empty]

theorem eq_of_getLsbD_eq {a b : Flags width} (h : ∀ i, a.bits.getLsbD i = b.bits.getLsbD i) :
    a = b :=
  Flags.ext (BitVec.eq_of_getLsbD_eq fun i _ => h i)

theorem union_congr {sets sets' : List (Flags width)}
    (h : ∀ flags, flags ∈ sets ↔ flags ∈ sets') : union sets = union sets' := by
  apply eq_of_getLsbD_eq
  intro i
  rw [getLsbD_union, getLsbD_union, Bool.eq_iff_iff]
  simp only [List.any_eq_true, h]

theorem empty_or (flags : Flags width) : empty ||| flags = flags :=
  Flags.ext BitVec.zero_or

theorem or_empty (flags : Flags width) : flags ||| empty = flags :=
  Flags.ext BitVec.or_zero

theorem or_comm (a b : Flags width) : a ||| b = b ||| a := Flags.ext (BitVec.or_comm _ _)

theorem or_assoc (a b c : Flags width) : a ||| b ||| c = a ||| (b ||| c) :=
  Flags.ext (BitVec.or_assoc _ _ _)

theorem union_cons (flags : Flags width) (sets : List (Flags width)) :
    union (flags :: sets) = flags ||| union sets := by
  apply eq_of_getLsbD_eq
  intro i
  rw [getLsbD_union, List.any_cons, ← getLsbD_union]
  exact BitVec.getLsbD_or.symm

theorem union_filterMap_cons {α : Type} (f : α → Option (Flags width)) (a : α) (rest : List α) :
    union ((a :: rest).filterMap f) = (f a).getD empty ||| union (rest.filterMap f) := by
  cases h : f a with
  | none => rw [List.filterMap_cons_none h]; exact (empty_or _).symm
  | some flags => rw [List.filterMap_cons_some h]; exact union_cons _ _

theorem union_singleton (flags : Flags width) : union [flags] = flags := by
  apply eq_of_getLsbD_eq
  intro i
  simp [getLsbD_union]

theorem union_concat (sets : List (Flags width)) (flags : Flags width) :
    union (sets ++ [flags]) = union sets ||| flags := by
  rw [union, List.foldl_append]
  rfl

section contains

variable {flags part : Flags width}

theorem contains_iff : flags.contains part = true ↔
    ∀ i, part.bits.getLsbD i = true → flags.bits.getLsbD i = true := by
  have hbit (i : Nat) : (flags &&& part).bits.getLsbD i =
      (flags.bits.getLsbD i && part.bits.getLsbD i) := BitVec.getLsbD_and
  rw [contains, decide_eq_true_eq]
  constructor
  · intro h i hi
    rw [← h, hbit] at hi
    exact (Bool.and_eq_true_iff.mp hi).1
  · intro h
    refine eq_of_getLsbD_eq fun i => ?_
    rw [hbit]
    cases hi : part.bits.getLsbD i with
    | false => exact Bool.and_false _
    | true => rw [h i hi, Bool.and_true]

theorem contains_or_left (h : flags.contains part) (others : Flags width) :
    (flags ||| others).contains part := by
  refine contains_iff.mpr fun i hi => ?_
  have hbit : (flags ||| others).bits.getLsbD i = _ := BitVec.getLsbD_or
  rw [hbit, contains_iff.mp h i hi, Bool.true_or]

theorem contains_or_right (h : flags.contains part) (others : Flags width) :
    (others ||| flags).contains part := or_comm flags others ▸ contains_or_left h others

theorem contains_self (flags : Flags width) : flags.contains flags :=
  contains_iff.mpr fun _ => id

theorem contains_trans {inner : Flags width} (h : flags.contains part)
    (h' : part.contains inner) : flags.contains inner :=
  contains_iff.mpr fun i hi => contains_iff.mp h i (contains_iff.mp h' i hi)

end contains

def describe (names : List (String × Flags width)) (flags : Flags width) : String :=
  if flags = empty then "(empty)"
  else " | ".intercalate ((names.filter fun entry => flags.contains entry.2).map (·.1))

end Flags

end ShaderBinding
