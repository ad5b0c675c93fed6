import Mathlib.Data.List.Nodup
import ShaderBinding.Proofs.Type.Leaves

/-! # Paths of leaves

A path ends each member name with a separator or with itself, and each index with a bracket. Names
without separators therefore keep the paths of all leaves apart.
-/

namespace ShaderBinding

theorem takeWhile_append_eq {α : Type} {p : α → Bool} {name rest : List α} (hname : ∀ c ∈ name, p c)
    (hrest : ∀ c ∈ rest.head?, p c = false) : (name ++ rest).takeWhile p = name := by
  rw [List.takeWhile_append_of_pos hname]
  cases rest with
  | nil => simp
  | cons c rest => simp [hrest c rfl]

def Continues (path longer : String) : Prop :=
  ∃ rest : List Char, longer.toList = path.toList ++ rest ∧ ∀ c ∈ rest.head?, c = '.' ∨ c = '['

theorem Continues.refl (path : String) : Continues path path := ⟨[], by simp, by simp⟩

theorem Continues.of_append {path next longer : String} {separator : Char} {suffix : List Char}
    (h : Continues next longer) (hnext : next.toList = path.toList ++ separator :: suffix)
    (hseparator : separator = '.' ∨ separator = '[') : Continues path longer := by
  obtain ⟨rest, heq, -⟩ := h
  refine ⟨separator :: suffix ++ rest, by simp [heq, hnext], ?_⟩
  simpa using hseparator

namespace ShaderType

/-- The members of a struct have different names, which have no separators in them. -/
def Named : ShaderType → Prop
  | struct fields _ => (fields.toList.map (·.name)).Nodup ∧
    ∀ field ∈ fields.toList, field.name ≠ "" ∧ '.' ∉ field.name.toList ∧ '[' ∉ field.name.toList
  | _ => True

theorem toList_elementPath (path : String) (index : Nat) :
    s!"{path}[{index}]".toList = path.toList ++ '[' :: (index.repr.toList ++ [']']) := by
  simp [toString, String.toList_append]

theorem toList_memberPath (path name : String) : (memberPath path name).toList =
    (if path = "" then [] else path.toList ++ ['.']) ++ name.toList := by
  unfold memberPath
  by_cases hpath : path = "" <;> simp [hpath, toString, String.toList_append]

theorem elementPath_ne_empty (path : String) (index : Nat) : s!"{path}[{index}]" ≠ "" := by
  intro h
  simpa [toList_elementPath] using congrArg String.toList h

theorem memberPath_ne_empty {path name : String} (h : path ≠ "" ∨ name ≠ "") :
    memberPath path name ≠ "" := by
  intro heq
  have hlist := toList_memberPath path name
  rw [heq] at hlist
  by_cases hpath : path = ""
  · simp [hpath] at h hlist
    exact h hlist
  · simp [hpath] at hlist

theorem index_eq_of_continues {path longer : String} {i j : Nat}
    (hi : Continues s!"{path}[{i}]" longer) (hj : Continues s!"{path}[{j}]" longer) : i = j := by
  obtain ⟨first, hfirst, -⟩ := hi
  obtain ⟨second, hsecond, -⟩ := hj
  rw [hfirst, toList_elementPath, toList_elementPath] at hsecond
  -- A bracket is no digit, so that it ends the number.
  have hread (n : Nat) (rest : List Char) :
      (n.repr.toList ++ ']' :: rest).takeWhile (· ≠ ']') = Nat.toDigits 10 n := by
    rw [Nat.toList_repr]
    refine takeWhile_append_eq (fun c hc => decide_eq_true ?_) (by simp)
    rintro rfl
    exact absurd (Nat.isDigit_of_mem_toDigits (by decide) (by decide) hc) (by decide)
  have hcut : i.repr.toList ++ ']' :: first = j.repr.toList ++ ']' :: second := by
    simpa using hsecond
  have hdigits : Nat.toDigits 10 i = Nat.toDigits 10 j := by
    rw [← hread i first, hcut, hread j second]
  calc
    i = Nat.ofDigitChars 10 (Nat.toDigits 10 i) 0 := Nat.ofDigitChars_ten_toDigits.symm
    _ = Nat.ofDigitChars 10 (Nat.toDigits 10 j) 0 := by rw [hdigits]
    _ = j := Nat.ofDigitChars_ten_toDigits

theorem name_eq_of_continues {path name name' longer : String}
    (hname : '.' ∉ name.toList ∧ '[' ∉ name.toList)
    (hname' : '.' ∉ name'.toList ∧ '[' ∉ name'.toList)
    (h : Continues (memberPath path name) longer) (h' : Continues (memberPath path name') longer) :
    name = name' := by
  obtain ⟨rest, heq, hrest⟩ := h
  obtain ⟨rest', heq', hrest'⟩ := h'
  rw [heq, toList_memberPath, toList_memberPath, List.append_assoc, List.append_assoc,
    List.append_cancel_left_eq] at heq'
  -- A name without separators ends where the first one is.
  have hread {name : String} {rest : List Char} (hname : '.' ∉ name.toList ∧ '[' ∉ name.toList)
      (hrest : ∀ c ∈ rest.head?, c = '.' ∨ c = '[') :
      (name.toList ++ rest).takeWhile (fun c => c ≠ '.' ∧ c ≠ '[') = name.toList := by
    refine takeWhile_append_eq (fun c hc => ?_) fun c hc => ?_
    · refine decide_eq_true ⟨?_, ?_⟩ <;> rintro rfl
      · exact hname.1 hc
      · exact hname.2 hc
    · simpa [or_iff_not_imp_left] using hrest c hc
  refine String.toList_inj.mp ?_
  rw [← hread hname hrest, ← hread hname' hrest', heq']

mutual

theorem continues_leavesAt : ∀ (type : ShaderType) (path : String) (offset : Nat), path ≠ "" →
    ∀ leaf ∈ type.leavesAt path offset, Continues path leaf.path
  | struct fields _, path, offset, hpath, leaf, hleaf => by
    obtain ⟨field, -, hcontinues⟩ := continues_leavesOfFields fields path offset
      (fun _ _ => .inl hpath) leaf hleaf
    have hnext : (memberPath path field.name).toList =
        path.toList ++ '.' :: field.name.toList := by simp [toList_memberPath, hpath]
    exact hcontinues.of_append hnext (.inl rfl)
  | array _ element _ _, path, offset, _, leaf, hleaf => by
    obtain ⟨index, -, hleaf⟩ := List.mem_flatMap.mp hleaf
    exact (continues_leavesAt element _ _ (elementPath_ne_empty path index) leaf hleaf).of_append
      (toList_elementPath path index) (.inr rfl)
  | vector .., path, _, _, _, hleaf => by
    obtain rfl := List.mem_singleton.mp hleaf
    exact .refl path
  | matrix .., path, _, _, _, hleaf => by
    obtain rfl := List.mem_singleton.mp hleaf
    exact .refl path
  | image _, path, _, _, _, hleaf => by
    obtain rfl := List.mem_singleton.mp hleaf
    exact .refl path

theorem continues_leavesOfFields : ∀ (fields : Fields) (path : String) (offset : Nat),
    (∀ field ∈ fields.toList, path ≠ "" ∨ field.name ≠ "") →
      ∀ leaf ∈ leavesOfFields path offset fields,
        ∃ field ∈ fields.toList, Continues (memberPath path field.name) leaf.path
  | .nil, _, _, _, _, hleaf => nomatch hleaf
  | .cons name position type rest, path, offset, hpath, leaf, hleaf => by
    obtain ⟨hfirst, hrest⟩ := List.forall_mem_cons.mp hpath
    rcases List.mem_append.mp hleaf with hleaf | hleaf
    · exact ⟨⟨name, position, type⟩, List.mem_cons_self,
        continues_leavesAt type _ _ (memberPath_ne_empty hfirst) leaf hleaf⟩
    · obtain ⟨field, hfield, hcontinues⟩ :=
        continues_leavesOfFields rest path offset hrest leaf hleaf
      exact ⟨field, List.mem_cons_of_mem _ hfield, hcontinues⟩

end

mutual

theorem pairwise_paths : ∀ (type : ShaderType), (∀ node ∈ type.nodes, node.Named) →
    ∀ path offset, (type.leavesAt path offset).Pairwise fun a b => a.path ≠ b.path
  | struct fields _, hnamed, path, offset => by
    rw [nodes, List.forall_mem_cons] at hnamed
    obtain ⟨⟨hdistinct, hnames⟩, hfields⟩ := hnamed
    exact pairwise_pathsOfFields fields hfields hdistinct hnames path offset
  | array _ element _ _, hnamed, path, offset => by
    rw [nodes, List.forall_mem_cons] at hnamed
    rw [leavesAt, List.pairwise_flatMap]
    refine ⟨fun index _ => pairwise_paths element hnamed.2 _ _, ?_⟩
    refine List.pairwise_lt_range.imp fun {i j} hlt a ha b hb heq => Nat.ne_of_lt hlt ?_
    have hi := continues_leavesAt element _ _ (elementPath_ne_empty path i) a ha
    have hj := continues_leavesAt element _ _ (elementPath_ne_empty path j) b hb
    exact index_eq_of_continues hi (heq ▸ hj)
  | vector .., _, _, _ => List.pairwise_singleton ..
  | matrix .., _, _, _ => List.pairwise_singleton ..
  | image _, _, _, _ => List.pairwise_singleton ..

theorem pairwise_pathsOfFields : ∀ (fields : Fields), (∀ node ∈ nodesOfFields fields, node.Named) →
    (fields.toList.map (·.name)).Nodup →
      (∀ field ∈ fields.toList,
        field.name ≠ "" ∧ '.' ∉ field.name.toList ∧ '[' ∉ field.name.toList) →
      ∀ path offset, (leavesOfFields path offset fields).Pairwise fun a b => a.path ≠ b.path
  | .nil, _, _, _, _, _ => .nil
  | .cons name position type rest, hnamed, hdistinct, hnames, path, offset => by
    rw [nodesOfFields, List.forall_mem_append] at hnamed
    rw [Fields.toList, List.map_cons] at hdistinct
    obtain ⟨hnew, hdistinct⟩ := List.nodup_cons.mp hdistinct
    obtain ⟨hname, hnames⟩ := List.forall_mem_cons.mp hnames
    rw [leavesOfFields, List.pairwise_append]
    refine ⟨pairwise_paths type hnamed.1 _ _,
      pairwise_pathsOfFields rest hnamed.2 hdistinct hnames path offset, fun a ha b hb heq => ?_⟩
    have hfirst := continues_leavesAt type _ _ (memberPath_ne_empty (.inr hname.1)) a ha
    obtain ⟨field, hfield, hcontinues⟩ := continues_leavesOfFields rest path offset
      (fun field hfield => .inr (hnames field hfield).1) b hb
    have hsame : name = field.name :=
      name_eq_of_continues hname.2 (hnames field hfield).2 hfirst (heq ▸ hcontinues)
    exact hnew (List.mem_map.mpr ⟨field, hfield, hsame.symm⟩)

end

end ShaderType

end ShaderBinding
