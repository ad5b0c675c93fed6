import Mathlib.Data.List.Infix
import ShaderBinding.Listing

/-! # The stage in a file name

A listing looks for the extensions of the stages anywhere in a file name, in pipeline order. So a
conventional name tells its stage unless the extension of an earlier one is in what precedes it.
-/

namespace ShaderBinding

namespace FileTree

variable {name : String}

theorem components_of_notMem (h : '/' ∉ name.toList) : components name = [name] := by
  rw [components, List.splitOn_eq_singleton h, List.map_singleton, String.ofList_toList]

theorem components_below (dir : String) (h : '/' ∉ name.toList) :
    components s!"{dir}/{name}" = components dir ++ [name] := by
  have htext : s!"{dir}/{name}".toList = dir.toList ++ '/' :: name.toList := by
    simp [toString]
  rw [components, components, htext, List.splitOn_append_cons_self, List.splitOn_eq_singleton h,
    List.map_append, List.map_singleton, String.ofList_toList]

theorem fileName?_of_components {path : String} {before : List String}
    (h : components path = before ++ [name]) (hstay : isStay name = false) (hup : name ≠ "..") :
    fileName? path = some name := by
  simp [fileName?, h, hstay, hup]

end FileTree

namespace Stage

def dotExt (stage : Stage) : List Char := '.' :: stage.ext.toList

def binaryName (stage : Stage) (base : String) : String := s!"{base}.{stage.ext}.spv"

theorem toList_binaryName (stage : Stage) (base : String) :
    (stage.binaryName base).toList = base.toList ++ '.' :: (stage.ext ++ ".spv").toList := by
  simp [binaryName, toString]

theorem slash_notMem_binaryName (stage : Stage) {base : String} (h : '/' ∉ base.toList) :
    '/' ∉ (stage.binaryName base).toList := by
  have hending : '/' ∉ '.' :: (stage.ext ++ ".spv").toList := by cases stage <;> decide
  rw [toList_binaryName, List.mem_append]
  exact not_or.mpr ⟨h, hending⟩

theorem binaryName_ne (stage : Stage) (base text : String) (h : text.length < 9) :
    stage.binaryName base ≠ text := by
  rintro rfl
  have hlength : (stage.ext ++ ".spv").toList.length = 8 := by cases stage <;> rfl
  rw [← String.length_toList, toList_binaryName, List.length_append, List.length_cons, hlength] at h
  omega

theorem isStay_binaryName (stage : Stage) (base : String) :
    FileTree.isStay (stage.binaryName base) = false := by
  simp [FileTree.isStay, stage.binaryName_ne base "" (by decide),
    stage.binaryName_ne base "." (by decide)]

end Stage

namespace Listing

theorem occursIn_iff {part text : List Char} : occursIn part text = true ↔ part <:+: text := by
  induction text with
  | nil => simp [occursIn]
  | cons c rest ih => simp [occursIn, ih, List.infix_cons_iff]

/-- What starts with a dot, and has no other, does not lie across a dot. -/
theorem dot_infix_iff {part before after : List Char} (h : '.' ∉ part) :
    '.' :: part <:+: before ++ '.' :: after ↔
      '.' :: part <:+: before ∨ '.' :: part <:+: '.' :: after := by
  constructor
  · intro hinfix
    rcases List.infix_append_iff.mp hinfix with hbefore | hafter | ⟨left, right, heq, hl, hr⟩
    · exact Or.inl hbefore
    · exact Or.inr hafter
    · cases right with
      | nil =>
        rw [List.append_nil] at heq
        exact Or.inl (heq ▸ hl.isInfix)
      | cons dot rest =>
        obtain ⟨rfl, -⟩ := List.cons_prefix_cons.mp hr
        cases left with
        | nil => exact Or.inr (heq ▸ hr.isInfix)
        | cons first others =>
          obtain ⟨-, hpart⟩ := List.cons.inj heq
          exact absurd (hpart ▸ List.mem_append_right others List.mem_cons_self) h
  · rintro (hbefore | hafter)
    · exact hbefore.trans (List.prefix_append ..).isInfix
    · exact hafter.trans (List.suffix_append ..).isInfix

end Listing

namespace Stage

theorem dotExt_infix_ending_iff (other stage : Stage) :
    other.dotExt <:+: '.' :: (stage.ext ++ ".spv").toList ↔ other = stage := by
  cases other <;> cases stage <;> decide

theorem dotExt_infix_binaryName_iff (other stage : Stage) (base : String) :
    other.dotExt <:+: (stage.binaryName base).toList ↔
      other = stage ∨ other.dotExt <:+: base.toList := by
  have hdot : '.' ∉ other.ext.toList := by cases other <;> decide
  rw [toList_binaryName, dotExt, Listing.dot_infix_iff hdot, or_comm]
  exact or_congr_left (dotExt_infix_ending_iff other stage)

theorem find?_all_eq_some_iff {p : Stage → Bool} {stage : Stage} :
    all.find? p = some stage ↔
      p stage = true ∧ ∀ earlier, earlier.index < stage.index → p earlier = false := by
  have hascending : all.Pairwise fun a b => a.index < b.index := by decide
  rw [List.find?_eq_some_iff_append]
  refine and_congr_right fun _ => ⟨?_, fun hearlier => ?_⟩
  · rintro ⟨before, after, hall, hbefore⟩ earlier hlt
    rw [hall] at hascending
    have hafter := (List.pairwise_cons.mp (List.pairwise_append.mp hascending).2.1).1
    rcases List.mem_append.mp (hall ▸ mem_all earlier) with hmem | hmem
    · simpa using hbefore earlier hmem
    · rcases List.mem_cons.mp hmem with rfl | hmem
      · exact absurd hlt (Nat.lt_irrefl _)
      · exact absurd (hafter earlier hmem) (Nat.lt_asymm hlt)
  · obtain ⟨before, after, hall⟩ := List.append_of_mem (mem_all stage)
    rw [hall] at hascending
    refine ⟨before, after, hall, fun earlier hmem => ?_⟩
    have hlt := (List.pairwise_append.mp hascending).2.2 earlier hmem stage List.mem_cons_self
    simpa using hearlier earlier hlt

end Stage

namespace Listing

/--
Every name without a slash can precede a conventional ending, and every path with such a file name
tells a stage: the first one in pipeline order that either the ending is of or whose extension is in
what precedes it. So it is the stage of the ending exactly if no earlier stage has its extension
there.
-/
theorem stageOf?_conventional (stage : Stage) (base : String) :
    ('/' ∉ base.toList → ∀ dir : String,
      FileTree.fileName? (stage.binaryName base) = some (stage.binaryName base) ∧
      FileTree.fileName? s!"{dir}/{stage.binaryName base}" = some (stage.binaryName base)) ∧
    ∀ path, FileTree.fileName? path = some (stage.binaryName base) →
      stageOf? path = (Stage.all.find? fun other =>
        other = stage ∨ other.dotExt <:+: base.toList) ∧
      (stageOf? path = some stage ↔
        ∀ earlier : Stage, earlier.index < stage.index → ¬ earlier.dotExt <:+: base.toList) := by
  refine ⟨fun hslash dir => ?_, fun path hpath => ?_⟩
  · have hname := stage.slash_notMem_binaryName hslash
    have hstay := stage.isStay_binaryName base
    have hup : stage.binaryName base ≠ ".." := stage.binaryName_ne base ".." (by decide)
    constructor
    · have hcomponents : FileTree.components (stage.binaryName base) =
          [] ++ [stage.binaryName base] := FileTree.components_of_notMem hname
      exact FileTree.fileName?_of_components hcomponents hstay hup
    · exact FileTree.fileName?_of_components (FileTree.components_below dir hname) hstay hup
  · have hfind : stageOf? path = (Stage.all.find? fun other =>
        other = stage ∨ other.dotExt <:+: base.toList) := by
      rw [stageOf?, hpath]
      change Stage.all.find? (fun other => occursIn other.dotExt _) = _
      refine congrArg (Stage.all.find? ·) (funext fun other => Bool.eq_iff_iff.mpr ?_)
      rw [decide_eq_true_iff, ← Stage.dotExt_infix_binaryName_iff]
      exact occursIn_iff
    refine ⟨hfind, ?_⟩
    rw [hfind, Stage.find?_all_eq_some_iff]
    simp only [true_or, decide_true, true_and, decide_eq_false_iff_not, not_or]
    refine forall_congr' fun earlier => imp_congr_right fun hlt => and_iff_right_of_imp fun _ => ?_
    rintro rfl
    exact Nat.lt_irrefl _ hlt

/-- Dots, and words that begin like an extension without a dot before it, do not matter. -/
theorem stageOf?_conventional_dotted :
    let base := "my.scene-vertical"
    let path := "shaders/" ++ Stage.fragment.binaryName base
    FileTree.fileName? path = some (Stage.fragment.binaryName base) ∧
      (∀ earlier : Stage, earlier.index < Stage.fragment.index →
        ¬ earlier.dotExt <:+: base.toList) ∧
      stageOf? path = some .fragment := by
  intro base path
  have hslash : '/' ∉ base.toList := by decide
  have hearlier : ∀ earlier : Stage, earlier.index < Stage.fragment.index →
      ¬ earlier.dotExt <:+: base.toList := by
    intro earlier
    cases earlier <;> decide
  obtain ⟨hnames, hstage⟩ := stageOf?_conventional .fragment base
  have hpath : FileTree.fileName? path = some (Stage.fragment.binaryName base) :=
    (hnames hslash "shaders").2
  exact ⟨hpath, hearlier, (hstage path hpath).2.mpr hearlier⟩

/-- A fragment shader for something vertical is taken for a vertex shader. -/
theorem stageOf?_misled :
    let base := "part.vertical"
    base ≠ "" ∧ '/' ∉ base.toList ∧
      FileTree.fileName? (Stage.fragment.binaryName base) = some "part.vertical.frag.spv" ∧
      stageOf? (Stage.fragment.binaryName base) = some .vertex := by
  decide +kernel

end Listing

end ShaderBinding
