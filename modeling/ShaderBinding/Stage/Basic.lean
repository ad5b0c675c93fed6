import ShaderBinding.Fault
import ShaderBinding.Flags
import ShaderBinding.Named

/-! # Shader stages

The five programmable stages of the graphics pipeline and the sets of them. `Stage.all` is
pipeline order, which every ordered walk over stages follows.
-/

namespace ShaderBinding

inductive Stage where
  | vertex
  | tessControl
  | tessEval
  | geometry
  | fragment
  deriving DecidableEq, Repr

/-- Bit `i` stands for the stage at position `i` of the pipeline. -/
abbrev StageFlags := Flags 5

namespace Stage

def all : List Stage := [vertex, tessControl, tessEval, geometry, fragment]

def index : Stage → Nat
  | vertex => 0
  | tessControl => 1
  | tessEval => 2
  | geometry => 3
  | fragment => 4

def ofIndex? (i : Nat) : Option Stage := all[i]?

def ofIndex (i : Nat) : Checked Stage :=
  match ofIndex? i with
  | some stage => .ok stage
  | none => .error (.indexOutOfBounds all.length i)

def flag : Stage → StageFlags
  | vertex => ⟨0b00001⟩
  | tessControl => ⟨0b00010⟩
  | tessEval => ⟨0b00100⟩
  | geometry => ⟨0b01000⟩
  | fragment => ⟨0b10000⟩

def ofFlag? (flags : StageFlags) : Option Stage := all.find? (·.flag = flags)

/-- The conventional file extension of a compiled binary, without the dot. -/
def ext : Stage → String
  | vertex => "vert"
  | tessControl => "tesc"
  | tessEval => "tese"
  | geometry => "geom"
  | fragment => "frag"

def label : Stage → String
  | vertex => "vertex"
  | tessControl => "tessellation control"
  | tessEval => "tessellation evaluation"
  | geometry => "geometry"
  | fragment => "fragment"

instance : ToString Stage := ⟨label⟩

def name : Stage → String
  | vertex => "Vertex"
  | tessControl => "TessControl"
  | tessEval => "TessEval"
  | geometry => "Geometry"
  | fragment => "Fragment"

instance : Named Stage := ⟨all, name⟩

theorem mem_all (stage : Stage) : stage ∈ all := by
  cases stage <;> decide

@[simp] theorem index_lt (stage : Stage) : stage.index < 5 := by
  cases stage <;> decide

theorem index_inj {a b : Stage} : a.index = b.index ↔ a = b := by
  cases a <;> cases b <;> decide

theorem map_index_all : all.map index = List.range 5 := rfl

theorem ofIndex?_eq_some_iff {i : Nat} {stage : Stage} :
    ofIndex? i = some stage ↔ i = stage.index := by
  constructor
  · intro h
    have hindex : (all.map index)[i]? = some stage.index := by
      rw [List.getElem?_map]
      exact congrArg (Option.map index) h
    rw [map_index_all, List.getElem?_eq_some_iff] at hindex
    obtain ⟨hi, hstage⟩ := hindex
    rwa [List.getElem_range] at hstage
  · rintro rfl
    cases stage <;> rfl

theorem ofIndex_eq_ok_iff {i : Nat} {stage : Stage} : ofIndex i = .ok stage ↔ i = stage.index := by
  rw [← ofIndex?_eq_some_iff, ofIndex]
  cases ofIndex? i <;> simp

end Stage

namespace StageFlags

def allGraphics : StageFlags := ⟨0b11111⟩

def stages (flags : StageFlags) : List Stage :=
  Stage.all.filter fun stage => flags.contains stage.flag

def names : List (String × StageFlags) :=
  [("VERTEX", Stage.vertex.flag), ("TESSELLATION_CONTROL", Stage.tessControl.flag),
    ("TESSELLATION_EVALUATION", Stage.tessEval.flag), ("GEOMETRY", Stage.geometry.flag),
    ("FRAGMENT", Stage.fragment.flag), ("ALL_GRAPHICS", allGraphics)]

def text (flags : StageFlags) : String := flags.describe names

end StageFlags

end ShaderBinding
