import ShaderBinding.Type.Basic

/-! # Matching interface types

Whether the type of a stage's output can feed the type of the next stage's input. Layout does
not take part: sizes, strides, member names and offsets are ignored at every depth.
-/

namespace ShaderBinding

mutual

def ShaderType.feeds : ShaderType → ShaderType → Bool
  | .vector base length _, .vector base' length' _ => base = base' && length = length'
  | .matrix base rows columns _, .matrix base' rows' columns' _ =>
    base = base' && rows = rows' && columns = columns'
  | .array dims element _ _, .array dims' element' _ _ => dims = dims' && element.feeds element'
  | .struct fields _, .struct fields' _ => fields.feed fields'
  | .image shape, .image shape' => shape = shape'
  | _, _ => false

def Fields.feed : Fields → Fields → Bool
  | .nil, .nil => true
  | .cons _ _ type rest, .cons _ _ type' rest' => type.feeds type' && rest.feed rest'
  | _, _ => false

end

mutual

/-- The type without what an interface match ignores. -/
def ShaderType.shape : ShaderType → ShaderType
  | .vector base length _ => .vector base length 0
  | .matrix base rows columns _ => .matrix base rows columns 0
  | .image shape => .image shape
  | .array dims element _ _ => .array dims element.shape 0 0
  | .struct fields _ => .struct fields.shape 0

def Fields.shape : Fields → Fields
  | .nil => .nil
  | .cons _ _ type rest => .cons "" 0 type.shape rest.shape

end

mutual

theorem ShaderType.feeds_iff (a b : ShaderType) : a.feeds b = true ↔ a.shape = b.shape := by
  cases a with
  | array dims element _ _ =>
    cases b with
    | array dims' element' _ _ =>
      simp [ShaderType.feeds, ShaderType.shape, ShaderType.feeds_iff element element']
    | _ => simp [ShaderType.feeds, ShaderType.shape]
  | struct fields _ =>
    cases b with
    | struct fields' _ =>
      simp [ShaderType.feeds, ShaderType.shape, Fields.feed_iff fields fields']
    | _ => simp [ShaderType.feeds, ShaderType.shape]
  | _ => cases b <;> simp [ShaderType.feeds, ShaderType.shape, and_assoc]

theorem Fields.feed_iff (a b : Fields) : a.feed b = true ↔ a.shape = b.shape := by
  cases a with
  | nil => cases b <;> simp [Fields.feed, Fields.shape]
  | cons _ _ type rest =>
    cases b with
    | nil => simp [Fields.feed, Fields.shape]
    | cons _ _ type' rest' =>
      simp [Fields.feed, Fields.shape, ShaderType.feeds_iff type type', Fields.feed_iff rest rest']

end

end ShaderBinding
