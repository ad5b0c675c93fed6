/-! # Named enumerations

Finite enumerations whose values have names, and reading a value back from its name.
-/

namespace ShaderBinding

class Named (α : Type) where
  all : List α
  name : α → String

def Named.ofName? {α : Type} [Named α] (text : String) : Option α :=
  (all : List α).find? (name · = text)

end ShaderBinding
