import ShaderBinding.Proofs.Spirv.Block

/-! # The type of an interface variable

The description of an interface variable holds the members of its type, but not theirs. A struct
of numbers reflects to the type that the module declares; a struct that contains another one does
not reflect, since the inner one is described as empty.
-/

namespace ShaderBinding.Spirv

namespace TypeRecord

/-- A tree of structs with members over scalars, vectors and matrices. Any of them may have array
dimensions. -/
inductive Composed : TypeRecord → Prop where

  | numeric {t : TypeTraits} : t.base.isNumeric → Composed (mk t [])

  | struct {t : TypeTraits} {members : List TypeRecord} : t.base = .struct → members ≠ [] →
      (∀ member ∈ members, Composed member) → Composed (mk t members)

mutual

/-- A type has at every level the members of a record, in their order. -/
inductive Mirrors : TypeRecord → ShaderType → Prop where

  | array {record : TypeRecord} {element : ShaderType} {dims : List ArrayDim}
      {stride size : Nat} : Mirrors record element →
      Mirrors record (.array dims element stride size)

  | vector {t : TypeTraits} {length size : Nat} : t.base.isNumeric →
      Mirrors (mk t []) (.vector t.base length size)

  | matrix {t : TypeTraits} {rows columns size : Nat} : t.base.isNumeric →
      Mirrors (mk t []) (.matrix t.base rows columns size)

  | struct {t : TypeTraits} {members : List TypeRecord} {fields : Fields} {size : Nat} :
      MirrorsMembers members fields → Mirrors (mk t members) (.struct fields size)

inductive MirrorsMembers : List TypeRecord → Fields → Prop where

  | nil : MirrorsMembers [] .nil

  | cons {member : TypeRecord} {rest : List TypeRecord} {type : ShaderType} {fields : Fields}
      {offset : Nat} : Mirrors member type → MirrorsMembers rest fields →
      MirrorsMembers (member :: rest) (.cons member.traits.memberName offset type fields)

end

mutual

def allTraits : TypeRecord → List TypeTraits
  | mk traits members => traits :: allTraitsOf members

def allTraitsOf : List TypeRecord → List TypeTraits
  | [] => []
  | member :: rest => member.allTraits ++ allTraitsOf rest

end

theorem traits_mem_allTraitsOf {members : List TypeRecord} {member : TypeRecord}
    (h : member ∈ members) : member.traits ∈ allTraitsOf members := by
  induction members with
  | nil => cases h
  | cons first rest ih =>
    rw [allTraitsOf, List.mem_append]
    rcases List.mem_cons.mp h with rfl | hrest
    · left
      cases member
      exact List.mem_cons_self
    · exact .inr (ih hrest)

theorem Composed.root {record : TypeRecord} (h : record.Composed) :
    record.traits.base.isNumeric ∧ record.members = [] ∨
      record.traits.base = .struct ∧ record.members ≠ [] ∧
        ∀ member ∈ record.members, member.Composed := by
  cases h with
  | numeric hnumeric => exact .inl ⟨hnumeric, rfl⟩
  | struct hbase hmembers hinner => exact .inr ⟨hbase, hmembers, hinner⟩

theorem Composed.isImage_eq {record : TypeRecord} (h : record.Composed) :
    record.traits.base.isImage = false := by
  rcases h.root with ⟨hnumeric, -⟩ | ⟨hbase, -⟩
  · exact BaseKind.isImage_of_isNumeric hnumeric
  · rw [hbase]
    rfl

theorem Composed.isNumeric_of_ne_struct {record : TypeRecord} (h : record.Composed)
    (hbase : record.traits.base ≠ .struct) :
    ∃ t : TypeTraits, t.base.isNumeric ∧ record = mk t [] := by
  cases h with
  | numeric hnumeric => exact ⟨_, hnumeric, rfl⟩
  | struct hstruct => exact absurd hstruct hbase

end TypeRecord

namespace InterfaceVariable

open TypeDescription

def SizesFit (v : InterfaceVariable) : Prop :=
  v.description.NodeFits ∧
    ∀ traits ∈ TypeRecord.allTraitsOf v.type.members, traits.description.NodeFits

instance : DecidablePred SizesFit := fun _ => inferInstanceAs (Decidable (_ ∧ _))

/-- The first member of the type that is a struct, or an array of structs. -/
def innerStruct? (v : InterfaceVariable) : Option TypeRecord :=
  v.type.members.find? fun member => member.traits.base = .struct

variable {v : InterfaceVariable}

theorem nodesOfMembers_described (members : List TypeRecord) :
    nodesOfMembers (members.map (·.traits.description)) = members.map (·.traits.description) := by
  induction members with
  | nil => rfl
  | cons member rest ih =>
    have hnodes : member.traits.description.nodes = [member.traits.description] := by
      rw [nodes_eq]
      split <;> rfl
    rw [List.map_cons, nodesOfMembers, hnodes, ih]
    rfl

/-- A struct is described without its members, and nothing else has a flaw. -/
theorem flaw?_described {member : TypeRecord} (h : member.Composed) :
    member.traits.description.flaw? =
      if member.traits.base = .struct then some (.emptyStruct member.traits.memberName)
      else none := by
  simp [flaw?, TypeTraits.description, h.isImage_eq]

theorem flaws_described {members : List TypeRecord} (h : ∀ member ∈ members, member.Composed) :
    (members.map (·.traits.description)).filterMap flaw? =
      (members.filter fun member => member.traits.base = .struct).map fun member =>
        .emptyStruct member.traits.memberName := by
  induction members with
  | nil => rfl
  | cons member rest ih =>
    obtain ⟨hmember, hrest⟩ := List.forall_mem_cons.mp h
    rw [List.map_cons, List.filterMap_cons, flaw?_described hmember, ih hrest]
    by_cases hbase : member.traits.base = .struct <;> simp [hbase]

theorem flaw?_description (h : v.type.Composed) : v.description.flaw? = none := by
  have hbase : v.description.base = v.type.traits.base := rfl
  have hmembers : v.description.members = v.type.members.map (·.traits.description) := rfl
  rw [flaw?, hbase, hmembers, if_neg (by simp [h.isImage_eq])]
  rcases h.root with ⟨hnumeric, -⟩ | ⟨-, hne, -⟩
  · exact if_neg fun hflaw => BaseKind.ne_struct_of_isNumeric hnumeric hflaw.1
  · exact if_neg fun hflaw => hne (by simpa using hflaw.2)

theorem flaws_description (h : v.type.Composed) : v.description.flaws =
    (v.type.members.filter fun member => member.traits.base = .struct).map fun member =>
      .emptyStruct member.traits.memberName := by
  have hbase : v.description.base = v.type.traits.base := rfl
  have hmembers : v.description.members = v.type.members.map (·.traits.description) := rfl
  rw [flaws_eq, flaw?_description h, hbase, hmembers, nodesOfMembers_described]
  rcases h.root with ⟨hnumeric, hnil⟩ | ⟨hstruct, -, hinner⟩
  · rw [if_neg (BaseKind.ne_struct_of_isNumeric hnumeric), hnil]
    rfl
  · rw [if_pos hstruct, flaws_described hinner]
    rfl

theorem sizesFit_description (h : v.SizesFit) : v.description.SizesFit := by
  refine sizesFit_iff.mpr ⟨h.1, fun _ node hnode => ?_⟩
  have hmembers : v.description.members = v.type.members.map (·.traits.description) := rfl
  rw [hmembers, nodesOfMembers_described] at hnode
  obtain ⟨member, hmember, rfl⟩ := List.mem_map.mp hnode
  exact h.2 _ (TypeRecord.traits_mem_allTraitsOf hmember)

section Mirrored

variable {t : TypeTraits} {members : List TypeRecord} {desc : TypeDescription}
  {type element : ShaderType}

theorem mirrors_of_describes {record : TypeRecord} (himage : desc.base.isImage = false)
    (helement : ∀ element, desc.DescribesElement element → record.Mirrors element)
    (h : desc.Describes type) : record.Mirrors type := by
  cases h with
  | image h => simp [himage] at h
  | single h => exact helement _ h
  | array h => exact .array (helement _ h)

theorem mirrors_of_numeric (hnumeric : t.base.isNumeric) (hbase : desc.base = t.base)
    (h : desc.DescribesElement element) : (TypeRecord.mk t []).Mirrors element := by
  cases h with
  | struct hstruct => exact absurd (hbase ▸ hstruct) (BaseKind.ne_struct_of_isNumeric hnumeric)
  | matrix =>
    rw [hbase]
    exact .matrix hnumeric
  | vector =>
    rw [hbase]
    exact .vector hnumeric

theorem mirrorsMembers_of_numeric {fields : Fields}
    (hinner : ∀ member ∈ members, member.Composed)
    (hflat : ∀ member ∈ members, member.traits.base ≠ .struct)
    (h : DescribesMembers (members.map (·.traits.description)) fields) :
    TypeRecord.MirrorsMembers members fields := by
  induction members generalizing fields with
  | nil =>
    cases h
    exact .nil
  | cons member rest ih =>
    obtain ⟨hmember, hrest⟩ := List.forall_mem_cons.mp hinner
    obtain ⟨hbase, hbases⟩ := List.forall_mem_cons.mp hflat
    obtain ⟨t, hnumeric, rfl⟩ := hmember.isNumeric_of_ne_struct hbase
    cases h with
    | cons htype hfields =>
      refine .cons (mirrors_of_describes hmember.isImage_eq (fun _ => ?_) htype)
        (ih hrest hbases hfields)
      exact mirrors_of_numeric hnumeric rfl

theorem mirrors_of_struct (hinner : ∀ member ∈ members, member.Composed)
    (hflat : ∀ member ∈ members, member.traits.base ≠ .struct) (hbase : desc.base = .struct)
    (hmembers : desc.members = members.map (·.traits.description))
    (h : desc.DescribesElement element) : (TypeRecord.mk t members).Mirrors element := by
  obtain ⟨-, fields, hfields, rfl⟩ := (describesElement_struct hbase).mp h
  rw [hmembers] at hfields
  exact .struct (mirrorsMembers_of_numeric hinner hflat hfields)

end Mirrored

theorem mirrors_description {type : ShaderType} (hcomposed : v.type.Composed)
    (hflat : ∀ member ∈ v.type.members, member.traits.base ≠ .struct)
    (h : v.description.Describes type) : v.type.Mirrors type := by
  refine mirrors_of_describes hcomposed.isImage_eq (fun element helement => ?_) h
  have hmembers : v.description.members = v.type.members.map (·.traits.description) := rfl
  have hbase : v.description.base = v.type.traits.base := rfl
  cases htype : v.type with
  | mk t members =>
    rw [htype] at hcomposed hflat hmembers hbase
    cases hcomposed with
    | numeric hnumeric => exact mirrors_of_numeric hnumeric hbase helement
    | struct hstruct _ hinner =>
      exact mirrors_of_struct hinner hflat (hbase.trans hstruct) hmembers helement

/--
A variable whose type contains no inner struct reflects to a type with the members of its own at
every level. Any other one fails for its first inner struct, whose members are not described.
-/
theorem ofDescription_declaration (v : InterfaceVariable) (hcomposed : v.type.Composed)
    (hfits : v.SizesFit) :
    (v.innerStruct? = none →
      ∃ type, ShaderType.ofDescription v.declaration.type = .ok type ∧ v.type.Mirrors type) ∧
    ∀ inner, v.innerStruct? = some inner →
      ShaderType.ofDescription v.declaration.type =
        .fail (.emptyStruct inner.traits.memberName) := by
  have hreports := ShaderType.reports_ofDescription v.description
  have hfault (fault : Fault) : ShaderType.ofDescription v.description ≠ .error (.fault fault) :=
    fun h => hreports.fault fault h (sizesFit_description hfits)
  have hhead : v.description.flaws.head? = v.innerStruct?.map fun member =>
      TypeError.emptyStruct member.traits.memberName := by
    rw [flaws_description hcomposed, List.head?_map, List.head?_filter, innerStruct?]
  constructor
  · intro hnone
    have hflaws : v.description.flaws = [] := by
      rw [hnone] at hhead
      exact List.head?_eq_none_iff.mp hhead
    obtain ⟨type, htype⟩ := (hreports.exists_ok_iff hfault).mpr hflaws
    have hdescribes := ((ShaderType.ofDescription_eq_ok _ _).mp htype).1
    refine ⟨type, htype, mirrors_description hcomposed (fun member hmember => ?_) hdescribes⟩
    simpa using List.find?_eq_none.mp hnone member hmember
  · intro inner hsome
    rw [hsome] at hhead
    exact (hreports.fail_iff hfault).mpr hhead

/-- The texture coordinates of several layers are reflected; a surface within the output is not. -/
theorem ofDescription_declaration_layers :
    let vec2 : TypeTraits := {
      kinds := { float := true, vector := true }, width := 32, componentCount := 2 }
    let struct : TypeTraits := { kinds := { struct := true } }
    let coordinates : TypeRecord := .mk { vec2 with memberName := "uv", arrayDims := [4] } []
    let surface : TypeRecord := .mk { struct with memberName := "surface" } [coordinates]
    let output (members : List TypeRecord) : InterfaceVariable := {
      name := "vs_out", location := 0, builtIn := false, arrayDims := []
      type := .mk struct members }
    let type : ShaderType :=
      .struct (.ofList [⟨"uv", 0, .array [⟨4, false⟩] (.vector .float 2 8) 8 32⟩]) 0
    (ShaderType.ofDescription (output [coordinates]).declaration.type = .ok type ∧
        (output [coordinates]).type.Mirrors type) ∧
      ShaderType.ofDescription (output [coordinates, surface]).declaration.type =
        .fail (.emptyStruct "surface") := by
  intro vec2 struct coordinates surface output type
  have hcoordinates : coordinates.Composed := .numeric rfl
  have hsurface : surface.Composed := .struct rfl (by simp) (by simpa using hcoordinates)
  have hflat := ofDescription_declaration (output [coordinates])
    (.struct rfl (by simp) (by simpa using hcoordinates)) (by decide +kernel)
  have hnested := ofDescription_declaration (output [coordinates, surface])
    (.struct rfl (by simp) (by simpa using ⟨hcoordinates, hsurface⟩)) (by decide +kernel)
  constructor
  · obtain ⟨reflected, hok, hmirrors⟩ := hflat.1 rfl
    have htype : ShaderType.ofDescription (output [coordinates]).declaration.type = .ok type := by
      decide +kernel
    obtain rfl := Except.ok.inj (hok.symm.trans htype)
    exact ⟨htype, hmirrors⟩
  · exact hnested.2 surface rfl

/-- Varyings with a struct inside are a legal output, and yet their inner struct is rejected as an
empty one. -/
theorem ofDescription_declaration_fails :
    let float : TypeTraits := { kinds := { float := true }, width := 32 }
    let vec3 : TypeTraits := {
      kinds := { float := true, vector := true }, width := 32, componentCount := 3 }
    let struct : TypeTraits := { kinds := { struct := true } }
    let v : InterfaceVariable := {
      name := "s", location := 0, builtIn := false, arrayDims := []
      type := .mk { struct with typeName := some "Varyings" } [
        .mk { vec3 with memberName := "a" } [],
        .mk { struct with typeName := some "N", memberName := "n" } [
          .mk { float with memberName := "x" } []]] }
    v.type.Composed ∧ v.SizesFit ∧
      ShaderType.ofDescription v.declaration.type = .fail (.emptyStruct "n") ∧
      ¬ ∃ type, ShaderType.ofDescription v.declaration.type = .ok type ∧ v.type.Mirrors type := by
  intro float vec3 struct v
  have hfails : ShaderType.ofDescription v.declaration.type = .fail (.emptyStruct "n") := by
    decide +kernel
  refine ⟨.struct rfl (by simp) ?_, by decide +kernel, hfails, ?_⟩
  · have hinner : (TypeRecord.mk { float with memberName := "x" } []).Composed := .numeric rfl
    simp only [List.forall_mem_cons, List.not_mem_nil, IsEmpty.forall_iff, implies_true, and_true]
    exact ⟨.numeric rfl, .struct rfl (by simp) (by simpa using hinner)⟩
  · rintro ⟨type, hok, -⟩
    rw [hfails] at hok
    cases hok

end InterfaceVariable

end ShaderBinding.Spirv
