import ShaderBinding.Engine.Bound
import ShaderBinding.Proofs.Fault

/-! # Computations without objects

The pure parts of binding, reflection and linking are proper: what they fault with is a width
that is left or an input that is out of range, and never the misuse of an object.
-/

namespace ShaderBinding

variable {ε : Type}

namespace Checked

theorem proper_add (width : Width) (a b : Nat) : (add width a b).Proper := by
  unfold add
  split
  · exact .pure _
  · exact .fault rfl

theorem proper_mul (width : Width) (a b : Nat) : (mul width a b).Proper := by
  unfold mul
  split
  · exact .pure _
  · exact .fault rfl

theorem proper_sum (width : Width) (values : List Nat) : (sum width values).Proper :=
  .foldlM (proper_add width) values 0

theorem proper_product (width : Width) (values : List Nat) : (product width values).Proper :=
  .foldlM (proper_mul width) values 1

end Checked

theorem Memory.proper_zeroed (length : Nat) : (zeroed length).Proper := by
  unfold zeroed
  split
  · exact .pure _
  · exact .fault rfl

namespace ImageInfo

theorem proper_dataSize (info : ImageInfo) : info.dataSize.Proper :=
  .bind (Checked.proper_mul _ _ _) fun _ => Checked.proper_mul _ _ _

theorem proper_solid (info : ImageInfo) (color : Color) : (info.solid color).Proper :=
  .bind (Checked.proper_mul _ _ _) fun _ => .pure _

end ImageInfo

namespace Allocator

theorem proper_allocate (a : Allocator) (kind : BlockKind) {size : Checked Nat} (h : size.Proper)
    (name : String) : (a.allocate kind size name).Proper := by
  have hsome : Outcome.Proper (do
      let size ← size
      let memory ← Memory.zeroed size
      return (⟨a.next, a.next, size, name⟩, { a with
        next := a.next + 1, blocks := a.blocks ++ [(a.next, ⟨kind, memory⟩)] }) :
      Outcome AllocationError (Allocation × Allocator)) :=
    .bind (.ofChecked h) fun _ => .bind (.ofChecked (Memory.proper_zeroed _)) fun _ => .pure _
  unfold allocate
  split
  · exact .bind (.fail _) fun _ => hsome
  · exact hsome

theorem proper_upload (a : Allocator) (image : Allocation) (info : ImageInfo) (pixels : Bytes) :
    (a.upload image info pixels).Proper := by
  refine .bind (.ofChecked info.proper_dataSize) fun expected => ?_
  dsimp only
  split
  · exact .bind (.fail _) fun _ => .pure _
  · exact .pure _

end Allocator

namespace PoolSizes

theorem proper_raise (amount : DescriptorType → Nat) (sizes : PoolSizes)
    (types : List DescriptorType) : Checked.Proper (raise amount sizes types).1 := by
  induction types generalizing sizes with
  | nil => exact .pure _
  | cons type rest ih =>
    unfold raise
    split
    · exact ih _
    · rename_i fault h
      exact .fault (Checked.proper_add _ _ _ fault h)

theorem proper_count (sizes : PoolSizes) (category : Category) (n : Nat) :
    (sizes.count category n).Proper := .map _ (proper_raise _ sizes _)

theorem proper_ofLayoutMap (layout : LayoutMap) : (ofLayoutMap layout).Proper :=
  .foldlM (fun sizes category => proper_count sizes category 1) _ _

theorem proper_total (sizes : PoolSizes) : sizes.total.Proper := Checked.proper_sum _ _

theorem proper_addSize (type : DescriptorType) (n : Nat) (sizes : List PoolSize) :
    (addSize type n sizes).Proper := by
  induction sizes with
  | nil => exact .pure _
  | cons size rest ih =>
    unfold addSize
    split
    · exact .bind (Checked.proper_add _ _ _) fun _ => .pure _
    · exact .bind ih fun _ => .pure _

theorem proper_withBindings (sizes : PoolSizes) (bindings : List LayoutBinding) :
    (sizes.withBindings bindings).Proper :=
  .foldlM (fun list (binding : LayoutBinding) => proper_addSize binding.type binding.count list)
    bindings sizes.toList

end PoolSizes

theorem Binder.proper_maxSets (sizes : PoolSizes) (setCount builtins : Nat) :
    (maxSets sizes setCount builtins).Proper :=
  .bind sizes.proper_total fun _ => Checked.proper_add _ _ _

theorem Camera.proper_ofView [Libraries] (view : View) : (ofView view).Proper :=
  .bind (fun _ => Libraries.isMisuse_perspective) fun _ => .pure _

namespace Trail

def Proper (trail : Trail) : Prop := ∀ fault, trail.fault = some fault → fault.isMisuse = false

theorem proper_toChecked {trail : Trail} (h : trail.Proper) : trail.toChecked.Proper := by
  unfold toChecked
  split
  · exact .pure _
  · rename_i fault hfault
    exact .fault (h fault hfault)

theorem proper_after {α : Type} {x : Checked α} {next : α → Trail} (hx : x.Proper)
    (hnext : ∀ a, (next a).Proper) : (after x next).Proper := by
  cases x with
  | ok a => exact hnext a
  | error fault =>
    rintro _ ⟨⟩
    exact hx fault rfl

theorem proper_andThen {trail : Trail} {next : Unit → Trail} (h : trail.Proper)
    (hnext : (next ()).Proper) : (trail.andThen next).Proper := by
  unfold andThen
  split
  · exact hnext
  · exact h

theorem proper_indices {visit : Nat → Trail} (h : ∀ index, (visit index).Proper) (count : Nat)
    (seen : List Leaf) (index : Nat) : (indices visit seen index count).Proper := by
  induction count generalizing seen index with
  | zero => exact nofun
  | succ count ih =>
    unfold indices
    dsimp only
    split
    · exact ih _ _
    · rename_i fault hfault
      rintro _ ⟨⟩
      exact h index fault hfault

end Trail

namespace ShaderType

theorem proper_elementCount (dims : List ArrayDim) : (elementCount dims).Proper :=
  Checked.proper_product _ _

mutual

theorem proper_trail (path : String) (offset : Nat) : ∀ type, (trail path offset type).Proper
  | struct fields _ => proper_trailFields path offset fields
  | array _ element _ _ =>
    Trail.proper_after (proper_elementCount _) fun count =>
      Trail.proper_indices (fun _ => Trail.proper_after (Checked.proper_mul _ _ _) fun _ =>
        Trail.proper_after (Checked.proper_add _ _ _) fun _ => proper_trail _ _ element) count _ _
  | vector .. => nofun
  | matrix .. => nofun
  | image _ => nofun

theorem proper_trailFields (path : String) (offset : Nat) :
    ∀ fields, (trailFields path offset fields).Proper
  | .nil => nofun
  | .cons _ _ type rest =>
    Trail.proper_andThen
      (Trail.proper_after (Checked.proper_add _ _ _) fun _ => proper_trail _ _ type)
      (proper_trailFields path offset rest)

end

theorem proper_walk (path : String) (offset : Nat) (type : ShaderType) :
    (walk path offset type).Proper := Trail.proper_toChecked (proper_trail path offset type)

theorem proper_defaultData (type : ShaderType) (camera : Camera) :
    (type.defaultData camera).Proper := by
  refine .bind (.bind (proper_walk _ _ type) fun _ => .pure _) fun seeds => ?_
  split
  · exact .pure _
  · exact .pure _

end ShaderType

namespace PushConstants

theorem proper_layOut (offset : Nat) (blocks : List (Stage × Nat)) :
    (layOut offset blocks).Proper := by
  induction blocks generalizing offset with
  | nil => exact .pure _
  | cons block rest ih =>
    exact .bind (Checked.proper_add _ _ _) fun stop => .bind (ih stop) fun _ => .pure _

theorem proper_ofModel (model : Model) : (ofModel model).Proper :=
  .bind (proper_layOut _ _) fun _ => .pure _

theorem proper_seed (camera : Camera) (p : PushConstants) (blocks : List (Stage × Resource)) :
    (p.seed camera blocks).Proper := by
  refine .foldlM (fun p block => ?_) blocks p
  refine .bind (.ofChecked (block.2.type.proper_defaultData camera)) fun data => ?_
  cases data with
  | some data => exact .ofExcept _
  | none => exact .pure _

end PushConstants

theorem Model.proper_link (model : Model) (limits : Limits) : (model.link limits).Proper := by
  unfold link ShaderBinding.link
  split
  · exact .fail _
  · refine .bind (.ofChecked (Checked.proper_sum _ _)) fun total => ?_
    dsimp only
    split
    · exact .pure _
    · exact .fail _

namespace ShaderType

theorem proper_ofMatrix (base : BaseKind) (rows columns stride : Nat) :
    (ofMatrix base rows columns stride).Proper := by
  unfold ofMatrix
  split
  · exact .bind (Checked.proper_mul _ _ _) fun _ => .pure _
  · exact .bind (Checked.proper_mul _ _ _) fun _ => .bind (Checked.proper_mul _ _ _) fun _ => .pure _

theorem proper_ofArray (declared : List Nat) (stride : Nat) (element : ShaderType) :
    (ofArray declared stride element).Proper :=
  .bind (proper_elementCount _) fun _ => .bind (Checked.proper_mul _ _ _) fun _ => .pure _

theorem proper_ofNumeric (base : BaseKind) (vectorSize columns matrixStride : Nat) :
    (ofNumeric base vectorSize columns matrixStride).Proper := by
  unfold ofNumeric
  split
  · exact proper_ofMatrix _ _ _ _
  · exact .bind (Checked.proper_mul _ _ _) fun _ => .pure _

mutual

theorem proper_ofDescription : ∀ desc, (ofDescription desc).Proper
  | ⟨name, base, vectorSize, columns, matrixStride, arrayDims, arrayStride, traits, members, offset,
      size⟩ => by
    have hfinish (element : ShaderType) : Outcome.Proper (if arrayDims.isEmpty then pure element
        else liftM (ofArray arrayDims arrayStride element) : Outcome TypeError ShaderType) := by
      split
      · exact .pure _
      · exact .ofChecked (proper_ofArray _ _ _)
    unfold ofDescription
    by_cases himage : base.isImage
    · rw [if_pos himage]
      cases traits <;> exact nofun
    rw [if_neg himage]
    by_cases hstruct : base = .struct
    · rw [if_pos hstruct]
      by_cases hempty : members.isEmpty
      · rw [if_pos hempty]
        exact .bind (.fail _) hfinish
      · rw [if_neg hempty]
        exact .bind (proper_ofMembers members) fun _ => .bind (.pure _) hfinish
    · rw [if_neg hstruct]
      exact .bind (.ofChecked (proper_ofNumeric _ _ _ _)) hfinish

theorem proper_ofMembers : ∀ members, (ofMembers members).Proper
  | [] => nofun
  | member :: rest =>
    .bind (proper_ofDescription member) fun _ => .bind (proper_ofMembers rest) fun _ => .pure _

end

end ShaderType

theorem proper_reflectType (desc : TypeDescription) : (reflectType desc).Proper :=
  .mapFailure _ (ShaderType.proper_ofDescription desc)

theorem VariableDeclaration.proper_reflectAll (decls : List VariableDeclaration) :
    (reflectAll decls).Proper :=
  .bind (.mapM (fun decl : VariableDeclaration =>
    .bind (proper_reflectType decl.type) fun _ => .pure _) _) fun _ => .pure _

theorem BindingDeclaration.proper_reflect (stage : Stage) (decl : BindingDeclaration) :
    (decl.reflect stage).Proper := by
  unfold reflect
  split
  · exact .fail _
  · exact .bind (proper_reflectType _) fun _ => .pure _

namespace Interface

theorem proper_reflectPushConstant (interface : Interface) :
    interface.reflectPushConstant.Proper := by
  unfold reflectPushConstant
  split
  · exact .pure _
  · exact .bind (proper_reflectType _) fun _ => .pure _
  · exact .fail _

theorem proper_classify (interface : Interface) : interface.classify.Proper :=
  .bind (VariableDeclaration.proper_reflectAll _) fun _ =>
    .bind (VariableDeclaration.proper_reflectAll _) fun _ =>
      .bind (.mapM (BindingDeclaration.proper_reflect interface.stage) _) fun _ =>
        .bind interface.proper_reflectPushConstant fun _ => .pure _

end Interface

namespace Spirv

theorem TypeTraits.proper_fault? (t : TypeTraits) {fault : Fault} (h : t.fault? = some fault) :
    fault.isMisuse = false := by
  unfold fault? at h
  split at h
  · cases h
    rfl
  · split at h <;> cases h
    rfl

mutual

theorem TypeRecord.proper_fault? {fault : Fault} :
    ∀ type, TypeRecord.fault? type = some fault → fault.isMisuse = false
  | .mk traits members, h => (Option.or_eq_some_iff.mp h).elim traits.proper_fault? fun h =>
    proper_firstFault? members h.2

theorem TypeRecord.proper_firstFault? {fault : Fault} :
    ∀ types, TypeRecord.firstFault? types = some fault → fault.isMisuse = false
  | [], h => nomatch h
  | type :: rest, h => (Option.or_eq_some_iff.mp h).elim (proper_fault? type) fun h =>
    proper_firstFault? rest h.2

end

theorem Module.proper_interface (m : Module) : m.interface.Proper := by
  unfold interface
  split
  · exact .fail _
  · refine .bind (.ofExcept _) fun stage => ?_
    dsimp only
    split
    · rename_i fault h
      exact .bind (.fault (TypeRecord.proper_firstFault? _ h)) fun _ =>
        .bind (.ofExcept _) fun _ => .pure _
    · exact .bind (.ofExcept _) fun _ => .pure _

theorem proper_reflect [Libraries] (words : List UInt32) : (reflect words).Proper := by
  unfold reflect
  split
  · exact Module.proper_interface _
  · exact .fail _

end Spirv

theorem Shader.proper_interface [Libraries] (shader : Shader) : shader.interface.Proper := by
  refine .bind (Spirv.proper_reflect _) fun interface => ?_
  split
  · exact .pure _
  · exact .fail _

theorem Shader.proper_reflect [Libraries] (shader : Shader) : shader.reflect.Proper :=
  .bind shader.proper_interface fun interface => interface.proper_classify

theorem ShaderSet.proper_reflect [Libraries] (set : ShaderSet) : set.reflect.Proper :=
  .bind (.mapM (fun shader => .bind shader.proper_reflect fun _ => .pure _) _) fun _ => .ofExcept _

end ShaderBinding
