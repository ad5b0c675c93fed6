import ShaderBinding.Main
import ShaderBinding.Native.Vulkan
import ShaderBinding.Proofs.Binder.Placeholder
import ShaderBinding.Proofs.Binder.PoolEntries
import ShaderBinding.Proofs.Binder.Replacing
import ShaderBinding.Proofs.Binder.Types
import ShaderBinding.Proofs.Binder.Usages
import ShaderBinding.Proofs.Descriptor.Entries
import ShaderBinding.Proofs.Engine.Deferred
import ShaderBinding.Proofs.Engine.Linked
import ShaderBinding.Proofs.Engine.Pending
import ShaderBinding.Proofs.Engine.Rebuild
import ShaderBinding.Proofs.Engine.Validity
import ShaderBinding.Proofs.Engine.Views
import ShaderBinding.Proofs.LayoutMap.Grouping
import ShaderBinding.Proofs.Link.Reordering
import ShaderBinding.Proofs.Listing
import ShaderBinding.Proofs.Model.Order
import ShaderBinding.Proofs.Native.Vulkan
import ShaderBinding.Proofs.PushConstants.History
import ShaderBinding.Proofs.Reflection.Classify
import ShaderBinding.Proofs.Reflection.Kinds
import ShaderBinding.Proofs.Shader.Load
import ShaderBinding.Proofs.Spirv.Binary
import ShaderBinding.Proofs.Spirv.Interface
import ShaderBinding.Proofs.Stage.History
import ShaderBinding.Proofs.Type.Matching
import ShaderBinding.Proofs.Type.Placement
