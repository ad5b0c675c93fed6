import ShaderBinding.Limits
import ShaderBinding.Shader.Basic
import ShaderBinding.Type.Walk

/-! # Listings

The printed resources of shader binaries. The stage of a binary is told by its file name. The
binaries are listed one by one, then their merged descriptors, and last they are linked against
the least limits every device has. The first problem ends the listing with a status.
-/

namespace ShaderBinding

/-- What has been printed and logged. -/
structure Transcript where
  lines : List String := []
  log : List Notice := []
  deriving DecidableEq, Repr

/-- A listing in progress; an exception is the status it ends with. -/
abbrev Listing := ExceptT Nat (StateM Transcript)

namespace Listing

variable [Libraries]

/-- The statuses of a failed listing, a listing of unknown stage, and one that a fault ended. -/
def failed : Nat := 1
def unknownStage : Nat := 2
def faulted : Nat := 101

def print (lines : List String) : Listing Unit :=
  modify fun t => { t with lines := t.lines ++ lines }

def log (notices : List Notice) : Listing Unit :=
  modify fun t => { t with log := t.log ++ notices }

def expect {ε α : Type} (report : ε → List Notice) (x : Outcome ε α) : Listing α :=
  match x with
  | .ok a => return a
  | .error (.error e) => do
    log (report e)
    throw failed
  | .error (.fault _) => throw faulted

def occursIn (part : List Char) : List Char → Bool
  | [] => part.isEmpty
  | c :: rest => part.isPrefixOf (c :: rest) || occursIn part rest

/-- The first stage whose extension, with its dot, is in the path's file name. -/
def stageOf? (path : String) : Option Stage := do
  let name ← FileTree.fileName? path
  Stage.all.find? fun stage => occursIn ('.' :: stage.ext.toList) name.toList

def padded (n : Nat) : String :=
  let digits := toString n
  digits ++ String.ofList (List.replicate (4 - digits.length) ' ')

def leafLine (leaf : Leaf) : String :=
  s!"    +{padded leaf.offset} {leaf.path} {leaf.type.describe}"

def printResource (title : String) (resource : Resource) : Listing Unit := do
  let trail := resource.type.trail "" 0
  print (s!"  {title} {resource.name}: {resource.type.describe}" ::
    (trail.leaves.filter fun leaf => !leaf.path.isEmpty).map leafLine)
  if trail.fault.isSome then throw faulted

def variableLine (direction : String) (v : Variable) : String :=
  s!"  {direction} {v.location} {v.name}: {v.type.describe}"

def printStage (r : Reflection) : Listing Unit := do
  print [s!"{r.stage} shader '{r.entryPoint}'"]
  print (r.inputs.map (variableLine "in "))
  print (r.outputs.map (variableLine "out"))
  r.uniformBuffers.forM (printResource "uniform")
  r.storageBuffers.forM (printResource "buffer")
  r.sampledImages.forM (printResource "sampled")
  r.storageImages.forM (printResource "storage")
  r.pushConstant.toList.forM (printResource "push")

def setLines (set : Nat) (bindings : List (Nat × Resource)) : List String :=
  s!"set {set}" :: bindings.map fun (binding, resource) =>
    s!"  binding {binding} {resource.name} {resource.stages.text}"

def printLayout (layout : LayoutMap) : Listing Unit :=
  print (layout.sets.flatMap fun (set, bindings) => setLines set bindings)

def listFile (read : String → Except String Bytes) (path : String) : Listing (Stage × Reflection) := do
  let stage ← match stageOf? path with
    | some stage => pure stage
    | none => do
      log [⟨.critical, s!"Can't tell the stage of {path}"⟩]
      throw unknownStage
  let report (text : String) : List Notice := [⟨.critical, s!"{path}: {text}"⟩]
  let bytes ← expect report ((read path).mapError .error)
  let shader ← expect (fun e => report e.message)
    ((Shader.ofBytes bytes stage "main").mapError .error)
  log shader.notices
  let reflection ← expect (fun e => report e.message) shader.reflect
  printStage reflection
  return (stage, reflection)

def listAll (read : String → Except String Bytes) (paths : List String) : Listing Unit := do
  let stages ← paths.mapM (listFile read)
  let model ← expect (fun e => [⟨e.severity, e.message⟩])
    ((Model.ofStages (.ofList stages)).mapError .error)
  printLayout model.layout
  expect (fun e => e.errors.map fun error => ⟨error.severity, error.message⟩) (model.link {})

def transcribe (read : String → Except String Bytes) (paths : List String) : Nat × Transcript :=
  let (result, transcript) := ((listAll read paths).run {}).run
  match result with
  | .ok () => (0, transcript)
  | .error status => (status, transcript)

end Listing

end ShaderBinding
