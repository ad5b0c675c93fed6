import ShaderBinding.Bytes

/-! # File trees

A directory tree as a value. Paths are resolved component by component from the root of the
tree; of what lies above the root nothing is known. Every directory has an entry of its own, so
that it stays when the files below it are gone.
-/

namespace ShaderBinding

inductive FileError where
  | notFound
  | inputOutput
  | permissionDenied
  | notADirectory
  | isADirectory
  | nameTooLong
  deriving DecidableEq, Repr

def FileError.message : FileError → String
  | notFound => "No such file or directory (os error 2)"
  | inputOutput => "Input/output error (os error 5)"
  | permissionDenied => "Permission denied (os error 13)"
  | notADirectory => "Not a directory (os error 20)"
  | isADirectory => "Is a directory (os error 21)"
  | nameTooLong => "File name too long (os error 36)"

/-- An unreadable file is a regular file all the same; that it cannot be read shows when it is. -/
inductive FileEntry where
  | file (content : Bytes)
  | unreadable (error : FileError)
  | directory
  deriving DecidableEq, Repr

/-- Entries by the names on the way from the root, which has no entry. -/
structure FileTree where
  entries : List (List String × FileEntry)

namespace FileTree

def empty : FileTree := ⟨[]⟩

instance : Inhabited FileTree := ⟨empty⟩

/-- A path below a directory; an absolute path stays as it is. -/
def join (dir path : String) : String :=
  if dir.isEmpty || path.startsWith "/" then path else s!"{dir}/{path}"

def components (path : String) : List String :=
  (path.toList.splitOn '/').map String.ofList

def isStay (component : String) : Bool := component = "" || component = "."

def trimmed (path : String) : String :=
  "/".intercalate
    ((((components path).dropWhile isStay).reverse.dropWhile isStay).reverse)

/-- The last component of a path, unless the path ends in a parent directory. -/
def fileName? (path : String) : Option String :=
  match ((components path).filter fun c => !isStay c).getLast? with
  | some name => if name = ".." then none else some name
  | none => none

/-- The most bytes that a name and a path can have. -/
def maxName : Nat := 255
def maxPath : Nat := 4095

def at? (tree : FileTree) (place : List String) : Option FileEntry :=
  if place.isEmpty then some .directory else tree.entries.lookup place

/-- The place that components lead to from another one, and the entry there. -/
def follow (tree : FileTree) : List String → List String → Except FileError (List String × FileEntry)
  | place, [] =>
    match tree.at? place with
    | some entry => .ok (place, entry)
    | none => .error .notFound
  | place, component :: rest =>
    match tree.at? place with
    | none => .error .notFound
    | some (.file _) | some (.unreadable _) => .error .notADirectory
    | some .directory =>
      if isStay component then follow tree place rest
      else if component = ".." then
        if place.isEmpty then .error .notFound else follow tree place.dropLast rest
      else if component.utf8ByteSize > maxName then .error .nameTooLong
      else follow tree (place ++ [component]) rest

def resolve (tree : FileTree) (path : String) : Except FileError (List String × FileEntry) :=
  if path.utf8ByteSize > maxPath then .error .nameTooLong
  else if path.startsWith "/" then .error .notFound
  else tree.follow [] (components path)

def isFile (tree : FileTree) (path : String) : Bool :=
  match tree.resolve path with
  | .ok (_, .file _) | .ok (_, .unreadable _) => true
  | _ => false

def read (tree : FileTree) (path : String) : Except FileError Bytes :=
  match tree.resolve path with
  | .ok (_, .file content) => .ok content
  | .ok (_, .unreadable e) => .error e
  | .ok (_, .directory) => .error .isADirectory
  | .error e => .error e

def makeDirectories (tree : FileTree) :
    List String → List String → Option (FileTree × List String)
  | place, [] => some (tree, place)
  | place, component :: rest =>
    if isStay component then makeDirectories tree place rest
    else if component = ".." then
      if place.isEmpty then none else makeDirectories tree place.dropLast rest
    else
      let below := place ++ [component]
      match tree.at? below with
      | some .directory => makeDirectories tree below rest
      | some (.file _) | some (.unreadable _) => none
      | none => makeDirectories ⟨(below, .directory) :: tree.entries⟩ below rest

/--
Write a file or make a directory, with all directories above it. What would need a file to be a
directory, or a directory to be a file, is not done.
-/
def insert (tree : FileTree) (path : String) (entry : FileEntry) : FileTree :=
  match entry with
  | .directory =>
    match tree.makeDirectories [] (components path) with
    | some (tree, _) => tree
    | none => tree
  | .file _ | .unreadable _ =>
    match tree.makeDirectories [] (components path).dropLast, (components path).getLast? with
    | some (made, parent), some name =>
      let place := parent ++ [name]
      if isStay name || name = ".." || made.at? place = some .directory then made
      else ⟨(place, entry) :: made.entries.filter (·.1 ≠ place)⟩
    | _, _ => tree

def erase (tree : FileTree) (path : String) : FileTree :=
  match tree.resolve path with
  | .ok (place, _) => ⟨tree.entries.filter fun entry => !place.isPrefixOf entry.1⟩
  | .error _ => tree

end FileTree

end ShaderBinding
