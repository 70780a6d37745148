import LockDiscipline.Text.Dotted
/-!
# Access to files

Commands read files through a `FileAccess`, so that they can be run on the files of a machine as
well as on a `FileTree`, which holds all its files itself. Paths are texts with slashes between
their segments. Empty segments and single dots say nothing, except that a path may begin with one.
Whoever reads a path keeps it as it was written.
-/

namespace LockDiscipline.Path

/-- The segments of a path. -/
def segments (path : String) : List String :=
  (Text.splitAt '/' path.toList).map String.ofList

/-- Whether a segment says nothing. -/
def isIdle (segment : String) : Bool :=
  segment.isEmpty || segment == "."

/-- Segments without idle ones at the end. The first segment stays, unless it is empty and alone. -/
def dropIdleEnd : List String → List String
  | [] => []
  | first :: rest => first :: (rest.reverse.dropWhile isIdle).reverse

/-- The path of the directory that a path is in. It is empty for a single name, and an empty path is
in no directory. -/
def parent? (path : String) : Option String :=
  match dropIdleEnd (segments path) with
  | [] | [""] => none
  | parts =>
      match dropIdleEnd parts.dropLast with
      | [""] => some "/"
      | above => some (Text.join "/" above)

/-- The path of a name in a directory. -/
def child (directory name : String) : String :=
  if directory.isEmpty || directory.endsWith "/" then directory ++ name
  else directory ++ "/" ++ name

/-- The ending of the names of source files. -/
def sourceEnding : List Char := ".java".toList

/-- Whether a name is that of a source file: it has the ending, and something before it. -/
def isSource (name : String) : Bool :=
  sourceEnding.isSuffixOf name.toList && sourceEnding.length < name.length

end LockDiscipline.Path

namespace LockDiscipline

/-- Why a file cannot be read. -/
inductive FileError where
  | notFound
  | notADirectory
  | isADirectory
  /-- The bytes of the file are not UTF-8. -/
  | notText
  /-- The reason that the machine gives. -/
  | other (reason : String)
deriving DecidableEq, Repr, Inhabited

/-- The text of a reason. -/
def FileError.message : FileError → String
  | .notFound => "No such file or directory (os error 2)"
  | .notADirectory => "Not a directory (os error 20)"
  | .isADirectory => "Is a directory (os error 21)"
  | .notText => "stream did not contain valid UTF-8"
  | .other reason => reason

/-- What commands may do with files. -/
structure FileAccess (m : Type → Type) where
  isDirectory : (path : String) → m Bool
  isFile : (path : String) → m Bool
  /-- The text of a file. -/
  read : (path : String) → m (Except FileError String)
  /-- The names in a directory, in any order. -/
  names : (path : String) → m (List String)

namespace FileAccess

/-- How deep directories are searched. No path is long enough to lead deeper. -/
def depthLimit : Nat := 4096

/-- The source files below a directory, at most to a depth. They are listed in the order of the
names in their paths. -/
def sourcesWithin {m : Type → Type} [Monad m] (files : FileAccess m) :
    (depth : Nat) → (directory : String) → m (List String)
  | 0, _ => pure []
  | depth + 1, directory => do
      let names := (← files.names directory).mergeSort fun first second => first ≤ second
      let found ← names.mapM fun name => do
        let path := Path.child directory name
        if ← files.isDirectory path then sourcesWithin files depth path
        else return if Path.isSource name then [path] else []
      return found.flatten

/-- The source files below a directory. -/
def sources {m : Type → Type} [Monad m] (files : FileAccess m) (directory : String) :
    m (List String) :=
  files.sourcesWithin depthLimit directory

end FileAccess

/-- A file or a directory with all that is in it. -/
inductive FileTree where
  | file (content : ByteArray)
  | directory (entries : List (String × FileTree))
deriving Inhabited

namespace FileTree

/-- The directory without entries. -/
def empty : FileTree := .directory []

/-- What is in a directory; nothing is in a file. -/
def entries : FileTree → List (String × FileTree)
  | .file _ => []
  | .directory entries => entries

/-- A directory with a node at a path of names. Directories on the way are made, and a directory
that is there already is not emptied. -/
def insert (tree node : FileTree) : List String → FileTree
  | [] =>
      match tree, node with
      | .directory entries, .directory [] => .directory entries
      | _, _ => node
  | name :: rest =>
      let below := (tree.entries.lookup name).getD empty
      .directory ((name, below.insert node rest) :: tree.entries.filter (·.1 != name))

/-- The node at a path of segments, from a node with the directories above it. -/
def walk : (trail : List FileTree) → (segments : List String) → Except FileError FileTree
  | [], _ => .error .notFound
  | node :: _, [] => .ok node
  | .file _ :: _, _ :: _ => .error .notADirectory
  | .directory entries :: above, segment :: rest =>
      if Path.isIdle segment then walk (.directory entries :: above) rest
      else if segment == ".." then
        match above with
        | [] => walk [.directory entries] rest
        | _ => walk above rest
      else match entries.lookup segment with
        | none => .error .notFound
        | some node => walk (node :: .directory entries :: above) rest

/-- The node at a path. -/
def find? (tree : FileTree) (path : String) : Except FileError FileTree :=
  if path.isEmpty then .error .notFound else walk [tree] (Path.segments path)

/-- Whether there is a directory at a path. -/
def hasDirectory (tree : FileTree) (path : String) : Bool :=
  match tree.find? path with
  | .ok (.directory _) => true
  | _ => false

/-- Whether there is a file at a path. -/
def hasFile (tree : FileTree) (path : String) : Bool :=
  match tree.find? path with
  | .ok (.file _) => true
  | _ => false

/-- The text of the file at a path. -/
def read (tree : FileTree) (path : String) : Except FileError String := do
  match ← tree.find? path with
  | .directory _ => throw .isADirectory
  | .file content =>
      match String.fromUTF8? content with
      | none => throw .notText
      | some text => return text

/-- The names in the directory at a path. -/
def namesIn (tree : FileTree) (path : String) : List String :=
  match tree.find? path with
  | .ok node => node.entries.map (·.1)
  | .error _ => []

/-- Access to the files of a tree. -/
def access (tree : FileTree) : FileAccess Id where
  isDirectory := tree.hasDirectory
  isFile := tree.hasFile
  read := tree.read
  names := tree.namesIn

end FileTree
end LockDiscipline
