import InlineComponents.FilePath

/-!
# File trees

A tree of folders and files below one folder, in which relative paths are looked up. Every step
of a path has to be taken in a folder that exists, also the idle ones and the step upward; there
is nothing above the tree.
-/

namespace InlineComponents

/-- What is found at a path: nothing where there is no file, and otherwise its bytes, or why they
cannot be read. -/
abbrev FileReader := FilePath → Option (Except String ByteArray)

/-- What a place of a tree holds: a file, or a folder, which may be empty. -/
inductive FileTree.Entry where
  | file (bytes : ByteArray)
  | folder

/-- The places of a tree, each given by the names that lead to it. -/
structure FileTree where
  entries : List (List Text × FileTree.Entry)

namespace FileTree

/-- The places that the pieces of a path lead through, without regard to what is there. -/
def trail (place : List Text) : List Text → List (List Text)
  | [] => []
  | piece :: rest =>
    if FilePath.isIdle piece then trail place rest
    else
      let next := if piece = FilePath.upward then place.dropLast else place ++ [piece]
      next :: trail next rest

/-- The places that a file takes up: its own and those of the folders on the way to it. A path that
ends in `/` is a folder. -/
def entriesOf (path : FilePath) (bytes : ByteArray) : List (List Text × Entry) :=
  match (trail [] path.pieces).reverse with
  | [] => []
  | last :: others =>
    (last, if path.text.getLast? = some '/' then .folder else .file bytes) ::
      others.map fun place => (place, .folder)

/-- The tree of the listed files and folders. -/
def ofFiles (files : List (FilePath × ByteArray)) : FileTree :=
  ⟨files.flatMap fun (path, bytes) => entriesOf path bytes⟩

/-- Whether there is a folder at a place. -/
def hasFolder (tree : FileTree) (place : List Text) : Bool :=
  place.isEmpty || tree.entries.any fun (names, entry) =>
    names = place && match entry with
      | .folder => true
      | .file _ => false

/-- The bytes of the file at a place. -/
def fileAt? (tree : FileTree) (place : List Text) : Option ByteArray :=
  tree.entries.findSome? fun (names, entry) =>
    if names = place then match entry with
      | .file bytes => some bytes
      | .folder => none
    else none

/-- The place reached by the pieces of a path, step by step. -/
def walk (tree : FileTree) (place : List Text) : List Text → Option (List Text)
  | [] => some place
  | piece :: rest =>
    if tree.hasFolder place then
      if FilePath.isIdle piece then tree.walk place rest
      else if piece = FilePath.upward then
        if place.isEmpty then none else tree.walk place.dropLast rest
      else tree.walk (place ++ [piece]) rest
    else none

/-- The bytes of the file that a relative path leads to. -/
def read? (tree : FileTree) (path : FilePath) : Option ByteArray :=
  match path.anchor with
  | .root => none
  | _ => (tree.walk [] path.pieces).bind tree.fileAt?

/-- Every file of a tree can be read. -/
def reader (tree : FileTree) : FileReader := fun path => (tree.read? path).map .ok

end FileTree

end InlineComponents
