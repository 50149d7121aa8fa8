import InlineComponents.Text.Basic

/-!
# File paths

A path is a text whose pieces are separated by `/`. It may be anchored at the root or at the
current folder (`.` as its first piece). Empty pieces and later pieces `.` are idle: they name
nothing and are passed over from the end of the path.

The last piece that is not idle is the name, unless it is `..`. A name is cut at its last dot
into stem and extension; a dot at its front does not start an extension.
-/

namespace InlineComponents

/-- A path as it is written. -/
structure FilePath where
  text : Text
  deriving DecidableEq, Repr

namespace FilePath

/-- The path written by a string. -/
def ofString (written : String) : FilePath := ⟨written.toList⟩

/-- The written path as a string. -/
def toString (path : FilePath) : String := String.ofList path.text

/-- Where a path starts: at the root, at the current folder if its first piece is `.`, or at its
first name. -/
inductive Anchor where
  | root
  | here
  | none
  deriving DecidableEq, Repr

/-- The characters that write the anchor. -/
def Anchor.text : Anchor → Text
  | root => ['/']
  | here => ['.']
  | none => []

/-- The anchor of a path. -/
def anchor (path : FilePath) : Anchor :=
  match path.text with
  | '/' :: _ => .root
  | ['.'] => .here
  | '.' :: '/' :: _ => .here
  | _ => .none

/-- The pieces after the anchor. -/
def pieces (path : FilePath) : List Text :=
  Text.splitAll '/' (path.text.drop path.anchor.text.length)

/-- Whether a piece names nothing. -/
def isIdle (piece : Text) : Bool := piece = [] || piece = ['.']

/-- The step to the enclosing folder. -/
def upward : Text := ['.', '.']

/-- One step of a path: to the root, to the current folder, to the enclosing one, or to a name. -/
inductive Component where
  | root
  | here
  | up
  | name (name : Text)
  deriving DecidableEq, Repr

/-- The steps of a path. Two paths are the same path when their steps agree. -/
def components (path : FilePath) : List Component :=
  (match path.anchor with
    | .root => [.root]
    | .here => [.here]
    | .none => []) ++
  (path.pieces.filter fun piece => !isIdle piece).map fun piece =>
    if piece = upward then .up else .name piece

/-- The folder that holds what follows, given the pieces in front of it in reverse. -/
def folderOf (start : Anchor) (reversed : List Text) : FilePath :=
  ⟨start.text ++ Text.joinWith ['/'] (reversed.dropWhile isIdle).reverse⟩

/-- The folders that enclose a path, innermost first, given its pieces in reverse. -/
def enclosing (start : Anchor) : List Text → List FilePath
  | [] => match start with
    | .here => [⟨[]⟩]
    | _ => []
  | piece :: rest =>
    if isIdle piece then enclosing start rest
    else folderOf start rest :: enclosing start rest

/-- The path itself and then every folder that encloses it, innermost first. -/
def ancestors (path : FilePath) : List FilePath :=
  path :: enclosing path.anchor path.pieces.reverse

/-- The enclosing folder; the root and the empty path have none. -/
def parent? (path : FilePath) : Option FilePath :=
  (enclosing path.anchor path.pieces.reverse).head?

/-- A path around its last piece that is not idle, with the idle pieces written after it. -/
structure Ending where
  before : Text
  piece : Text
  after : Text
  deriving DecidableEq, Repr

/-- The last piece that is not idle, within the written path. -/
def ending? (path : FilePath) : Option Ending :=
  match path.pieces.reverse.dropWhile isIdle with
  | [] => none
  | piece :: rest => some {
      before := path.anchor.text ++ rest.reverse.flatMap (· ++ ['/'])
      piece
      after := (path.pieces.reverse.takeWhile isIdle).reverse.flatMap ('/' :: ·) }

/-- The name of the file, if the path ends in a name. -/
def fileName? (path : FilePath) : Option Text :=
  match path.ending? with
  | some ending => if ending.piece = upward then none else some ending.piece
  | none => none

/-- The stem and extension of a name. -/
def splitName (name : Text) : Text × Option Text :=
  match Text.splitLast ['.'] name with
  | some ([], _) => (name, none)
  | some (stem, extension) => (stem, some extension)
  | none => (name, none)

/-- The name without its extension. -/
def stem? (path : FilePath) : Option Text :=
  path.fileName?.map fun name => (splitName name).1

/-- The part of the name after its last dot. -/
def extension? (path : FilePath) : Option Text :=
  path.fileName?.bind fun name => (splitName name).2

/-- The second path as seen from the folder given by the first. -/
def join (folder relative : FilePath) : FilePath :=
  match relative.text with
  | '/' :: _ => relative
  | _ =>
    if folder.text = [] || folder.text.getLast? = some '/' then ⟨folder.text ++ relative.text⟩
    else ⟨folder.text ++ '/' :: relative.text⟩

/-- The path to a sibling of another name; a path without a name is taken as the folder. -/
def withFileName (path : FilePath) (name : Text) : FilePath :=
  match path.fileName?, path.parent? with
  | some _, some folder => folder.join ⟨name⟩
  | _, _ => path.join ⟨name⟩

/-- The path with another extension, if it has one. Taking the extension away can leave `..` at
the end of the path, which is no name and gets no extension. -/
def replaceExtension? (path : FilePath) (extension : Text) : Option FilePath :=
  match path.ending? with
  | none => none
  | some ending =>
    if ending.piece = upward then none
    else match splitName ending.piece with
      | (_, none) => none
      | (stem, some _) =>
        if stem = ['.'] && ending.after = [] then some ⟨ending.before ++ upward⟩
        else some ⟨ending.before ++ stem ++ '.' :: extension⟩

/-- Writing a path and reading it gives the path. -/
@[simp] theorem ofString_toString (path : FilePath) : ofString path.toString = path := by
  simp [ofString, toString]

end FilePath

end InlineComponents
