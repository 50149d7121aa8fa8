import InlineComponents.Text.Basic

/-!
# Globs

A glob matches a whole text. A star stands for any text without a slash, two stars for any text
without a line feed, two stars and a slash for nothing or any such text that ends in a slash, and
a question mark for one character other than a slash. A glob that starts with neither a slash nor
two stars may match at any folder.

A glob is read into pieces. Matching goes through the pieces and keeps the list of all texts that
can be left over; `MatchesPieces` says the same as a relation.
-/

namespace InlineComponents

/-- A piece of a glob. Within a folder there is any text without a slash, and as anything there is
any text without a line feed. Any folders are no text, or one without a line feed that ends in a
slash. -/
inductive GlobPiece where
  | literal (c : Char)
  | oneCharacter
  | withinFolder
  | anything
  | anyFolders
  deriving DecidableEq, Repr

namespace Glob

/-- A text with slashes for backslashes. -/
def withSlashes (text : Text) : Text := text.map fun c => if c = '\\' then '/' else c

/-- The pieces that a glob is made of, without regard to its start. -/
def piecesOf : Text → List GlobPiece
  | [] => []
  | '*' :: '*' :: '/' :: rest => .anyFolders :: piecesOf rest
  | '*' :: '*' :: rest => .anything :: piecesOf rest
  | '*' :: rest => .withinFolder :: piecesOf rest
  | '?' :: rest => .oneCharacter :: piecesOf rest
  | c :: rest => .literal c :: piecesOf rest

/-- Whether a glob is tied to the start of the text. -/
def isAnchored (glob : Text) : Bool :=
  Text.startsWith ['/'] glob || Text.startsWith ['*', '*'] glob

/-- The pieces of a glob. -/
def compile (glob : Text) : List GlobPiece :=
  let glob := withSlashes glob
  if isAnchored glob then piecesOf glob else .anyFolders :: piecesOf glob

/-- All texts that are left over after a front of allowed characters. -/
def leftovers (allowed : Char → Bool) : Text → List Text
  | [] => [[]]
  | c :: rest => (c :: rest) :: if allowed c then leftovers allowed rest else []

/-- All texts that are left over after a front of allowed characters that ends in a slash. -/
def leftoversAfterSlash (allowed : Char → Bool) : Text → List Text
  | [] => []
  | c :: rest =>
    if allowed c then (if c = '/' then [rest] else []) ++ leftoversAfterSlash allowed rest else []

/-- Whether a character is no line feed. -/
def inLine (c : Char) : Bool := c ≠ '\n'

/-- The texts that a piece can leave over. -/
def step (piece : GlobPiece) (text : Text) : List Text :=
  match piece with
  | .literal c => match text with
    | d :: rest => if d = c then [rest] else []
    | [] => []
  | .oneCharacter => match text with
    | d :: rest => if d = '/' then [] else [rest]
    | [] => []
  | .withinFolder => leftovers (· ≠ '/') text
  | .anything => leftovers inLine text
  | .anyFolders => text :: leftoversAfterSlash inLine text

/-- The texts that several pieces can leave over, starting from any of the given texts. -/
def run (pieces : List GlobPiece) (texts : List Text) : List Text :=
  pieces.foldl (fun remaining piece => (remaining.flatMap (step piece)).eraseDups) texts

/-- Whether the pieces match a whole text. -/
def matchesPieces (pieces : List GlobPiece) (text : Text) : Bool :=
  (run pieces [text]).contains []

/-- Whether a glob matches a whole text, in which slashes are already in place. -/
def matchesText (glob text : Text) : Bool := matchesPieces (compile glob) text

/-- The pieces match the whole text, one after the other. -/
inductive MatchesPieces : List GlobPiece → Text → Prop where
  | nil : MatchesPieces [] []
  | cons {piece : GlobPiece} {pieces : List GlobPiece} {text rest : Text} :
    rest ∈ step piece text → MatchesPieces pieces rest → MatchesPieces (piece :: pieces) text

/-- A text is left over by pieces exactly when some start leads to it. -/
theorem mem_run_cons {piece : GlobPiece} {pieces : List GlobPiece} {texts : List Text}
    {rest : Text} :
    rest ∈ run (piece :: pieces) texts ↔ rest ∈ run pieces (texts.flatMap (step piece)).eraseDups :=
  Iff.rfl

/-- What is left over from several texts is what is left over from one of them. -/
theorem nil_mem_run_iff {pieces : List GlobPiece} {texts : List Text} :
    [] ∈ run pieces texts ↔ ∃ text ∈ texts, MatchesPieces pieces text := by
  induction pieces generalizing texts with
  | nil =>
    constructor
    · intro h
      exact ⟨[], h, .nil⟩
    · rintro ⟨text, hm, hp⟩
      cases hp
      exact hm
  | cons piece pieces ih =>
    rw [mem_run_cons, ih]
    constructor
    · rintro ⟨rest, hr, hp⟩
      obtain ⟨text, ht, hs⟩ := List.mem_flatMap.mp (List.mem_eraseDups.mp hr)
      exact ⟨text, ht, .cons hs hp⟩
    · rintro ⟨text, ht, hp⟩
      cases hp with
      | cons hs hp => exact ⟨_, List.mem_eraseDups.mpr (List.mem_flatMap.mpr ⟨text, ht, hs⟩), hp⟩

/-- The search finds a match exactly when there is one. -/
theorem matchesPieces_iff {pieces : List GlobPiece} {text : Text} :
    matchesPieces pieces text = true ↔ MatchesPieces pieces text := by
  simp [matchesPieces, nil_mem_run_iff]

end Glob

/-- Which module ids are taken: those that an included glob matches, unless there are none, and no
excluded one. -/
structure PathFilter where
  included : List String := []
  excluded : List String := []
  deriving DecidableEq, Repr

/-- Whether an id is taken. An id with a NUL is virtual and never taken. -/
def PathFilter.accepts (filter : PathFilter) (id : String) : Bool :=
  let text := Glob.withSlashes id.toList
  let matchesAny (globs : List String) : Bool :=
    globs.any fun glob => Glob.matchesText glob.toList text
  !id.toList.contains '\x00' && (filter.included.isEmpty || matchesAny filter.included) &&
    !matchesAny filter.excluded

end InlineComponents
