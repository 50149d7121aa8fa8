import InlineComponents.Text.Basic

/-!
# Plain identifiers and whole words

A plain identifier is made of ASCII letters, digits, `_` and `$`, and does not start with a digit.
A word occurs whole where no such character touches it on either side. Beside the search for a
whole occurrence stands the list of maximal runs of identifier characters, in which a word can be
looked up.
-/

namespace InlineComponents.Text

/-- A character that may start a plain identifier. -/
def isPlainStart (c : Char) : Bool := c.isAlpha || c = '_' || c = '$'

/-- A character that may stand in a plain identifier. -/
def isPlainCharacter (c : Char) : Bool := c.isAlphanum || c = '_' || c = '$'

/-- Whether the text is a plain identifier. -/
def isPlainIdentifier : Text → Bool
  | [] => false
  | c :: rest => isPlainStart c && rest.all isPlainCharacter

/-- A plain identifier at the front of a text, taken as long as possible, and the rest. -/
def readPlainIdentifier? : Text → Option (Text × Text)
  | [] => none
  | c :: rest =>
    if isPlainStart c then
      some (c :: rest.takeWhile isPlainCharacter, rest.dropWhile isPlainCharacter)
    else none

/-- Whether a neighbour, if there is one, lets a word end or begin beside it. -/
def separates : Option Char → Bool
  | none => true
  | some c => !isPlainCharacter c

/-- Search for an occurrence with no identifier character on either side, given the character before
the text. Occurrences that overlap an earlier one, in its first `skip` characters, are passed over.
-/
def searchWord (word : Text) : (skip : Nat) → (previous : Option Char) → Text → Bool
  | _, _, [] => false
  | skip + 1, _, c :: rest => searchWord word skip (some c) rest
  | 0, previous, c :: rest =>
    match dropWord? word (c :: rest) with
    | some after =>
      (separates previous && separates after.head?) ||
        searchWord word (word.length - 1) (some c) rest
    | none => searchWord word 0 (some c) rest

/-- Whether the word occurs in the code with no identifier character on either side. Among
occurrences that overlap, only the leftmost is looked at. -/
def containsWord (code word : Text) : Bool :=
  !word.isEmpty && searchWord word 0 none code

/-- The stretches of identifier characters between the other characters, empty ones included. -/
def identifierStretches : Text → List Text
  | [] => [[]]
  | c :: rest =>
    if isPlainCharacter c then
      match identifierStretches rest with
      | [] => [[c]]
      | stretch :: stretches => (c :: stretch) :: stretches
    else [] :: identifierStretches rest

/-- The maximal runs of identifier characters, in order. -/
def identifierRuns (code : Text) : List Text :=
  (identifierStretches code).filter fun stretch => !stretch.isEmpty

end InlineComponents.Text
