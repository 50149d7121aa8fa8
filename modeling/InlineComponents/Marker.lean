import InlineComponents.Text.Blank
import InlineComponents.Text.Scan

/-!
# Markers of inline components

A block is opened by `{#component Name}` and closed by `{/component}`. Blanks may stand before the
name and before the closing brace. An opening marker may lack its name or carry a bad one; both
are still markers, and are refused later.
-/

namespace InlineComponents

/-- A marker of a block. The name of an opening marker may be empty or invalid. -/
inductive Marker where
  | opening (name : Text)
  | closing
  deriving DecidableEq, Repr

namespace Marker

/-- How every opening marker starts. -/
def openingWord : Text := "\x7b#component".toList

/-- How every closing marker starts. -/
def closingWord : Text := "\x7b/component".toList

/-- A character that can stand in the name of an opening marker. -/
def isNameCharacter (c : Char) : Bool := !Text.isBlank c && c ≠ '}'

/-- The text after optional blanks and the closing brace. -/
def dropBrace? (text : Text) : Option Text :=
  match Text.skipBlanks text with
  | '}' :: rest => some rest
  | _ => none

/-- The name and the rest of an opening marker after its first word. -/
def readOpening? (text : Text) : Option (Marker × Text) :=
  match Text.skipSomeBlanks? text with
  | none => (dropBrace? text).map fun rest => (opening [], rest)
  | some named =>
    (dropBrace? (named.dropWhile isNameCharacter)).map fun rest =>
      (opening (named.takeWhile isNameCharacter), rest)

/-- The marker at the front of a text. -/
def read? (text : Text) : Option (Marker × Text) :=
  match Text.dropWord? openingWord text with
  | some rest => readOpening? rest
  | none =>
    match Text.dropWord? closingWord text with
    | some rest => (dropBrace? rest).map fun after => (closing, after)
    | none => none

/-- Markers as phrases of a text; they may stand anywhere in a line. -/
def reader : Text.PhraseReader Marker := fun _ text => read? text

/-- A name is a letter in upper case followed by letters and digits, all of them ASCII. -/
def isValidName : Text → Bool
  | [] => false
  | c :: rest => c.isUpper && rest.all Char.isAlphanum

/-- What follows the closing brace is an end of the text. -/
theorem dropBrace?_suffix {text rest : Text} (h : dropBrace? text = some rest) : rest <:+ text := by
  unfold dropBrace? at h
  split at h
  · rename_i tail hs
    obtain rfl := Option.some.inj h
    exact (List.suffix_cons _ _).trans (hs ▸ Text.skipBlanks_suffix text)
  · simp at h

/-- What follows a marker is an end of the text. -/
theorem reader_keepsSuffix : Text.KeepsSuffix reader := by
  intro _ text marker after h
  simp only [reader, read?] at h
  split at h
  · rename_i rest hw
    have hrest : rest <:+ text := ⟨openingWord, (Text.dropWord?_eq_some_iff.mp hw).symm⟩
    unfold readOpening? at h
    split at h
    · obtain ⟨r, hr, he⟩ := Option.map_eq_some_iff.mp h
      obtain ⟨-, rfl⟩ := by simpa using he
      exact (dropBrace?_suffix hr).trans hrest
    · rename_i named hn
      obtain ⟨r, hr, he⟩ := Option.map_eq_some_iff.mp h
      obtain ⟨-, rfl⟩ := by simpa using he
      have hnamed : named <:+ rest := by
        unfold Text.skipSomeBlanks? at hn
        split at hn
        · simp at hn
        · split at hn
          · obtain rfl := Option.some.inj hn
            exact (Text.skipBlanks_suffix _).trans (List.suffix_cons _ _)
          · simp at hn
      exact (dropBrace?_suffix hr).trans ((List.dropWhile_suffix _).trans (hnamed.trans hrest))
  · split at h
    · rename_i rest hw
      obtain ⟨r, hr, he⟩ := Option.map_eq_some_iff.mp h
      obtain ⟨-, rfl⟩ := by simpa using he
      exact (dropBrace?_suffix hr).trans ⟨closingWord, (Text.dropWord?_eq_some_iff.mp hw).symm⟩
    · simp at h

end Marker

end InlineComponents
