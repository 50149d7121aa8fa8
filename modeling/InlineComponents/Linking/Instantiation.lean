import InlineComponents.Text.Blank
import InlineComponents.Text.Identifier
import InlineComponents.Text.Scan

/-!
# Instantiations of linked components

A generated module creates a component by `= new Card({`, with blanks wherever the language allows
them. Once `Card` is linked as a member of its parent, the name is qualified: `= new App.Card({`.
Qualifying is textual, so it also takes place inside string literals and comments.
-/

namespace InlineComponents

/-- An instantiation cut at its name: the text up to the name, and from it to the opening brace. -/
structure Instantiation where
  lead : Text
  name : Text
  trail : Text
  deriving DecidableEq, Repr

namespace Instantiation

/-- The text of an instantiation. -/
def source (site : Instantiation) : Text := site.lead ++ site.name ++ site.trail

/-- The text that a rest was cut from, given the whole. -/
def consumed (whole rest : Text) : Text := whole.take (whole.length - rest.length)

/-- The text after an equals sign, the word `new` and blanks. -/
def afterNew? (text : Text) : Option Text :=
  match text with
  | '=' :: rest => (Text.dropWord? "new".toList (Text.skipBlanks rest)).bind Text.skipSomeBlanks?
  | _ => none

/-- The text after an opening parenthesis and an opening brace. -/
def afterArguments? (text : Text) : Option Text :=
  match Text.skipBlanks text with
  | '(' :: rest =>
    match Text.skipBlanks rest with
    | '{' :: after => some after
    | _ => none
  | _ => none

/-- The instantiation at the front of a text. -/
def read? (text : Text) : Option (Instantiation × Text) := do
  let named ← afterNew? text
  let (name, rest) ← Text.readPlainIdentifier? named
  let after ← afterArguments? rest
  some (⟨consumed text named, name, consumed rest after⟩, after)

/-- Instantiations as phrases. -/
def reader : Text.PhraseReader Instantiation := fun _ text => read? text

/-- The text of an instantiation with its name qualified. -/
def qualified (binding : Text) (site : Instantiation) : Text :=
  site.lead ++ binding ++ '.' :: site.name ++ site.trail

/-- A piece of a module with its name qualified when it creates one of the listed components. -/
def qualifySegment (binding : Text) (names : List Text) : Text.Segment Instantiation → Text
  | .plain c => [c]
  | .phrase text site => if site.name ∈ names then site.qualified binding else text

/-- The code with every instantiation of a listed name qualified by the binding. -/
def qualifyAll (binding : Text) (names : List Text) (code : Text) : Text :=
  (Text.scanAll reader code).flatMap (qualifySegment binding names)

/-- The empty code has nothing to qualify. -/
@[simp] theorem qualifyAll_nil (binding : Text) (names : List Text) :
    qualifyAll binding names [] = [] := by
  simp [qualifyAll, Text.scanAll, Text.scan]

end Instantiation

end InlineComponents
