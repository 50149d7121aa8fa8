import InlineComponents.Text.Blank
import InlineComponents.Text.Identifier
import InlineComponents.Text.IdentifierCharacter
import InlineComponents.Text.Scan

/-!
# What the outline of a component is read from

Three kinds of phrases of a component source matter to its outline: the opening tags, the style
elements and the default imports of its script. Everything else is passed over.
-/

namespace InlineComponents.OutlineCompiler

/-- A style element from its opening tag to the first closing tag: what stands between them. -/
def readStyle? (text : Text) : Option (Text × Text) :=
  match (Text.dropWord? "<style".toList text).map (·.dropWhile (· ≠ '>')) with
  | some ('>' :: rest) => Text.splitFirst "</style>".toList rest
  | _ => none

/-- Style elements as phrases. -/
def style : Text.PhraseReader Text := fun _ text => readStyle? text

/-- Whether a character ends the name of a tag. -/
def endsTagName (c : Char) : Bool := Text.isBlank c || c = '/' || c = '>'

/-- The name of a tag with the given kinds of first and further characters, and the rest after the
character that ends it. -/
def readTag? (starts continues : Char → Bool) : Text → Option (Text × Text)
  | '<' :: c :: rest =>
    if starts c then
      match rest.dropWhile continues with
      | d :: after => if endsTagName d then some (c :: rest.takeWhile continues, after) else none
      | [] => none
    else none
  | _ => none

/-- Tags of components, whose names start with a capital letter. -/
def componentTag : Text.PhraseReader Text := fun _ text =>
  readTag? Char.isUpper Char.isAlphanum text

/-- Tags of elements, whose names start with a small letter and hold no capital. -/
def elementTag : Text.PhraseReader Text := fun _ text =>
  readTag? Char.isLower (fun c => c.isLower || c.isDigit) text

/-- A default import of a script. -/
structure ScriptImport where
  name : Text
  source : Text
  deriving DecidableEq, Repr

/-- The local name of an import and the rest after it. -/
def readLocalName? : Text → Option (Text × Text)
  | [] => none
  | c :: rest =>
    let continues := fun d => Text.isWordCharacter d || d = '$'
    if Text.isPlainStart c then some (c :: rest.takeWhile continues, rest.dropWhile continues)
    else none

/-- A character that opens or closes the name of a source module. -/
def isQuoteMark (c : Char) : Bool := c = '"' || c = '\''

/-- The non-empty text between two quote marks, which need not be alike, and the rest. -/
def readQuoted? : Text → Option (Text × Text)
  | [] => none
  | c :: rest =>
    match rest.takeWhile (!isQuoteMark ·), rest.dropWhile (!isQuoteMark ·) with
    | source@(_ :: _), _ :: after => if isQuoteMark c then some (source, after) else none
    | _, _ => none

/-- The rest of a text after a semicolon, if it starts with one. -/
def dropSemicolon : Text → Text
  | ';' :: rest => rest
  | text => text

/-- A default import at the front of a text. -/
def readScriptImport? (text : Text) : Option (ScriptImport × Text) := do
  let rest ← (Text.dropWord? "import".toList text).bind Text.skipSomeBlanks?
  let (name, rest) ← readLocalName? rest
  let rest ← (Text.skipSomeBlanks? rest).bind (Text.dropWord? "from".toList)
  let (source, rest) ← (Text.skipSomeBlanks? rest).bind readQuoted?
  some (⟨name, source⟩, dropSemicolon rest)

/-- Default imports as phrases. -/
def scriptImport : Text.PhraseReader ScriptImport := fun _ text => readScriptImport? text

/-- What the outline of a component is made from: the components and the elements in use, each once,
the default imports of the script, the first style sheet if it is not blank, and whether clicks are
handled. The script element is none of the elements. -/
structure Markup where
  components : List Text
  elements : List Text
  imports : List ScriptImport
  styles : Option Text
  handlesClicks : Bool
  deriving DecidableEq, Repr

namespace Markup

/-- The phrases of a text, in order. -/
def phrases {α : Type} (read : Text.PhraseReader α) (text : Text) : List α :=
  Text.phraseValues (Text.scanAll read text)

/-- Read the source of a component. Tags within style elements do not count. -/
def ofSource (source : Text) : Markup :=
  let markup := Text.withoutPhrases (Text.scanAll style source)
  { components := (phrases componentTag markup).eraseDups
    elements := ((phrases elementTag markup).filter (· ≠ "script".toList)).eraseDups
    imports := phrases scriptImport source
    styles := (((phrases style source).head?).map Text.trim).filter (!·.isEmpty)
    handlesClicks := Text.occursIn "on:click".toList source }

end Markup

end InlineComponents.OutlineCompiler
