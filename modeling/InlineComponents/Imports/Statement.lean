import InlineComponents.Text.Blank

/-!
# Import statements

An import statement names its source module and the local names it binds. Reading one takes the
text up to the first quote apart; writing one puts the default name first, then the namespace,
then the named bindings between braces.
-/

namespace InlineComponents

/-- One local name bound by an import. The exported name is `default` for a default import and `*`
for a namespace. -/
structure ImportBinding where
  imported : Text
  localName : Text
  deriving DecidableEq, Repr

/-- An import statement. One without bindings is made for its side effects only. -/
structure ImportStatement where
  source : Text
  bindings : List ImportBinding
  deriving DecidableEq, Repr

namespace ImportStatement

/-- The exported name of a default import. -/
def defaultName : Text := "default".toList

/-- The exported name of a namespace import. -/
def namespaceName : Text := ['*']

/-- The word between an exported and a local name. -/
def aliasWord : Text := " as ".toList

/-- A quote around a source. -/
def isQuote (c : Char) : Bool := c = '"' || c = '\''

/-- The quoted source at the front of a text, which may not be empty, and what follows it. The two
quotes may differ. -/
def readSource? : Text → Option (Text × Text)
  | [] => none
  | c :: rest =>
    if isQuote c then
      match rest.takeWhile (fun d => !isQuote d), rest.dropWhile (fun d => !isQuote d) with
      | [], _ => none
      | _, [] => none
      | source, _ :: after => some (source, after)
    else none

/-- The text in front of a final word `from`, which blanks may follow. -/
def beforeFrom? (clause : Text) : Option Text :=
  (Text.dropWord? "from".toList.reverse (Text.trimEnd clause).reverse).map List.reverse

/-- The binding written by one specifier between braces; the first ` as ` renames. -/
def readSpecifier (specifier : Text) : ImportBinding :=
  match Text.splitFirst aliasWord specifier with
  | some (imported, localName) => ⟨Text.trim imported, Text.trim localName⟩
  | none => ⟨specifier, specifier⟩

/-- The trimmed specifiers of a list, without the empty ones. -/
def specifiers (list : Text) : List Text :=
  ((Text.splitAll ',' list).map Text.trim).filter fun specifier => !specifier.isEmpty

/-- The bindings of a namespace import after its star. -/
def readNamespace (text : Text) : List ImportBinding :=
  let rest := Text.trim text
  [⟨namespaceName, Text.trim ((Text.dropWord? "as".toList rest).getD rest)⟩]

/-- The bindings between braces, given the text after the opening brace. -/
def readBraces (text : Text) : List ImportBinding :=
  match (Text.trimEnd text).reverse with
  | '}' :: inner => (specifiers inner.reverse).map readSpecifier
  | _ => []

/-- The bindings of the part of a clause after a default name. -/
def readNamed (rest : Text) : List ImportBinding :=
  match rest with
  | '*' :: text => readNamespace text
  | '{' :: text => readBraces text
  | _ => []

/-- The bindings of a trimmed import clause. A clause that starts with neither a brace nor a star
starts with the default name, which reaches up to a comma or the end. -/
def readClause (clause : Text) : List ImportBinding :=
  match clause with
  | [] => []
  | '{' :: _ => readNamed clause
  | '*' :: _ => readNamed clause
  | _ =>
    ⟨defaultName, Text.trim (clause.takeWhile (· ≠ ','))⟩ ::
      readNamed (Text.trim ((clause.dropWhile (· ≠ ',')).drop 1))

/-- The import statement at the front of a text. Between the first word and the source stand
blanks only, or a clause without semicolon and the word `from`. -/
def parse? (statement : Text) : Option ImportStatement :=
  match Text.dropWord? "import".toList (Text.skipBlanks statement) with
  | none => none
  | some rest =>
    let head := rest.takeWhile fun c => !isQuote c
    match readSource? (rest.dropWhile fun c => !isQuote c) with
    | none => none
    | some (source, _) =>
      if Text.isBlankText head then some ⟨source, []⟩
      else match beforeFrom? head with
        | none => none
        | some clause =>
          if ';' ∈ clause then none else some ⟨source, readClause (Text.trim clause)⟩

/-- The local names of the bindings between braces, each once; the last ` as ` renames. -/
def localNames (list : Text) : List Text :=
  ((specifiers list).map fun specifier =>
    match Text.splitLast aliasWord specifier with
    | some (_, localName) => Text.trim localName
    | none => specifier).eraseDups

/-- The last local name that a statement binds to the given exported name. -/
def lastLocal? (imported : Text) (bindings : List ImportBinding) : Option Text :=
  (bindings.filter (·.imported = imported)).getLast?.map ImportBinding.localName

/-- Whether a binding is written between braces. -/
def isNamed (binding : ImportBinding) : Bool :=
  binding.imported ≠ defaultName && binding.imported ≠ namespaceName

/-- One binding as it is written between braces. -/
def writeSpecifier (binding : ImportBinding) : Text :=
  if binding.imported = binding.localName then binding.localName
  else binding.imported ++ aliasWord ++ binding.localName

/-- The parts of the clause: the default name, the namespace and the braces, as far as there are
bindings for them. -/
def clauseParts (bindings : List ImportBinding) : List Text :=
  (lastLocal? defaultName bindings).toList ++
    ((lastLocal? namespaceName bindings).map ("* as ".toList ++ ·)).toList ++
    match bindings.filter isNamed with
    | [] => []
    | named =>
      ["\x7b ".toList ++ Text.joinWith ", ".toList (named.map writeSpecifier) ++ " \x7d".toList]

/-- The statement as it is written. -/
def render (statement : ImportStatement) : Text :=
  match clauseParts statement.bindings with
  | [] => "import \"".toList ++ statement.source ++ "\";".toList
  | parts =>
    "import ".toList ++ Text.joinWith ", ".toList parts ++ " from \"".toList ++ statement.source ++
      "\";".toList

end ImportStatement

end InlineComponents
