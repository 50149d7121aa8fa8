import InlineComponents.Imports.Statement
import InlineComponents.Text.Scan

/-!
# Finding import statements in a module

Two kinds of statements are recognised at the start of a line. A named import lists its bindings
between braces, with or without blanks around them. A static import is any import whose clause
stands between blanks, or that has no clause; it takes in the end of its line.
-/

namespace InlineComponents

namespace ImportStatement

/-- What a named import says: the text between its braces and its source. -/
structure NamedImport where
  names : Text
  source : Text
  deriving DecidableEq, Repr

/-- The text without spaces and tabs at its front. -/
def skipSpaces (text : Text) : Text := text.dropWhile Text.isSpaceOrTab

/-- The text without an optional character at its front. -/
def dropOptional (c : Char) : Text → Text
  | [] => []
  | d :: rest => if d = c then rest else d :: rest

/-- The rest of a line after the first word of an import. -/
def afterImportWord? (text : Text) : Option Text :=
  Text.dropWord? "import".toList (skipSpaces text)

/-- The text after the closing brace, the word `from` and blanks. -/
def afterBraces? (text : Text) : Option Text :=
  match text with
  | '}' :: rest => (Text.dropWord? "from".toList (Text.skipBlanks rest)).map Text.skipBlanks
  | _ => none

/-- The named import at the start of a line, without the end of the line. -/
def readNamedImport? (text : Text) : Option (NamedImport × Text) :=
  match (afterImportWord? text).map Text.skipBlanks with
  | some ('{' :: rest) =>
    match (afterBraces? (rest.dropWhile (· ≠ '}'))).bind readSource? with
    | some (source, after) =>
      some (⟨rest.takeWhile (· ≠ '}'), source⟩, dropOptional ';' (skipSpaces after))
    | none => none
  | _ => none

/-- Named imports as phrases. -/
def namedImport : Text.PhraseReader NamedImport := fun lineStart text =>
  if lineStart then readNamedImport? text else none

/-- Whether the text between the first word and the source lets a static import be recognised:
blanks only, or a clause between blanks and then `from`. -/
def isStaticClause (head : Text) : Bool :=
  Text.isBlankText head ||
    match beforeFrom? head with
    | none => false
    | some clause =>
      2 ≤ clause.length && clause.head?.any Text.isBlank && clause.getLast?.any Text.isBlank &&
        !clause.contains ';'

/-- The text after the end of the line, if it starts with one. -/
def dropLineEnd (text : Text) : Text := dropOptional '\n' (dropOptional '\r' text)

/-- The rest after a static import at the start of a line, with the end of its line. -/
def readStaticImport? (text : Text) : Option Text :=
  match afterImportWord? text with
  | none => none
  | some rest =>
    if isStaticClause (rest.takeWhile fun c => !isQuote c) then
      (readSource? (rest.dropWhile fun c => !isQuote c)).map fun (_, after) =>
        dropLineEnd (skipSpaces (dropOptional ';' (skipSpaces after)))
    else none

/-- Static imports as phrases. -/
def staticImport : Text.PhraseReader Unit := fun lineStart text =>
  if lineStart then (readStaticImport? text).map fun after => ((), after) else none

/-- The texts of the static imports of a module, line ends included. -/
def staticImportTexts (code : Text) : List Text :=
  (Text.locations (Text.scanAll staticImport code)).map Text.Located.text

/-- The code without its static imports. -/
def withoutStaticImports (code : Text) : Text :=
  Text.withoutPhrases (Text.scanAll staticImport code)

/-- Dropping an optional character leaves an end of the text. -/
theorem dropOptional_suffix (c : Char) (text : Text) : dropOptional c text <:+ text := by
  cases text with
  | nil => exact List.suffix_rfl
  | cons d rest =>
    simp only [dropOptional]
    split
    · exact List.suffix_cons _ _
    · exact List.suffix_rfl

/-- What follows a source is an end of the text. -/
theorem readSource?_suffix {text source after : Text}
    (h : readSource? text = some (source, after)) : after <:+ text := by
  cases text with
  | nil => simp [readSource?] at h
  | cons c rest =>
    simp only [readSource?] at h
    split at h
    · split at h
      · simp at h
      · simp at h
      · rename_i q tail hs _
        obtain ⟨-, rfl⟩ := by simpa using h
        have : tail <:+ rest := (List.suffix_cons q tail).trans (hs ▸ List.dropWhile_suffix _)
        exact this.trans (List.suffix_cons _ _)
    · simp at h

/-- What follows the first word is an end of the text. -/
theorem afterImportWord?_suffix {text rest : Text} (h : afterImportWord? text = some rest) :
    rest <:+ text :=
  List.IsSuffix.trans ⟨_, (Text.dropWord?_eq_some_iff.mp h).symm⟩ (List.dropWhile_suffix _)

/-- What follows the braces is an end of the text. -/
theorem afterBraces?_suffix {text rest : Text} (h : afterBraces? text = some rest) :
    rest <:+ text := by
  unfold afterBraces? at h
  split at h
  · rename_i tail
    obtain ⟨r, hr, rfl⟩ := Option.map_eq_some_iff.mp h
    have h1 : r <:+ Text.skipBlanks tail := ⟨_, (Text.dropWord?_eq_some_iff.mp hr).symm⟩
    exact (Text.skipBlanks_suffix r).trans
      (h1.trans ((Text.skipBlanks_suffix tail).trans (List.suffix_cons _ _)))
  · simp at h

/-- A static import keeps to its text. -/
theorem staticImport_keepsSuffix : Text.KeepsSuffix staticImport := by
  intro lineStart text value after h
  simp only [staticImport] at h
  split at h
  · obtain ⟨r, hr, he⟩ := Option.map_eq_some_iff.mp h
    obtain rfl : r = after := by simpa using he
    unfold readStaticImport? at hr
    split at hr
    · simp at hr
    · rename_i rest hw
      split at hr
      · obtain ⟨⟨source, tail⟩, hs, he⟩ := Option.map_eq_some_iff.mp hr
        subst he
        have h1 : skipSpaces (dropOptional ';' (skipSpaces tail)) <:+ tail :=
          (List.dropWhile_suffix _).trans
            ((dropOptional_suffix _ _).trans (List.dropWhile_suffix _))
        have h2 := ((dropOptional_suffix '\n' _).trans (dropOptional_suffix '\r' _)).trans h1
        exact h2.trans ((readSource?_suffix hs).trans
          ((List.dropWhile_suffix _).trans (afterImportWord?_suffix hw)))
      · simp at hr
  · simp at h

/-- A named import keeps to its text. -/
theorem namedImport_keepsSuffix : Text.KeepsSuffix namedImport := by
  intro lineStart text value after h
  simp only [namedImport] at h
  split at h
  · unfold readNamedImport? at h
    split at h
    · rename_i rest hw
      obtain ⟨r, hr, hb⟩ := Option.map_eq_some_iff.mp hw
      have hrest : rest <:+ text :=
        ((List.suffix_cons _ _).trans (hb ▸ Text.skipBlanks_suffix r)).trans
          (afterImportWord?_suffix hr)
      split at h
      · rename_i source tail hs
        obtain ⟨-, rfl⟩ := by simpa using h
        obtain ⟨mid, hm, hq⟩ := Option.bind_eq_some_iff.mp hs
        exact (dropOptional_suffix _ _).trans ((List.dropWhile_suffix _).trans
          ((readSource?_suffix hq).trans ((afterBraces?_suffix hm).trans
            ((List.dropWhile_suffix _).trans hrest))))
      · simp at h
    · simp at h
  · simp at h

end ImportStatement

end InlineComponents
