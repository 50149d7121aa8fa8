import InlineComponents.OutlineCompiler
import InlineComponents.Proofs.Linking.Lines

/-!
# The declarations of a generated module

Behind its imports a generated module is a row of lines. No import or export starts in one of them,
whatever tags the source has, and none has an arrow in it. The only instantiations in them are those
of the components in use, each within a line, so qualifying the row of lines gives the same row with
other references to the components.
-/

namespace InlineComponents

open Text Instantiation

/-! ### Lines that linking passes over -/

/-- A line in which no statement starts and that is no start of an initializer. -/
structure IsTame (line : Text) : Prop where
  lineFeed : '\n' ∉ line
  imports : startsWith "import".toList (ImportStatement.skipSpaces line) = false
  exports : startsWith "export".toList (ImportStatement.skipSpaces line) = false
  arrow : '>' ∉ line

namespace IsTame

/-- A character other than a line feed and the end of an arrow. -/
def isTameCharacter (c : Char) : Bool := c != '\n' && c != '>'

/-- The start of a line that is no start of an import or export: its first letters differ. -/
def startsTame (start : Text) : Bool :=
  match ImportStatement.skipSpaces start with
  | [] => false
  | 'i' :: rest => rest.head? == some 'n'
  | c :: _ => c != 'e'

/-- The start of a line settles that no statement starts in it. -/
theorem of_start (start : Text) {rest : Text} (hstart : startsTame start = true)
    (hall : start.all isTameCharacter = true) (hrest : rest.all isTameCharacter = true) :
    IsTame (start ++ rest) := by
  have hcharacters : (start ++ rest).all isTameCharacter = true := by
    rw [List.all_append, hall, hrest]
    rfl
  have hmissing {c : Char} (hc : isTameCharacter c = false) : c ∉ start ++ rest := fun hmem => by
    simp [List.all_eq_true.mp hcharacters c hmem] at hc
  obtain ⟨spaces, behind, rfl, hspaces, hbehind⟩ := exists_stretch isSpaceOrTab start
  have hskip : ImportStatement.skipSpaces (spaces ++ behind) = behind :=
    dropWhile_stretch hspaces hbehind
  unfold startsTame at hstart
  rw [hskip] at hstart
  have hline : ImportStatement.skipSpaces (spaces ++ behind ++ rest) = behind ++ rest := by
    rw [List.append_assoc]
    refine dropWhile_stretch hspaces ?_
    cases behind with
    | nil => contradiction
    | cons c tail => exact stops_cons.mpr (stops_cons.mp hbehind)
  refine ⟨hmissing (by decide), ?_, ?_, hmissing (by decide)⟩
  · rw [hline]
    split at hstart
    · contradiction
    · rename_i tail
      obtain ⟨more, rfl⟩ := List.head?_eq_some_iff.mp (beq_iff_eq.mp hstart)
      rfl
    · rename_i c tail hne
      have hc : 'i' ≠ c := fun h => hne (h ▸ rfl)
      simp [startsWith, dropWord?, hc]
  · rw [hline]
    split at hstart
    · contradiction
    · rfl
    · rename_i c tail hne
      have hc : 'e' ≠ c := (bne_iff_ne.mp hstart).symm
      simp [startsWith, dropWord?, hc]

/-- An empty line. -/
theorem nil : IsTame [] := ⟨by simp, rfl, rfl, by simp⟩

/-- Identifiers are tame. -/
theorem all_of_plain {text : Text} (h : text.all isPlainCharacter = true) :
    text.all isTameCharacter = true := by
  refine List.all_eq_true.mpr fun c hc => ?_
  have hplain := List.all_eq_true.mp h c hc
  refine Bool.and_eq_true_iff.mpr ⟨bne_iff_ne.mpr ?_, bne_iff_ne.mpr ?_⟩ <;>
    (rintro rfl; exact absurd hplain (by decide))

/-- Tame lines hold no static import. -/
theorem yields_staticImport {lines : List Text} (h : ∀ line ∈ lines, IsTame line) :
    Yields (scanAll ImportStatement.staticImport) (statementLines lines)
      ((statementLines lines).map .plain) :=
  yields_of_silent ImportStatement.readsLines_staticImport fun line hline =>
    ImportStatement.silent_staticImport (h line hline).lineFeed (h line hline).imports

/-- A tame line has no text of a static import. -/
theorem yields_staticImportTexts {line : Text} (h : IsTame line) :
    Yields ImportStatement.staticImportTexts (line ++ ['\n']) [] :=
  ImportStatement.yields_staticImportTexts_nil h.lineFeed h.imports

/-- Tame lines hold no named import. -/
theorem yields_namedImport {lines : List Text} (h : ∀ line ∈ lines, IsTame line) :
    Yields (scanAll ImportStatement.namedImport) (statementLines lines)
      ((statementLines lines).map .plain) :=
  yields_of_silent ImportStatement.readsLines_namedImport fun line hline =>
    ImportStatement.silent_namedImport (h line hline).lineFeed (h line hline).imports

/-- Tame lines hold no default export. -/
theorem yields_defaultExport {lines : List Text} (h : ∀ line ∈ lines, IsTame line) :
    Yields (scanAll DefaultExport.reader) (statementLines lines)
      ((statementLines lines).map .plain) :=
  yields_of_silent DefaultExport.readsLines_reader fun line hline =>
    DefaultExport.silent_reader (h line hline).lineFeed (h line hline).exports

end IsTame

namespace OutlineCompiler.Markup

/-! ### Tags -/

/-- The tags of a source can stand in code, and nothing is imported besides the runtime names. -/
structure IsLegible (markup : Markup) : Prop where
  components : ∀ name ∈ markup.components, isPlainIdentifier name = true
  elements : ∀ tag ∈ markup.elements, isPlainIdentifier tag = true
  imports : markup.imports = []

/-- A phrase of a text was read somewhere in it. -/
theorem exists_read_of_mem_phrases {α : Type} {read : PhraseReader α} {text : Text} {value : α}
    (h : value ∈ phrases read text) : ∃ flag rest after, read flag rest = some (value, after) := by
  unfold phrases scanAll at h
  generalize true = lineStart at h
  fun_induction scan read lineStart text with
  | case1 => simp [phraseValues] at h
  | case2 lineStart c rest found after hread hlt text ih =>
    rcases List.mem_cons.mp h with rfl | hrest
    · exact ⟨_, _, _, hread⟩
    · exact ih hrest
  | case3 lineStart c rest found after hread hlt ih => exact ih h
  | case4 lineStart c rest hread ih => exact ih h

/-- The name of a tag starts and goes on as it has to. -/
theorem exists_cons_of_readTag? {starts continues : Char → Bool} {text name after : Text}
    (h : readTag? starts continues text = some (name, after)) :
    ∃ c rest, name = c :: rest ∧ starts c = true ∧ rest.all continues = true := by
  unfold readTag? at h
  split at h
  · rename_i c rest
    split at h
    · rename_i hc
      split at h
      · split at h
        · obtain ⟨rfl, -⟩ := Prod.mk.inj (Option.some.inj h)
          exact ⟨c, _, rfl, hc, List.all_takeWhile⟩
        · contradiction
      · contradiction
    · contradiction
  · contradiction

/-- Letters and digits may stand in identifiers. -/
theorem isPlainIdentifier_cons {c : Char} {rest : Text} (hc : c.isAlpha = true)
    (hrest : ∀ d ∈ rest, d.isAlphanum = true) : isPlainIdentifier (c :: rest) = true := by
  refine Bool.and_eq_true_iff.mpr ⟨by simp [isPlainStart, hc], List.all_eq_true.mpr fun d hd => ?_⟩
  simp [isPlainCharacter, hrest d hd]

/-- The tags of a source without script imports are legible. -/
theorem isLegible_ofSource {source : Text} (h : phrases scriptImport source = []) :
    (ofSource source).IsLegible where
  components name hname := by
    obtain ⟨_, _, _, hread⟩ := exists_read_of_mem_phrases (List.mem_eraseDups.mp hname)
    obtain ⟨c, rest, rfl, hc, hrest⟩ := exists_cons_of_readTag? hread
    exact isPlainIdentifier_cons (by simp [isAlpha_eq, hc]) (List.all_eq_true.mp hrest)
  elements tag htag := by
    have hmem := (List.mem_filter.mp (List.mem_eraseDups.mp htag)).1
    obtain ⟨_, _, _, hread⟩ := exists_read_of_mem_phrases hmem
    obtain ⟨c, rest, rfl, hc, hrest⟩ := exists_cons_of_readTag? hread
    refine isPlainIdentifier_cons (by simp [isAlpha_eq, hc]) fun d hd => ?_
    have hd := List.all_eq_true.mp hrest d hd
    simp only [Bool.or_eq_true] at hd
    rcases hd with hd | hd <;> simp [Char.isAlphanum, isAlpha_eq, hd]
  imports := h

/-- A number consists of digits. -/
theorem number_plain (n : Nat) : (number n).all isPlainCharacter = true := by
  refine List.all_eq_true.mpr fun c hc => ?_
  have hrepr : number n = Nat.toDigits 10 n := String.toList_ofList
  have hdigit := Nat.isDigit_of_mem_toDigits (by decide) (by decide) (hrepr ▸ hc)
  simp [isPlainCharacter, Char.isAlphanum, hdigit]

/-! ### Lines -/

/-- The line that creates an element, up to the equals sign. -/
def elementStart (index : Nat) (tag : Text) : Text :=
  "\tconst ".toList ++ (tag ++ (number index ++ [' ']))

/-- The line that creates an element. -/
def elementLine (index : Nat) (tag : Text) : Text :=
  elementStart index tag ++ '=' :: ' ' :: ("element(\"".toList ++ (tag ++ "\");".toList))

/-- The lines that instantiate a component under the given name. -/
def instanceLines (index : Nat) (reference : Text) : List Text :=
  ["\tlet c".toList ++ (number index ++ [';']),
   "\tc".toList ++ (number index ++ " = new ".toList) ++
    (reference ++ "(\x7b props: \x7b\x7d \x7d);".toList)]

/-- The line that inserts an element. -/
def insertionLine (index : Nat) (tag : Text) : Text :=
  "\t\t\tinsert(target, ".toList ++ (tag ++ (number index ++ ", anchor);".toList))

/-- The line that mounts a component. -/
def mountingLine (index : Nat) : Text :=
  "\t\t\tmount_component(c".toList ++ (number index ++ ", target, anchor);".toList)

/-- The first line of the class. -/
def classLine (symbol : Text) : Text :=
  "class ".toList ++ (symbol ++ " extends SvelteComponent \x7b".toList)

/-- The first line of the function. -/
def functionStart : List Text := ["function create_fragment(ctx) \x7b".toList]

/-- The lines between the creation and the insertion of elements. -/
def functionMiddle : List Text := ["\treturn \x7b".toList, "\t\tm(target, anchor) \x7b".toList]

/-- The last lines of the function. -/
def functionEnd : List Text := ["\t\t\x7d".toList, "\t\x7d;".toList, "\x7d".toList]

/-- The lines of the class between its first and its last. -/
def classBody : List Text :=
  ["\tconstructor(options) \x7b".toList, "\t\tsuper();".toList,
   "\t\tinit(this, options, null, create_fragment, safe_not_equal, \x7b\x7d);".toList,
   "\t\x7d".toList]

/-- The lines from the function to the last line but one of the class, with the given references to
components. -/
def declarations (reference : Text → Text) (markup : Markup) (symbol : Text) : List Text :=
  functionStart ++ markup.elements.zipIdx.map (fun item => elementLine item.2 item.1) ++
    markup.components.zipIdx.flatMap (fun item => instanceLines item.2 (reference item.1)) ++
    functionMiddle ++ markup.elements.zipIdx.map (fun item => insertionLine item.2 item.1) ++
    markup.components.zipIdx.map (fun item => mountingLine item.2) ++
    functionEnd ++ [] :: classLine symbol :: classBody

/-- A line without a variable part. -/
theorem isTame_of_closed {line : Text} (hstart : IsTame.startsTame line = true)
    (hall : line.all IsTame.isTameCharacter = true) : IsTame line := by
  have h := IsTame.of_start line hstart hall (rfl : ([] : Text).all IsTame.isTameCharacter = true)
  rwa [List.append_nil] at h

section Lines

variable {tag : Text} (htag : tag.all isPlainCharacter = true) (index : Nat)

include htag

/-- The creation of an element. -/
theorem isTame_elementLine : IsTame (elementLine index tag) := by
  unfold elementLine elementStart
  rw [List.append_assoc]
  refine IsTame.of_start "\tconst ".toList (by decide) (by decide) ?_
  simp only [List.all_append, List.all_cons, IsTame.all_of_plain htag,
    IsTame.all_of_plain (number_plain index), Bool.true_and]
  decide

/-- The insertion of an element. -/
theorem isTame_insertionLine : IsTame (insertionLine index tag) := by
  unfold insertionLine
  refine IsTame.of_start "\t\t\tinsert(target, ".toList (by decide) (by decide) ?_
  simp only [List.all_append, IsTame.all_of_plain htag, IsTame.all_of_plain (number_plain index),
    Bool.true_and]
  decide

end Lines

/-- The head of the class. -/
theorem isTame_classLine {symbol : Text} (hsymbol : symbol.all isPlainCharacter = true) :
    IsTame (classLine symbol) := by
  unfold classLine
  refine IsTame.of_start "class ".toList (by decide) (by decide) ?_
  rw [List.all_append, IsTame.all_of_plain hsymbol]
  decide

/-- The mounting of a component. -/
theorem isTame_mountingLine (index : Nat) : IsTame (mountingLine index) := by
  unfold mountingLine
  refine IsTame.of_start "\t\t\tmount_component(c".toList (by decide) (by decide) ?_
  rw [List.all_append, IsTame.all_of_plain (number_plain index)]
  decide

/-- The instantiation of a component. -/
theorem isTame_of_mem_instanceLines {index : Nat} {reference line : Text}
    (hreference : reference.all IsTame.isTameCharacter = true)
    (h : line ∈ instanceLines index reference) : IsTame line := by
  have hnumber := IsTame.all_of_plain (number_plain index)
  rcases List.mem_pair.mp h with rfl | rfl
  · refine IsTame.of_start "\tlet c".toList (by decide) (by decide) ?_
    rw [List.all_append, hnumber]
    decide
  · rw [List.append_assoc]
    refine IsTame.of_start "\tc".toList (by decide) (by decide) ?_
    simp only [List.all_append, hnumber, hreference, Bool.true_and]
    decide

variable {reference : Text → Text} {markup : Markup} {symbol : Text}

/-- Every line is tame. -/
theorem isTame_of_mem_declarations (hlegible : markup.IsLegible)
    (hsymbol : symbol.all isPlainCharacter = true)
    (hreference : ∀ name ∈ markup.components, (reference name).all IsTame.isTameCharacter = true) :
    ∀ line ∈ declarations reference markup symbol, IsTame line := by
  have hclosed : ∀ line ∈ functionStart ++ functionMiddle ++ functionEnd ++ classBody,
      IsTame line := by
    have hcheck : ∀ line ∈ functionStart ++ functionMiddle ++ functionEnd ++ classBody,
        IsTame.startsTame line = true ∧ line.all IsTame.isTameCharacter = true := by decide
    exact fun line hline => isTame_of_closed (hcheck line hline).1 (hcheck line hline).2
  intro line hline
  unfold declarations at hline
  simp only [List.mem_append, List.mem_cons, or_assoc] at hline hclosed
  rcases hline with hline | hline | hline | hline | hline | hline | hline | hline | hline | hline
  · exact hclosed line (.inl hline)
  · obtain ⟨⟨tag, index⟩, hitem, rfl⟩ := List.mem_map.mp hline
    have hplain := hlegible.elements tag (List.fst_mem_of_mem_zipIdx hitem)
    exact isTame_elementLine (isPlainIdentifier_iff.mp hplain).2 index
  · obtain ⟨⟨name, index⟩, hitem, hline⟩ := List.mem_flatMap.mp hline
    exact isTame_of_mem_instanceLines (hreference name (List.fst_mem_of_mem_zipIdx hitem)) hline
  · exact hclosed line (.inr (.inl hline))
  · obtain ⟨⟨tag, index⟩, hitem, rfl⟩ := List.mem_map.mp hline
    have hplain := hlegible.elements tag (List.fst_mem_of_mem_zipIdx hitem)
    exact isTame_insertionLine (isPlainIdentifier_iff.mp hplain).2 index
  · obtain ⟨⟨name, index⟩, -, rfl⟩ := List.mem_map.mp hline
    exact isTame_mountingLine index
  · exact hclosed line (.inr (.inr (.inl hline)))
  · exact hline ▸ IsTame.nil
  · exact hline ▸ isTame_classLine hsymbol
  · exact hclosed line (.inr (.inr (.inr hline)))

/-! ### References to components -/

/-- How a component is referred to once those of the given names are linked. -/
def linkedReference (binding : Text) (names : List Text) (name : Text) : Text :=
  if names.contains name then binding ++ '.' :: name else name

/-- A reference is made of identifiers. -/
theorem all_linkedReference {binding name : Text} {names : List Text}
    (hbinding : binding.all isPlainCharacter = true) (hname : name.all isPlainCharacter = true) :
    (linkedReference binding names name).all IsTame.isTameCharacter = true := by
  unfold linkedReference
  split
  · rw [List.all_append, List.all_cons, IsTame.all_of_plain hbinding, IsTame.all_of_plain hname]
    rfl
  · exact IsTame.all_of_plain hname

section Qualification

variable {binding : Text} {names : List Text}

/-- Lines without equals signs are left as they are. -/
theorem yields_qualifyAll_of_no_equals {lines : List Text} (h : ∀ line ∈ lines, '=' ∉ line) :
    Yields (qualifyAll binding names) (statementLines lines) (statementLines lines) :=
  Yields.flatMap fun line hline => qualifyAll_append_of_no_equals (by simp [h line hline])

/-- The creation of an element is left as it is. -/
theorem yields_qualifyAll_elementLine {tag : Text} (htag : tag.all isPlainCharacter = true)
    (index : Nat) :
    Yields (qualifyAll binding names) (elementLine index tag ++ ['\n'])
      (elementLine index tag ++ ['\n']) := fun back => by
  have hstart : '=' ∉ elementStart index tag := by
    unfold elementStart
    simp only [List.mem_append, not_or]
    exact ⟨by decide, no_equals_of_plain htag, no_equals_of_plain (number_plain index), by decide⟩
  have hrest : '=' ∉ " element(\"".toList ++ (tag ++ "\");\n".toList) := by
    simp only [List.mem_append, not_or]
    exact ⟨by decide, no_equals_of_plain htag, by decide⟩
  have hline : elementLine index tag ++ ['\n'] =
      elementStart index tag ++ '=' :: (" element(\"".toList ++ (tag ++ "\");\n".toList)) := by
    simp [elementLine]
  have hnone (after : Text) : read? ('=' :: (" element(\"".toList ++ after)) = none :=
    read?_equals (rfl : isBlankText [' '] = true) (by decide : isBlank 'e' = false) (by decide)
  rw [hline, List.append_assoc, qualifyAll_append_of_no_equals hstart, List.cons_append,
    List.append_assoc, qualifyAll_cons (hnone _), ← List.append_assoc,
    qualifyAll_append_of_no_equals hrest]
  simp

/-- A component in use is referred to anew. -/
theorem yields_qualifyAll_instanceLines {name : Text} (hname : isPlainIdentifier name = true)
    (index : Nat) :
    Yields (qualifyAll binding names) (statementLines (instanceLines index name))
      (statementLines (instanceLines index (linkedReference binding names name))) := fun back => by
  have hnumber := no_equals_of_plain (number_plain index)
  let site : Instantiation :=
    ⟨'=' :: ([' '] ++ ("new".toList ++ [' '])), name, [] ++ '(' :: ([] ++ ['{'])⟩
  have hsite : WellFormed site := .intro rfl rfl (by decide) hname rfl rfl
  have hstart :
      '=' ∉ "\tlet c".toList ++ (number index ++ ";\n\tc".toList) ++ (number index ++ [' ']) := by
    simp [hnumber]
  have hrest : '=' ∉ " props: \x7b\x7d \x7d);\n".toList := by decide
  have hline (after : Text) (reference : Text) :
      statementLines (instanceLines index reference) ++ after =
        "\tlet c".toList ++ (number index ++ ";\n\tc".toList) ++ (number index ++ [' ']) ++
          ("= new ".toList ++ reference ++ "(\x7b".toList ++
            (" props: \x7b\x7d \x7d);\n".toList ++ after)) := by
    simp [instanceLines, statementLines]
  have hsource : "= new ".toList ++ name ++ "(\x7b".toList = site.source := by
    simp [site, source]
  rw [hline, hsource, qualifyAll_append_of_no_equals hstart, qualifyAll_source hsite,
    qualifyAll_append_of_no_equals hrest, hline]
  unfold linkedReference
  change _ ++ ((if name ∈ names then _ else _) ++ _) = _
  by_cases hlinked : name ∈ names <;> simp [site, qualified, source, hlinked]

/-- The insertion of an element is no instantiation. -/
theorem no_equals_insertionLine {tag : Text} (htag : tag.all isPlainCharacter = true)
    (index : Nat) : '=' ∉ insertionLine index tag := by
  unfold insertionLine
  simp only [List.mem_append, not_or]
  exact ⟨by decide, no_equals_of_plain htag, no_equals_of_plain (number_plain index), by decide⟩

/-- The mounting of a component is no instantiation. -/
theorem no_equals_mountingLine (index : Nat) : '=' ∉ mountingLine index := by
  unfold mountingLine
  simp only [List.mem_append, not_or]
  exact ⟨by decide, no_equals_of_plain (number_plain index), by decide⟩

/-- The head of the class is no instantiation. -/
theorem no_equals_classLine (hsymbol : symbol.all isPlainCharacter = true) :
    '=' ∉ classLine symbol := by
  unfold classLine
  simp only [List.mem_append, not_or]
  exact ⟨by decide, no_equals_of_plain hsymbol, by decide⟩

/-- Qualifying changes the references to components and nothing else. -/
theorem yields_qualifyAll_declarations (hlegible : markup.IsLegible)
    (hsymbol : symbol.all isPlainCharacter = true) :
    Yields (qualifyAll binding names) (statementLines (declarations id markup symbol))
      (statementLines (declarations (linkedReference binding names) markup symbol)) := by
  have hplain {item : Text × Nat} (hitem : item ∈ markup.elements.zipIdx) :
      item.1.all isPlainCharacter = true :=
    (isPlainIdentifier_iff.mp (hlegible.elements _ (List.fst_mem_of_mem_zipIdx hitem))).2
  have helements : Yields (qualifyAll binding names)
      (statementLines (markup.elements.zipIdx.map fun item => elementLine item.2 item.1))
      (statementLines (markup.elements.zipIdx.map fun item => elementLine item.2 item.1)) := by
    rw [statementLines, List.flatMap_map]
    exact Yields.flatMap fun item hitem => yields_qualifyAll_elementLine (hplain hitem) _
  have hinstances : Yields (qualifyAll binding names)
      (statementLines (markup.components.zipIdx.flatMap fun item => instanceLines item.2 item.1))
      (statementLines (markup.components.zipIdx.flatMap fun item =>
        instanceLines item.2 (linkedReference binding names item.1))) := by
    rw [statementLines, statementLines, List.flatMap_assoc, List.flatMap_assoc]
    exact Yields.flatMap fun item hitem => yields_qualifyAll_instanceLines
      (hlegible.components _ (List.fst_mem_of_mem_zipIdx hitem)) _
  have hinsertions : ∀ line ∈ markup.elements.zipIdx.map fun item => insertionLine item.2 item.1,
      '=' ∉ line := fun line hline => by
    obtain ⟨item, hitem, rfl⟩ := List.mem_map.mp hline
    exact no_equals_insertionLine (hplain hitem) _
  have hmountings : ∀ line ∈ markup.components.zipIdx.map fun item => mountingLine item.2,
      '=' ∉ line := fun line hline => by
    obtain ⟨item, -, rfl⟩ := List.mem_map.mp hline
    exact no_equals_mountingLine _
  have hclass : ∀ line ∈ [] :: classLine symbol :: classBody, '=' ∉ line := fun line hline => by
    rcases List.mem_cons.mp hline with rfl | hline
    · exact List.not_mem_nil
    · rcases List.mem_cons.mp hline with rfl | hline
      · exact no_equals_classLine hsymbol
      · exact (by decide : ∀ line ∈ classBody, '=' ∉ line) line hline
  unfold declarations
  simp only [statementLines_append, id_eq]
  exact (yields_qualifyAll_of_no_equals (by decide)).append helements |>.append hinstances
    |>.append (yields_qualifyAll_of_no_equals (by decide))
    |>.append (yields_qualifyAll_of_no_equals hinsertions)
    |>.append (yields_qualifyAll_of_no_equals hmountings)
    |>.append (yields_qualifyAll_of_no_equals (by decide))
    |>.append (yields_qualifyAll_of_no_equals hclass)

end Qualification

end OutlineCompiler.Markup

end InlineComponents
