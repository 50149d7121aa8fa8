import InlineComponents.Proofs.Linking.Steps
import InlineComponents.Proofs.OutputContract

/-!
# The seams of a linked module

Linking puts one region in front of the parent's default export and qualifies the whole. No
instantiation reaches across a seam of the result: the edges of the region, the comments in it, the
lines of import statements and the ends of the body of an initializer. So a linked module is
qualified part by part.
-/

namespace InlineComponents

open Text Instantiation

/-- The initializer of a child: the property of the binding, a body and the symbol it returns. -/
def initializer (binding name body : Text) : Text :=
  binding ++ '.' :: name ++ " = (() => \x7b\n".toList ++ body ++ "\n\treturn ".toList ++
    OutputContract.generatedSymbol binding name ++ ";\n\x7d)();".toList

/-- The statement for the runtime names that a child still lacks, if there are any. -/
def runtimeLines (source : Text) : List ImportBinding → List Text
  | [] => []
  | missing => [ImportStatement.render ⟨source, missing⟩]

/-- The block of a child with the given import line and body. -/
def blockOf (binding name line body : Text) : Text :=
  "// ".toList ++ binding ++ '.' :: name ++ '\n' :: line ++ initializer binding name body

/-- The lines of several statements. -/
def statementLines (statements : List Text) : Text := statements.flatMap (· ++ ['\n'])

/-- A region with the given lines and blocks. -/
def regionOf (lines : Text) (blocks : List Text) : Text :=
  LinkedCode.openingComment ++ '\n' :: lines ++ joinWith "\n\n".toList blocks ++
    '\n' :: LinkedCode.closingComment ++ "\n\n".toList

/-- A wrapped child is a block with its runtime import and its trimmed body. -/
theorem childBlock_eq_blockOf (binding name body source : Text) (missing : List ImportBinding) :
    childBlock binding name body (OutputContract.generatedSymbol binding name) source missing =
      blockOf binding name (statementLines (runtimeLines source missing))
        (ChildCut.trimLineBreaks body) := by
  unfold childBlock blockOf initializer
  cases missing <;> simp only [runtimeLines, statementLines, List.flatMap_cons, List.flatMap_nil,
    List.append_assoc, List.cons_append, List.nil_append, List.append_nil]

/-- The region is made of the lines of the moved statements and the blocks. -/
theorem region_eq_regionOf (hoisted blocks : List Text) :
    LinkedCode.region hoisted blocks = regionOf (statementLines hoisted) blocks := by
  rw [LinkedCode.region, regionOf, statementLines]

variable {binding name : Text} {names : List Text}

/-! ### Lines of statements -/

/-- A text that ends like a statement: with a character that stands in no instantiation. -/
def EndsStatement (text : Text) : Prop :=
  ∃ front c, text = front ++ [c] ∧ isSeparator c = true ∧ c ≠ '='

/-- A written statement ends with a semicolon. -/
theorem endsStatement_render (statement : ImportStatement) : EndsStatement statement.render := by
  have hend (text : Text) : text ++ "\";".toList = text ++ ['"'] ++ [';'] := by
    rw [List.append_assoc]
    rfl
  have hfront : ∃ front, statement.render = front ++ [';'] := by
    unfold ImportStatement.render
    split
    · exact ⟨_, hend _⟩
    · exact ⟨_, hend _⟩
  obtain ⟨front, hfront⟩ := hfront
  exact ⟨front, ';', hfront, by decide, by decide⟩

/-- The runtime import of a child ends like a statement. -/
theorem endsStatement_runtimeLines {source : Text} {missing : List ImportBinding} :
    ∀ line ∈ runtimeLines source missing, EndsStatement line := by
  cases missing with
  | nil =>
    intro line hline
    contradiction
  | cons first rest =>
    intro line hline
    rw [List.mem_singleton.mp hline]
    exact endsStatement_render _

/-- Lines that end like statements are qualified one by one, apart from what follows them. -/
theorem qualifyAll_statementLines_append {statements : List Text}
    (h : ∀ statement ∈ statements, EndsStatement statement) (back : Text) :
    qualifyAll binding names (statementLines statements ++ back) =
      statementLines (statements.map (qualifyAll binding names)) ++
        qualifyAll binding names back := by
  induction statements with
  | nil => rfl
  | cons statement rest ih =>
    obtain ⟨front, c, rfl, hc, hne⟩ := h statement List.mem_cons_self
    have hline (back : Text) : qualifyAll binding names (front ++ [c] ++ back) =
        qualifyAll binding names front ++ c :: qualifyAll binding names back := by
      rw [List.append_assoc]
      exact qualifyAll_append_separator hc hne front back
    have halone := hline []
    rw [List.append_nil, qualifyAll_nil] at halone
    have hbreak (back : Text) : qualifyAll binding names ('\n' :: back) =
        '\n' :: qualifyAll binding names back := qualifyAll_cons (read?_cons_of_ne (by decide) back)
    have hlines (first : Text) (others : List Text) (back : Text) :
        statementLines (first :: others) ++ back =
          first ++ '\n' :: (statementLines others ++ back) := by
      simp [statementLines]
    rw [List.map_cons, hlines, hlines, hline, halone, hbreak,
      ih fun other hother => h other (List.mem_cons_of_mem _ hother)]
    simp only [List.append_assoc, List.cons_append, List.nil_append]

/-- Lines that end like statements are qualified one by one. -/
theorem qualifyAll_statementLines {statements : List Text}
    (h : ∀ statement ∈ statements, EndsStatement statement) :
    qualifyAll binding names (statementLines statements) =
      statementLines (statements.map (qualifyAll binding names)) := by
  have happ : qualifyAll binding names (statementLines statements ++ []) = _ :=
    qualifyAll_statementLines_append h []
  rwa [List.append_nil, qualifyAll_nil, List.append_nil] at happ

/-! ### Blocks -/

/-- A text of identifier characters has no equals sign. -/
theorem no_equals_of_plain {text : Text} (h : text.all isPlainCharacter = true) : '=' ∉ text :=
  fun hmem => absurd (List.all_eq_true.mp h _ hmem) (by decide)

/-- Only the body of an initializer is changed by qualifying. -/
theorem qualifyAll_initializer (hbinding : isPlainIdentifier binding = true)
    (hname : name.all isPlainCharacter = true) (body : Text) :
    qualifyAll binding names (initializer binding name body) =
      initializer binding name (qualifyAll binding names body) := by
  have hall := (isPlainIdentifier_iff.mp hbinding).2
  have hproperty : '=' ∉ binding ++ '.' :: (name ++ [' ']) := by
    simp [no_equals_of_plain hall, no_equals_of_plain hname]
  have hsymbol : '=' ∉ "\n\treturn ".toList ++
      (OutputContract.generatedSymbol binding name ++ ";\n\x7d)();".toList) := by
    simp [OutputContract.generatedSymbol, no_equals_of_plain hall, no_equals_of_plain hname]
  have hparts (text : Text) : initializer binding name text =
      (binding ++ '.' :: (name ++ [' '])) ++ ('=' :: (" (() ".toList ++ ('=' :: ("> \x7b\n".toList ++
        (text ++ ("\n\treturn ".toList ++
          (OutputContract.generatedSymbol binding name ++ ";\n\x7d)();".toList))))))) := by
    unfold initializer
    generalize OutputContract.generatedSymbol binding name = symbol
    simp
  have hclosed : Closed ("\n\treturn ".toList ++
      (OutputContract.generatedSymbol binding name ++ ";\n\x7d)();".toList)) := by
    obtain ⟨c, rest, hc, hstart⟩ := (isPlainIdentifier_iff.mp hbinding).1
    have hplain := isPlainCharacter_of_isPlainStart hstart
    have hparenthesis : c ≠ '(' := by
      rintro rfl
      contradiction
    have hword : Closed (['\n', '\t'] ++ ("return".toList ++ ([' '] ++
        c :: (rest ++ "__".toList ++ name ++ ";\n\x7d)();".toList)))) :=
      closed_of_word rfl (by simp) (by decide) (by decide) rfl (by simp)
        (isBlank_of_isPlainCharacter hplain) hparenthesis _
    rw [OutputContract.generatedSymbol, hc]
    simpa using hword
  have hspace : isBlankText [' '] = true := rfl
  have hfirst (rest : Text) : read? ('=' :: (" (() ".toList ++ rest)) = none :=
    read?_equals hspace (by decide) (by decide)
  have hsecond (rest : Text) : read? ('=' :: ("> \x7b\n".toList ++ rest)) = none :=
    read?_equals isBlankText_nil (by decide) (by decide)
  rw [hparts, hparts, qualifyAll_append_of_no_equals hproperty, qualifyAll_cons (hfirst _),
    qualifyAll_append_of_no_equals (by decide), qualifyAll_cons (hsecond _),
    qualifyAll_append_of_no_equals (by decide), qualifyAll_append hclosed,
    qualifyAll_of_no_equals hsymbol]

/-- A block is qualified in its statements and its body. -/
theorem qualifyAll_blockOf (hbinding : isPlainIdentifier binding = true)
    (hname : name.all isPlainCharacter = true) {statements : List Text}
    (hstatements : ∀ statement ∈ statements, EndsStatement statement) (body : Text) :
    qualifyAll binding names (blockOf binding name (statementLines statements) body) =
      blockOf binding name (statementLines (statements.map (qualifyAll binding names)))
        (qualifyAll binding names body) := by
  have hcomment : '=' ∉ "// ".toList ++ (binding ++ '.' :: (name ++ ['\n'])) := by
    simp [no_equals_of_plain (isPlainIdentifier_iff.mp hbinding).2, no_equals_of_plain hname]
  have hparts (line text : Text) : blockOf binding name line text =
      ("// ".toList ++ (binding ++ '.' :: (name ++ ['\n']))) ++
        (line ++ initializer binding name text) := by
    unfold blockOf
    simp only [List.append_assoc, List.cons_append, List.nil_append]
  rw [hparts, hparts, qualifyAll_append_of_no_equals hcomment,
    qualifyAll_statementLines_append hstatements, qualifyAll_initializer hbinding hname]

/-! ### The region -/

/-- A text is closed when it starts with a slash, also behind line ends. -/
theorem closed_slash {blanks : Text} (hblanks : isBlankText blanks = true) (back : Text) :
    Closed (blanks ++ '/' :: back) := closed_of_separator hblanks (by decide) back

/-- The first of several pieces is joined to the others. -/
theorem joinWith_cons (separator piece : Text) {rest : List Text} (h : rest ≠ []) :
    joinWith separator (piece :: rest) = piece ++ (separator ++ joinWith separator rest) := by
  obtain ⟨next, rest, rfl⟩ := List.exists_cons_of_ne_nil h
  exact List.append_assoc piece separator _

/-- Blocks that start with a slash make a text that does. -/
theorem exists_joinWith_eq_cons (separator : Text) {blocks : List Text} (hne : blocks ≠ [])
    (hblocks : ∀ block ∈ blocks, ∃ rest, block = '/' :: rest) :
    ∃ back, joinWith separator blocks = '/' :: back := by
  obtain ⟨block, rest, rfl⟩ := List.exists_cons_of_ne_nil hne
  obtain ⟨front, rfl⟩ := hblocks block List.mem_cons_self
  by_cases hrest : rest = []
  · subst hrest
    exact ⟨front, rfl⟩
  · exact ⟨_, joinWith_cons separator _ hrest⟩

/-- Blocks are qualified one by one. -/
theorem qualifyAll_joinWith {blocks : List Text}
    (hblocks : ∀ block ∈ blocks, ∃ rest, block = '/' :: rest) :
    qualifyAll binding names (joinWith "\n\n".toList blocks) =
      joinWith "\n\n".toList (blocks.map (qualifyAll binding names)) := by
  induction blocks with
  | nil => exact qualifyAll_nil binding names
  | cons block rest ih =>
    have hrest := ih fun other hother => hblocks other (List.mem_cons_of_mem block hother)
    by_cases hnil : rest = []
    · subst hnil
      rfl
    · obtain ⟨back, hback⟩ := exists_joinWith_eq_cons "\n\n".toList hnil
        fun other hother => hblocks other (List.mem_cons_of_mem block hother)
      rw [joinWith_cons _ _ hnil, hback, qualifyAll_append (closed_slash rfl back),
        qualifyAll_append_of_no_equals (by decide), ← hback, hrest, List.map_cons,
        joinWith_cons _ _ (by simpa using hnil)]

/-- A region is qualified in its lines and its blocks. -/
theorem qualifyAll_regionOf {hoisted blocks : List Text} (hne : blocks ≠ [])
    (hblocks : ∀ block ∈ blocks, ∃ rest, block = '/' :: rest) :
    qualifyAll binding names (regionOf (statementLines hoisted) blocks) =
      regionOf (qualifyAll binding names (statementLines hoisted))
        (blocks.map (qualifyAll binding names)) := by
  have hparts (lines : Text) (pieces : List Text) : regionOf lines pieces =
      (LinkedCode.openingComment ++ ['\n']) ++ (lines ++ (joinWith "\n\n".toList pieces ++
        (['\n'] ++ '/' :: (LinkedCode.closingComment.drop 1 ++ "\n\n".toList)))) := by
    have hclosing : LinkedCode.closingComment = '/' :: LinkedCode.closingComment.drop 1 := by decide
    rw [regionOf, hclosing]
    simp only [List.append_assoc, List.cons_append, List.nil_append, List.drop_succ_cons,
      List.drop_zero]
  have hequals : '=' ∉ ['\n'] ++ '/' :: (LinkedCode.closingComment.drop 1 ++ "\n\n".toList) := by
    decide
  have hend : Closed (['\n'] ++ '/' :: (LinkedCode.closingComment.drop 1 ++ "\n\n".toList)) :=
    closed_slash rfl _
  obtain ⟨back, hback⟩ := exists_joinWith_eq_cons "\n\n".toList hne hblocks
  have hstart (rest : Text) : Closed (joinWith "\n\n".toList blocks ++ rest) := by
    rw [hback]
    exact closed_slash isBlankText_nil (back ++ rest)
  rw [hparts, hparts, qualifyAll_append_of_no_equals (by decide), qualifyAll_append (hstart _),
    qualifyAll_append hend, qualifyAll_of_no_equals hequals, qualifyAll_joinWith hblocks]

/-- A module is qualified in two parts when the second starts a line with a default export. -/
theorem qualifyAll_append_export {front text value after : Text}
    (hline : startsLine true front = true) (h : DefaultExport.read? text = some (value, after)) :
    qualifyAll binding names (front ++ text) =
      qualifyAll binding names front ++ qualifyAll binding names text := by
  rcases startsLine_true_iff.mp hline with rfl | ⟨front, rfl⟩
  · rw [List.nil_append, qualifyAll_nil, List.nil_append]
  · obtain ⟨words, rest, tail, ⟨hindent, hgap, hne⟩, rfl, -, -⟩ :=
      DefaultExport.read?_eq_some_iff.mp h
    rename_i indent gap
    have hblank : isBlankText (['\n'] ++ indent) = true :=
      isBlankText_append.mpr ⟨rfl, (isBlankText_of_spaces hindent).1⟩
    have hclosed : Closed (['\n'] ++ indent ++
        ("export".toList ++ (gap ++ 'd' :: ("efault".toList ++ rest)))) :=
      closed_of_word hblank (by simp) (by decide) (by decide) hgap hne (by decide) (by decide) _
    have hbreak : '=' ∉ ['\n'] := by decide
    have hbreakClosed : Closed ['\n'] := closed_of_isBlankText rfl
    have htext : ['\n'] ++ (indent ++ ("export".toList ++ (gap ++ "default".toList)) ++ rest) =
        ['\n'] ++ indent ++ ("export".toList ++ (gap ++ 'd' :: ("efault".toList ++ rest))) := by
      simp
    rw [List.append_assoc, htext, qualifyAll_append hclosed, ← htext,
      qualifyAll_append_of_no_equals hbreak, qualifyAll_append hbreakClosed,
      qualifyAll_of_no_equals hbreak]
    simp only [List.append_assoc]

/-- A region ends with a slash and two line ends. -/
theorem exists_regionOf_eq (lines : Text) (blocks : List Text) :
    ∃ front, regionOf lines blocks = front ++ ['/', '\n', '\n'] := by
  have hclosing : LinkedCode.closingComment = LinkedCode.closingComment.dropLast ++ ['/'] := by
    decide
  refine ⟨LinkedCode.openingComment ++ '\n' :: lines ++ joinWith "\n\n".toList blocks ++
    '\n' :: LinkedCode.closingComment.dropLast, ?_⟩
  rw [regionOf, hclosing]
  simp only [List.append_assoc, List.cons_append, List.dropLast_concat]
  rfl

/-- Every block of a run starts with the slash of its comment. -/
theorem exists_cons_of_wrapChildren {contract : OutputContract} {parentCode : Text}
    {state final : LinkState} {children : List ChildCode} {blocks : List Text}
    (h : wrapChildren contract binding parentCode state children = .ok (blocks, final)) :
    ∀ block ∈ blocks, ∃ rest, block = '/' :: rest := by
  induction children generalizing state blocks with
  | nil =>
    obtain ⟨rfl, -⟩ := wrapChildren_nil_eq_ok_iff.mp h
    intro block hblock
    contradiction
  | cons child rest ih =>
    obtain ⟨block, next, others, hblock, hothers, rfl⟩ := wrapChildren_cons_eq_ok_iff.mp h
    obtain ⟨cut, hoisted, missing, scope, -, -, -, rfl, -⟩ := wrapChild_eq_ok_iff.mp hblock
    exact List.forall_mem_cons.mpr ⟨⟨_, rfl⟩, ih hothers⟩

/-- The characters of a child's name stand in the symbol that the child exports. -/
theorem isPlain_name_of_ofCode {contract : OutputContract} {code : Text} {cut : ChildCut}
    (h : ChildCut.ofCode contract (OutputContract.generatedSymbol binding name) code = .ok cut) :
    name.all isPlainCharacter = true := by
  obtain ⟨runtime, exported, -, hexported, -, -, -, hsymbol, -⟩ := ChildCut.ofCode_eq_ok_iff.mp h
  obtain ⟨-, -, -, -, -, -, hident⟩ := DefaultExport.defaultExport_eq_ok hexported
  rw [hsymbol, OutputContract.generatedSymbol] at hident
  have hall := (isPlainIdentifier_iff.mp hident).2
  rw [List.all_append, Bool.and_eq_true] at hall
  exact hall.2

/-- The names of the children, as instantiations write them. -/
def childNames (children : List ChildModule) : List Text := children.map (·.name.toList)

/-- A linked module is put together from the qualified parts of its parent and a region whose lines
and blocks are qualified one by one. -/
theorem exists_parts_of_splice {accepts : Text → Bool} {contract : OutputContract}
    {parent out : CompiledModule} {children : List ChildModule} (hne : children ≠ [])
    (h : CompiledModule.splice accepts contract parent children = .ok out) :
    ∃ runtime exported blocks final, contract.runtimeImport parent.code.toList = .ok runtime ∧
      OutputContract.defaultExport parent.code.toList = .ok exported ∧
      wrapChildren contract exported.binding parent.code.toList
        ⟨LinkedCode.parentScope runtime parent.code.toList, []⟩
        (children.map fun child => ⟨child.name.toList, child.module.code.toList⟩) =
          .ok (blocks, final) ∧
      out = { parent with code := out.code } ∧
      out.code.toList =
        qualifyAll exported.binding (childNames children) exported.place.before ++
          regionOf (qualifyAll exported.binding (childNames children)
            (statementLines final.hoisted))
            (blocks.map (qualifyAll exported.binding (childNames children))) ++
          qualifyAll exported.binding (childNames children)
            (exported.place.text ++ exported.place.after) := by
  obtain ⟨linked, hlink, -, rfl⟩ := (CompiledModule.splice_eq_ok_iff hne).mp h
  obtain ⟨runtime, exported, blocks, final, hruntime, hexported, -, hwrap, rfl⟩ :=
    LinkedCode.link_eq_ok_iff.mp hlink
  refine ⟨runtime, exported, blocks, final, hruntime, hexported, hwrap, rfl, ?_⟩
  obtain ⟨-, -, -, hread, -, -, -⟩ := DefaultExport.defaultExport_eq_ok hexported
  have hblocks : blocks ≠ [] := by
    rintro rfl
    exact hne (by simpa using (wrapChildren_length hwrap).symm)
  have hstart : Closed (regionOf (statementLines final.hoisted) blocks) :=
    closed_slash isBlankText_nil _
  have hend : startsLine true (exported.place.before ++
      regionOf (statementLines final.hoisted) blocks) = true := by
    obtain ⟨front, hfront⟩ := exists_regionOf_eq (statementLines final.hoisted) blocks
    rw [hfront, ← List.append_assoc, startsLine_append_of_ne_nil _ _ (List.cons_ne_nil _ _)]
    rfl
  rw [String.toList_ofList, LinkedCode.merged, region_eq_regionOf,
    qualifyAll_append_export hend hread, qualifyAll_append hstart,
    qualifyAll_regionOf hblocks (exists_cons_of_wrapChildren hwrap)]
  rfl

end InlineComponents
