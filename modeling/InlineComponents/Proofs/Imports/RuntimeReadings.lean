import InlineComponents.Proofs.Imports.Recognition
import InlineComponents.Proofs.Linking.Steps

/-!
# The two readings of a runtime import

The runtime import of a module is located by a reader that takes everything up to the closing brace
for its list of names, and the text that was found is read once more as a statement. The two
readings agree exactly when the list holds neither a quote nor a semicolon and the first and the
last ` as ` of its specifiers name the same locals. A semicolon makes the text unreadable; behind a
quote the list itself is taken for the source, so that nothing is bound. The linker replaces what
cannot be read by an import of the local names under their own names.
-/

namespace InlineComponents

open Text

namespace ImportStatement

variable {text value after names : Text}

/-- A list between braces is clear when it holds neither a quote nor a semicolon. -/
def IsClear (list : Text) : Prop := ∀ c ∈ list, isQuote c = false ∧ c ≠ ';'

/-- The text of a named import that was found, without what stands behind it. -/
theorem IsNamedImport.exists_text {value : NamedImport}
    (h : IsNamedImport (text ++ after) value after) :
    ∃ spaces blanks gap space opening closing tail, isBlankText spaces = true ∧
      isBlankText blanks = true ∧ '}' ∉ value.names ∧ isBlankText gap = true ∧
      isBlankText space = true ∧ isQuote opening = true ∧ isQuote closing = true ∧
      IsSource value.source ∧
      text = spaces ++ ("import".toList ++ (blanks ++ '\x7b' :: (value.names ++ '\x7d' ::
        (gap ++ ("from".toList ++ (space ++ opening :: (value.source ++ closing :: tail))))))) := by
  generalize htext : text ++ after = whole at h
  obtain ⟨hspaces, hblanks, hnames, hgap, hspace, hopening, hclosing, hne, hsource⟩ := h
  rename_i spaces blanks names gap space source behind opening closing
  obtain ⟨tail, htail⟩ : dropOptional ';' (skipSpaces behind) <:+ behind :=
    (dropOptional_suffix _ _).trans (List.dropWhile_suffix _)
  refine ⟨spaces, blanks, gap, space, opening, closing, tail, (isBlankText_of_spaces hspaces).1,
    hblanks, hnames, hgap, hspace, hopening, hclosing, ⟨hne, hsource⟩, ?_⟩
  refine List.append_cancel_right (htext.trans ?_)
  simp only [List.append_assoc, List.cons_append, htail]

/-- A statement whose list holds no quote is read as its specifiers, unless the list holds a
semicolon. -/
theorem parse?_braced {spaces blanks gap space source tail : Text} {opening closing : Char}
    (hspaces : isBlankText spaces = true) (hblanks : isBlankText blanks = true)
    (hgap : isBlankText gap = true) (hspace : isBlankText space = true)
    (hopening : isQuote opening = true) (hclosing : isQuote closing = true)
    (hsource : IsSource source) (hquotes : ∀ c ∈ names, isQuote c = false) :
    parse? (spaces ++ ("import".toList ++ (blanks ++ '\x7b' :: (names ++ '\x7d' ::
      (gap ++ ("from".toList ++ (space ++ opening :: (source ++ closing :: tail)))))))) =
        if ';' ∈ names then none else some ⟨source, (specifiers names).map readSpecifier⟩ := by
  obtain ⟨head, hhead⟩ :
      ∃ head, head = blanks ++ '{' :: (names ++ '}' :: (gap ++ ("from".toList ++ space))) := ⟨_, rfl⟩
  have hquoted : IsQuoted (head ++ opening :: (source ++ closing :: tail)) head source tail := by
    refine .intro hopening hclosing (fun c hc => ?_) hsource.ne_nil hsource.quotes
    simp only [hhead, List.mem_append, List.mem_cons] at hc
    rcases hc with hc | rfl | hc | rfl | hc | hc | hc
    · exact isQuote_eq_false_of_isBlankText hblanks c hc
    · decide
    · exact hquotes c hc
    · decide
    · exact isQuote_eq_false_of_isBlankText hgap c hc
    · exact eq_false_of_any (by decide : List.any "from".toList isQuote = false) c hc
    · exact isQuote_eq_false_of_isBlankText hspace c hc
  have hblank : isBlankText head = false := by
    refine Bool.eq_false_iff.mpr fun hblank => ?_
    exact not_mem_of_isBlankText (by decide : isBlank '{' = false) hblank (by simp [hhead])
  have hfrom : beforeFrom? head = some (blanks ++ ('{' :: (names ++ ['}']) ++ gap)) :=
    beforeFrom?_eq_some_iff.mpr ⟨space, hspace, by simp [hhead]⟩
  have hsemicolon : ';' ∈ blanks ++ ('{' :: (names ++ ['}']) ++ gap) ↔ ';' ∈ names := by
    have hnone : isBlank ';' = false := by decide
    simp [not_mem_of_isBlankText hnone hblanks, not_mem_of_isBlankText hnone hgap]
  have htight : Tight ('{' :: (names ++ ['}'])) := by
    have hopen : Tight ['{'] := tight_of_forall (eq_false_of_any (by decide))
    have hclose : Tight ['}'] := tight_of_forall (eq_false_of_any (by decide))
    exact hopen.append hclose (List.cons_ne_nil _ _) (List.cons_ne_nil _ _)
  have hclause : readClause (trim (blanks ++ ('{' :: (names ++ ['}']) ++ gap))) =
      (specifiers names).map readSpecifier := by
    rw [trim_stretch hblanks htight (List.cons_ne_nil _ _) hgap]
    exact readBraces_concat names
  have hread := parse?_of_isQuoted hspaces hquoted
  rw [hblank, hfrom] at hread
  simp only [Bool.false_eq_true, ↓reduceIte, hsemicolon, hclause] at hread
  rw [← hread, hhead]
  simp only [List.append_assoc, List.cons_append]

/-- A list that is not closed in front of the word `from` binds nothing. -/
theorem readClause_unclosed {blanks front : Text} (hblanks : isBlankText blanks = true)
    (hfront : '}' ∉ front) : readClause (trim (blanks ++ '{' :: front)) = [] := by
  by_contra hne
  obtain ⟨before, c, rest, hsplit, hbefore, hc, hbraces⟩ := readClause_trim_ne_nil_iff.mp hne
  have hskip : skipBlanks (blanks ++ '{' :: front) = '{' :: front :=
    skipBlanks_stretch hblanks (stops_cons.mpr (by decide))
  rw [hsplit, skipBlanks_stretch hbefore (stops_cons.mpr hc)] at hskip
  obtain ⟨rfl, rfl⟩ := List.cons.inj hskip
  obtain ⟨inner, behind, rfl, -, -⟩ := hbraces rfl
  exact hfront (by simp)

/-- A clause that starts with a brace keeps it when the word `from` is taken off its end. -/
theorem exists_of_beforeFrom?_brace {blanks front clause : Text}
    (h : beforeFrom? (blanks ++ '{' :: front) = some clause) :
    ∃ inner, clause = blanks ++ '{' :: inner ∧ inner <+: front := by
  obtain ⟨behind, hbehind, hhead⟩ := beforeFrom?_eq_some_iff.mp h
  have hbrace : '{' ∉ "from".toList ++ behind := by
    simp [not_mem_of_isBlankText (by decide : isBlank '{' = false) hbehind]
  rcases append_cut hhead with ⟨inner, hne, rfl, hcut⟩ | ⟨left, -, hleft⟩
  · obtain ⟨d, inner, rfl⟩ := List.exists_cons_of_ne_nil hne
    obtain ⟨rfl, rfl⟩ := List.cons.inj hcut
    exact ⟨inner, rfl, List.prefix_append _ _⟩
  · exact absurd (by rw [hleft]; simp) hbrace

/-- A statement with a quote in its list binds nothing when it is read. -/
theorem bindings_eq_nil_of_quote {spaces blanks rest : Text} {statement : ImportStatement}
    (hspaces : isBlankText spaces = true) (hblanks : isBlankText blanks = true)
    (hnames : '}' ∉ names) (hquote : ∃ c ∈ names, isQuote c = true)
    (h : parse? (spaces ++ ("import".toList ++ (blanks ++ '{' :: (names ++ rest)))) =
      some statement) : statement.bindings = [] := by
  obtain ⟨source, bindings⟩ := statement
  obtain ⟨blanks', rest', head, after, hblanks', htext, hquoted, hbinds⟩ := parse?_eq_some_iff.mp h
  have hword (tail : Text) : Stops isBlank ("import".toList ++ tail) :=
    stops_cons.mpr (by decide)
  have hrest := congrArg skipBlanks htext
  rw [skipBlanks_stretch hspaces (hword _), skipBlanks_stretch hblanks' (hword _)] at hrest
  obtain rfl := List.append_cancel_left hrest
  -- The head ends in front of the first quote of the list.
  obtain ⟨front, back, rfl, hfront, hback⟩ := exists_stretch (fun c => !isQuote c) names
  obtain ⟨q, back, rfl⟩ : ∃ q tail, back = q :: tail := by
    refine List.exists_cons_of_ne_nil ?_
    rintro rfl
    obtain ⟨c, hc, hcquote⟩ := hquote
    rw [List.append_nil] at hc
    have := List.all_eq_true.mp hfront c hc
    rw [hcquote] at this
    contradiction
  have hall : (blanks ++ '{' :: front).all (fun c => !isQuote c) = true := by
    have hopen : (!isQuote '{') = true := by decide
    have hnone := all_not_quote (isQuote_eq_false_of_isBlankText hblanks)
    rw [List.all_append, List.all_cons, hnone, hopen, hfront]
    rfl
  have hhead := (isQuoted_iff.mp hquoted).1
  have hassoc : blanks ++ '{' :: (front ++ q :: back ++ rest) =
      blanks ++ '{' :: front ++ q :: (back ++ rest) := by simp
  rw [hassoc, takeWhile_stretch hall (stops_cons.mpr (stops_cons.mp hback))] at hhead
  subst hhead
  cases hbinds with
  | blank _ => rfl
  | clause _ hfrom _ =>
    obtain ⟨inner, rfl, hinner⟩ := exists_of_beforeFrom?_brace hfrom
    refine readClause_unclosed hblanks fun hmem => hnames ?_
    exact List.mem_append_left _ (hinner.subset hmem)

end ImportStatement

namespace RuntimeImport

open ImportStatement

variable {contract : OutputContract} {code : Text} {found : RuntimeImport}

/-- Whether the text of a runtime import is read as an import from the runtime module with the local
names that were found, each once. -/
def Agrees (contract : OutputContract) (found : RuntimeImport) : Prop :=
  ∃ statement, parse? found.place.text = some statement ∧
    statement.source = contract.runtimeModule.toList ∧
    (statement.bindings.map ImportBinding.localName).eraseDups = found.identifiers

/-- Without quotes in its list a runtime import is read as its specifiers, unless the list holds a
semicolon. -/
theorem parse?_of_unquoted (h : contract.runtimeImport code = .ok found)
    (hquotes : ∀ c ∈ found.place.value.names, isQuote c = false) :
    parse? found.place.text = if ';' ∈ found.place.value.names then none else
      some ⟨contract.runtimeModule.toList,
        (specifiers found.place.value.names).map readSpecifier⟩ := by
  have hmem := (runtimeImport_eq_ok_iff.mp h).1 ▸ List.mem_singleton_self found.place
  obtain ⟨hmodule, hnamed, -⟩ := exists_of_mem_runtimeImports hmem
  obtain ⟨spaces, blanks, gap, space, opening, closing, tail, hspaces, hblanks, -, hgap, hspace,
    hopening, hclosing, hsource, htext⟩ := hnamed.exists_text
  rw [htext, parse?_braced hspaces hblanks hgap hspace hopening hclosing hsource hquotes, hmodule]

/-- With a quote in its list a runtime import binds nothing when it is read, though local names were
found. -/
theorem bindings_eq_nil (h : contract.runtimeImport code = .ok found)
    (hquote : ∃ c ∈ found.place.value.names, isQuote c = true) :
    found.identifiers ≠ [] ∧
      ∀ statement, parse? found.place.text = some statement → statement.bindings = [] := by
  obtain ⟨hplaces, hnames⟩ := runtimeImport_eq_ok_iff.mp h
  have hmem := hplaces ▸ List.mem_singleton_self found.place
  constructor
  · obtain ⟨c, hc, hcquote⟩ := hquote
    have hcomma : c ≠ ',' := by
      rintro rfl
      contradiction
    obtain ⟨specifier, hspecifier⟩ := List.exists_mem_of_ne_nil _
      (specifiers_ne_nil_iff.mpr ⟨c, hc, isBlank_of_isQuote hcquote, hcomma⟩)
    rw [hnames, localNames_eq]
    exact List.ne_nil_of_mem (List.mem_eraseDups.mpr (List.mem_map_of_mem hspecifier))
  · intro statement hread
    obtain ⟨-, hnamed, -⟩ := exists_of_mem_runtimeImports hmem
    obtain ⟨spaces, blanks, gap, space, opening, closing, tail, hspaces, hblanks, hbrace, -, -, -, -,
      -, htext⟩ := hnamed.exists_text
    rw [htext] at hread
    exact bindings_eq_nil_of_quote hspaces hblanks hbrace hquote hread

/-- The two readings agree exactly when the list is clear and the first ` as ` of its specifiers
names the same locals as the last. -/
theorem agrees_iff (h : contract.runtimeImport code = .ok found) :
    found.Agrees contract ↔ IsClear found.place.value.names ∧
      ((specifiers found.place.value.names).map fun specifier =>
        (readSpecifier specifier).localName).eraseDups = found.identifiers := by
  constructor
  · rintro ⟨statement, hread, -, hlocals⟩
    have hquotes : ∀ c ∈ found.place.value.names, isQuote c = false := by
      by_contra hquote
      simp only [Classical.not_forall, Bool.not_eq_false, exists_prop] at hquote
      obtain ⟨hne, hnone⟩ := bindings_eq_nil h hquote
      rw [hnone statement hread] at hlocals
      exact hne hlocals.symm
    rw [parse?_of_unquoted h hquotes] at hread
    split at hread
    · contradiction
    · rename_i hsemicolon
      obtain rfl := Option.some.inj hread
      rw [List.map_map] at hlocals
      exact ⟨fun c hc => ⟨hquotes c hc, fun heq => hsemicolon (heq ▸ hc)⟩, hlocals⟩
  · rintro ⟨hclear, hlocals⟩
    have hsemicolon : ';' ∉ found.place.value.names := fun hmem => (hclear _ hmem).2 rfl
    refine ⟨_, (parse?_of_unquoted h fun c hc => (hclear c hc).1).trans (if_neg hsemicolon), rfl, ?_⟩
    rw [List.map_map]
    exact hlocals

/-- A specifier with at most one ` as ` names one local name, wherever it is split. -/
theorem localName_readSpecifier {specifier : Text}
    (h : splitFirst aliasWord specifier = splitLast aliasWord specifier) :
    (readSpecifier specifier).localName = lastLocalName specifier := by
  unfold readSpecifier lastLocalName
  rw [h]
  cases splitLast aliasWord specifier with
  | none => rfl
  | some cut => rfl

/-- How a runtime import that was found is read again. -/
structure ReadAgain (contract : OutputContract) (code : Text) (found : RuntimeImport) : Prop where
  /-- The readings agree exactly when the list holds neither a quote nor a semicolon, and the first
  ` as ` of its specifiers names the same locals as the last. -/
  agrees_iff : found.Agrees contract ↔ IsClear found.place.value.names ∧
    ((specifiers found.place.value.names).map fun specifier =>
      (readSpecifier specifier).localName).eraseDups = found.identifiers
  /-- They agree when the list is clear and each specifier has at most one ` as `. -/
  agrees_of_single : IsClear found.place.value.names →
    (∀ specifier ∈ specifiers found.place.value.names,
      splitFirst aliasWord specifier = splitLast aliasWord specifier) → found.Agrees contract
  /-- With a quote in the list names are found, but none is read. -/
  quoted : (∃ c ∈ found.place.value.names, isQuote c = true) → found.identifiers ≠ [] ∧
    ∀ statement, parse? found.place.text = some statement → statement.bindings = []
  /-- The linker takes the runtime statement of a child as it is read. Only when a quote or a
  semicolon stands in the list it can fail to, and then it imports the local names under their own
  names. -/
  child : ∀ symbol cut, ChildCut.ofCode contract symbol code = .ok cut →
    parse? found.place.text = some (cut.runtimeStatement contract) ∨
      (parse? found.place.text = none ∧ ¬ IsClear found.place.value.names ∧
        cut.runtimeStatement contract = ⟨contract.runtimeModule.toList,
          found.identifiers.map fun name => ⟨name, name⟩⟩)

/-- Every runtime import that is found is read again, up to quotes, semicolons and repeated words
` as ` between its braces. -/
theorem readAgain (h : contract.runtimeImport code = .ok found) :
    found.ReadAgain contract code where
  agrees_iff := agrees_iff h
  agrees_of_single hclear hsingle := by
    refine (agrees_iff h).mpr ⟨hclear, ?_⟩
    rw [(runtimeImport_eq_ok_iff.mp h).2, localNames_eq]
    exact congrArg List.eraseDups
      (List.map_congr_left fun specifier hmem => localName_readSpecifier (hsingle specifier hmem))
  quoted := bindings_eq_nil h
  child symbol cut hcut := by
    obtain ⟨htext, hidentifiers⟩ : cut.runtimeText = found.place.text ∧
        cut.identifiers = found.identifiers := by
      obtain ⟨runtime, exported, hruntime, -, -, htext, hidentifiers, -⟩ :=
        ChildCut.ofCode_eq_ok_iff.mp hcut
      obtain rfl := Except.ok.inj (hruntime.symm.trans h)
      exact ⟨htext, hidentifiers⟩
    rw [ChildCut.runtimeStatement, htext, hidentifiers]
    cases hread : parse? found.place.text with
    | some statement => exact Or.inl rfl
    | none =>
      refine Or.inr ⟨rfl, fun hclear => ?_, rfl⟩
      have hsemicolon : ';' ∉ found.place.value.names := fun hmem => (hclear _ hmem).2 rfl
      rw [parse?_of_unquoted h fun c hc => (hclear c hc).1, if_neg hsemicolon] at hread
      contradiction

/-- An import of an export whose name is a string is found, but it cannot be read. -/
theorem readAgain_string_export :
    let contract : OutputContract := {}
    let code := "import \x7b \"a-b\" as c \x7d from 'svelte/internal';".toList
    ∃ found, contract.runtimeImport code = .ok found ∧ found.identifiers = ["c".toList] ∧
      parse? found.place.text = none ∧ ¬ found.Agrees contract := by
  intro contract code
  have hseen : (contract.runtimeImport code).toOption.map
      (fun found => (found.identifiers, found.place.text, found.place.value.names)) =
        some (["c".toList], code, " \"a-b\" as c ".toList) := by decide +kernel
  obtain ⟨found, hfound, hvalue⟩ := exists_of_map_toOption hseen
  obtain ⟨hidentifiers, hrest⟩ := Prod.mk.inj hvalue
  obtain ⟨htext, hnames⟩ := Prod.mk.inj hrest
  refine ⟨found, hfound, hidentifiers, by rw [htext]; decide +kernel, fun hagrees => ?_⟩
  have hclear := ((readAgain hfound).agrees_iff.mp hagrees).1
  rw [hnames] at hclear
  exact absurd (hclear '"' (by decide)).1 (by decide)

end RuntimeImport

end InlineComponents
