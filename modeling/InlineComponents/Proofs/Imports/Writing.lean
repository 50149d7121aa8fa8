import InlineComponents.Proofs.Imports.Reading

/-!
# Reading a written import statement

A written statement has a clause of at most three parts. When no name of the statement holds a blank
or a character of the import syntax, reading finds the parts again: the last default name, then the
last namespace or all bindings between braces. What was written for the other default names and
namespaces is nowhere in the text.
-/

namespace InlineComponents

open Text

/-- A character that may stand in a name: no blank, and none that import statements are built of. -/
def isNameCharacter (c : Char) : Bool :=
  !isBlank c && !([',', '{', '}', '*', '"', '\'', ';', '='].contains c)

/-- A text that may stand for a name in an import statement. -/
structure IsName (text : Text) : Prop where
  ne_nil : text ≠ []
  characters : ∀ c ∈ text, isNameCharacter c = true

/-- A binding whose names can be written: the exported one may also be the namespace. -/
structure ImportBinding.IsPlain (binding : ImportBinding) : Prop where
  localName : IsName binding.localName
  imported : binding.imported = ImportStatement.namespaceName ∨ IsName binding.imported

namespace IsName

variable {name : Text}

/-- A name holds none of the characters that are kept out of names. -/
theorem not_mem (h : IsName name) {c : Char} (hc : isNameCharacter c = false) : c ∉ name := by
  intro hmem
  rw [h.characters c hmem] at hc
  contradiction

/-- A name holds no blank. -/
theorem isBlank_eq_false (h : IsName name) {c : Char} (hc : c ∈ name) : isBlank c = false := by
  have hname := h.characters c hc
  rw [isNameCharacter, Bool.and_eq_true, Bool.not_eq_true'] at hname
  exact hname.1

/-- A name is tight. -/
theorem tight (h : IsName name) : Tight name := tight_of_forall fun _ => h.isBlank_eq_false

/-- A name starts with a character of names. -/
theorem exists_cons (h : IsName name) :
    ∃ c rest, name = c :: rest ∧ isNameCharacter c = true := by
  obtain ⟨c, rest, rfl⟩ := List.exists_cons_of_ne_nil h.ne_nil
  exact ⟨c, rest, rfl, h.characters c List.mem_cons_self⟩

end IsName

/-- An identifier is a name. -/
theorem isName_of_plain {text : Text} (h : isPlainIdentifier text = true) : IsName text where
  ne_nil := ne_nil_of_isPlainIdentifier h
  characters c hc := by
    have hplain := List.all_eq_true.mp (isPlainIdentifier_iff.mp h).2 c hc
    rw [isNameCharacter, isBlank_of_isPlainCharacter hplain, Bool.not_false, Bool.true_and,
      Bool.not_eq_true']
    refine Bool.eq_false_iff.mpr fun hmem => ?_
    have hnone : [',', '{', '}', '*', '"', '\'', ';', '='].any isPlainCharacter = false := by decide
    rw [eq_false_of_any hnone c (List.contains_iff_mem.mp hmem)] at hplain
    contradiction

namespace ImportStatement

/-! ### Texts that can be written as a clause -/

/-- A character that stands in no written clause. -/
def isForeign (c : Char) : Bool := ['"', '\'', ';', '='].contains c

/-- A text that can be written as a clause. -/
structure IsClause (clause : Text) : Prop where
  ne_nil : clause ≠ []
  tight : Tight clause
  clean : ∀ c ∈ clause, isForeign c = false

/-- A name is a clause. -/
theorem isClause_of_isName {name : Text} (h : IsName name) : IsClause name := by
  refine ⟨h.ne_nil, h.tight, fun c hc => ?_⟩
  have hname := h.characters c hc
  unfold isNameCharacter at hname
  unfold isForeign
  simp_all

/-- Two clauses make one, with a clean text between them. -/
theorem IsClause.append {front middle back : Text} (hfront : IsClause front)
    (hmiddle : ∀ c ∈ middle, isForeign c = false) (hback : IsClause back) :
    IsClause (front ++ (middle ++ back)) := by
  refine ⟨by simp [hfront.ne_nil], hfront.tight.append hback.tight hfront.ne_nil hback.ne_nil, ?_⟩
  intro c hc
  rw [List.mem_append, List.mem_append] at hc
  rcases hc with hc | hc | hc
  · exact hfront.clean c hc
  · exact hmiddle c hc
  · exact hback.clean c hc

/-- A character of joined pieces stands in a piece or in the separator. -/
theorem mem_joinWith {separator : Text} {pieces : List Text} {c : Char}
    (h : c ∈ joinWith separator pieces) : c ∈ separator ∨ ∃ piece ∈ pieces, c ∈ piece := by
  induction pieces with
  | nil => contradiction
  | cons piece rest ih =>
    cases rest with
    | nil => exact Or.inr ⟨piece, List.mem_cons_self, h⟩
    | cons next rest =>
      rw [joinWith, List.mem_append, List.mem_append] at h
      rcases h with (h | h) | h
      · exact Or.inr ⟨piece, List.mem_cons_self, h⟩
      · exact Or.inl h
      · refine (ih h).imp_right ?_
        rintro ⟨other, hother, hc⟩
        exact ⟨other, List.mem_cons_of_mem piece hother, hc⟩

/-! ### The clause between the first word and the source -/

/-- A statement without a clause binds nothing. -/
theorem parse?_of_no_clause {source : Text} (hne : source ≠ [])
    (hquotes : ∀ c ∈ source, isQuote c = false) :
    parse? ("import \"".toList ++ source ++ "\";".toList) = some ⟨source, []⟩ := by
  have hquoted : IsQuoted ([' '] ++ '"' :: (source ++ '"' :: [';'])) [' '] source [';'] :=
    .intro (by decide) (by decide) (eq_false_of_any (by decide)) hne hquotes
  refine parse?_eq_some_iff.mpr ⟨[], _, [' '], [';'], rfl, ?_, hquoted, .blank rfl⟩
  rw [List.append_assoc]
  rfl

/-- A clause that is tight and holds neither quotes nor semicolons is read between the first word
and the source. -/
theorem parse?_of_clause {clause source : Text} (hclause : clause ≠ []) (htight : Tight clause)
    (hclauseQuotes : ∀ c ∈ clause, isQuote c = false) (hsemicolon : ';' ∉ clause)
    (hne : source ≠ []) (hquotes : ∀ c ∈ source, isQuote c = false) :
    parse? ("import ".toList ++ clause ++ " from \"".toList ++ source ++ "\";".toList) =
      some ⟨source, readClause clause⟩ := by
  have hhead : ∀ c ∈ ' ' :: (clause ++ " from ".toList), isQuote c = false := by
    intro c hc
    rw [List.mem_cons, List.mem_append] at hc
    rcases hc with rfl | hc | hc
    · decide
    · exact hclauseQuotes c hc
    · exact eq_false_of_any (by decide : List.any " from ".toList isQuote = false) c hc
  have hblank : isBlankText (' ' :: (clause ++ " from ".toList)) = false := by
    obtain ⟨c, rest, rfl⟩ := List.exists_cons_of_ne_nil hclause
    have hc : isBlank c = false := stops_cons.mp htight.first
    rw [isBlankText, List.all_cons, List.cons_append, List.all_cons, hc, Bool.false_and,
      Bool.and_false]
  have hbefore : beforeFrom? (' ' :: (clause ++ " from ".toList)) =
      some (' ' :: (clause ++ [' '])) := by
    refine beforeFrom?_eq_some_iff.mpr ⟨[' '], rfl, ?_⟩
    rw [List.cons_append, List.append_assoc]
    rfl
  have hclean : ';' ∉ ' ' :: (clause ++ [' ']) := by simp [hsemicolon]
  have htrim : trim (' ' :: (clause ++ [' '])) = clause :=
    trim_stretch isBlankText_space htight hclause isBlankText_space
  have hbinds := HeadBinds.clause hblank hbefore hclean
  rw [htrim] at hbinds
  have hquoted : IsQuoted (' ' :: (clause ++ " from ".toList) ++ '"' :: (source ++ '"' :: [';']))
      (' ' :: (clause ++ " from ".toList)) source [';'] :=
    .intro (by decide) (by decide) hhead hne hquotes
  refine parse?_eq_some_iff.mpr ⟨[], _, _, [';'], rfl, ?_, hquoted, hbinds⟩
  have hfirst : "import ".toList = "import".toList ++ [' '] := rfl
  have hfrom : " from \"".toList = " from ".toList ++ ['"'] := rfl
  have hlast : "\";".toList = ['"', ';'] := rfl
  rw [hfirst, hfrom, hlast]
  simp only [List.append_assoc, List.cons_append, List.nil_append]

/-! ### The parts of a clause -/

/-- A namespace is read back. -/
theorem readNamed_namespace {name : Text} (hne : name ≠ []) (htight : Tight name) :
    readNamed ("* as ".toList ++ name) = [⟨namespaceName, name⟩] := by
  have has : Tight "as".toList := tight_of_forall (eq_false_of_any (by decide))
  have htext : Tight ("as".toList ++ ([' '] ++ name)) := has.append htight (by decide) hne
  have htrim : trim ([' '] ++ ("as".toList ++ ([' '] ++ name) ++ [])) =
      "as".toList ++ ([' '] ++ name) :=
    trim_stretch isBlankText_space htext (by simp) isBlankText_nil
  have hname : trim ([' '] ++ (name ++ [])) = name :=
    trim_stretch isBlankText_space htight hne isBlankText_nil
  rw [List.append_nil] at htrim hname
  change readNamespace ([' '] ++ ("as".toList ++ ([' '] ++ name))) = _
  unfold readNamespace
  rw [htrim]
  simp only [dropWord?_append, Option.getD_some, hname]

/-- One specifier is read back. -/
theorem readSpecifier_writeSpecifier {binding : ImportBinding} (hlocal : IsName binding.localName)
    (himported : IsName binding.imported) :
    readSpecifier (writeSpecifier binding) = binding := by
  obtain ⟨imported, localName⟩ := binding
  have hspace : ' ' ∉ imported := himported.not_mem (by decide)
  unfold writeSpecifier readSpecifier
  by_cases heq : imported = localName
  · subst heq
    have hnone : splitFirst aliasWord imported = none := splitFirst_of_not_mem hspace
    simp only [↓reduceIte, hnone]
  · have hsome : splitFirst aliasWord (imported ++ (aliasWord ++ localName)) =
        some (imported, localName) := splitFirst_append hspace localName
    rw [← List.append_assoc] at hsome
    simp only [heq, ↓reduceIte, hsome, trim_of_tight himported.tight, trim_of_tight hlocal.tight]

/-- A specifier is a clause. -/
theorem isClause_writeSpecifier {binding : ImportBinding} (hlocal : IsName binding.localName)
    (himported : IsName binding.imported) : IsClause (writeSpecifier binding) := by
  unfold writeSpecifier
  split
  · exact isClause_of_isName hlocal
  · rw [List.append_assoc]
    exact (isClause_of_isName himported).append (eq_false_of_any (by decide))
      (isClause_of_isName hlocal)

/-- A specifier holds no comma. -/
theorem comma_not_mem_writeSpecifier {binding : ImportBinding} (hlocal : IsName binding.localName)
    (himported : IsName binding.imported) : ',' ∉ writeSpecifier binding := by
  have hlocal' : ',' ∉ binding.localName := hlocal.not_mem (by decide)
  have himported' : ',' ∉ binding.imported := himported.not_mem (by decide)
  have hword : ',' ∉ aliasWord := by decide
  unfold writeSpecifier
  split
  · exact hlocal'
  · simp [hlocal', himported', hword]

/-- Pieces that were joined with a comma and a space are found again between the commas. -/
theorem map_trim_splitAll {pieces : List Text} (hne : pieces ≠ [])
    (hpieces : ∀ piece ∈ pieces, ',' ∉ piece ∧ Tight piece ∧ piece ≠ []) {front back : Text}
    (hfront : isBlankText front = true) (hback : isBlankText back = true) :
    (splitAll ',' (front ++ (joinWith ", ".toList pieces ++ back))).map trim = pieces := by
  have hcomma {blanks : Text} (h : isBlankText blanks = true) : ',' ∉ blanks := fun hmem =>
    absurd (List.all_eq_true.mp h _ hmem) (by decide)
  induction pieces generalizing front with
  | nil => contradiction
  | cons piece rest ih =>
    obtain ⟨hpiece, htight, hpiecene⟩ := hpieces piece List.mem_cons_self
    cases rest with
    | nil =>
      have hone : ',' ∉ front ++ (piece ++ back) := by
        simp [hcomma hfront, hcomma hback, hpiece]
      rw [joinWith, splitAll_of_not_mem hone, List.map_singleton,
        trim_stretch hfront htight hpiecene hback]
    | cons next rest =>
      have hrest := ih (List.cons_ne_nil next rest)
        (fun other hother => hpieces other (List.mem_cons_of_mem piece hother)) isBlankText_space
      have hfirst : ',' ∉ front ++ piece := by simp [hcomma hfront, hpiece]
      have htext : front ++ (joinWith ", ".toList (piece :: next :: rest) ++ back) =
          front ++ piece ++ ',' :: ([' '] ++ (joinWith ", ".toList (next :: rest) ++ back)) := by
        change front ++ (piece ++ ", ".toList ++ joinWith ", ".toList (next :: rest) ++ back) = _
        simp only [List.append_assoc]
        rfl
      have hpieceTrim := trim_stretch hfront htight hpiecene isBlankText_nil
      rw [List.append_nil] at hpieceTrim
      rw [htext, splitAll_append hfirst, List.map_cons, hrest, hpieceTrim]

/-- The part of a clause that holds the bindings between braces. -/
def braces (bindings : List ImportBinding) : Text :=
  "\x7b ".toList ++ joinWith ", ".toList (bindings.map writeSpecifier) ++ " \x7d".toList

/-- The bindings between braces are read back. -/
theorem readNamed_braces {bindings : List ImportBinding} (hne : bindings ≠ [])
    (hnames : ∀ binding ∈ bindings, IsName binding.localName ∧ IsName binding.imported) :
    readNamed (braces bindings) = bindings := by
  have hpieces : ∀ piece ∈ bindings.map writeSpecifier, ',' ∉ piece ∧ Tight piece ∧ piece ≠ [] := by
    intro piece hpiece
    obtain ⟨binding, hbinding, rfl⟩ := List.mem_map.mp hpiece
    obtain ⟨hlocal, himported⟩ := hnames binding hbinding
    have hclause := isClause_writeSpecifier hlocal himported
    exact ⟨comma_not_mem_writeSpecifier hlocal himported, hclause.tight, hclause.ne_nil⟩
  have hsplit := map_trim_splitAll (by simpa using hne) hpieces isBlankText_space isBlankText_space
  have hspecifiers : specifiers ([' '] ++ (joinWith ", ".toList (bindings.map writeSpecifier) ++
      [' '])) = bindings.map writeSpecifier := by
    rw [specifiers, hsplit, List.filter_eq_self]
    intro piece hpiece
    simpa using (hpieces piece hpiece).2.2
  generalize hinner : [' '] ++ (joinWith ", ".toList (bindings.map writeSpecifier) ++ [' ']) = inner
    at hspecifiers
  have hbraces : braces bindings = '{' :: (inner ++ ['}']) := by
    rw [← hinner, braces]
    simp only [List.append_assoc]
    rfl
  have hread : (bindings.map writeSpecifier).map readSpecifier = bindings := by
    rw [List.map_map]
    calc bindings.map (readSpecifier ∘ writeSpecifier)
      _ = bindings.map id := List.map_congr_left fun binding hbinding =>
          readSpecifier_writeSpecifier (hnames binding hbinding).1 (hnames binding hbinding).2
      _ = bindings := List.map_id bindings
  rw [hbraces]
  change readBraces (inner ++ ['}']) = bindings
  rw [readBraces_concat, hspecifiers, hread]

/-- A clause that starts with neither a brace nor a star starts with a default name. -/
theorem readClause_cons {c : Char} (hbrace : c ≠ '{') (hstar : c ≠ '*') (rest : Text) :
    readClause (c :: rest) =
      ⟨defaultName, trim ((c :: rest).takeWhile (· ≠ ','))⟩ ::
        readNamed (trim (((c :: rest).dropWhile (· ≠ ',')).drop 1)) := by
  unfold readClause
  split
  · contradiction
  · rename_i heq
    exact absurd (List.cons.inj heq).1 hbrace
  · rename_i heq
    exact absurd (List.cons.inj heq).1 hstar
  · rfl

/-- A default name alone is read back. -/
theorem readClause_default {name : Text} (hname : IsName name) :
    readClause name = [⟨defaultName, name⟩] := by
  obtain ⟨c, rest, rfl, hc⟩ := hname.exists_cons
  have hbrace : c ≠ '{' := by
    rintro rfl
    contradiction
  have hstar : c ≠ '*' := by
    rintro rfl
    contradiction
  have hall : (c :: rest).all (· ≠ ',') = true := List.all_eq_true.mpr fun d hd => by
    have : d ≠ ',' := by
      rintro rfl
      exact hname.not_mem (by decide) hd
    simpa using this
  have htake := takeWhile_stretch hall (stops_nil _)
  have hdrop := dropWhile_stretch hall (stops_nil _)
  rw [List.append_nil] at htake hdrop
  rw [readClause_cons hbrace hstar, htake, hdrop, trim_of_tight hname.tight]
  rfl

/-- A default name in front of the rest of a clause is read back. -/
theorem readClause_default_append {name rest : Text} (hname : IsName name) (hne : rest ≠ [])
    (hrest : Tight rest) :
    readClause (name ++ (", ".toList ++ rest)) = ⟨defaultName, name⟩ :: readNamed rest := by
  have hall : name.all (· ≠ ',') = true := List.all_eq_true.mpr fun d hd => by
    have : d ≠ ',' := by
      rintro rfl
      exact hname.not_mem (by decide) hd
    simpa using this
  have hstops : Stops (fun d => decide (d ≠ ',')) (", ".toList ++ rest) :=
    stops_cons.mpr (by decide)
  have htake := takeWhile_stretch hall hstops
  have hdrop := dropWhile_stretch hall hstops
  have htrim : trim ([' '] ++ (rest ++ [])) = rest :=
    trim_stretch isBlankText_space hrest hne isBlankText_nil
  rw [List.append_nil] at htrim
  obtain ⟨c, tail, rfl, hc⟩ := hname.exists_cons
  have hbrace : c ≠ '{' := by
    rintro rfl
    contradiction
  have hstar : c ≠ '*' := by
    rintro rfl
    contradiction
  rw [List.cons_append, readClause_cons hbrace hstar, ← List.cons_append, htake, hdrop,
    trim_of_tight hname.tight]
  change _ :: readNamed (trim ([' '] ++ rest)) = _
  rw [htrim]

/-- Bindings between braces are a clause. -/
theorem isClause_braces {bindings : List ImportBinding}
    (hnames : ∀ binding ∈ bindings, IsName binding.localName ∧ IsName binding.imported) :
    IsClause (braces bindings) := by
  have hopen : IsClause ['{'] := ⟨by decide, tight_of_forall (eq_false_of_any (by decide)),
    eq_false_of_any (by decide)⟩
  have hclose : IsClause ['}'] := ⟨by decide, tight_of_forall (eq_false_of_any (by decide)),
    eq_false_of_any (by decide)⟩
  have hinner : ∀ c ∈ [' '] ++ joinWith ", ".toList (bindings.map writeSpecifier) ++ [' '],
      isForeign c = false := by
    intro c hc
    rw [List.mem_append, List.mem_append] at hc
    rcases hc with (hc | hc) | hc
    · exact eq_false_of_any (by decide : List.any [' '] isForeign = false) c hc
    · rcases mem_joinWith hc with hc | ⟨piece, hpiece, hc⟩
      · exact eq_false_of_any (by decide : List.any ", ".toList isForeign = false) c hc
      · obtain ⟨binding, hbinding, rfl⟩ := List.mem_map.mp hpiece
        obtain ⟨hlocal, himported⟩ := hnames binding hbinding
        exact (isClause_writeSpecifier hlocal himported).clean c hc
    · exact eq_false_of_any (by decide : List.any [' '] isForeign = false) c hc
  have happend := hopen.append hinner hclose
  have htext : braces bindings = ['{'] ++
      ([' '] ++ joinWith ", ".toList (bindings.map writeSpecifier) ++ [' '] ++ ['}']) := by
    rw [braces]
    simp only [List.append_assoc]
    rfl
  rwa [htext]

/-! ### Whole statements -/

/-- The parts of a clause behind the default name. -/
def partsBehindDefault (bindings : List ImportBinding) : List Text :=
  ((lastLocal? namespaceName bindings).map ("* as ".toList ++ ·)).toList ++
    match bindings.filter isNamed with
    | [] => []
    | named => [braces named]

/-- The bindings that are read from the parts behind the default name. A namespace takes what stands
behind it for its name. -/
def readBehindDefault (bindings : List ImportBinding) : List ImportBinding :=
  match lastLocal? namespaceName bindings, bindings.filter isNamed with
  | none, named => named
  | some name, [] => [⟨namespaceName, name⟩]
  | some name, named => [⟨namespaceName, name ++ (", ".toList ++ braces named)⟩]

/-- The bindings that are read from a written statement: the last default name, and what is read
behind it. -/
def readBack (bindings : List ImportBinding) : List ImportBinding :=
  ((lastLocal? defaultName bindings).map (⟨defaultName, ·⟩)).toList ++ readBehindDefault bindings

/-- The default name is written first. -/
theorem clauseParts_eq (bindings : List ImportBinding) :
    clauseParts bindings =
      (lastLocal? defaultName bindings).toList ++ partsBehindDefault bindings := by
  rw [clauseParts, List.append_assoc]
  rfl

/-- The last local name of an exported name is the name of a binding. -/
theorem mem_of_lastLocal? {imported name : Text} {bindings : List ImportBinding}
    (h : lastLocal? imported bindings = some name) : ⟨imported, name⟩ ∈ bindings := by
  obtain ⟨binding, hlast, rfl⟩ := Option.map_eq_some_iff.mp h
  have hmem := List.mem_of_getLast? hlast
  rw [List.mem_filter, decide_eq_true_eq] at hmem
  rw [← hmem.2]
  exact hmem.1

/-- Without a last local name no binding has the exported name. -/
theorem ne_of_lastLocal?_eq_none {imported : Text} {bindings : List ImportBinding}
    (h : lastLocal? imported bindings = none) {binding : ImportBinding}
    (hbinding : binding ∈ bindings) : binding.imported ≠ imported := by
  intro himported
  rw [lastLocal?, Option.map_eq_none_iff, List.getLast?_eq_none_iff] at h
  have hmem : binding ∈ bindings.filter (·.imported = imported) :=
    List.mem_filter.mpr ⟨hbinding, decide_eq_true himported⟩
  rw [h] at hmem
  contradiction

variable {bindings : List ImportBinding}

section Named

variable (h : ∀ binding ∈ bindings, isNamed binding = true)

include h

/-- Named bindings leave no name in front of the braces. -/
theorem lastLocal?_of_isNamed {imported : Text}
    (himported : imported = defaultName ∨ imported = namespaceName) :
    lastLocal? imported bindings = none := by
  refine Option.eq_none_iff_forall_ne_some.mpr fun name hname => ?_
  have hnamed := h _ (mem_of_lastLocal? hname)
  rcases himported with rfl | rfl <;> simp [isNamed] at hnamed

/-- Named bindings are read back as they were written. -/
theorem readBack_of_isNamed : readBack bindings = bindings := by
  rw [readBack, lastLocal?_of_isNamed h (.inl rfl), readBehindDefault,
    lastLocal?_of_isNamed h (.inr rfl), List.filter_eq_self.mpr h]
  rfl

end Named

/-- A binding is written in one of the parts of a clause. -/
theorem clauseParts_ne_nil (hne : bindings ≠ []) : clauseParts bindings ≠ [] := by
  obtain ⟨binding, rest, rfl⟩ := List.exists_cons_of_ne_nil hne
  intro hparts
  rw [clauseParts_eq, List.append_eq_nil_iff, partsBehindDefault, List.append_eq_nil_iff] at hparts
  obtain ⟨hdefault, hnamespace, hnamed⟩ := hparts
  have hnotDefault := ne_of_lastLocal?_eq_none
    (by simpa using hdefault : lastLocal? defaultName _ = none) List.mem_cons_self
  have hnotNamespace := ne_of_lastLocal?_eq_none
    (by simpa using hnamespace : lastLocal? namespaceName _ = none) List.mem_cons_self
  have hmem : binding ∈ (binding :: rest).filter isNamed := by
    refine List.mem_filter.mpr ⟨List.mem_cons_self, ?_⟩
    simp [isNamed, hnotDefault, hnotNamespace]
  cases hfilter : (binding :: rest).filter isNamed with
  | nil =>
    rw [hfilter] at hmem
    contradiction
  | cons first others =>
    rw [hfilter] at hnamed
    contradiction

/-- Plain bindings between braces have names on both sides. -/
theorem isName_of_isNamed (hplain : ∀ binding ∈ bindings, binding.IsPlain) :
    ∀ binding ∈ bindings.filter isNamed, IsName binding.localName ∧ IsName binding.imported := by
  intro binding hbinding
  obtain ⟨hmem, hnamed⟩ := List.mem_filter.mp hbinding
  refine ⟨(hplain binding hmem).localName, ?_⟩
  rcases (hplain binding hmem).imported with hstar | himported
  · simp [isNamed, hstar] at hnamed
  · exact himported

/-- A star with a clause for its name is a clause, which is read as a namespace. -/
theorem read_namespace {name : Text} (h : IsClause name) :
    IsClause ("* as ".toList ++ name) ∧
      readNamed ("* as ".toList ++ name) = [⟨namespaceName, name⟩] ∧
      readClause ("* as ".toList ++ name) = [⟨namespaceName, name⟩] := by
  have hstar : IsClause ['*'] := ⟨by decide, tight_of_forall (eq_false_of_any (by decide)),
    eq_false_of_any (by decide)⟩
  have hread := readNamed_namespace h.ne_nil h.tight
  have hword : ∀ c ∈ " as ".toList, isForeign c = false := eq_false_of_any (by decide)
  exact ⟨hstar.append hword h, hread, hread⟩

/-- The parts behind the default name are read back, and without any there is nothing to read. -/
theorem read_partsBehindDefault (hplain : ∀ binding ∈ bindings, binding.IsPlain) :
    partsBehindDefault bindings = [] ∧ readBehindDefault bindings = [] ∨
      partsBehindDefault bindings ≠ [] ∧
      IsClause (joinWith ", ".toList (partsBehindDefault bindings)) ∧
      readNamed (joinWith ", ".toList (partsBehindDefault bindings)) = readBehindDefault bindings ∧
      readClause (joinWith ", ".toList (partsBehindDefault bindings)) =
        readBehindDefault bindings := by
  have hnames := isName_of_isNamed hplain
  unfold partsBehindDefault readBehindDefault
  cases hnamespace : lastLocal? namespaceName bindings with
  | none =>
    cases hnamed : bindings.filter isNamed with
    | nil => exact Or.inl ⟨rfl, rfl⟩
    | cons first rest =>
      rw [hnamed] at hnames
      have hread := readNamed_braces (List.cons_ne_nil first rest) hnames
      exact Or.inr ⟨List.cons_ne_nil _ _, isClause_braces hnames, hread, hread⟩
  | some name =>
    have hname : IsName name := (hplain _ (mem_of_lastLocal? hnamespace)).localName
    cases hnamed : bindings.filter isNamed with
    | nil => exact Or.inr ⟨List.cons_ne_nil _ _, read_namespace (isClause_of_isName hname)⟩
    | cons first rest =>
      rw [hnamed] at hnames
      have hbehind : IsClause (name ++ (", ".toList ++ braces (first :: rest))) :=
        (isClause_of_isName hname).append (eq_false_of_any (by decide)) (isClause_braces hnames)
      have hread := read_namespace hbehind
      rw [← List.append_assoc, ← List.append_assoc] at hread
      refine Or.inr ⟨List.cons_ne_nil _ _, ?_⟩
      simp only [Option.map_some, Option.toList_some, List.cons_append, List.nil_append, joinWith,
        List.append_assoc] at hread ⊢
      exact hread

/-- The clause of a statement that binds a name is read back. -/
theorem readClause_joinWith (hne : bindings ≠ [])
    (hplain : ∀ binding ∈ bindings, binding.IsPlain) :
    clauseParts bindings ≠ [] ∧ IsClause (joinWith ", ".toList (clauseParts bindings)) ∧
      readClause (joinWith ", ".toList (clauseParts bindings)) = readBack bindings := by
  rw [clauseParts_eq, readBack]
  cases hdefault : lastLocal? defaultName bindings with
  | none =>
    rcases read_partsBehindDefault hplain with ⟨hparts, -⟩ | ⟨hparts, hclause, -, hread⟩
    · exact absurd (clauseParts_ne_nil hne) (by rw [clauseParts_eq, hdefault, hparts]; simp)
    · exact ⟨hparts, hclause, hread⟩
  | some name =>
    have hname : IsName name := (hplain _ (mem_of_lastLocal? hdefault)).localName
    rcases read_partsBehindDefault hplain with ⟨hparts, hnone⟩ | ⟨hparts, hclause, hread, -⟩
    · rw [hparts, hnone]
      exact ⟨List.cons_ne_nil _ _, isClause_of_isName hname, readClause_default hname⟩
    · obtain ⟨part, rest, hcons⟩ := List.exists_cons_of_ne_nil hparts
      rw [hcons] at hclause hread ⊢
      have htext : joinWith ", ".toList ([name] ++ part :: rest) =
          name ++ (", ".toList ++ joinWith ", ".toList (part :: rest)) :=
        List.append_assoc _ _ _
      refine ⟨List.cons_ne_nil _ _, ?_, ?_⟩
      · change IsClause (joinWith ", ".toList ([name] ++ part :: rest))
        rw [htext]
        exact (isClause_of_isName hname).append (eq_false_of_any (by decide)) hclause
      · change readClause (joinWith ", ".toList ([name] ++ part :: rest)) = _
        rw [htext, readClause_default_append hname hclause.ne_nil hclause.tight, hread]
        rfl

/-- A statement with a clause is written around it. -/
theorem render_of_ne_nil (source : Text) (hne : bindings ≠ []) :
    render ⟨source, bindings⟩ = "import ".toList ++
      joinWith ", ".toList (clauseParts bindings) ++ " from \"".toList ++ source ++
        "\";".toList := by
  obtain ⟨part, rest, hparts⟩ := List.exists_cons_of_ne_nil (clauseParts_ne_nil hne)
  simp only [render, hparts]

/-- A written statement is read back with its source and the bindings that its clause can hold. -/
theorem parse?_render {source : Text} (hne : source ≠ [])
    (hquotes : ∀ c ∈ source, isQuote c = false)
    (hplain : ∀ binding ∈ bindings, binding.IsPlain) :
    parse? (render ⟨source, bindings⟩) = some ⟨source, readBack bindings⟩ := by
  by_cases hnil : bindings = []
  · subst hnil
    exact parse?_of_no_clause hne hquotes
  · obtain ⟨-, hclause, hread⟩ := readClause_joinWith hnil hplain
    have hclauseQuotes : ∀ c ∈ joinWith ", ".toList (clauseParts bindings), isQuote c = false := by
      intro c hc
      have hclean := hclause.clean c hc
      unfold isForeign at hclean
      unfold isQuote
      simp_all
    have hsemicolon : ';' ∉ joinWith ", ".toList (clauseParts bindings) := fun hmem =>
      absurd (hclause.clean _ hmem) (by decide)
    rw [render_of_ne_nil source hnil, parse?_of_clause hclause.ne_nil hclause.tight hclauseQuotes
      hsemicolon hne hquotes, hread]

/-- Whether a binding is read back from the statement that it is written in. Of the default names,
and of the namespaces, the last one is; names between braces keep a namespace out, and a namespace
keeps them out. -/
def survives (bindings : List ImportBinding) (binding : ImportBinding) : Bool :=
  if isNamed binding then
    bindings.contains binding && (lastLocal? namespaceName bindings).isNone
  else
    lastLocal? binding.imported bindings = some binding.localName &&
      (binding.imported = defaultName || (bindings.filter isNamed).isEmpty)

/-- Among the bindings behind the default name stands no default name. -/
theorem mem_readBehindDefault_iff {binding : ImportBinding} (hname : ',' ∉ binding.localName) :
    binding ∈ readBehindDefault bindings ↔
      binding ∈ bindings ∧ isNamed binding = true ∧ lastLocal? namespaceName bindings = none ∨
        binding.imported = namespaceName ∧
          lastLocal? namespaceName bindings = some binding.localName ∧
          bindings.filter isNamed = [] := by
  unfold readBehindDefault
  cases hnamespace : lastLocal? namespaceName bindings with
  | none => simp [List.mem_filter]
  | some name =>
    cases hnamed : bindings.filter isNamed with
    | nil =>
      obtain ⟨imported, localName⟩ := binding
      simp only [List.mem_singleton, ImportBinding.mk.injEq, reduceCtorEq, and_false, false_or,
        Option.some.injEq, and_true]
      exact and_congr_right fun _ => eq_comm
    | cons first rest =>
      simp only [List.mem_singleton, reduceCtorEq, and_false, or_self, iff_false]
      rintro rfl
      exact hname (by simp)

/-- A binding with a plain local name is read back exactly when it survives. -/
theorem mem_readBack_iff {binding : ImportBinding} (hname : ',' ∉ binding.localName) :
    binding ∈ readBack bindings ↔ survives bindings binding = true := by
  have hdefault : binding ∈ ((lastLocal? defaultName bindings).map (⟨defaultName, ·⟩)).toList ↔
      binding.imported = defaultName ∧
        lastLocal? defaultName bindings = some binding.localName := by
    obtain ⟨imported, localName⟩ := binding
    rw [Option.mem_toList, Option.map_eq_some_iff]
    constructor
    · rintro ⟨name, hlast, heq⟩
      obtain ⟨rfl, rfl⟩ := ImportBinding.mk.inj heq
      exact ⟨rfl, hlast⟩
    · rintro ⟨rfl, hlast⟩
      exact ⟨localName, hlast, rfl⟩
  rw [readBack, List.mem_append, hdefault, mem_readBehindDefault_iff hname]
  unfold survives
  by_cases himported : binding.imported = defaultName
  · have hnamed : isNamed binding = false := by simp [isNamed, himported]
    have hne : defaultName ≠ namespaceName := by decide
    simp [himported, hnamed, hne]
  · by_cases hnamespace : binding.imported = namespaceName
    · have hnamed : isNamed binding = false := by simp [isNamed, hnamespace]
      have hne : namespaceName ≠ defaultName := by decide
      simp [hnamespace, hnamed, hne]
    · have hnamed : isNamed binding = true := by simp [isNamed, himported, hnamespace]
      simp [himported, hnamespace, hnamed]

example : survives [⟨defaultName, ['a']⟩, ⟨defaultName, ['b']⟩] ⟨defaultName, ['a']⟩ = false := by
  decide

end ImportStatement

end InlineComponents
