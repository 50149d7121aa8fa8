import InlineComponents.Linking.Child
import InlineComponents.Proofs.Imports.StaticImport
import InlineComponents.Proofs.Text.Scanning

/-!
# Import statements as phrases of a module

Both recognisers take a statement from its line to its source: a named import up to the blanks
behind it, and a static import with the end of its line. So the text of a static import, once it is
trimmed, starts with its first word and ends with a quote or a semicolon.
-/

namespace InlineComponents

open Text

/-- A text that can be the source of an import: it is not empty and holds no quote. -/
structure IsSource (text : Text) : Prop where
  ne_nil : text ≠ []
  quotes : ∀ c ∈ text, ImportStatement.isQuote c = false

namespace ImportStatement

/-- The text between two quotes is a source. -/
theorem IsQuoted.isSource {text head source after : Text} (h : IsQuoted text head source after) :
    IsSource source := by
  obtain ⟨-, -, -, hne, hsource⟩ := h
  exact ⟨hne, hsource⟩

/-- A statement that is read has a source. -/
theorem isSource_of_parse? {text : Text} {statement : ImportStatement}
    (h : parse? text = some statement) : IsSource statement.source := by
  obtain ⟨source, bindings⟩ := statement
  obtain ⟨blanks, rest, head, after, -, -, hquoted, -⟩ := parse?_eq_some_iff.mp h
  exact hquoted.isSource

/-! ### Static imports -/

/-- Behind the source of a static import stand blanks and at most one semicolon. -/
theorem IsStatementEnd.exists_eq {ending : Text} (h : IsStatementEnd ending) :
    ∃ first second, isBlankText first = true ∧ isBlankText second = true ∧
      (ending = first ++ second ∨ ending = first ++ ';' :: second) := by
  obtain ⟨hbefore, hsemicolon, hbehind, hcarriage, hfeed⟩ := h
  rename_i before semicolon behind carriage feed
  have hline : isBlankText (carriage ++ feed) = true := by
    rcases hcarriage with rfl | rfl <;> rcases hfeed with rfl | rfl <;> decide
  have hrest : isBlankText (behind ++ (carriage ++ feed)) = true :=
    isBlankText_append.mpr ⟨(isBlankText_of_spaces hbehind).1, hline⟩
  refine ⟨before, behind ++ (carriage ++ feed), (isBlankText_of_spaces hbefore).1, hrest, ?_⟩
  exact hsemicolon.imp (by rintro rfl; rfl) (by rintro rfl; rfl)

/-- A static import reaches from its first word to a quote or a semicolon, with blanks around it. -/
theorem IsStaticImport.exists_eq {found : Text} (h : IsStaticImport found) :
    ∃ spaces middle c blanks, spaces.all isSpaceOrTab = true ∧
      found = spaces ++ ("import".toList ++ (middle ++ c :: blanks)) ∧
      (isQuote c = true ∨ c = ';') ∧ isBlankText blanks = true := by
  obtain ⟨hindent, -, -, -, -, hclosing, hending⟩ := h
  rename_i indent head source ending opening closing
  obtain ⟨first, second, hfirst, hsecond, rfl | rfl⟩ := hending.exists_eq
  · exact ⟨indent, head ++ opening :: source, closing, first ++ second, hindent, by simp,
      .inl hclosing, isBlankText_append.mpr ⟨hfirst, hsecond⟩⟩
  · exact ⟨indent, head ++ opening :: (source ++ closing :: first), ';', second, hindent, by simp,
      .inr rfl, hsecond⟩

/-- The text of a static import is not empty. -/
theorem IsStaticImport.ne_nil {found : Text} (h : IsStaticImport found) : found ≠ [] := by
  obtain ⟨spaces, middle, c, blanks, -, rfl, -, -⟩ := h.exists_eq
  simp

/-- A static import is read where a line starts. -/
theorem staticImport_eq_some_iff {lineStart : Bool} {found after : Text} :
    staticImport lineStart (found ++ after) = some ((), after) ↔
      lineStart = true ∧ StartsWithStatic (found ++ after) found := by
  cases lineStart with
  | false => simp [staticImport]
  | true => simp [staticImport, ← readStaticImport?_append_iff]

/-- A phrase that the reader of static imports takes is one. -/
theorem exists_isStaticImport {lineStart : Bool} {text after : Text} {value : Unit}
    (h : staticImport lineStart text = some (value, after)) :
    ∃ found, IsStaticImport found ∧ text = found ++ after := by
  unfold staticImport at h
  split at h
  · obtain ⟨rest, hrest, hvalue⟩ := Option.map_eq_some_iff.mp h
    obtain ⟨-, rfl⟩ := Prod.mk.inj hvalue
    exact exists_isStaticImport_of_read hrest
  · contradiction

/-- Static imports are read one after the other. -/
theorem staticImport_advances : Advances staticImport := by
  intro lineStart text value after h
  obtain ⟨found, hstatic, rfl⟩ := exists_isStaticImport h
  exact ⟨found, hstatic.ne_nil, rfl⟩

/-- A static import that was found, trimmed, ends with a quote or a semicolon. -/
theorem exists_trim_eq_concat {code text : Text} (h : text ∈ staticImportTexts code) :
    ∃ front c, trim text = front ++ [c] ∧ (isQuote c = true ∨ c = ';') := by
  obtain ⟨place, hplace, rfl⟩ := List.mem_map.mp h
  obtain ⟨front, back, hscan, -, -⟩ := exists_of_mem_locations hplace
  obtain ⟨-, hread⟩ := read_of_scan staticImport_advances hscan
  obtain ⟨found, hstatic, happ⟩ := exists_isStaticImport hread
  obtain ⟨spaces, middle, c, blanks, hspaces, hfound, hc, hblanks⟩ := hstatic.exists_eq
  have hplain : isBlank c = false := by
    rcases hc with hquote | rfl
    · exact isBlank_of_isQuote hquote
    · decide
  have htight : Tight ("import".toList ++ (middle ++ [c])) :=
    Tight.append (tight_of_forall (eq_false_of_any (by decide)))
      (tight_of_forall (by simpa using hplain)) (by decide) (List.cons_ne_nil c [])
  have hparts : found = spaces ++ ("import".toList ++ (middle ++ [c]) ++ blanks) := by
    rw [hfound]
    simp
  refine ⟨"import".toList ++ middle, c, ?_, hc⟩
  rw [List.append_cancel_right happ, hparts, trim_stretch (isBlankText_of_spaces hspaces).1 htight
    (by simp) hblanks, List.append_assoc]

/-! ### Named imports -/

/-- A named import takes its source from between two quotes. -/
theorem exists_of_readNamedImport? {text after : Text} {value : NamedImport}
    (h : readNamedImport? text = some (value, after)) :
    IsSource value.source ∧ ∃ taken, taken ≠ [] ∧ text = taken ++ after := by
  obtain ⟨hspaces, hblanks, hnames, hgap, hspace, hopening, hclosing, hne, hsource⟩ :=
    readNamedImport?_eq_some_iff.mp h
  rename_i spaces blanks names gap space source behind opening closing
  obtain ⟨front, hfront⟩ : dropOptional ';' (skipSpaces behind) <:+ behind :=
    (dropOptional_suffix _ _).trans (List.dropWhile_suffix _)
  refine ⟨⟨hne, hsource⟩, spaces ++ ("import".toList ++ (blanks ++ '{' :: (names ++ '}' ::
    (gap ++ ("from".toList ++ (space ++ opening :: (source ++ closing :: front))))))), by simp, ?_⟩
  simp only [List.append_assoc, List.cons_append, hfront]

/-- Named imports are read one after the other. -/
theorem namedImport_advances : Advances namedImport := by
  intro lineStart text value after h
  unfold namedImport at h
  split at h
  · exact (exists_of_readNamedImport? h).2
  · contradiction

/-- The runtime import of a module is its only named import from the runtime module. -/
theorem runtimeImport_eq_ok_iff {contract : OutputContract} {code : Text} {runtime : RuntimeImport} :
    contract.runtimeImport code = .ok runtime ↔
      contract.runtimeImports code = [runtime.place] ∧
        runtime.identifiers = localNames runtime.place.value.names := by
  obtain ⟨place, identifiers⟩ := runtime
  unfold OutputContract.runtimeImport
  rcases contract.runtimeImports code with _ | ⟨first, _ | ⟨second, rest⟩⟩
  · simp
  · rw [Except.ok.injEq, RuntimeImport.mk.injEq, List.singleton_inj]
    refine and_congr_right ?_
    rintro rfl
    exact eq_comm
  · simp

/-- Where a named import from the runtime module was found. -/
theorem exists_of_mem_runtimeImports {contract : OutputContract} {code : Text}
    {place : Located NamedImport} (h : place ∈ contract.runtimeImports code) :
    place.value.source = contract.runtimeModule.toList ∧
      IsNamedImport (place.text ++ place.after) place.value place.after ∧
      ∃ front back, scanAll namedImport code = front ++ .phrase place.text place.value :: back ∧
        sources front = place.before ∧ sources back = place.after := by
  obtain ⟨hlocation, hsource⟩ := List.mem_filter.mp h
  obtain ⟨front, back, hscan, hbefore, hafter⟩ := exists_of_mem_locations hlocation
  obtain ⟨-, hread⟩ := read_of_scan namedImport_advances hscan
  unfold namedImport at hread
  split at hread
  · rw [← hafter] at hread
    exact ⟨by simpa using hsource, readNamedImport?_eq_some_iff.mp hread, front, back, hscan,
      hbefore.symm, hafter.symm⟩
  · contradiction

/-- A named import from the runtime module is the only one when none was found elsewhere. -/
theorem runtimeImports_eq_singleton {contract : OutputContract} {code : Text}
    {place : Located NamedImport} (h : place ∈ contract.runtimeImports code)
    (honly : ∀ other ∈ contract.runtimeImports code, other.before = place.before) :
    contract.runtimeImports code = [place] := by
  have hpairwise : (contract.runtimeImports code).Pairwise fun first second =>
      first.before.length < second.before.length :=
    (pairwise_locations namedImport_advances true code).filter _
  generalize contract.runtimeImports code = places at h honly hpairwise
  rcases places with _ | ⟨first, _ | ⟨second, rest⟩⟩
  · contradiction
  · rw [List.mem_singleton.mp h]
  · have hlt := (List.pairwise_cons.mp hpairwise).1 second List.mem_cons_self
    rw [honly first List.mem_cons_self, honly second (by simp)] at hlt
    exact absurd hlt (Nat.lt_irrefl _)

/-- The module that a runtime import is found by is a source. -/
theorem isSource_of_runtimeImport {contract : OutputContract} {code : Text}
    {runtime : RuntimeImport} (h : contract.runtimeImport code = .ok runtime) :
    IsSource contract.runtimeModule.toList := by
  have hmem : runtime.place ∈ contract.runtimeImports code := by
    rw [(runtimeImport_eq_ok_iff.mp h).1]
    exact List.mem_singleton_self _
  obtain ⟨hsource, hnamed, -⟩ := exists_of_mem_runtimeImports hmem
  rw [← hsource]
  exact (exists_of_readNamedImport? (readNamedImport?_eq_some_iff.mpr hnamed)).1

end ImportStatement

end InlineComponents
