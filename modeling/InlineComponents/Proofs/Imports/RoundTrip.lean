import InlineComponents.Proofs.Imports.Writing

/-!
# Import statements that are read as they were written

A written clause holds one default name, and behind it either one namespace or a list between
braces. Bindings that come in this order survive writing and reading, for whatever names and source
they have, and no other bindings do: what is read back from a statement always comes in this order.
-/

namespace InlineComponents

open Text

namespace ImportStatement

/-- What can stand behind the default name of a clause: one namespace, or a list between braces,
which may be missing. -/
inductive IsGroup : List ImportBinding → Prop where
  | star (name : Text) : IsGroup [⟨namespaceName, name⟩]
  | braces {bindings : List ImportBinding} (h : ∀ binding ∈ bindings, isNamed binding = true) :
    IsGroup bindings

/-- The bindings of one clause: those of a group, which a default name may precede. -/
inductive FitsClause : List ImportBinding → Prop where
  | grouped {bindings : List ImportBinding} (h : IsGroup bindings) : FitsClause bindings
  | both (name : Text) {bindings : List ImportBinding} (h : IsGroup bindings) :
    FitsClause (⟨defaultName, name⟩ :: bindings)

variable {bindings : List ImportBinding}

/-- What is read behind the default name is a group. -/
theorem isGroup_readBehindDefault (bindings : List ImportBinding) :
    IsGroup (readBehindDefault bindings) := by
  unfold readBehindDefault
  split
  · exact .braces fun binding hbinding => (List.mem_filter.mp hbinding).2
  · exact .star _
  · exact .star _

/-- What is read back fits a clause. -/
theorem fitsClause_readBack (bindings : List ImportBinding) : FitsClause (readBack bindings) := by
  rw [readBack]
  cases lastLocal? defaultName bindings with
  | none => exact .grouped (isGroup_readBehindDefault bindings)
  | some name => exact .both name (isGroup_readBehindDefault bindings)

/-- Another exported name in front does not change the last local name. -/
theorem lastLocal?_cons_of_ne {imported : Text} {binding : ImportBinding}
    (h : binding.imported ≠ imported) :
    lastLocal? imported (binding :: bindings) = lastLocal? imported bindings := by
  rw [lastLocal?, List.filter_cons_of_neg (by simpa using h), lastLocal?]

/-- An exported name that does not come again has its local name as the last one. -/
theorem lastLocal?_cons_self {imported : Text} (name : Text)
    (h : lastLocal? imported bindings = none) :
    lastLocal? imported (⟨imported, name⟩ :: bindings) = some name := by
  rw [lastLocal?, Option.map_eq_none_iff, List.getLast?_eq_none_iff] at h
  rw [lastLocal?, List.filter_cons_of_pos (by simp), h]
  rfl

/-- A group holds no default name. -/
theorem IsGroup.lastLocal?_defaultName (h : IsGroup bindings) :
    lastLocal? defaultName bindings = none := by
  cases h with
  | star name =>
    have hne : namespaceName ≠ defaultName := by decide
    exact lastLocal?_cons_of_ne hne
  | braces hnamed => exact lastLocal?_of_isNamed hnamed (.inl rfl)

/-- A group is read back. -/
theorem IsGroup.readBehindDefault_eq (h : IsGroup bindings) :
    readBehindDefault bindings = bindings := by
  cases h with
  | star name =>
    have hstar : lastLocal? namespaceName [⟨namespaceName, name⟩] = some name :=
      lastLocal?_cons_self name rfl
    have hnamed : [(⟨namespaceName, name⟩ : ImportBinding)].filter isNamed = [] :=
      List.filter_cons_of_neg (by simp [isNamed])
    simp only [readBehindDefault, hstar, hnamed]
  | braces hnamed =>
    simp only [readBehindDefault, lastLocal?_of_isNamed hnamed (.inr rfl),
      List.filter_eq_self.mpr hnamed]

/-- A default name in front changes nothing behind it. -/
theorem readBehindDefault_cons (name : Text) (bindings : List ImportBinding) :
    readBehindDefault (⟨defaultName, name⟩ :: bindings) = readBehindDefault bindings := by
  have hne : defaultName ≠ namespaceName := by decide
  have hstar : lastLocal? namespaceName (⟨defaultName, name⟩ :: bindings) =
      lastLocal? namespaceName bindings := lastLocal?_cons_of_ne hne
  have hnamed : (⟨defaultName, name⟩ :: bindings).filter isNamed = bindings.filter isNamed :=
    List.filter_cons_of_neg (by simp [isNamed])
  rw [readBehindDefault, hstar, hnamed]
  rfl

/-- Bindings are read back exactly when they fit a clause. -/
theorem readBack_eq_self_iff : readBack bindings = bindings ↔ FitsClause bindings := by
  constructor
  · intro h
    exact h ▸ fitsClause_readBack bindings
  · intro h
    cases h with
    | grouped hgroup =>
      rw [readBack, hgroup.lastLocal?_defaultName, hgroup.readBehindDefault_eq]
      rfl
    | both name hgroup =>
      rw [readBack, lastLocal?_cons_self name hgroup.lastLocal?_defaultName,
        readBehindDefault_cons, hgroup.readBehindDefault_eq]
      rfl

/-- A source that is read holds a character, and no quote. -/
theorem source_of_parse? {text : Text} {statement : ImportStatement}
    (h : parse? text = some statement) :
    statement.source ≠ [] ∧ ∀ c ∈ statement.source, isQuote c = false := by
  obtain ⟨source, bindings⟩ := statement
  obtain ⟨-, -, -, -, -, -, ⟨-, -, -, hne, hquotes⟩, -⟩ := parse?_eq_some_iff.mp h
  exact ⟨hne, hquotes⟩

/-- A statement whose names are names is read as it was written exactly when its source is one that
can be quoted and its bindings fit a clause. -/
theorem isReadBack_iff {statement : ImportStatement}
    (hplain : ∀ binding ∈ statement.bindings, binding.IsPlain) :
    parse? statement.render = some statement ↔
      statement.source ≠ [] ∧ (∀ c ∈ statement.source, isQuote c = false) ∧
        FitsClause statement.bindings := by
  constructor
  · intro h
    obtain ⟨hne, hquotes⟩ := source_of_parse? h
    refine ⟨hne, hquotes, ?_⟩
    rw [parse?_render hne hquotes hplain] at h
    exact readBack_eq_self_iff.mp (congrArg ImportStatement.bindings (Option.some.inj h))
  · rintro ⟨hne, hquotes, hfits⟩
    rw [parse?_render hne hquotes hplain, readBack_eq_self_iff.mpr hfits]

/-- A statement whose names are the words of its syntax. -/
def ofWords : ImportStatement where
  source := "./as from.js".toList
  bindings := [⟨defaultName, "from".toList⟩, ⟨"as".toList, "as".toList⟩,
    ⟨"from".toList, "assets".toList⟩]

/-- The words of the syntax are names like others. -/
theorem isReadBack_iff_of_words :
    ofWords.render = "import from, \x7b as, from as assets \x7d from \"./as from.js\";".toList ∧
      (∀ binding ∈ ofWords.bindings, binding.IsPlain) ∧
      parse? ofWords.render = some ofWords := by
  have hplain : ∀ binding ∈ ofWords.bindings, binding.IsPlain := by
    have hidentifiers : ∀ binding ∈ ofWords.bindings,
        isPlainIdentifier binding.localName = true ∧
          isPlainIdentifier binding.imported = true := by decide
    intro binding hbinding
    obtain ⟨hlocal, himported⟩ := hidentifiers binding hbinding
    exact ⟨isName_of_plain hlocal, .inr (isName_of_plain himported)⟩
  have hgroup : FitsClause ofWords.bindings := .both _ (.braces (by decide))
  have hunquoted : ofWords.source.all (fun c => !isQuote c) = true := by decide
  have hquotes : ∀ c ∈ ofWords.source, isQuote c = false := fun c hc =>
    (Bool.not_eq_true' _).mp (List.all_eq_true.mp hunquoted c hc)
  exact ⟨by decide, hplain, (isReadBack_iff hplain).mpr ⟨by decide, hquotes, hgroup⟩⟩

end ImportStatement

end InlineComponents
