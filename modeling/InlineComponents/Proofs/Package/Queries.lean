import InlineComponents.Proofs.Package.Denials
import InlineComponents.Proofs.Plugin.Steps
import InlineComponents.Proofs.Text.Spans
import Mathlib.Data.List.Count

/-!
# Resolving many imports

Imports are resolved one after the other, and the packages that hide their manifests are collected
on the way. The package of a specifier reaches up to its first slash, or to its second one when the
specifier starts with `@`. No answer depends on what was collected before, and what is collected
depends on which imports were asked for, but not on their order or on how often.
-/

namespace InlineComponents

open Text

/-! ### What a specifier names -/

namespace PackageReference

/-- The number of slashes in the name of a package of a specifier. -/
def scopeSlashes (specifier : Text) : Nat := if specifier.head? = some '@' then 1 else 0

/-- What a specifier names: all of it, if it has no more slashes than the name of a package, and
otherwise what stands in front of the next slash, with a path behind it. -/
inductive Names (specifier : Text) : PackageReference → Prop where
  | whole (h : specifier.count '/' ≤ scopeSlashes specifier) : Names specifier ⟨specifier, false⟩
  | path {package rest : Text} (h : specifier = package ++ '/' :: rest)
      (hcount : package.count '/' = scopeSlashes specifier) : Names specifier ⟨package, true⟩

/-- A first piece without the sign of a scope is the package. -/
theorem ofPieces_of_unscoped {name : Text} (h : name.head? ≠ some '@') (rest : List Text) :
    ofPieces (name :: rest) = ⟨name, !rest.isEmpty⟩ := by
  cases name with
  | nil => cases rest <;> rfl
  | cons c name =>
    have hc : c ≠ '@' := fun heq => h (congrArg some heq)
    unfold ofPieces
    split
    · contradiction
    · rename_i heq
      exact absurd (List.cons.inj (List.cons.inj heq).1).1 hc
    · rename_i heq
      obtain ⟨rfl, rfl⟩ := List.cons.inj heq
      rfl

/-- A first piece with the sign of a scope and the next piece are the package. -/
theorem ofPieces_of_scoped {scope : Text} (h : scope.head? = some '@') (name : Text)
    (rest : List Text) :
    ofPieces (scope :: name :: rest) = ⟨scope ++ '/' :: name, !rest.isEmpty⟩ := by
  cases scope with
  | nil => contradiction
  | cons c scope =>
    obtain rfl := Option.some.inj h
    rfl

/-- A text without slashes has a count of none. -/
theorem slash_not_mem {text : Text} (h : text.count '/' = 0) : '/' ∉ text :=
  List.count_eq_zero.mp h

/-- A text with a slash is cut at its first one. -/
theorem exists_cut {text : Text} (h : '/' ∈ text) :
    ∃ front back, text = front ++ '/' :: back ∧ '/' ∉ front :=
  List.eq_append_cons_of_mem h

/-- The first character of a text stands in front of a slash in it. -/
theorem head?_cut (front back : Text) (h : (front ++ '/' :: back).head? = some '@') :
    front.head? = some '@' := by
  cases front with
  | nil => exact absurd (Option.some.inj h) (by decide)
  | cons c front => exact h

/-- A specifier that names something refers to it. -/
theorem Names.ofSpecifier_eq {specifier : Text} {reference : PackageReference}
    (h : Names specifier reference) : ofSpecifier specifier = reference := by
  have hnonempty (rest : Text) : (!(splitAll '/' rest).isEmpty) = true := by
    simp [splitAll_ne_nil]
  by_cases hscope : specifier.head? = some '@'
  · have hslashes : scopeSlashes specifier = 1 := if_pos hscope
    cases h with
    | whole hcount =>
      rw [hslashes] at hcount
      by_cases hmem : '/' ∈ specifier
      · obtain ⟨scope, name, rfl, hfront⟩ := exists_cut hmem
        have hname : '/' ∉ name := by
          refine slash_not_mem ?_
          rw [List.count_append, List.count_cons_self] at hcount
          omega
        rw [ofSpecifier, splitAll_append hfront, splitAll_of_not_mem hname,
          ofPieces_of_scoped (head?_cut scope name hscope)]
        rfl
      · rw [ofSpecifier, splitAll_of_not_mem hmem]
        cases specifier with
        | nil => rfl
        | cons c rest => cases Option.some.inj hscope; rfl
    | path happ hcount =>
      rename_i package rest
      rw [hslashes] at hcount
      have hmem : '/' ∈ package := List.count_pos_iff.mp (by omega)
      obtain ⟨scope, name, rfl, hfront⟩ := exists_cut hmem
      have hname : '/' ∉ name := by
        refine slash_not_mem ?_
        rw [List.count_append, List.count_cons_self] at hcount
        omega
      subst happ
      rw [List.append_assoc, List.cons_append] at hscope ⊢
      rw [ofSpecifier, splitAll_append hfront, splitAll_append hname,
        ofPieces_of_scoped (head?_cut _ _ hscope), hnonempty]
  · have hslashes : scopeSlashes specifier = 0 := if_neg hscope
    cases h with
    | whole hcount =>
      rw [hslashes] at hcount
      rw [ofSpecifier, splitAll_of_not_mem (slash_not_mem (Nat.le_zero.mp hcount)),
        ofPieces_of_unscoped hscope]
      rfl
    | path happ hcount =>
      rename_i package rest
      rw [hslashes] at hcount
      subst happ
      have hhead : package.head? ≠ some '@' := by
        cases package with
        | nil => simp
        | cons c package => exact hscope
      rw [ofSpecifier, splitAll_append (slash_not_mem hcount), ofPieces_of_unscoped hhead, hnonempty]

/-- Every specifier names something. -/
theorem exists_names (specifier : Text) : ∃ reference, Names specifier reference := by
  by_cases hcount : specifier.count '/' ≤ scopeSlashes specifier
  · exact ⟨_, .whole hcount⟩
  · have hmem : '/' ∈ specifier := List.count_pos_iff.mp (by omega)
    obtain ⟨front, back, rfl, hfront⟩ := exists_cut hmem
    have hnone : front.count '/' = 0 := List.count_eq_zero.mpr hfront
    by_cases hscope : (front ++ '/' :: back).head? = some '@'
    · have hslashes : scopeSlashes (front ++ '/' :: back) = 1 := if_pos hscope
      rw [hslashes, List.count_append, List.count_cons_self, hnone] at hcount
      obtain ⟨name, rest, rfl, hname⟩ := exists_cut (List.count_pos_iff.mp (by omega) : '/' ∈ back)
      have hspecifier :
          front ++ '/' :: (name ++ '/' :: rest) = (front ++ '/' :: name) ++ '/' :: rest :=
        (List.append_assoc front ('/' :: name) ('/' :: rest)).symm
      refine ⟨⟨front ++ '/' :: name, true⟩, .path hspecifier ?_⟩
      rw [hslashes, List.count_append, List.count_cons_self, hnone, List.count_eq_zero.mpr hname]
    · exact ⟨⟨front, true⟩, .path rfl (by rw [hnone, scopeSlashes, if_neg hscope])⟩

end PackageReference

/-! ### One query -/

/-- What a run asked of the locator. -/
def Run.lookups {ε α : Type} (run : Run ε α) : List (String × FilePath) :=
  run.events.filterMap fun
    | .located package folder => some (package, folder)
    | _ => none

/-- An import to be resolved. -/
structure ImportQuery where
  specifier : String
  importer : FilePath

namespace ImportQuery

/-- The folder from which the import sees packages: that of its file, or the current one if the file
stands in none. -/
def folder (query : ImportQuery) : FilePath := query.importer.parent?.getD (.ofString ".")

/-- Packages are looked for from the folder of the import. -/
theorem folderOf_importer (query : ImportQuery) :
    Resolution.folderOf query.importer = query.folder := rfl

/-- The package that a query asks for, as seen from a folder. Only a bare specifier asks for one:
the package that it names, with or without a path within it, as seen from the folder of its file. -/
inductive Asks (query : ImportQuery) (hasSubpath : Bool) : String × FilePath → Prop where
  | bare {package : Text} (hbare : PackageReference.isBare query.specifier.toList = true)
      (hnames : PackageReference.Names query.specifier.toList ⟨package, hasSubpath⟩) :
      Asks query hasSubpath (String.ofList package, query.folder)

/-- Resolve the import. -/
def resolve (locator : ManifestLocator) (field : String) (query : ImportQuery) :
    Run BuildError Resolution :=
  Resolution.resolve locator field query.specifier query.importer

/-- The file that the import leads to, if it leads anywhere. -/
def answer (locator : ManifestLocator) (field : String) (query : ImportQuery) :
    Except BuildError (Option FilePath) :=
  (query.resolve locator field).result.map Resolution.path?

/-- Whether the locator says of this package, when it is asked, that it hides its manifest. -/
def Denies (locator : ManifestLocator) (query : ImportQuery) (package : String) : Prop :=
  ∃ hasSubpath place, query.Asks hasSubpath place ∧
    locator place.1 place.2 = .error (.hidden package)

variable {locator other : ManifestLocator} {field : String} {query : ImportQuery}
  {hasSubpath : Bool} {place : String × FilePath}

/-- A bare specifier asks for something. -/
theorem exists_asks (h : PackageReference.isBare query.specifier.toList = true) :
    ∃ hasSubpath place, query.Asks hasSubpath place := by
  obtain ⟨⟨package, hasSubpath⟩, hnames⟩ := PackageReference.exists_names query.specifier.toList
  exact ⟨hasSubpath, _, .bare h hnames⟩

/-- A query asks for one thing at most. -/
theorem Asks.unique {otherPath : Bool} {otherPlace : String × FilePath}
    (h : query.Asks hasSubpath place) (hother : query.Asks otherPath otherPlace) :
    otherPath = hasSubpath ∧ otherPlace = place := by
  obtain ⟨-, hnames⟩ := h
  obtain ⟨-, hnamesOther⟩ := hother
  have hsame := hnamesOther.ofSpecifier_eq.symm.trans hnames.ofSpecifier_eq
  obtain ⟨rfl, rfl⟩ := PackageReference.mk.inj hsame
  exact ⟨rfl, rfl⟩

/-- A query that is not bare does nothing. -/
theorem resolve_of_not_bare (h : PackageReference.isBare query.specifier.toList = false) :
    query.resolve locator field = pure .unresolved :=
  Resolution.resolve_of_not_bare h

/-- A query that asks for a package is answered from what the locator says. -/
theorem result_resolve (h : query.Asks hasSubpath place) :
    (query.resolve locator field).result =
      Resolution.ofAnswer field query.specifier hasSubpath (locator place.1 place.2) := by
  obtain ⟨hbare, hnames⟩ := h
  rw [resolve, Resolution.result_resolve_of_bare hbare, hnames.ofSpecifier_eq, folderOf_importer]

/-- A query that asks for a package asks for it once and for nothing else. -/
theorem lookups_resolve (h : query.Asks hasSubpath place) :
    (query.resolve locator field).lookups = [place] := by
  obtain ⟨hbare, hnames⟩ := h
  rw [resolve, Resolution.resolve, if_pos hbare, hnames.ofSpecifier_eq, folderOf_importer,
    Run.lookups, Run.events_bind_of_ok _ (Run.result_record _), Run.events_record,
    List.singleton_append]
  refine congrArg (List.cons _) ?_
  cases hanswer : Resolution.ofAnswer field query.specifier hasSubpath
      (locator _ query.folder) with
  | error error => rfl
  | ok answer => cases answer <;> rfl

/-- Nothing is asked of a locator but what the query asks for. -/
theorem resolve_congr (h : ∀ hasSubpath place, query.Asks hasSubpath place →
    other place.1 place.2 = locator place.1 place.2) :
    query.resolve other field = query.resolve locator field := by
  cases hbare : PackageReference.isBare query.specifier.toList with
  | false => rw [resolve_of_not_bare hbare, resolve_of_not_bare hbare]
  | true =>
    obtain ⟨hasSubpath, place, hasks⟩ := exists_asks hbare
    have hsame := h hasSubpath place hasks
    obtain ⟨-, hnames⟩ := hasks
    simp only [resolve, Resolution.resolve, hnames.ofSpecifier_eq, folderOf_importer, hsame]

/-- An import of a path within a package leads nowhere. -/
theorem answer_of_subpath {package : Text}
    (h : PackageReference.Names query.specifier.toList ⟨package, true⟩) (path : FilePath) :
    query.answer locator field ≠ .ok (some path) := by
  cases hbare : PackageReference.isBare query.specifier.toList with
  | false => simp [answer, resolve_of_not_bare hbare, Resolution.path?, Except.map]
  | true =>
    rw [answer, result_resolve (.bare hbare h)]
    rcases locator _ _ with ⟨_ | _ | _ | _ | _⟩ | manifest <;>
      simp [Resolution.ofAnswer, Resolution.path?, Except.map]

/-- What a query notes follows from what it asks for. -/
theorem denies_iff (h : query.Asks hasSubpath place) {package : String} :
    query.Denies locator package ↔ locator place.1 place.2 = .error (.hidden package) := by
  refine ⟨?_, fun hhidden => ⟨hasSubpath, place, h, hhidden⟩⟩
  rintro ⟨otherPath, otherPlace, hother, hhidden⟩
  obtain ⟨-, rfl⟩ := h.unique hother
  exact hhidden

/-- A query that is not bare notes nothing. -/
theorem not_denies (h : PackageReference.isBare query.specifier.toList = false) (package : String) :
    ¬ query.Denies locator package := by
  rintro ⟨hasSubpath, place, ⟨hbare, -⟩, -⟩
  rw [h] at hbare
  contradiction

/-- The package of a hidden manifest is noted, and nothing else is. -/
theorem mem_afterRun_resolve {denials : Denials} {package : String} :
    package ∈ (BuildState.afterRun { denials } (query.resolve locator field)).denials.packages ↔
      query.Denies locator package ∨ package ∈ denials.packages := by
  rw [resolve, Plugin.afterRun_resolve, ← resolve]
  cases hbare : PackageReference.isBare query.specifier.toList with
  | false =>
    rw [resolve_of_not_bare hbare]
    exact (or_iff_right (not_denies hbare package)).symm
  | true =>
    obtain ⟨hasSubpath, place, hasks⟩ := exists_asks hbare
    rw [denies_iff hasks, result_resolve hasks]
    cases locator place.1 place.2 with
    | ok manifest =>
      cases hasSubpath with
      | true => simp [Resolution.ofAnswer, Resolution.note]
      | false =>
        cases hentry : Resolution.entryOf? field manifest <;>
          simp [Resolution.ofAnswer, Resolution.note, hentry]
    | error failure =>
      cases failure with
      | hidden denied =>
        simp only [Resolution.ofAnswer, Resolution.note, Denials.mem_packages_record]
        simp [eq_comm]
      | notFound _ | unreadable _ | malformed _ => simp [Resolution.ofAnswer, Resolution.note]

/-- Noting a package keeps the notes in order. -/
theorem isOrdered_afterRun_resolve {denials : Denials} (h : denials.IsOrdered) :
    (BuildState.afterRun { denials } (query.resolve locator field)).denials.IsOrdered := by
  rw [resolve, Plugin.afterRun_resolve]
  split
  · rename_i answer _
    cases answer with
    | denied package => exact h.record package
    | entry _ | unresolved => exact h
  · exact h

/-- A query whose package is denied is answered. -/
theorem Denies.answer_eq {package : String} (h : query.Denies locator package) :
    query.answer locator field = .ok none := by
  obtain ⟨hasSubpath, place, hasks, hhidden⟩ := h
  rw [answer, result_resolve hasks, hhidden]
  rfl

end ImportQuery

/-! ### One query after the other -/

/-- What is seen of queries that are made one after the other: the answers and what was asked of the
locator, in order, and the packages that are noted in the end. -/
structure QueryLog where
  answers : List (Except BuildError (Option FilePath))
  lookups : List (String × FilePath)
  denials : Denials

namespace ImportQuery

/-- Make queries one after the other. Each one finds the notes of those before it. -/
def askAll (locator : ManifestLocator) (field : String) (denials : Denials) :
    List ImportQuery → QueryLog
  | [] => ⟨[], [], denials⟩
  | query :: rest =>
    let run := query.resolve locator field
    let later := askAll locator field (BuildState.afterRun { denials } run).denials rest
    ⟨run.result.map Resolution.path? :: later.answers, run.lookups ++ later.lookups, later.denials⟩

variable {locator : ManifestLocator} {field : String}

/-- Each query is answered as if it were the only one. -/
theorem answers_askAll (denials : Denials) (queries : List ImportQuery) :
    (askAll locator field denials queries).answers = queries.map (answer locator field) := by
  induction queries generalizing denials with
  | nil => rfl
  | cons query rest ih =>
    rw [askAll, List.map_cons]
    exact congrArg (List.cons _) (ih _)

/-- What is asked of the locator follows from each query on its own. -/
theorem lookups_askAll (denials : Denials) (queries : List ImportQuery) :
    (askAll locator field denials queries).lookups =
      queries.flatMap fun query => (query.resolve locator field).lookups := by
  induction queries generalizing denials with
  | nil => rfl
  | cons query rest ih =>
    rw [askAll, List.flatMap_cons]
    exact congrArg (_ ++ ·) (ih _)

/-- The packages that queries deny are noted. -/
theorem mem_denials_askAll {denials : Denials} {queries : List ImportQuery} {package : String} :
    package ∈ (askAll locator field denials queries).denials.packages ↔
      (∃ query ∈ queries, query.Denies locator package) ∨ package ∈ denials.packages := by
  induction queries generalizing denials with
  | nil => simp [askAll]
  | cons query rest ih =>
    rw [askAll]
    simp only [ih, mem_afterRun_resolve, List.exists_mem_cons_iff]
    rw [or_left_comm, or_assoc]

/-- What is noted, starting without notes, is what is denied. -/
theorem mem_denials_askAll_empty {queries : List ImportQuery} {package : String} :
    package ∈ (askAll locator field {} queries).denials.packages ↔
      ∃ query ∈ queries, query.Denies locator package := by
  rw [mem_denials_askAll]
  exact or_iff_left List.not_mem_nil

/-- The notes stay in order. -/
theorem isOrdered_askAll {denials : Denials} (h : denials.IsOrdered) (queries : List ImportQuery) :
    (askAll locator field denials queries).denials.IsOrdered := by
  induction queries generalizing denials with
  | nil => exact h
  | cons query rest ih => exact ih (isOrdered_afterRun_resolve h)

/-- The notes follow from what is denied. -/
theorem denials_askAll_congr {queries others : List ImportQuery}
    (h : ∀ package, (∃ query ∈ others, query.Denies locator package) ↔
      ∃ query ∈ queries, query.Denies locator package) :
    (askAll locator field {} others).denials = (askAll locator field {} queries).denials := by
  refine (isOrdered_askAll Denials.isOrdered_empty others).eq_of_members
    (isOrdered_askAll Denials.isOrdered_empty queries) fun package => ?_
  rw [mem_denials_askAll_empty, mem_denials_askAll_empty, h]

/-- Queries come out alike when the locators agree on what is asked for. -/
theorem askAll_congr {other : ManifestLocator} {denials : Denials} {queries : List ImportQuery}
    (h : ∀ place ∈ (askAll locator field denials queries).lookups,
      other place.1 place.2 = locator place.1 place.2) :
    askAll other field denials queries = askAll locator field denials queries := by
  induction queries generalizing denials with
  | nil => rfl
  | cons query rest ih =>
    have hquery : query.resolve other field = query.resolve locator field := by
      refine resolve_congr fun hasSubpath place hasks => h place (List.mem_append_left _ ?_)
      rw [lookups_resolve hasks]
      exact List.mem_singleton_self place
    have hrest := ih fun place hplace => h place (List.mem_append_right _ hplace)
    rw [askAll, hquery, hrest]
    rfl

/-- What holds of queries that are made one after the other, starting without notes. -/
structure Account (locator : ManifestLocator) (field : String) (queries : List ImportQuery) :
    Prop where
  /-- Each query is answered as if it were the only one, whatever was noted before. -/
  answers : ∀ denials, (askAll locator field denials queries).answers =
    queries.map (answer locator field)
  /-- A bare specifier asks once for the package that it names, as seen from the folder of its
  file. -/
  lookups_bare : ∀ query ∈ queries, PackageReference.isBare query.specifier.toList = true →
    ∃ reference, PackageReference.Names query.specifier.toList reference ∧
      (query.resolve locator field).lookups =
        [(String.ofList reference.package, query.folder)]
  /-- Another specifier asks for nothing. -/
  lookups_other : ∀ query ∈ queries, PackageReference.isBare query.specifier.toList = false →
    (query.resolve locator field).lookups = []
  /-- The locator is asked for what the queries ask for, in their order. -/
  lookups : ∀ denials, (askAll locator field denials queries).lookups =
    queries.flatMap fun query => (query.resolve locator field).lookups
  /-- What the locator would say elsewhere does not matter. -/
  asks_only : ∀ (denials : Denials) (other : ManifestLocator),
    (∀ place ∈ (askAll locator field denials queries).lookups,
      other place.1 place.2 = locator place.1 place.2) →
    askAll other field denials queries = askAll locator field denials queries
  /-- The packages that are noted are those that the locator says, when it is asked, to hide their
  manifests, whether a path within them was asked for or not. -/
  mem_denials : ∀ package, package ∈ (askAll locator field {} queries).denials.packages ↔
    ∃ query ∈ queries, query.Denies locator package
  /-- An import of a path within a package leads nowhere. -/
  subpaths : ∀ query ∈ queries, ∀ package,
    PackageReference.Names query.specifier.toList ⟨package, true⟩ →
      ∀ path, query.answer locator field ≠ .ok (some path)
  /-- There is no report exactly when no package is denied. -/
  no_report : (askAll locator field {} queries).denials.summary? field = none ↔
    ∀ package, ¬ ∃ query ∈ queries, query.Denies locator package
  /-- A report lists each denied package once, in ascending order. -/
  report : ∀ text, (askAll locator field {} queries).denials.summary? field = some text →
    ∃ packages : List String, packages.Pairwise (· < ·) ∧
      (∀ package, package ∈ packages ↔ ∃ query ∈ queries, query.Denies locator package) ∧
      text = "[compose-native] The following packages did not export their " ++
        "`package.json` file so we could not check the \"" ++ field ++ "\" field. If you had " ++
        "difficulties importing components from a package, then please contact the author and ask " ++
        "them to export the package.json file.\n" ++
        String.join (packages.map fun name => "- " ++ name ++ "\n")
  /-- Neither the order of the queries nor repetitions of them nor queries that failed matter for
  what is noted. -/
  denials_alike : ∀ others, (∀ query, (∃ path?, query.answer locator field = .ok path?) →
      (query ∈ others ↔ query ∈ queries)) →
    (askAll locator field {} others).denials = (askAll locator field {} queries).denials

/-- Queries are independent of each other, and what they note is the set of the packages that they
deny. -/
theorem account_askAll (locator : ManifestLocator) (field : String) (queries : List ImportQuery) :
    Account locator field queries where
  answers denials := answers_askAll denials queries
  lookups_bare query _ hbare := by
    obtain ⟨reference, hnames⟩ := PackageReference.exists_names query.specifier.toList
    exact ⟨reference, hnames, lookups_resolve (.bare hbare hnames)⟩
  lookups_other query _ hbare := by
    rw [resolve_of_not_bare hbare]
    rfl
  lookups denials := lookups_askAll denials queries
  asks_only denials other h := askAll_congr h
  mem_denials _ := mem_denials_askAll_empty
  subpaths query _ package hnames path := answer_of_subpath hnames path
  no_report := by
    rw [Denials.summary?_eq_none_iff, List.eq_nil_iff_forall_not_mem]
    exact forall_congr' fun package => not_congr mem_denials_askAll_empty
  report text h := by
    have hsome : (askAll locator field {} queries).denials.packages ≠ [] := by
      intro hnil
      rw [Denials.summary?_eq_none_iff.mpr hnil] at h
      contradiction
    rw [Denials.summary?_of_ne_nil field hsome] at h
    exact ⟨_, isOrdered_askAll Denials.isOrdered_empty queries,
      fun package => mem_denials_askAll_empty, (Option.some.inj h).symm⟩
  denials_alike others h := by
    refine denials_askAll_congr fun package => exists_congr fun query => and_congr_left ?_
    intro hdenies
    exact h query ⟨none, hdenies.answer_eq⟩

/-- Two packages that hide their manifests are asked for, one of them twice and one by a path within
it. Each has one line in the report, in ascending order. -/
theorem account_askAll_of_two_denied :
    let locator : ManifestLocator := fun package _ => .error (.hidden package)
    let queries : List ImportQuery := [
      ⟨"ui", .ofString "src/a.js"⟩, ⟨"@kit/icons/x", .ofString "a.js"⟩,
      ⟨"./ui", .ofString "src/a.js"⟩, ⟨"ui", .ofString "src/b.js"⟩]
    Account locator "svelte" queries ∧
      (askAll locator "svelte" {} queries).lookups = [("ui", .ofString "src"),
        ("@kit/icons", .ofString ""), ("ui", .ofString "src")] ∧
      (askAll locator "svelte" {} queries).denials.summary? "svelte" =
        some ("[compose-native] The following packages did not export their `package.json` file " ++
          "so we could not check the \"svelte\" field. If you had difficulties importing " ++
          "components from a package, then please contact the author and ask them to export the " ++
          "package.json file.\n- @kit/icons\n- ui\n") :=
  ⟨account_askAll _ _ _, by decide +kernel, by decide +kernel⟩

end ImportQuery

end InlineComponents
