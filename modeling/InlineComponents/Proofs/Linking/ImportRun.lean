import InlineComponents.Proofs.Linking.Steps
import Mathlib.Data.List.Forall2
import Mathlib.Data.List.Nodup

/-!
# The import bindings of a linking run

A linking run asks for the bindings of its children one by one: for each child those of its static
imports in the order of the text, and then those of its runtime import. A binding that is asked for
is already there, or new and selected for one of the statements that linking writes, or in conflict.
The run is followed binding by binding here, so that its invariant also holds in the middle of a
statement, and every step of linking is shown to be a stretch of it.
-/

namespace InlineComponents

/-- The names that a statement binds, with its source. -/
def ImportStatement.boundNames (statement : ImportStatement) : List BoundName :=
  statement.bindings.map fun binding => ⟨binding.localName, statement.source, binding.imported⟩

/-- The names that the text of a statement binds. -/
def ImportStatement.namesIn (text : Text) : List BoundName :=
  (parse? text).toList.flatMap boundNames

/-- The bindings that a child asks for, in order: its runtime import comes last. -/
def ChildCut.requests (contract : OutputContract) (cut : ChildCut) : List BoundName :=
  cut.statements.flatMap ImportStatement.namesIn ++ (cut.runtimeStatement contract).boundNames

/-- The names that the imports of a module bind: those of its runtime import first. -/
def LinkedCode.importedNames (runtime : RuntimeImport) (code : Text) : List BoundName :=
  (runtime.place.text :: ImportStatement.staticImportTexts code).flatMap ImportStatement.namesIn

/-- A linking run between two bindings: the names bound so far, and those of them that were selected
for a statement of the linked module. -/
structure Selection where
  scope : ImportScope
  selected : List BoundName
  deriving DecidableEq, Repr

namespace Selection

/-- Ask for one binding: a name that is bound must stand for the same export, and one that is free
is bound and selected. -/
def ask (state : Selection) (request : BoundName) : Except ContractViolation Selection :=
  match state.scope.find? request.localName with
  | none => .ok ⟨⟨request :: state.scope.names⟩, state.selected ++ [request]⟩
  | some bound =>
    if bound.source = request.source ∧ bound.imported = request.imported then .ok state
    else .error (.duplicateImportBinding (String.ofList request.localName))

/-- Ask for several bindings, one after the other. -/
def run (state : Selection) : List BoundName → Except ContractViolation Selection
  | [] => .ok state
  | request :: rest => state.ask request >>= fun next => next.run rest

/-- The run before any child, with the names of the parent bound. -/
def start (runtime : RuntimeImport) (code : Text) : Selection :=
  ⟨LinkedCode.parentScope runtime code, []⟩

end Selection

/-! ### Texts that bind a name -/

namespace ImportStatement

/-- Whether the statement that is read from a text binds a local name. -/
def binds (name text : Text) : Bool := (namesIn text).any fun bound => bound.localName = name

/-- A text binds the names that are read from it. -/
theorem binds_iff {name text : Text} :
    binds name text = true ↔ name ∈ (namesIn text).map BoundName.localName := by
  simp [binds]

/-- Among texts that bind no local name twice, a single one binds a name. -/
theorem exists_filter_binds_eq {texts : List Text} (bound : BoundName)
    (hnodup : ((texts.flatMap namesIn).map BoundName.localName).Nodup)
    (h : bound ∈ texts.flatMap namesIn) :
    ∃ text, texts.filter (binds bound.localName) = [text] ∧ bound ∈ namesIn text := by
  induction texts with
  | nil => contradiction
  | cons first rest ih =>
    rw [List.flatMap_cons, List.map_append, List.nodup_append'] at hnodup
    obtain ⟨-, hrest, hdisjoint⟩ := hnodup
    rcases List.mem_append.mp (List.flatMap_cons ▸ h) with hfirst | hmem
    · have hname := List.mem_map_of_mem (f := BoundName.localName) hfirst
      refine ⟨first, ?_, hfirst⟩
      rw [List.filter_cons_of_pos (binds_iff.mpr hname), List.filter_eq_nil_iff.mpr]
      intro text htext hbinds
      obtain ⟨found, hfound, heq⟩ := List.mem_map.mp (binds_iff.mp hbinds)
      exact hdisjoint hname (heq ▸ List.mem_map_of_mem (List.mem_flatMap.mpr ⟨text, htext, hfound⟩))
    · have hname := List.mem_map_of_mem (f := BoundName.localName) hmem
      obtain ⟨text, hfilter, htext⟩ := ih hrest hmem
      refine ⟨text, ?_, htext⟩
      rw [List.filter_cons_of_neg fun hbinds => hdisjoint (binds_iff.mp hbinds) hname, hfilter]

end ImportStatement

/-! ### The names bound by the parent -/

namespace ImportScope

/-- What a name stands for is an entry under that name. -/
theorem find?_eq_some {scope : ImportScope} {name : Text} {bound : BoundName}
    (h : scope.find? name = some bound) : bound.localName = name := by
  simpa using List.find?_some h

/-- Binding a free name leaves the names that are bound, and the first binding of others counts. -/
theorem find?_bindFree (scope : ImportScope) (statement : ImportStatement) (name : Text) :
    (scope.bindFree statement).find? name =
      (scope.find? name).or (statement.boundNames.find? (·.localName = name)) := by
  obtain ⟨source, bindings⟩ := statement
  unfold bindFree
  simp only [ImportStatement.boundNames]
  induction bindings generalizing scope with
  | nil => simp
  | cons binding rest ih =>
    rw [List.foldl_cons, ih, List.map_cons, List.find?_cons]
    by_cases hname : binding.localName = name
    · subst hname
      cases hfound : scope.find? binding.localName with
      | none => simp
      | some bound => simp [hfound]
    · have hne : name ≠ binding.localName := fun h => hname h.symm
      simp only [hname, decide_false]
      split
      · rfl
      · rw [find?_add_of_ne scope source hne]

/-- Of several statements the first that binds a name counts. -/
theorem find?_foldl_bindFree (scope : ImportScope) (statements : List ImportStatement)
    (name : Text) :
    (statements.foldl bindFree scope).find? name = (scope.find? name).or
      ((statements.flatMap ImportStatement.boundNames).find? (·.localName = name)) := by
  induction statements generalizing scope with
  | nil => simp
  | cons statement rest ih =>
    rw [List.foldl_cons, ih, find?_bindFree, List.flatMap_cons, List.find?_append, Option.or_assoc]

/-- What a name stands for before any child. -/
theorem find?_parentScope (runtime : RuntimeImport) (code : Text) (name : Text) :
    (LinkedCode.parentScope runtime code).find? name =
      (LinkedCode.importedNames runtime code).find? (·.localName = name) := by
  rw [LinkedCode.parentScope, ofTexts, find?_foldl_bindFree, List.filterMap_eq_flatMap_toList,
    List.flatMap_assoc]
  rfl

end ImportScope

/-! ### The invariant of a run -/

/-- What holds of a run that has processed the given requests, when the parent binds the given
names. -/
structure RunInvariant (parent processed : List BoundName) (state : Selection) : Prop where
  /-- A name that the parent binds stands for what its first import of that name says. -/
  parent_first : ∀ name bound, parent.find? (·.localName = name) = some bound →
    state.scope.find? name = some bound
  /-- Every request that was processed agrees with what its name stands for. -/
  agrees : ∀ request ∈ processed, state.scope.find? request.localName = some request
  /-- No name is bound but those of the parent and the selected ones. -/
  origin : ∀ name bound, state.scope.find? name = some bound →
    bound ∈ parent ∨ bound ∈ state.selected
  /-- Only what was asked for is selected, in the order of the requests. -/
  requested : state.selected.Sublist processed
  /-- No local name is selected twice. -/
  once : (state.selected.map BoundName.localName).Nodup
  /-- No local name of the parent is selected. -/
  not_parent : ∀ request ∈ state.selected, ∀ bound ∈ parent,
    request.localName ≠ bound.localName

namespace Selection

/-- A binding is asked for without a conflict exactly when it is bound already or its name is
free. -/
theorem ask_eq_ok_iff {state next : Selection} {request : BoundName} :
    state.ask request = .ok next ↔
      state.scope.find? request.localName = some request ∧ next = state ∨
      state.scope.find? request.localName = none ∧
        next = ⟨⟨request :: state.scope.names⟩, state.selected ++ [request]⟩ := by
  unfold ask
  cases hfound : state.scope.find? request.localName with
  | none => simp [eq_comm]
  | some bound =>
    have hname := ImportScope.find?_eq_some hfound
    have hsame : (bound.source = request.source ∧ bound.imported = request.imported) ↔
        bound = request := by
      constructor
      · rintro ⟨hsource, himported⟩
        cases bound
        cases request
        simp_all
      · rintro rfl
        exact ⟨rfl, rfl⟩
    simp only [hsame]
    by_cases h : bound = request
    · simp [h, eq_comm]
    · simp [h]

/-- A conflict is a name that stands for something else. -/
theorem ask_eq_error_iff {state : Selection} {request : BoundName} {violation : ContractViolation} :
    state.ask request = .error violation ↔
      violation = .duplicateImportBinding (String.ofList request.localName) ∧
        ∃ bound, state.scope.find? request.localName = some bound ∧
          (bound.source ≠ request.source ∨ bound.imported ≠ request.imported) := by
  unfold ask
  cases hfound : state.scope.find? request.localName with
  | none => simp
  | some bound =>
    by_cases h : bound.source = request.source ∧ bound.imported = request.imported
    · simp [h]
    · simp only [h, ↓reduceIte, Except.error.injEq, Option.some.injEq]
      constructor
      · rintro rfl
        exact ⟨rfl, bound, rfl, not_and_or.mp h⟩
      · rintro ⟨rfl, -⟩
        rfl

/-- The requests of two stretches are asked for one after the other. -/
theorem run_append (state : Selection) (front back : List BoundName) :
    state.run (front ++ back) = (state.run front >>= fun middle => middle.run back) := by
  induction front generalizing state with
  | nil => rfl
  | cons request rest ih =>
    rw [List.cons_append, run, run]
    cases state.ask request with
    | error violation => rfl
    | ok next => exact ih next

/-- A run fails at the first request that is in conflict. -/
theorem run_eq_error_iff {state : Selection} {requests : List BoundName}
    {violation : ContractViolation} :
    state.run requests = .error violation ↔
      ∃ front request back middle, requests = front ++ request :: back ∧
        state.run front = .ok middle ∧ middle.ask request = .error violation := by
  constructor
  · intro h
    induction requests generalizing state with
    | nil => contradiction
    | cons request rest ih =>
      rw [run] at h
      cases hask : state.ask request with
      | error other =>
        rw [hask] at h
        obtain rfl := Except.error.inj h
        exact ⟨[], request, rest, state, rfl, rfl, hask⟩
      | ok next =>
        rw [hask] at h
        obtain ⟨front, failing, back, middle, rfl, hfront, hfailing⟩ := ih h
        refine ⟨request :: front, failing, back, middle, rfl, ?_, hfailing⟩
        rw [run, hask]
        exact hfront
  · rintro ⟨front, request, back, middle, rfl, hfront, hask⟩
    rw [run_append, hfront]
    change middle.run (request :: back) = _
    rw [run, hask]
    rfl

end Selection

namespace RunInvariant

variable {parent processed : List BoundName} {state : Selection}

/-- The invariant holds before any child. -/
theorem start (runtime : RuntimeImport) (code : Text) :
    RunInvariant (LinkedCode.importedNames runtime code) [] (Selection.start runtime code) where
  parent_first := fun name bound h => by
    rw [← h]
    exact ImportScope.find?_parentScope runtime code name
  agrees := fun request h => by contradiction
  origin := fun name bound h => by
    rw [Selection.start, ImportScope.find?_parentScope] at h
    exact Or.inl (List.mem_of_find?_eq_some h)
  requested := List.Sublist.refl []
  once := List.nodup_nil
  not_parent := fun request h => by contradiction

/-- What a name stands for when another one is bound. -/
theorem find?_cons {scope : ImportScope} {request : BoundName} {name : Text}
    (h : request.localName ≠ name) :
    ImportScope.find? ⟨request :: scope.names⟩ name = scope.find? name := by
  rw [ImportScope.find?, List.find?_cons_of_neg (by simpa using h)]
  rfl

/-- A name just bound stands for what was asked for. -/
theorem find?_cons_self (scope : ImportScope) (request : BoundName) :
    ImportScope.find? ⟨request :: scope.names⟩ request.localName = some request := by
  rw [ImportScope.find?, List.find?_cons_of_pos (by simp)]

/-- One request keeps the invariant. -/
theorem ask (h : RunInvariant parent processed state) {request : BoundName} {next : Selection}
    (hask : state.ask request = .ok next) :
    RunInvariant parent (processed ++ [request]) next := by
  rcases Selection.ask_eq_ok_iff.mp hask with ⟨hbound, rfl⟩ | ⟨hfree, rfl⟩
  · refine { h with agrees := ?_, requested := ?_ }
    · intro other hother
      rcases List.mem_append.mp hother with hold | hnew
      · exact h.agrees other hold
      · obtain rfl := List.mem_singleton.mp hnew
        exact hbound
    · exact h.requested.trans (List.sublist_append_left processed [request])
  · -- A name that stands for something is not the free one, so it keeps what it stands for.
    have hkeeps {name : Text} {bound : BoundName} (hfound : state.scope.find? name = some bound) :
        ImportScope.find? ⟨request :: state.scope.names⟩ name = some bound := by
      rw [find?_cons, hfound]
      rintro rfl
      rw [hfree] at hfound
      contradiction
    refine ⟨?_, ?_, ?_, ?_, ?_, ?_⟩
    · intro name bound hparent
      exact hkeeps (h.parent_first name bound hparent)
    · intro other hother
      rcases List.mem_append.mp hother with hold | hnew
      · exact hkeeps (h.agrees other hold)
      · obtain rfl := List.mem_singleton.mp hnew
        exact find?_cons_self state.scope other
    · intro name bound hfound
      by_cases hname : request.localName = name
      · subst hname
        rw [find?_cons_self] at hfound
        obtain rfl := Option.some.inj hfound
        exact Or.inr (List.mem_append_right state.selected List.mem_cons_self)
      · rw [find?_cons hname] at hfound
        exact (h.origin name bound hfound).imp_right (List.mem_append_left [request])
    · exact h.requested.append (List.Sublist.refl [request])
    · -- A selected name was asked for, so it is bound, and the new name is not.
      rw [List.map_append, List.map_singleton]
      refine List.Nodup.append h.once (List.nodup_singleton _) ?_
      rw [List.disjoint_singleton]
      intro hmem
      obtain ⟨other, hother, hname⟩ := List.mem_map.mp hmem
      have hbound := h.agrees other (h.requested.subset hother)
      rw [hname, hfree] at hbound
      contradiction
    · intro other hother bound hparent hname
      rcases List.mem_append.mp hother with hold | hnew
      · exact h.not_parent other hold bound hparent hname
      · obtain rfl := List.mem_singleton.mp hnew
        have hsome : (parent.find? (·.localName = other.localName)).isSome = true :=
          List.find?_isSome.mpr ⟨bound, hparent, by simp [hname]⟩
        obtain ⟨first, hfirst⟩ := Option.isSome_iff_exists.mp hsome
        rw [h.parent_first _ first hfirst] at hfree
        contradiction

/-- A run keeps the invariant. -/
theorem run (h : RunInvariant parent processed state) {requests : List BoundName}
    {final : Selection} (hrun : state.run requests = .ok final) :
    RunInvariant parent (processed ++ requests) final := by
  induction requests generalizing processed state with
  | nil =>
    obtain rfl := Except.ok.inj hrun
    rwa [List.append_nil]
  | cons request rest ih =>
    obtain ⟨next, hask, hrest⟩ := bind_eq_ok_iff.mp hrun
    have := ih (h.ask hask) hrest
    rwa [List.append_assoc] at this

end RunInvariant

/-! ### The steps of linking as stretches of the run -/

/-- A statement that linking moves to the front: its text as it was found, or what is left of it. -/
inductive Moved where
  | verbatim (text : Text) (unbound : ImportStatement.namesIn text = [])
  | narrowed (statement : ImportStatement) (bound : statement.bindings ≠ [])

namespace Moved

/-- The text that stands in the region. -/
def text : Moved → Text
  | verbatim text _ => text
  | narrowed statement _ => statement.render

/-- The names that were selected for the statement. -/
def boundNames : Moved → List BoundName
  | verbatim _ _ => []
  | narrowed statement _ => statement.boundNames

end Moved

/-- A child whose module could be cut. -/
structure CutChild (contract : OutputContract) (binding : Text) where
  child : ChildCode
  cut : ChildCut
  cut_eq : ChildCut.ofCode contract (OutputContract.generatedSymbol binding child.name) child.code =
    .ok cut

/-- The bindings that the child asks for. -/
def CutChild.requests {contract : OutputContract} {binding : Text}
    (part : CutChild contract binding) : List BoundName := part.cut.requests contract

/-- A child is cut in one way only. -/
theorem CutChild.eq_of_child_eq {contract : OutputContract} {binding : Text}
    {part other : CutChild contract binding} (h : part.child = other.child) : part = other := by
  obtain ⟨child, cut, hcut⟩ := part
  obtain ⟨child', cut', hcut'⟩ := other
  obtain rfl : child = child' := h
  obtain rfl := Except.ok.inj (hcut.symm.trans hcut')
  rfl

/-- A child with what a run writes for its imports: the statements moved to the front, and the
bindings of its runtime import that stand in its block. -/
structure WrappedChild (contract : OutputContract) (binding : Text) extends
    CutChild contract binding where
  moved : List Moved
  missing : List ImportBinding

namespace WrappedChild

variable {contract : OutputContract} {binding : Text}

/-- The statement that stands in the block of the child, if it binds a name. -/
def runtime (part : WrappedChild contract binding) : ImportStatement :=
  ⟨(part.cut.runtimeStatement contract).source, part.missing⟩

/-- The names that were selected for the child, in the order of its requests. -/
def selected (part : WrappedChild contract binding) : List BoundName :=
  part.moved.flatMap Moved.boundNames ++ part.runtime.boundNames

/-- The block of the child. -/
def block (part : WrappedChild contract binding) : Text :=
  childBlock binding part.child.name part.cut.body
    (OutputContract.generatedSymbol binding part.child.name) part.runtime.source part.missing

end WrappedChild

namespace ImportScope

/-- Looking for the new bindings of a statement is to ask for its bindings. -/
theorem run_boundNames (scope : ImportScope) (selected : List BoundName) (source : Text)
    (bindings : List ImportBinding) :
    Selection.run ⟨scope, selected⟩ (ImportStatement.boundNames ⟨source, bindings⟩) =
      (scope.bindNew source bindings).map fun (fresh, final) =>
        ⟨final, selected ++ ImportStatement.boundNames ⟨source, fresh⟩⟩ := by
  induction bindings generalizing scope selected with
  | nil => simp [ImportStatement.boundNames, Selection.run, bindNew, Except.map]
  | cons binding rest ih =>
    have hnames (fresh : List ImportBinding) :
        ImportStatement.boundNames ⟨source, binding :: fresh⟩ =
          ⟨binding.localName, source, binding.imported⟩ ::
            ImportStatement.boundNames ⟨source, fresh⟩ := rfl
    rw [hnames, Selection.run, Selection.ask, bindNew]
    cases hfound : scope.find? binding.localName with
    | none =>
      change Selection.run ⟨scope.add source binding, _⟩ _ = _
      rw [ih]
      cases (scope.add source binding).bindNew source rest with
      | error violation => rfl
      | ok result => simp [Except.map, hnames]
    | some bound =>
      by_cases hsame : bound.source = source ∧ bound.imported = binding.imported
      · simp only [hsame, and_self, ↓reduceIte]
        exact ih scope selected
      · simp only [hsame, ↓reduceIte]
        rfl

end ImportScope

namespace LinkState

variable {parentCode : Text}

/-- Moving a statement asks for its bindings, and adds at most one statement with those that were
selected. -/
theorem hoist_eq_ok {state next : LinkState} {statement : Text}
    (h : state.hoist parentCode statement = .ok next) (selected : List BoundName) :
    ∃ moved : List Moved, next.hoisted = state.hoisted ++ moved.map Moved.text ∧
      Selection.run ⟨state.scope, selected⟩ (ImportStatement.namesIn statement) =
        .ok ⟨next.scope, selected ++ moved.flatMap Moved.boundNames⟩ := by
  have hverbatim (hunbound : ImportStatement.namesIn statement = [])
      (hnext : (if Text.occursIn statement parentCode || state.hoisted.contains statement then state
        else { state with hoisted := state.hoisted ++ [statement] }) = next) :
      ∃ moved : List Moved, next.hoisted = state.hoisted ++ moved.map Moved.text ∧
        Selection.run ⟨state.scope, selected⟩ (ImportStatement.namesIn statement) =
          .ok ⟨next.scope, selected ++ moved.flatMap Moved.boundNames⟩ := by
    rw [hunbound]
    split at hnext
    · subst hnext
      exact ⟨[], by simp, by simp [Selection.run]⟩
    · subst hnext
      exact ⟨[.verbatim statement hunbound], rfl, by simp [Selection.run, Moved.boundNames]⟩
  unfold hoist at h
  simp only at h
  split at h
  · rename_i hparse
    exact hverbatim (by rw [ImportStatement.namesIn, hparse]; rfl) (Except.ok.inj h)
  · rename_i parsed hparse
    have hnames : ImportStatement.namesIn statement = parsed.boundNames := by
      rw [ImportStatement.namesIn, hparse]
      exact List.append_nil _
    split at h
    · rename_i hempty
      refine hverbatim ?_ (Except.ok.inj h)
      rw [hnames, ImportStatement.boundNames, List.isEmpty_iff.mp hempty, List.map_nil]
    · obtain ⟨⟨fresh, scope⟩, hbind, h⟩ := bind_eq_ok_iff.mp h
      have hrun := ImportScope.run_boundNames state.scope selected parsed.source parsed.bindings
      rw [hbind] at hrun
      rw [hnames]
      simp only at h
      split at h
      · rename_i hfresh
        obtain rfl := Except.ok.inj h
        rw [List.isEmpty_iff.mp hfresh] at hrun
        exact ⟨[], by simp, hrun⟩
      · rename_i hfresh
        obtain rfl := Except.ok.inj h
        exact ⟨[.narrowed ⟨parsed.source, fresh⟩ (by simpa using hfresh)], rfl, by
          simpa [Moved.boundNames, Except.map] using hrun⟩

/-- A statement that cannot be moved asks for a binding that is in conflict. -/
theorem hoist_eq_error {state : LinkState} {statement : Text} {violation : ContractViolation}
    (h : state.hoist parentCode statement = .error violation) (selected : List BoundName) :
    Selection.run ⟨state.scope, selected⟩ (ImportStatement.namesIn statement) =
      .error violation := by
  unfold hoist at h
  simp only at h
  split at h
  · contradiction
  · rename_i parsed hparse
    have hnames : ImportStatement.namesIn statement = parsed.boundNames := by
      rw [ImportStatement.namesIn, hparse]
      exact List.append_nil _
    split at h
    · contradiction
    · have hrun := ImportScope.run_boundNames state.scope selected parsed.source parsed.bindings
      rw [hnames]
      cases hbind : state.scope.bindNew parsed.source parsed.bindings with
      | error other =>
        rw [hbind] at h hrun
        obtain rfl := Except.error.inj h
        exact hrun
      | ok result =>
        obtain ⟨fresh, scope⟩ := result
        rw [hbind] at h
        change (if fresh.isEmpty = true then _ else _) = _ at h
        split at h <;> contradiction

/-- Moving several statements asks for the bindings of all of them. -/
theorem hoistAll_eq_ok {state final : LinkState} {statements : List Text}
    (h : state.hoistAll parentCode statements = .ok final) (selected : List BoundName) :
    ∃ moved : List Moved, final.hoisted = state.hoisted ++ moved.map Moved.text ∧
      Selection.run ⟨state.scope, selected⟩ (statements.flatMap ImportStatement.namesIn) =
        .ok ⟨final.scope, selected ++ moved.flatMap Moved.boundNames⟩ := by
  induction statements generalizing state selected with
  | nil =>
    obtain rfl := Except.ok.inj h
    exact ⟨[], by simp, by simp [Selection.run]⟩
  | cons statement rest ih =>
    obtain ⟨next, hnext, hrest⟩ := bind_eq_ok_iff.mp h
    obtain ⟨first, hfirst, hrun⟩ := hoist_eq_ok hnext selected
    obtain ⟨others, hothers, hrunRest⟩ := ih hrest (selected ++ first.flatMap Moved.boundNames)
    refine ⟨first ++ others, ?_, ?_⟩
    · rw [hothers, hfirst, List.map_append, List.append_assoc]
    · rw [List.flatMap_cons, Selection.run_append, hrun, List.flatMap_append, ← List.append_assoc]
      exact hrunRest

/-- When statements cannot be moved, one of their bindings is in conflict. -/
theorem hoistAll_eq_error {state : LinkState} {statements : List Text}
    {violation : ContractViolation}
    (h : state.hoistAll parentCode statements = .error violation) (selected : List BoundName) :
    Selection.run ⟨state.scope, selected⟩ (statements.flatMap ImportStatement.namesIn) =
      .error violation := by
  induction statements generalizing state selected with
  | nil => contradiction
  | cons statement rest ih =>
    rw [List.flatMap_cons, Selection.run_append]
    cases hnext : state.hoist parentCode statement with
    | error other =>
      rw [hoistAll, hnext] at h
      obtain rfl := Except.error.inj h
      rw [hoist_eq_error hnext selected]
      rfl
    | ok next =>
      rw [hoistAll, hnext] at h
      obtain ⟨first, -, hrun⟩ := hoist_eq_ok hnext selected
      rw [hrun]
      exact ih h _

end LinkState

/-! ### Whole runs -/

variable {contract : OutputContract} {binding parentCode : Text}

/-- Wrapping a child asks for its bindings, and writes what was selected. -/
theorem wrapChild_eq_ok {state next : LinkState} {child : ChildCode} {block : Text}
    (h : wrapChild contract binding parentCode state child = .ok (block, next))
    (selected : List BoundName) :
    ∃ part : WrappedChild contract binding, part.child = child ∧ block = part.block ∧
      next.hoisted = state.hoisted ++ part.moved.map Moved.text ∧
      Selection.run ⟨state.scope, selected⟩ part.requests =
        .ok ⟨next.scope, selected ++ part.selected⟩ := by
  obtain ⟨cut, hoisted, missing, scope, hcut, hhoisted, hbind, rfl, rfl⟩ :=
    wrapChild_eq_ok_iff.mp h
  obtain ⟨moved, hmoved, hrun⟩ := LinkState.hoistAll_eq_ok hhoisted selected
  refine ⟨⟨⟨child, cut, hcut⟩, moved, missing⟩, rfl, rfl, hmoved, ?_⟩
  have hruntime := ImportScope.run_boundNames hoisted.scope
    (selected ++ moved.flatMap Moved.boundNames) (cut.runtimeStatement contract).source
    (cut.runtimeStatement contract).bindings
  rw [hbind] at hruntime
  change Selection.run _ (cut.statements.flatMap ImportStatement.namesIn ++
    (cut.runtimeStatement contract).boundNames) = _
  rw [Selection.run_append, hrun]
  change Selection.run _ _ = _
  rw [hruntime, WrappedChild.selected, ← List.append_assoc]
  rfl

/-- A child that was cut and cannot be wrapped asks for a binding that is in conflict. -/
theorem wrapChild_eq_error {state : LinkState} (part : CutChild contract binding)
    {violation : ContractViolation}
    (h : wrapChild contract binding parentCode state part.child = .error violation)
    (selected : List BoundName) :
    Selection.run ⟨state.scope, selected⟩ part.requests = .error violation := by
  simp only [wrapChild, bind_eq_error_iff, part.cut_eq, reduceCtorEq, false_or, Except.ok.injEq,
    exists_eq_left'] at h
  change Selection.run _ (part.cut.statements.flatMap ImportStatement.namesIn ++
    (part.cut.runtimeStatement contract).boundNames) = _
  rw [Selection.run_append]
  rcases h with hhoisted | ⟨hoisted, hhoisted, hbind⟩
  · rw [LinkState.hoistAll_eq_error hhoisted selected]
    rfl
  · obtain ⟨moved, -, hrun⟩ := LinkState.hoistAll_eq_ok hhoisted selected
    rw [hrun]
    change Selection.run _ _ = _
    have hruntime := ImportScope.run_boundNames hoisted.scope
      (selected ++ moved.flatMap Moved.boundNames) (part.cut.runtimeStatement contract).source
      (part.cut.runtimeStatement contract).bindings
    rcases hbind with hbind | ⟨⟨missing, scope⟩, -, hblock⟩
    · rw [hbind] at hruntime
      exact hruntime
    · contradiction

/-- A run over children asks for the bindings of all of them. -/
theorem wrapChildren_eq_ok {state final : LinkState} {children : List ChildCode}
    {blocks : List Text}
    (h : wrapChildren contract binding parentCode state children = .ok (blocks, final))
    (selected : List BoundName) :
    ∃ parts : List (WrappedChild contract binding), parts.map (·.child) = children ∧
      blocks = parts.map WrappedChild.block ∧
      final.hoisted = state.hoisted ++ parts.flatMap (·.moved.map Moved.text) ∧
      Selection.run ⟨state.scope, selected⟩ (parts.flatMap (·.requests)) =
        .ok ⟨final.scope, selected ++ parts.flatMap WrappedChild.selected⟩ := by
  induction children generalizing state blocks selected with
  | nil =>
    obtain ⟨rfl, rfl⟩ := wrapChildren_nil_eq_ok_iff.mp h
    exact ⟨[], rfl, rfl, by simp, by simp [Selection.run]⟩
  | cons child rest ih =>
    obtain ⟨block, next, others, hblock, hothers, rfl⟩ := wrapChildren_cons_eq_ok_iff.mp h
    obtain ⟨part, hchild, rfl, hmoved, hrun⟩ := wrapChild_eq_ok hblock selected
    obtain ⟨parts, hparts, rfl, hfinal, hrest⟩ := ih hothers (selected ++ part.selected)
    refine ⟨part :: parts, by rw [List.map_cons, hchild, hparts], rfl, ?_, ?_⟩
    · rw [hfinal, hmoved, List.flatMap_cons, List.append_assoc]
    · rw [List.flatMap_cons, List.flatMap_cons, Selection.run_append, hrun, ← List.append_assoc]
      exact hrest

/-- Children that were cut are wrapped when none of their bindings is in conflict. -/
theorem wrapChildren_of_run (parentCode : Text) {state : LinkState}
    {parts : List (CutChild contract binding)}
    {selected : List BoundName} {final : Selection}
    (h : Selection.run ⟨state.scope, selected⟩ (parts.flatMap CutChild.requests) = .ok final) :
    ∃ blocks last, wrapChildren contract binding parentCode state (parts.map CutChild.child) =
      .ok (blocks, last) ∧ last.scope = final.scope := by
  induction parts generalizing state selected with
  | nil =>
    obtain rfl := Except.ok.inj h
    exact ⟨[], state, rfl, rfl⟩
  | cons part rest ih =>
    rw [List.flatMap_cons, Selection.run_append] at h
    obtain ⟨middle, hpart, hrest⟩ := bind_eq_ok_iff.mp h
    cases hwrap : wrapChild contract binding parentCode state part.child with
    | error violation =>
      rw [wrapChild_eq_error part hwrap selected] at hpart
      contradiction
    | ok result =>
      obtain ⟨block, next⟩ := result
      obtain ⟨wrapped, hchild, -, -, hrun⟩ := wrapChild_eq_ok hwrap selected
      rw [CutChild.eq_of_child_eq hchild, hpart] at hrun
      obtain rfl := Except.ok.inj hrun
      obtain ⟨blocks, last, hothers, hscope⟩ := ih hrest
      exact ⟨block :: blocks, last,
        wrapChildren_cons_eq_ok_iff.mpr ⟨block, next, blocks, hwrap, hothers, rfl⟩, hscope⟩

/-- A point of a run over children: all bindings of the children before have been processed, and of
the current child those that come first. -/
structure RunPoint (contract : OutputContract) (binding : Text) (children : List ChildCode) where
  before : List (CutChild contract binding)
  current : CutChild contract binding
  after : List ChildCode
  asked : List BoundName
  rest : List BoundName
  children_eq : children = before.map CutChild.child ++ current.child :: after
  requests_eq : current.requests = asked ++ rest

/-- The bindings processed before a point of a run. -/
def RunPoint.processed {children : List ChildCode} (point : RunPoint contract binding children) :
    List BoundName :=
  point.before.flatMap CutChild.requests ++ point.asked

/-- A run over children fails with a conflict exactly at the point whose next binding has a name
that stands for something else. -/
theorem wrapChildren_eq_duplicate_iff {state : LinkState} {children : List ChildCode}
    {name localName : String} :
    wrapChildren contract binding parentCode state children =
        .error (.inChild name (.duplicateImportBinding localName)) ↔
      ∃ (point : RunPoint contract binding children) (reached : Selection) (request : BoundName)
        (rest : List BoundName), Selection.run ⟨state.scope, []⟩ point.processed = .ok reached ∧
        point.rest = request :: rest ∧ name = String.ofList point.current.child.name ∧
        reached.ask request = .error (.duplicateImportBinding localName) := by
  rw [wrapChildren_eq_error_iff]
  constructor
  · rintro ⟨before, child, after, blocks, middle, inner, rfl, hbefore, hchild, hinner⟩
    obtain ⟨rfl, rfl⟩ := ContractViolation.inChild.inj hinner
    obtain ⟨parts, rfl, -, -, hparts⟩ := wrapChildren_eq_ok hbefore []
    cases hcut : ChildCut.ofCode contract (OutputContract.generatedSymbol binding child.name)
        child.code with
    | error violation =>
      have hlinking := ChildCut.isOfLinking_of_ofCode hcut
      simp only [wrapChild, bind_eq_error_iff, hcut, Except.error.injEq, reduceCtorEq, false_and,
        exists_false, or_false] at hchild
      subst hchild
      contradiction
    | ok cut =>
      have hrun := wrapChild_eq_error ⟨child, cut, hcut⟩ hchild
        ([] ++ parts.flatMap WrappedChild.selected)
      obtain ⟨front, request, back, reached, hrequests, hfront, hask⟩ :=
        Selection.run_eq_error_iff.mp hrun
      refine ⟨⟨parts.map (·.toCutChild), ⟨child, cut, hcut⟩, after, front, request :: back,
        by simp, hrequests⟩, reached, request, back, ?_, rfl, rfl, hask⟩
      simp only [RunPoint.processed, List.flatMap_map, Selection.run_append]
      rw [hparts]
      exact hfront
  · rintro ⟨point, reached, request, rest, hrun, hrest, rfl, hask⟩
    rw [RunPoint.processed, Selection.run_append] at hrun
    obtain ⟨start, hbefore, hasked⟩ := bind_eq_ok_iff.mp hrun
    obtain ⟨blocks, middle, hwrap, hscope⟩ := wrapChildren_of_run parentCode hbefore
    refine ⟨_, _, point.after, blocks, middle, .duplicateImportBinding localName,
      point.children_eq, hwrap, ?_, rfl⟩
    have hrequests : Selection.run ⟨middle.scope, start.selected⟩ point.current.requests =
        .error (.duplicateImportBinding localName) := by
      rw [hscope, point.requests_eq, hrest]
      exact Selection.run_eq_error_iff.mpr ⟨_, request, rest, reached, rfl, hasked, hask⟩
    cases hchild : wrapChild contract binding parentCode middle point.current.child with
    | error violation =>
      rw [wrapChild_eq_error point.current hchild start.selected] at hrequests
      rw [Except.error.inj hrequests]
    | ok result =>
      obtain ⟨block, next⟩ := result
      obtain ⟨wrapped, hcurrent, -, -, hok⟩ := wrapChild_eq_ok hchild start.selected
      rw [CutChild.eq_of_child_eq hcurrent, hrequests] at hok
      contradiction

end InlineComponents
