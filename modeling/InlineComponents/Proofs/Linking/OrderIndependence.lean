import InlineComponents.Proofs.Linking.ImportRun
import Mathlib.Data.Set.List

/-!
# Linking does not depend on order or company

Each child is checked against a scope left by the parent and the children before it. Whether a list
of children can be linked is a matter of its members all the same: two bindings conflict when they
give one local name to different exports, and a run succeeds exactly when none of its bindings
conflicts with another one, or with what the parent binds first under its name. The syntax check
comes after linking and is left out of account: it sees the linked text, which does depend on the
order.
-/

namespace InlineComponents

/-- Two bindings agree unless they give one local name to different exports. -/
def BoundName.Agrees (first second : BoundName) : Prop :=
  first.localName = second.localName → first = second

/-- Children that can be linked into a parent, whatever their order. -/
structure Compatible (contract : OutputContract) (runtime : RuntimeImport) (binding code : Text)
    (children : List ChildCode) : Prop where
  cut : ∀ child ∈ children, ∃ part : CutChild contract binding, part.child = child
  parent : ∀ part : CutChild contract binding, part.child ∈ children → ∀ request ∈ part.requests,
    ∀ bound, (LinkedCode.importedNames runtime code).find? (·.localName = request.localName) =
      some bound → bound = request
  agree : ∀ first second : CutChild contract binding, first.child ∈ children →
    second.child ∈ children → ∀ request ∈ first.requests, ∀ other ∈ second.requests,
      request.Agrees other

/-- Linking finds nothing wrong with a parent and its children. The syntax check of the linked
module may still refuse it. -/
def CompiledModule.Links (accepts : Text → Bool) (contract : OutputContract)
    (parent : CompiledModule) (children : List ChildModule) : Prop :=
  ∀ violation, splice accepts contract parent children = .error violation →
    violation = .unparsableOutput

variable {contract : OutputContract} {runtime : RuntimeImport} {binding code : Text}

/-! ### Runs without a conflict -/

/-- A run succeeds exactly when none of its bindings conflicts with the parent or with another
one. -/
theorem Selection.exists_run_start_iff {requests : List BoundName} :
    (∃ final, (start runtime code).run requests = .ok final) ↔
      (∀ request ∈ requests, ∀ bound, (LinkedCode.importedNames runtime code).find?
        (·.localName = request.localName) = some bound → bound = request) ∧
      ∀ request ∈ requests, ∀ other ∈ requests, request.Agrees other := by
  constructor
  · rintro ⟨final, hrun⟩
    have hfinal := (RunInvariant.start runtime code).run hrun
    have hbound (request : BoundName) (hrequest : request ∈ requests) :
        final.scope.find? request.localName = some request := hfinal.agrees request hrequest
    refine ⟨fun request hrequest bound hparent => ?_, fun request hrequest other hother hname => ?_⟩
    · have := hfinal.parent_first _ bound hparent
      rw [hbound request hrequest] at this
      exact (Option.some.inj this).symm
    · have := hbound request hrequest
      rw [hname, hbound other hother] at this
      exact (Option.some.inj this).symm
  · rintro ⟨hparent, hagree⟩
    cases hrun : (start runtime code).run requests with
    | ok final => exact ⟨final, rfl⟩
    | error violation =>
      exfalso
      obtain ⟨front, request, back, middle, rfl, hfront, hask⟩ := run_eq_error_iff.mp hrun
      obtain ⟨-, bound, hfound, hdiffers⟩ := ask_eq_error_iff.mp hask
      have hmiddle := (RunInvariant.start runtime code).run hfront
      have hrequest : request ∈ front ++ request :: back := by simp
      -- What the name stands for comes from the parent or from a binding before this one.
      have hsame : bound = request := by
        rcases hmiddle.origin _ bound hfound with horigin | hselected
        · have hname := ImportScope.find?_eq_some hfound
          have hsome : ((LinkedCode.importedNames runtime code).find?
              (·.localName = request.localName)).isSome = true :=
            List.find?_isSome.mpr ⟨bound, horigin, by simp [hname]⟩
          obtain ⟨first, hfirst⟩ := Option.isSome_iff_exists.mp hsome
          have hscope := hmiddle.parent_first _ first hfirst
          rw [hfound] at hscope
          rw [Option.some.inj hscope]
          exact hparent request hrequest first hfirst
        · have hbefore : bound ∈ front := by simpa using hmiddle.requested.subset hselected
          exact hagree bound (List.mem_append_left _ hbefore) request hrequest
            (ImportScope.find?_eq_some hfound)
      subst hsame
      exact hdiffers.elim (fun h => h rfl) fun h => h rfl

namespace Compatible

/-- Some of the children can be linked in any order. -/
theorem of_subset {children others : List ChildCode}
    (h : Compatible contract runtime binding code children) (hsub : others ⊆ children) :
    Compatible contract runtime binding code others where
  cut := fun child hchild => h.cut child (hsub hchild)
  parent := fun part hpart => h.parent part (hsub hpart)
  agree := fun first second hfirst hsecond => h.agree first second (hsub hfirst) (hsub hsecond)

/-- Children can be linked when every two of them can. -/
theorem of_pairs {children : List ChildCode}
    (h : ∀ first ∈ children, ∀ second ∈ children,
      Compatible contract runtime binding code [first, second]) :
    Compatible contract runtime binding code children where
  cut := fun child hchild => (h child hchild child hchild).cut child (by simp)
  parent := fun part hpart => (h _ hpart _ hpart).parent part (by simp)
  agree := fun first second hfirst hsecond =>
    (h _ hfirst _ hsecond).agree first second (by simp) (by simp)

/-- All children are wrapped exactly when they are compatible. -/
theorem iff_exists_wrapChildren {children : List ChildCode} :
    Compatible contract runtime binding code children ↔
      ∃ result, wrapChildren contract binding code ⟨LinkedCode.parentScope runtime code, []⟩
        children = .ok result := by
  constructor
  · intro h
    have hrange : ∃ parts : List (CutChild contract binding),
        parts.map CutChild.child = children := by
      rw [← Set.mem_range, Set.range_list_map]
      exact h.cut
    obtain ⟨parts, rfl⟩ := hrange
    have hchild (part : CutChild contract binding) (hpart : part ∈ parts) :
        part.child ∈ parts.map CutChild.child := List.mem_map_of_mem hpart
    have hrun : ∃ final, (Selection.start runtime code).run (parts.flatMap CutChild.requests) =
        .ok final := by
      refine Selection.exists_run_start_iff.mpr
        ⟨fun request hrequest => ?_, fun request hrequest other hother => ?_⟩
      · obtain ⟨part, hpart, hasked⟩ := List.mem_flatMap.mp hrequest
        exact h.parent part (hchild part hpart) request hasked
      · obtain ⟨first, hfirst, hasked⟩ := List.mem_flatMap.mp hrequest
        obtain ⟨second, hsecond, hasked'⟩ := List.mem_flatMap.mp hother
        exact h.agree first second (hchild first hfirst) (hchild second hsecond) request hasked
          other hasked'
    obtain ⟨final, hrun⟩ := hrun
    let state : LinkState := ⟨LinkedCode.parentScope runtime code, []⟩
    have hstart : Selection.run ⟨state.scope, []⟩ (parts.flatMap CutChild.requests) = .ok final :=
      hrun
    obtain ⟨blocks, last, hwrap, -⟩ := wrapChildren_of_run code hstart
    exact ⟨(blocks, last), hwrap⟩
  · rintro ⟨⟨blocks, last⟩, hwrap⟩
    obtain ⟨parts, rfl, -, -, hrun⟩ := wrapChildren_eq_ok hwrap []
    obtain ⟨hparent, hagree⟩ := Selection.exists_run_start_iff.mp ⟨_, hrun⟩
    -- A child is cut in one way, so what it asks for is asked for in the run.
    have hasked (part : CutChild contract binding) (hpart : part.child ∈ parts.map (·.child))
        (request : BoundName) (hrequest : request ∈ part.requests) :
        request ∈ parts.flatMap (·.requests) := by
      obtain ⟨wrapped, hwrapped, hchild⟩ := List.mem_map.mp hpart
      obtain rfl := CutChild.eq_of_child_eq hchild
      exact List.mem_flatMap.mpr ⟨wrapped, hwrapped, hrequest⟩
    refine ⟨fun child hchild => ?_, fun part hpart request hrequest => ?_,
      fun first second hfirst hsecond request hrequest other hother => ?_⟩
    · obtain ⟨wrapped, -, rfl⟩ := List.mem_map.mp hchild
      exact ⟨wrapped.toCutChild, rfl⟩
    · exact hparent request (hasked part hpart request hrequest)
    · exact hagree request (hasked first hfirst request hrequest) other
        (hasked second hsecond other hother)

end Compatible

/-! ### Linking whole lists -/

namespace LinkedCode

/-- Linking itself does not look at the syntax of the linked module. -/
theorem link_ne_unparsable {children : List ChildCode} :
    link contract code children ≠ .error .unparsableOutput := by
  intro h
  simp only [link, bind_eq_error_iff] at h
  rcases h with hruntime | ⟨runtime, -, hexported | ⟨exported, -, h⟩⟩
  · unfold OutputContract.runtimeImport at hruntime
    split at hruntime <;> simp at hruntime
  · unfold OutputContract.defaultExport at hexported
    split at hexported
    · simp at hexported
    · simp only at hexported
      split at hexported <;> simp at hexported
  · split at h
    · simp at h
    · rcases bind_eq_error_iff.mp h with hwrap | ⟨result, -, h⟩
      · obtain ⟨_, _, _, _, _, _, -, -, -, h⟩ := wrapChildren_eq_error_iff.mp hwrap
        contradiction
      · contradiction

end LinkedCode

namespace CompiledModule

variable {accepts : Text → Bool} {parent : CompiledModule} {children : List ChildModule}

/-- Children can be linked exactly when the parent is what linking expects and they are
compatible. -/
theorem links_iff (hne : children ≠ []) :
    Links accepts contract parent children ↔
      ∃ runtime exported, contract.runtimeImport parent.code.toList = .ok runtime ∧
        OutputContract.defaultExport parent.code.toList = .ok exported ∧
        runtime.place.before ++ runtime.place.text <+: exported.place.before ∧
        Compatible contract runtime exported.binding parent.code.toList
          (children.map fun child => ⟨child.name.toList, child.module.code.toList⟩) := by
  have hempty : children.isEmpty = false := by simpa using hne
  have hlinks : Links accepts contract parent children ↔
      ∃ linked, LinkedCode.link contract parent.code.toList
        (children.map fun child => ⟨child.name.toList, child.module.code.toList⟩) = .ok linked := by
    simp only [Links, splice, hempty, Bool.false_eq_true, ↓reduceIte, linkChildren]
    cases hlink : LinkedCode.link contract parent.code.toList
        (children.map fun child => ⟨child.name.toList, child.module.code.toList⟩) with
    | error violation =>
      simp only [reduceCtorEq, exists_false, iff_false]
      intro h
      obtain rfl := h violation rfl
      exact LinkedCode.link_ne_unparsable hlink
    | ok linked =>
      refine iff_of_true (fun violation h => ?_) ⟨linked, rfl⟩
      rcases bind_eq_error_iff.mp h with h | ⟨value, -, h⟩
      · contradiction
      · split at h
        · contradiction
        · exact (Except.error.inj h).symm
  rw [hlinks]
  simp only [LinkedCode.link_eq_ok_iff, Compatible.iff_exists_wrapChildren]
  constructor
  · rintro ⟨linked, runtime, exported, blocks, final, hruntime, hexported, hplace, hwrap, -⟩
    exact ⟨runtime, exported, hruntime, hexported, hplace, (blocks, final), hwrap⟩
  · rintro ⟨runtime, exported, hruntime, hexported, hplace, ⟨blocks, final⟩, hwrap⟩
    exact ⟨_, runtime, exported, blocks, final, hruntime, hexported, hplace, hwrap, rfl⟩

/-- No children can always be linked. -/
theorem links_nil : Links accepts contract parent [] := fun violation h => by simp at h

/-- Nothing is wrong when a linked module comes out. -/
theorem links_of_isSome (h : (splice accepts contract parent children).toOption.isSome = true) :
    Links accepts contract parent children := by
  intro violation herror
  rw [herror] at h
  contradiction

/-- Some of the children can be linked in any order when all of them can. -/
theorem Links.of_subset {others : List ChildModule} (h : Links accepts contract parent children)
    (hsub : others ⊆ children) : Links accepts contract parent others := by
  by_cases hothers : others = []
  · subst hothers
    exact links_nil
  have hne : children ≠ [] := by
    rintro rfl
    exact hothers (List.subset_nil.mp hsub)
  obtain ⟨runtime, exported, hruntime, hexported, hplace, hcompatible⟩ := (links_iff hne).mp h
  exact (links_iff hothers).mpr ⟨runtime, exported, hruntime, hexported, hplace,
    hcompatible.of_subset (List.map_subset _ hsub)⟩

/-- Children can be linked when every two of them can. -/
theorem Links.of_pairs (h : ∀ first ∈ children, ∀ second ∈ children,
    Links accepts contract parent [first, second]) : Links accepts contract parent children := by
  cases children with
  | nil => exact links_nil
  | cons head rest =>
    obtain ⟨runtime, exported, hruntime, hexported, hplace, -⟩ :=
      (links_iff (List.cons_ne_nil _ _)).mp (h head List.mem_cons_self head List.mem_cons_self)
    refine (links_iff (List.cons_ne_nil _ _)).mpr
      ⟨runtime, exported, hruntime, hexported, hplace, Compatible.of_pairs ?_⟩
    intro firstCode hfirstCode secondCode hsecondCode
    obtain ⟨first, hfirst, rfl⟩ := List.mem_map.mp hfirstCode
    obtain ⟨second, hsecond, rfl⟩ := List.mem_map.mp hsecondCode
    obtain ⟨runtime', exported', hruntime', hexported', -, hpair⟩ :=
      (links_iff (List.cons_ne_nil _ _)).mp (h first hfirst second hsecond)
    obtain rfl := Except.ok.inj (hruntime.symm.trans hruntime')
    obtain rfl := Except.ok.inj (hexported.symm.trans hexported')
    exact hpair

/-- A violation in a child stays when more children follow. -/
theorem splice_append_eq_inChild {name : String} {violation : ContractViolation}
    (h : splice accepts contract parent children = .error (.inChild name violation))
    (further : List ChildModule) :
    splice accepts contract parent (children ++ further) = .error (.inChild name violation) := by
  obtain ⟨runtime, exported, hruntime, hexported, hplace, hwrap⟩ := splice_eq_inChild_iff.mp h
  refine splice_eq_inChild_iff.mpr ⟨runtime, exported, hruntime, hexported, hplace, ?_⟩
  obtain ⟨before, child, after, blocks, middle, inner, hchildren, hbefore, hchild, hviolation⟩ :=
    wrapChildren_eq_error_iff.mp hwrap
  refine wrapChildren_eq_error_iff.mpr ⟨before, child,
    after ++ further.map fun child => ⟨child.name.toList, child.module.code.toList⟩, blocks, middle,
    inner, ?_, hbefore, hchild, hviolation⟩
  rw [List.map_append, hchildren, List.append_assoc, List.cons_append]

end CompiledModule

/-- Whether children can be linked does not depend on their order or on what else is linked with
them: they can exactly when the parent is what linking expects and they are compatible, which is a
matter of every two of them, so that when all can be linked, any of them can in any order. A
violation in a child stays, whatever follows. -/
theorem links_orderIndependent (accepts : Text → Bool) (contract : OutputContract)
    (parent : CompiledModule) (children : List ChildModule) :
    (CompiledModule.Links accepts contract parent children ↔ children = [] ∨
      ∃ runtime exported, contract.runtimeImport parent.code.toList = .ok runtime ∧
        OutputContract.defaultExport parent.code.toList = .ok exported ∧
        runtime.place.before ++ runtime.place.text <+: exported.place.before ∧
        Compatible contract runtime exported.binding parent.code.toList
          (children.map fun child => ⟨child.name.toList, child.module.code.toList⟩)) ∧
    (CompiledModule.Links accepts contract parent children ↔
      ∀ first ∈ children, ∀ second ∈ children,
        CompiledModule.Links accepts contract parent [first, second]) ∧
    (CompiledModule.Links accepts contract parent children →
      ∀ others ⊆ children, CompiledModule.Links accepts contract parent others) ∧
    ∀ name violation,
      CompiledModule.splice accepts contract parent children = .error (.inChild name violation) →
        ∀ further, CompiledModule.splice accepts contract parent (children ++ further) =
          .error (.inChild name violation) := by
  refine ⟨?_, ⟨fun h first hfirst second hsecond => h.of_subset ?_, CompiledModule.Links.of_pairs⟩,
    fun h others hothers => h.of_subset hothers,
    fun name violation => CompiledModule.splice_append_eq_inChild⟩
  · by_cases hnil : children = []
    · exact iff_of_true (hnil ▸ CompiledModule.links_nil) (Or.inl hnil)
    · rw [CompiledModule.links_iff hnil, or_iff_right hnil]
  · simp [hfirst, hsecond]

/-- Two children that share an import can be linked the other way round, and a third one that
imports another export under a shared name is refused, whether or not the second follows. -/
theorem links_orderIndependent_of_shared_import :
    CompiledModule.Links (fun _ => true) ⟨"r"⟩ { code := "import {a} from 'r'\nexport default P" }
      [⟨"D", { code := "import {b} from 'r'\nP__D\nexport default P__D" }⟩,
        ⟨"C", { code := "import {a, b} from 'r'\nimport x from 'm'\nP__C\nexport default P__C" }⟩] ∧
    CompiledModule.splice (fun _ => true) ⟨"r"⟩ { code := "import {a} from 'r'\nexport default P" }
      ([⟨"C", { code := "import {a, b} from 'r'\nimport x from 'm'\nP__C\nexport default P__C" }⟩,
        ⟨"E", { code := "import {c as b} from 'r'\nP__E\nexport default P__E" }⟩] ++
        [⟨"D", { code := "import {b} from 'r'\nP__D\nexport default P__D" }⟩]) =
      .error (.inChild "E" (.duplicateImportBinding "b")) := by
  constructor
  · refine (links_orderIndependent (fun _ => true) ⟨"r"⟩ _
      [⟨"C", { code := "import {a, b} from 'r'\nimport x from 'm'\nP__C\nexport default P__C" }⟩,
        ⟨"D", { code := "import {b} from 'r'\nP__D\nexport default P__D" }⟩]).2.2.1 ?_ _ (by simp)
    exact CompiledModule.links_of_isSome (by decide +kernel)
  · exact (links_orderIndependent (fun _ => true) ⟨"r"⟩ _ _).2.2.2 _ _
      (CompiledModule.eq_error_of_map (by decide +kernel)) _

end InlineComponents
