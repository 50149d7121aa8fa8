import InlineComponents.Linking
import InlineComponents.Proofs.Outcome

/-!
# The steps of a linking run

What each step of linking has done when it succeeds: cutting a child, moving its imports to the
front, wrapping it, and putting the region into the parent. Everything that holds of linked modules
is derived from these statements.
-/

namespace InlineComponents

/-- The parts of a child's module that linking uses. -/
theorem ChildCut.ofCode_eq_ok_iff {contract : OutputContract} {symbol code : Text}
    {cut : ChildCut} :
    ofCode contract symbol code = .ok cut ↔
      ∃ runtime exported, contract.runtimeImport code = .ok runtime ∧
        OutputContract.defaultExport code = .ok exported ∧
        exported.place.before = runtime.place.before ++ runtime.place.text ++ cut.between ∧
        cut.runtimeText = runtime.place.text ∧ cut.identifiers = runtime.identifiers ∧
        exported.binding = symbol ∧ Text.containsWord cut.body symbol = true := by
  simp only [ofCode, bind_eq_ok_iff]
  constructor
  · rintro ⟨runtime, hruntime, exported, hexported, h⟩
    split at h
    · contradiction
    · rename_i between hbetween
      split at h
      · rename_i hsymbol
        obtain rfl := Except.ok.inj h
        exact ⟨runtime, exported, hruntime, hexported, Text.dropWord?_eq_some_iff.mp hbetween, rfl,
          rfl, hsymbol.1, hsymbol.2⟩
      · contradiction
  · rintro ⟨runtime, exported, hruntime, hexported, hbetween, htext, hidentifiers, hsymbol, hword⟩
    refine ⟨runtime, hruntime, exported, hexported, ?_⟩
    have hcut : (⟨runtime.place.text, runtime.identifiers, cut.between⟩ : ChildCut) = cut := by
      rw [← htext, ← hidentifiers]
    rw [Text.dropWord?_eq_some_iff.mpr hbetween]
    simp only [hcut, hsymbol, hword, and_self, ↓reduceIte]

/-- What one child adds to a run. -/
theorem wrapChild_eq_ok_iff {contract : OutputContract} {binding parentCode : Text}
    {state next : LinkState} {child : ChildCode} {block : Text} :
    wrapChild contract binding parentCode state child = .ok (block, next) ↔
      ∃ cut hoisted missing scope,
        ChildCut.ofCode contract (OutputContract.generatedSymbol binding child.name) child.code =
          .ok cut ∧
        state.hoistAll parentCode cut.statements = .ok hoisted ∧
        hoisted.scope.bindNew (cut.runtimeStatement contract).source
          (cut.runtimeStatement contract).bindings = .ok (missing, scope) ∧
        block = childBlock binding child.name cut.body
          (OutputContract.generatedSymbol binding child.name)
          (cut.runtimeStatement contract).source missing ∧
        next = { hoisted with scope } := by
  simp only [wrapChild, bind_eq_ok_iff]
  constructor
  · rintro ⟨cut, hcut, hoisted, hhoisted, ⟨missing, scope⟩, hmissing, h⟩
    obtain ⟨rfl, rfl⟩ := Prod.mk.inj (Except.ok.inj h)
    exact ⟨cut, hoisted, missing, scope, hcut, hhoisted, hmissing, rfl, rfl⟩
  · rintro ⟨cut, hoisted, missing, scope, hcut, hhoisted, hmissing, rfl, rfl⟩
    exact ⟨cut, hcut, hoisted, hhoisted, (missing, scope), hmissing, rfl⟩

/-- A run over no children adds nothing. -/
theorem wrapChildren_nil_eq_ok_iff {contract : OutputContract} {binding parentCode : Text}
    {state final : LinkState} {blocks : List Text} :
    wrapChildren contract binding parentCode state [] = .ok (blocks, final) ↔
      blocks = [] ∧ final = state := by
  simp [wrapChildren, eq_comm]

/-- A run wraps the first child and goes on with the others. -/
theorem wrapChildren_cons_eq_ok_iff {contract : OutputContract} {binding parentCode : Text}
    {state final : LinkState} {child : ChildCode} {rest : List ChildCode} {blocks : List Text} :
    wrapChildren contract binding parentCode state (child :: rest) = .ok (blocks, final) ↔
      ∃ block next others, wrapChild contract binding parentCode state child = .ok (block, next) ∧
        wrapChildren contract binding parentCode next rest = .ok (others, final) ∧
        blocks = block :: others := by
  rw [wrapChildren]
  cases hchild : wrapChild contract binding parentCode state child with
  | error violation => simp
  | ok result =>
    obtain ⟨block, next⟩ := result
    cases hrest : wrapChildren contract binding parentCode next rest with
    | error violation =>
      simp only [hrest, Except.map, reduceCtorEq, Except.ok.injEq, Prod.mk.injEq, false_iff]
      rintro ⟨_, _, _, ⟨rfl, rfl⟩, h, -⟩
      rw [hrest] at h
      contradiction
    | ok result =>
      obtain ⟨others, last⟩ := result
      simp only [hrest, Except.map, Except.ok.injEq, Prod.mk.injEq]
      constructor
      · rintro ⟨rfl, rfl⟩
        exact ⟨block, next, others, ⟨rfl, rfl⟩, hrest, rfl⟩
      · rintro ⟨_, _, _, ⟨rfl, rfl⟩, h, rfl⟩
        rw [hrest] at h
        obtain ⟨rfl, rfl⟩ := Prod.mk.inj (Except.ok.inj h)
        exact ⟨rfl, rfl⟩

/-- Nothing is moved to the front from children without static imports behind the runtime import. -/
theorem LinkState.hoisted_of_wrapChildren {contract : OutputContract} {binding parentCode : Text}
    {state final : LinkState} {children : List ChildCode} {blocks : List Text}
    (hstatements : ∀ child ∈ children, ∀ cut, ChildCut.ofCode contract
      (OutputContract.generatedSymbol binding child.name) child.code = .ok cut → cut.statements = [])
    (h : wrapChildren contract binding parentCode state children = .ok (blocks, final)) :
    final.hoisted = state.hoisted := by
  induction children generalizing state blocks with
  | nil =>
    obtain ⟨-, rfl⟩ := wrapChildren_nil_eq_ok_iff.mp h
    rfl
  | cons child rest ih =>
    obtain ⟨block, middle, others, hchild, hothers, -⟩ := wrapChildren_cons_eq_ok_iff.mp h
    obtain ⟨cut, hoisted, missing, scope, hcut, hhoisted, -, -, rfl⟩ := wrapChild_eq_ok_iff.mp hchild
    rw [hstatements child List.mem_cons_self cut hcut] at hhoisted
    obtain rfl := Except.ok.inj hhoisted
    have hrest := ih (fun other hother => hstatements other (List.mem_cons_of_mem _ hother)) hothers
    exact hrest

namespace LinkedCode

/-- What linking puts together. -/
theorem link_eq_ok_iff {contract : OutputContract} {code : Text} {children : List ChildCode}
    {linked : LinkedCode} :
    link contract code children = .ok linked ↔
      ∃ runtime exported blocks final, contract.runtimeImport code = .ok runtime ∧
        OutputContract.defaultExport code = .ok exported ∧
        runtime.place.before ++ runtime.place.text <+: exported.place.before ∧
        wrapChildren contract exported.binding code ⟨parentScope runtime code, []⟩ children =
          .ok (blocks, final) ∧
        linked = ⟨exported.binding, exported.place.before, region final.hoisted blocks,
          exported.place.text ++ exported.place.after⟩ := by
  simp only [link, bind_eq_ok_iff]
  constructor
  · rintro ⟨runtime, hruntime, exported, hexported, h⟩
    split at h
    · contradiction
    · rename_i between hbetween
      obtain ⟨⟨blocks, final⟩, hwrap, h⟩ := bind_eq_ok_iff.mp h
      obtain rfl := Except.ok.inj h
      exact ⟨runtime, exported, blocks, final, hruntime, hexported,
        ⟨between, (Text.dropWord?_eq_some_iff.mp hbetween).symm⟩, hwrap, rfl⟩
  · rintro ⟨runtime, exported, blocks, final, hruntime, hexported, ⟨between, hbetween⟩, hwrap, rfl⟩
    refine ⟨runtime, hruntime, exported, hexported, ?_⟩
    rw [Text.dropWord?_eq_some_iff.mpr hbetween.symm]
    exact bind_eq_ok_iff.mpr ⟨(blocks, final), hwrap, rfl⟩

end LinkedCode

/-- What linking children into a parent gives. -/
theorem CompiledModule.splice_eq_ok_iff {accepts : Text → Bool} {contract : OutputContract}
    {parent out : CompiledModule} {children : List ChildModule} (hne : children ≠ []) :
    splice accepts contract parent children = .ok out ↔
      ∃ linked, LinkedCode.link contract parent.code.toList
          (children.map fun child => ⟨child.name.toList, child.module.code.toList⟩) = .ok linked ∧
        accepts (Instantiation.qualifyAll linked.binding (children.map (·.name.toList))
          linked.merged) = true ∧
        out = { parent with code := String.ofList (Instantiation.qualifyAll linked.binding
          (children.map (·.name.toList)) linked.merged) } := by
  have hempty : children.isEmpty = false := by simpa using hne
  simp only [splice, hempty, Bool.false_eq_true, ↓reduceIte, linkChildren, bind_eq_ok_iff]
  refine exists_congr fun linked => and_congr_right fun _ => ?_
  split
  · rename_i haccepts
    simp only [haccepts, Except.ok.injEq, true_and, eq_comm]
  · rename_i haccepts
    simp only [haccepts, reduceCtorEq, Bool.false_eq_true, false_and]

/-- What was linked under one syntax check is linked under every check that accepts it. -/
theorem CompiledModule.splice_of_accepts {accepts other : Text → Bool} {contract : OutputContract}
    {parent out : CompiledModule} {children : List ChildModule} (hne : children ≠ [])
    (h : splice accepts contract parent children = .ok out)
    (hother : other out.code.toList = true) :
    splice other contract parent children = .ok out := by
  obtain ⟨linked, hlink, -, rfl⟩ := (splice_eq_ok_iff hne).mp h
  rw [String.toList_ofList] at hother
  exact (splice_eq_ok_iff hne).mpr ⟨linked, hlink, hother, rfl⟩

/-- Whether a violation is found by linking itself, and not in the text of one module. -/
def ContractViolation.isOfLinking : ContractViolation → Bool
  | duplicateImportBinding _ => true
  | inChild _ _ => true
  | _ => false

/-- Looking for the runtime import finds no violation of linking. -/
theorem OutputContract.isOfLinking_of_runtimeImport {contract : OutputContract} {code : Text}
    {violation : ContractViolation} (h : contract.runtimeImport code = .error violation) :
    violation.isOfLinking = false := by
  unfold runtimeImport at h
  split at h
  · obtain rfl := Except.error.inj h
    rfl
  · contradiction
  · obtain rfl := Except.error.inj h
    rfl

/-- Looking for the default export finds no violation of linking. -/
theorem OutputContract.isOfLinking_of_defaultExport {code : Text} {violation : ContractViolation}
    (h : defaultExport code = .error violation) : violation.isOfLinking = false := by
  unfold defaultExport at h
  split at h
  · obtain rfl := Except.error.inj h
    rfl
  · simp only at h
    split at h
    · contradiction
    · obtain rfl := Except.error.inj h
      rfl

/-- Cutting a child finds no violation of linking. -/
theorem ChildCut.isOfLinking_of_ofCode {contract : OutputContract} {symbol code : Text}
    {violation : ContractViolation} (h : ofCode contract symbol code = .error violation) :
    violation.isOfLinking = false := by
  simp only [ofCode, bind_eq_error_iff] at h
  rcases h with hruntime | ⟨runtime, -, hexported | ⟨exported, -, h⟩⟩
  · exact OutputContract.isOfLinking_of_runtimeImport hruntime
  · exact OutputContract.isOfLinking_of_defaultExport hexported
  · split at h
    · obtain rfl := Except.error.inj h
      rfl
    · split at h
      · contradiction
      · obtain rfl := Except.error.inj h
        rfl

/-- A run fails at the first child that cannot be wrapped. -/
theorem wrapChildren_eq_error_iff {contract : OutputContract} {binding parentCode : Text}
    {state : LinkState} {children : List ChildCode} {violation : ContractViolation} :
    wrapChildren contract binding parentCode state children = .error violation ↔
      ∃ before child after blocks middle inner, children = before ++ child :: after ∧
        wrapChildren contract binding parentCode state before = .ok (blocks, middle) ∧
        wrapChild contract binding parentCode middle child = .error inner ∧
        violation = .inChild (String.ofList child.name) inner := by
  induction children generalizing state with
  | nil => simp [wrapChildren]
  | cons first rest ih =>
    rw [wrapChildren]
    cases hfirst : wrapChild contract binding parentCode state first with
    | error inner =>
      constructor
      · intro h
        obtain rfl := Except.error.inj h
        exact ⟨[], first, rest, [], state, inner, rfl, rfl, hfirst, rfl⟩
      · rintro ⟨before, child, after, blocks, middle, other, happ, hbefore, hchild, rfl⟩
        cases before with
        | nil =>
          obtain ⟨rfl, rfl⟩ := List.cons.inj happ
          obtain ⟨-, rfl⟩ := wrapChildren_nil_eq_ok_iff.mp hbefore
          rw [hfirst] at hchild
          obtain rfl := Except.error.inj hchild
          rfl
        | cons head before =>
          obtain ⟨rfl, -⟩ := List.cons.inj happ
          obtain ⟨block, next, others, hwrap, -, -⟩ := wrapChildren_cons_eq_ok_iff.mp hbefore
          rw [hfirst] at hwrap
          contradiction
    | ok result =>
      obtain ⟨block, next⟩ := result
      simp only [map_eq_error_iff, ih]
      constructor
      · rintro ⟨before, child, after, blocks, middle, inner, rfl, hbefore, hchild, rfl⟩
        exact ⟨first :: before, child, after, block :: blocks, middle, inner, rfl,
          wrapChildren_cons_eq_ok_iff.mpr ⟨block, next, blocks, hfirst, hbefore, rfl⟩, hchild, rfl⟩
      · rintro ⟨before, child, after, blocks, middle, inner, happ, hbefore, hchild, rfl⟩
        cases before with
        | nil =>
          obtain ⟨rfl, rfl⟩ := List.cons.inj happ
          obtain ⟨-, rfl⟩ := wrapChildren_nil_eq_ok_iff.mp hbefore
          rw [hfirst] at hchild
          contradiction
        | cons head before =>
          obtain ⟨rfl, rfl⟩ := List.cons.inj happ
          obtain ⟨_, _, others, hwrap, hothers, -⟩ := wrapChildren_cons_eq_ok_iff.mp hbefore
          rw [hfirst] at hwrap
          obtain ⟨rfl, rfl⟩ := Prod.mk.inj (Except.ok.inj hwrap)
          exact ⟨before, child, after, others, middle, inner, rfl, hothers, hchild, rfl⟩

/-- A violation in a child is found while the children are wrapped. -/
theorem CompiledModule.splice_eq_inChild_iff {accepts : Text → Bool} {contract : OutputContract}
    {parent : CompiledModule} {children : List ChildModule} {name : String}
    {violation : ContractViolation} :
    splice accepts contract parent children = .error (.inChild name violation) ↔
      ∃ runtime exported, contract.runtimeImport parent.code.toList = .ok runtime ∧
        OutputContract.defaultExport parent.code.toList = .ok exported ∧
        runtime.place.before ++ runtime.place.text <+: exported.place.before ∧
        wrapChildren contract exported.binding parent.code.toList
          ⟨LinkedCode.parentScope runtime parent.code.toList, []⟩
          (children.map fun child => ⟨child.name.toList, child.module.code.toList⟩) =
            .error (.inChild name violation) := by
  have hown : (ContractViolation.inChild name violation).isOfLinking = true := rfl
  by_cases hnil : children = []
  · subst hnil
    simp [wrapChildren]
  have hempty : children.isEmpty = false := by simpa using hnil
  simp only [splice, hempty, Bool.false_eq_true, ↓reduceIte, linkChildren, LinkedCode.link,
    bind_eq_error_iff]
  constructor
  · rintro ((hruntime | ⟨runtime, hruntime, hexported | ⟨exported, hexported, h⟩⟩) |
      ⟨linked, -, h⟩)
    · rw [OutputContract.isOfLinking_of_runtimeImport hruntime] at hown
      contradiction
    · rw [OutputContract.isOfLinking_of_defaultExport hexported] at hown
      contradiction
    · split at h
      · simp at h
      · rename_i between hbetween
        refine ⟨runtime, exported, hruntime, hexported,
          ⟨between, (Text.dropWord?_eq_some_iff.mp hbetween).symm⟩, ?_⟩
        rcases bind_eq_error_iff.mp h with h | ⟨result, -, h⟩
        · exact h
        · contradiction
    · split at h <;> simp at h
  · rintro ⟨runtime, exported, hruntime, hexported, ⟨between, hbetween⟩, hwrap⟩
    refine Or.inl (Or.inr ⟨runtime, hruntime, Or.inr ⟨exported, hexported, ?_⟩⟩)
    rw [Text.dropWord?_eq_some_iff.mpr hbetween.symm]
    exact bind_eq_error_iff.mpr (Or.inl hwrap)

/-- A result whose code is known is a success. -/
theorem CompiledModule.exists_of_code_eq {result : Except ContractViolation CompiledModule}
    {code : String} (h : result.toOption.map CompiledModule.code = some code) :
    ∃ out, result = .ok out ∧ out.code = code :=
  exists_of_map_toOption h

/-- A failure is known without what a success would give. -/
theorem CompiledModule.eq_error_of_map {result : Except ContractViolation CompiledModule}
    {violation : ContractViolation} (h : result.map (fun _ => ()) = .error violation) :
    result = .error violation := by
  cases result with
  | error other => rw [Except.error.inj h]
  | ok out => contradiction

end InlineComponents
