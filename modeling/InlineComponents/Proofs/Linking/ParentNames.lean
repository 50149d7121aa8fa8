import InlineComponents.Proofs.Linking.Provision
import InlineComponents.Script.Token

/-!
# Injected imports and the names of the parent

The statements that linking writes for the children stand at the top of the linked module, next to
what the parent binds there. They bind no name that an import of the parent binds. The names that
the parent declares in other ways are not looked at: a written statement binds such a name exactly
if a child asks for it and no import of the parent binds it, and then the linked module binds the
name twice.
-/

namespace InlineComponents

open Text Instantiation

/-- A line of a module, outside its static imports, starts with a declaration of this name. -/
inductive DeclaresInLine (code name : Text) : Prop where
  | intro {found : List Text} {front keyword rest : Text}
      (hkeyword : keyword ∈ ["function", "class", "let", "const", "var"].map String.toList)
      (hsifted : ImportStatement.Sifts [] code found (front ++ keyword ++ ' ' :: (name ++ rest)))
      (hline : startsLine true front = true) (hrest : Stops Script.continuesName rest)

/-- How the statements that are written for the children stand to what the parent binds: the imports
of the parent are spared, and its declarations are not. -/
structure SparesImports {contract : OutputContract} {binding : Text} (names : List Text)
    (code : Text) (parent : List BoundName) (parts : List (WrappedChild contract binding)) :
    Prop where
  /-- No written statement binds a name that an import of the parent binds. -/
  spares : ∀ statement ∈ WrappedChild.allWritten parts, ∀ bound ∈ statement.boundNames,
    ∀ taken ∈ parent, bound.localName ≠ taken.localName
  /-- No name is bound twice by the written statements. -/
  once : (((WrappedChild.allWritten parts).flatMap ImportStatement.boundNames).map
    BoundName.localName).Nodup
  /-- A written statement binds a name exactly if a child asks for it and no import of the parent
  binds it, whatever else the parent declares. -/
  binds_iff : ∀ name, (∃ statement ∈ WrappedChild.allWritten parts,
      ∃ bound ∈ statement.boundNames, bound.localName = name) ↔
    (∃ part ∈ parts, ∃ request ∈ part.requests, request.localName = name) ∧
      ∀ taken ∈ parent, taken.localName ≠ name
  /-- The names that lines of the parent declare are spared exactly if every one of them that a
  child asks for is bound by an import of the parent as well. -/
  spares_declared_iff : (∀ name, DeclaresInLine code name →
      ∀ statement ∈ WrappedChild.allWritten parts, ∀ bound ∈ statement.boundNames,
        bound.localName ≠ name) ↔
    ∀ name, DeclaresInLine code name → ∀ part ∈ parts, ∀ request ∈ part.requests,
      request.localName = name → ∃ taken ∈ parent, taken.localName = name
  /-- A child that asks for a name which the imports of the parent bind asks for what it stands
  for. -/
  agrees : ∀ part ∈ parts, ∀ request ∈ part.requests, ∀ taken,
    parent.find? (·.localName = request.localName) = some taken → request = taken
  /-- When all written names are plain, no statement of the region that is read in the linked module
  binds a name that an import of the parent binds. -/
  reads : (∀ statement ∈ WrappedChild.allWritten parts, ∀ bound ∈ statement.bindings,
      bound.IsPlain) →
    ∀ part ∈ parts, ∀ text ∈ part.statementTexts,
      ∀ bound ∈ ImportStatement.namesIn (qualifyAll binding names text), ',' ∉ bound.localName →
        ∀ taken ∈ parent, bound.localName ≠ taken.localName

section Run

variable {contract : OutputContract} {binding : Text} {parent : List BoundName}
  {parts : List (WrappedChild contract binding)} {scope : ImportScope}

/-- A statement is written for a name exactly if a child asks for it and no import of the parent
binds it. -/
theorem exists_written_iff (hrun : RunInvariant parent (parts.flatMap (·.requests))
    ⟨scope, (WrappedChild.allWritten parts).flatMap ImportStatement.boundNames⟩) (name : Text) :
    (∃ statement ∈ WrappedChild.allWritten parts,
        ∃ bound ∈ statement.boundNames, bound.localName = name) ↔
      (∃ part ∈ parts, ∃ request ∈ part.requests, request.localName = name) ∧
        ∀ taken ∈ parent, taken.localName ≠ name := by
  constructor
  · rintro ⟨statement, hstatement, bound, hbound, rfl⟩
    have hselected := List.mem_flatMap.mpr ⟨statement, hstatement, hbound⟩
    obtain ⟨part, hpart, hrequest⟩ := List.mem_flatMap.mp (hrun.requested.subset hselected)
    exact ⟨⟨part, hpart, bound, hrequest, rfl⟩, fun taken htaken heq =>
      hrun.not_parent bound hselected taken htaken heq.symm⟩
  · rintro ⟨⟨part, hpart, request, hrequest, rfl⟩, hfree⟩
    have hasked : request ∈ parts.flatMap (·.requests) :=
      List.mem_flatMap.mpr ⟨part, hpart, hrequest⟩
    rcases WrappedChild.mem_of_mem_requests hrun hasked with
      hparent | ⟨statement, hstatement, hbound⟩
    · exact absurd rfl (hfree request hparent)
    · exact ⟨statement, hstatement, request, hbound, rfl⟩

/-- A name is spared exactly if an import of the parent binds it when a child asks for it. -/
theorem not_written_iff (hrun : RunInvariant parent (parts.flatMap (·.requests))
    ⟨scope, (WrappedChild.allWritten parts).flatMap ImportStatement.boundNames⟩) (name : Text) :
    (∀ statement ∈ WrappedChild.allWritten parts, ∀ bound ∈ statement.boundNames,
        bound.localName ≠ name) ↔
      ∀ part ∈ parts, ∀ request ∈ part.requests, request.localName = name →
        ∃ taken ∈ parent, taken.localName = name := by
  constructor
  · intro hspared part hpart request hrequest hname
    by_contra hnone
    obtain ⟨statement, hstatement, bound, hbound, hlocal⟩ := (exists_written_iff hrun name).mpr
      ⟨⟨part, hpart, request, hrequest, hname⟩, fun taken htaken heq => hnone ⟨taken, htaken, heq⟩⟩
    exact hspared statement hstatement bound hbound hlocal
  · intro htaken statement hstatement bound hbound hlocal
    obtain ⟨⟨part, hpart, request, hrequest, hname⟩, hfree⟩ :=
      (exists_written_iff hrun name).mp ⟨statement, hstatement, bound, hbound, hlocal⟩
    obtain ⟨taken, hmem, heq⟩ := htaken part hpart request hrequest hname
    exact hfree taken hmem heq

/-- What a run selects spares the imports of the parent. -/
theorem sparesImports_of_run {names : List Text} (hbinding : isPlainIdentifier binding = true)
    (code : Text) (hrun : RunInvariant parent (parts.flatMap (·.requests))
      ⟨scope, (WrappedChild.allWritten parts).flatMap ImportStatement.boundNames⟩) :
    SparesImports names code parent parts := by
  have hspares : ∀ statement ∈ WrappedChild.allWritten parts, ∀ bound ∈ statement.boundNames,
      ∀ taken ∈ parent, bound.localName ≠ taken.localName := by
    intro statement hstatement bound hbound
    exact hrun.not_parent bound (List.mem_flatMap.mpr ⟨statement, hstatement, hbound⟩)
  refine ⟨hspares, hrun.once, exists_written_iff hrun,
    forall_congr' fun name => imp_congr_right fun _ => not_written_iff hrun name, ?_, ?_⟩
  · intro part hpart request hrequest taken htaken
    have hasked : request ∈ parts.flatMap (·.requests) :=
      List.mem_flatMap.mpr ⟨part, hpart, hrequest⟩
    have hfound := hrun.parent_first request.localName taken htaken
    rw [hrun.agrees request hasked] at hfound
    exact Option.some.inj hfound
  · intro hplain part hpart text htext bound hbound hcomma
    obtain ⟨statement, hstatement, hread⟩ :=
      (WrappedChild.exists_text_iff hbinding).mp ⟨part, hpart, text, htext, hbound⟩
    have hsource := WrappedChild.isSource_of_mem_allWritten hrun hstatement
    rw [ImportStatement.namesIn_qualifyAll_render hbinding hsource
      (hplain statement hstatement)] at hread
    obtain ⟨written, hwritten, rfl⟩ := List.mem_map.mp hread
    have hkept := ImportStatement.mem_of_survives
      ((ImportStatement.mem_readBack_iff hcomma).mp hwritten)
    exact hspares statement hstatement ⟨written.localName, statement.source, written.imported⟩
      (List.mem_map.mpr ⟨written, hkept, rfl⟩)

end Run

/-- Linking binds no name that an import of the parent binds, and refuses a child that asks for
another export under such a name. Names that the parent declares otherwise it binds again when a
child asks for them. -/
theorem splice_sparesImports (accepts : Text → Bool) (contract : OutputContract)
    (parent : CompiledModule) (children : List ChildModule) :
    (∀ out, children ≠ [] → CompiledModule.splice accepts contract parent children = .ok out →
      ∃ (runtime : RuntimeImport) (exported : DefaultExport)
        (parts : List (WrappedChild contract exported.binding)),
        HasStatements contract parent out children runtime exported parts ∧
        SparesImports (childNames children) parent.code.toList
          (LinkedCode.importedNames runtime parent.code.toList) parts) ∧
    ∀ runtime exported, contract.runtimeImport parent.code.toList = .ok runtime →
      OutputContract.defaultExport parent.code.toList = .ok exported →
      runtime.place.before ++ runtime.place.text <+: exported.place.before →
      ∀ (point : RunPoint contract exported.binding
          (children.map fun child => ⟨child.name.toList, child.module.code.toList⟩))
        (reached : Selection) (request : BoundName) (rest : List BoundName) (taken : BoundName),
        (Selection.start runtime parent.code.toList).run point.processed = .ok reached →
        point.rest = request :: rest →
        (LinkedCode.importedNames runtime parent.code.toList).find?
          (·.localName = request.localName) = some taken →
        taken.source ≠ request.source ∨ taken.imported ≠ request.imported →
        CompiledModule.splice accepts contract parent children =
          .error (.inChild (String.ofList point.current.child.name)
            (.duplicateImportBinding (String.ofList request.localName))) := by
  refine ⟨fun out hne h => ?_, ?_⟩
  · obtain ⟨runtime, exported, parts, scope, hstatements, hrun⟩ := exists_hasStatements hne h
    obtain ⟨-, -, -, -, -, -, hident⟩ :=
      DefaultExport.defaultExport_eq_ok hstatements.parent_export
    exact ⟨runtime, exported, parts, hstatements, sparesImports_of_run hident _ hrun⟩
  · intro runtime exported hruntime hexported horder point reached request rest taken hreached hrest
      htaken hother
    rw [CompiledModule.splice_eq_inChild_iff]
    refine ⟨runtime, exported, hruntime, hexported, horder, ?_⟩
    rw [wrapChildren_eq_duplicate_iff]
    refine ⟨point, reached, request, rest, hreached, hrest, rfl, ?_⟩
    have hfound := ((RunInvariant.start runtime _).run hreached).parent_first _ _ htaken
    exact Selection.ask_eq_error_iff.mpr ⟨rfl, taken, hfound, hother⟩

/-- A parent with a function of its own, and a child that imports a runtime name of that name. Under
every syntax check that accepts the linked module, it holds the import next to the function. A child
that asks for another export under the name of an import is refused. -/
theorem splice_sparesImports_of_declared_name :
    let parent : CompiledModule := {
      code := "import {a} from 'r'\nfunction b() \x7b\x7d\nvar P\nexport default P" }
    let child : ChildModule :=
      ⟨"C", { code := "import {b} from 'r'\nvar P__C\nexport default P__C" }⟩
    let refused : ChildModule :=
      ⟨"C", { code := "import \x7bb as a\x7d from 'r'\nP__C\nexport default P__C" }⟩
    (∃ out, out.code = "import {a} from 'r'\nfunction b() \x7b\x7d\nvar P\n" ++
        "/* compose: sub-components begin */\n// P.C\nimport \x7b b \x7d from \"r\";\n" ++
        "P.C = (() => \x7b\nvar P__C\n\treturn P__C;\n\x7d)();\n" ++
        "/* compose: sub-components end */\n\nexport default P" ∧
      DeclaresInLine parent.code.toList ['b'] ∧
      (ImportStatement.namesIn "import \x7b b \x7d from \"r\";".toList).map BoundName.localName =
        [['b']] ∧
      ∀ accepts : Text → Bool, accepts out.code.toList = true →
        CompiledModule.splice accepts ⟨"r"⟩ parent [child] = .ok out ∧
        ∃ (runtime : RuntimeImport) (exported : DefaultExport)
          (parts : List (WrappedChild ⟨"r"⟩ exported.binding)),
          HasStatements ⟨"r"⟩ parent out [child] runtime exported parts ∧
          SparesImports ["C".toList] parent.code.toList
            (LinkedCode.importedNames runtime parent.code.toList) parts) ∧
    CompiledModule.splice (fun _ => true) ⟨"r"⟩ parent [refused] =
      .error (.inChild "C" (.duplicateImportBinding "a")) := by
  intro parent child refused
  constructor
  · have hcode : (CompiledModule.splice (fun _ => true) ⟨"r"⟩ parent [child]).toOption.map
        CompiledModule.code =
      some ("import {a} from 'r'\nfunction b() \x7b\x7d\nvar P\n" ++
        "/* compose: sub-components begin */\n// P.C\nimport \x7b b \x7d from \"r\";\n" ++
        "P.C = (() => \x7b\nvar P__C\n\treturn P__C;\n\x7d)();\n" ++
        "/* compose: sub-components end */\n\nexport default P") := by
      decide +kernel
    obtain ⟨out, hout, hcode⟩ := CompiledModule.exists_of_code_eq hcode
    have hsifted : ImportStatement.Sifts [] parent.code.toList ["import {a} from 'r'\n".toList]
        ([] ++ "function".toList ++ ' ' :: (['b'] ++ "() \x7b\x7d\nvar P\nexport default P".toList)) :=
      ImportStatement.sifts_iff.mpr (by decide +kernel)
    refine ⟨out, hcode, .intro (by decide) hsifted rfl (stops_cons.mpr rfl), by decide +kernel, ?_⟩
    intro accepts haccepts
    have hlinked := CompiledModule.splice_of_accepts (List.cons_ne_nil _ _) hout haccepts
    exact ⟨hlinked,
      (splice_sparesImports accepts ⟨"r"⟩ parent [child]).1 out (List.cons_ne_nil _ _) hlinked⟩
  · let cut : CutChild ⟨"r"⟩ ['P'] := {
      child := ⟨"C".toList, refused.module.code.toList⟩
      cut := ⟨"import \x7bb as a\x7d from 'r'".toList, [['a']], "\nP__C\n".toList⟩
      cut_eq := by decide +kernel }
    exact (splice_sparesImports _ ⟨"r"⟩ parent [refused]).2
      ⟨⟨[], "import {a} from 'r'".toList, "\nfunction b() \x7b\x7d\nvar P\nexport default P".toList,
        ⟨['a'], ['r']⟩⟩, [['a']]⟩
      ⟨⟨"import {a} from 'r'\nfunction b() \x7b\x7d\nvar P\n".toList, "export default P".toList, [],
        ['P']⟩, ['P']⟩
      (by decide +kernel) (by decide +kernel) (by decide +kernel)
      ⟨[], cut, [], [], [⟨['a'], ['r'], ['b']⟩], rfl, by decide +kernel⟩
      (Selection.start _ _) ⟨['a'], ['r'], ['b']⟩ [] ⟨['a'], ['r'], ['a']⟩ rfl rfl
      (by decide +kernel) (Or.inr (by decide))

end InlineComponents
