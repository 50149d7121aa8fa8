import InlineComponents.Proofs.Linking.QualifiedImports
import InlineComponents.Proofs.Linking.Region
import Mathlib.Data.List.Pairwise

/-!
# The imports that a linked module provides

A binding that a child imports reaches the linked module through the parent, which binds it
already, or through a statement that is written for it. What such a statement says is read from its
text as it stands in the module, and there its source is qualified and some of its bindings are
gone: only the last default name and the last namespace were written, and behind a namespace no
bindings between braces are read.
-/

namespace InlineComponents

open Text Instantiation

/-- The statement that was written anew, if one was. -/
def Moved.statement? : Moved → Option ImportStatement
  | verbatim _ _ => none
  | narrowed statement _ => some statement

namespace WrappedChild

variable {contract : OutputContract} {binding : Text}

/-- The runtime import in the block of the child, if it binds a name there. -/
def runtimeStatements (part : WrappedChild contract binding) : List ImportStatement :=
  if part.missing.isEmpty then [] else [part.runtime]

/-- The statements that are written for the child. -/
def written (part : WrappedChild contract binding) : List ImportStatement :=
  part.moved.filterMap Moved.statement? ++ part.runtimeStatements

/-- The texts of all import statements in the region that are there for the child. -/
def statementTexts (part : WrappedChild contract binding) : List Text :=
  part.moved.map Moved.text ++ part.runtimeStatements.map ImportStatement.render

/-- Whether a linked module provides a binding: the parent imports it, or a statement of the region
does as it stands there. -/
def IsProvided (parent : List BoundName) (names : List Text)
    (parts : List (WrappedChild contract binding)) (bound : BoundName) : Prop :=
  bound ∈ parent ∨ ∃ part ∈ parts, ∃ text ∈ part.statementTexts,
    bound ∈ ImportStatement.namesIn (qualifyAll binding names text)

/-! ### Written statements -/

variable {part : WrappedChild contract binding} {statement : ImportStatement}

/-- A written statement is one that was moved, or the runtime import. -/
theorem mem_written_iff :
    statement ∈ part.written ↔
      (∃ hbound, Moved.narrowed statement hbound ∈ part.moved) ∨
        statement ∈ part.runtimeStatements := by
  rw [written, List.mem_append, List.mem_filterMap]
  refine or_congr_left ⟨?_, ?_⟩
  · rintro ⟨moved, hmoved, hsome⟩
    cases moved with
    | verbatim text unbound => contradiction
    | narrowed other bound =>
      obtain rfl := Option.some.inj hsome
      exact ⟨bound, hmoved⟩
  · rintro ⟨hbound, hmoved⟩
    exact ⟨_, hmoved, rfl⟩

/-- A written statement binds a name. -/
theorem bindings_ne_nil_of_mem_written (h : statement ∈ part.written) :
    statement.bindings ≠ [] := by
  rcases mem_written_iff.mp h with ⟨hbound, -⟩ | hruntime
  · exact hbound
  · rw [runtimeStatements] at hruntime
    split at hruntime
    · contradiction
    · rename_i hmissing
      obtain rfl := List.mem_singleton.mp hruntime
      have hne : part.missing ≠ [] := by simpa using hmissing
      exact hne

/-- The statements for a child hold what was selected for it. -/
theorem selected_eq_flatMap (part : WrappedChild contract binding) :
    part.selected = part.written.flatMap ImportStatement.boundNames := by
  have hmoved (moved : List Moved) : moved.flatMap Moved.boundNames =
      (moved.filterMap Moved.statement?).flatMap ImportStatement.boundNames := by
    induction moved with
    | nil => rfl
    | cons first rest ih =>
      cases first with
      | verbatim text unbound => exact ih
      | narrowed statement bound =>
        change statement.boundNames ++ rest.flatMap Moved.boundNames = _
        rw [ih]
        rfl
  have hruntime : part.runtime.boundNames =
      part.runtimeStatements.flatMap ImportStatement.boundNames := by
    rw [runtimeStatements]
    split
    · rename_i hmissing
      have hnil : part.missing = [] := by simpa using hmissing
      simp [runtime, hnil, ImportStatement.boundNames]
    · simp
  rw [selected, written, List.flatMap_append, hmoved, hruntime]

/-- A binding that a child asks for has a source. -/
theorem isSource_of_mem_requests {request : BoundName} (h : request ∈ part.requests) :
    IsSource request.source := by
  have hread {text : Text} (hmem : request ∈ ImportStatement.namesIn text) :
      IsSource request.source := by
    obtain ⟨statement, hparse, hbound⟩ := List.mem_flatMap.mp hmem
    obtain ⟨_, -, rfl⟩ := List.mem_map.mp hbound
    exact ImportStatement.isSource_of_parse? (Option.mem_toList.mp hparse)
  rcases List.mem_append.mp h with hstatic | hruntime
  · obtain ⟨text, -, hmem⟩ := List.mem_flatMap.mp hstatic
    exact hread hmem
  · obtain ⟨_, -, rfl⟩ := List.mem_map.mp hruntime
    obtain ⟨runtime, -, hfound, -⟩ := ChildCut.ofCode_eq_ok_iff.mp part.cut_eq
    change IsSource (part.cut.runtimeStatement contract).source
    rw [ChildCut.runtimeStatement]
    cases hparse : ImportStatement.parse? part.cut.runtimeText with
    | none => exact ImportStatement.isSource_of_runtimeImport hfound
    | some statement => exact ImportStatement.isSource_of_parse? hparse

/-- The statements that are written for several children. -/
def allWritten (parts : List (WrappedChild contract binding)) : List ImportStatement :=
  parts.flatMap written

/-- A statement of the region that binds a name is one that was written. -/
theorem exists_text_iff (hbinding : isPlainIdentifier binding = true) {names : List Text}
    {parts : List (WrappedChild contract binding)} {bound : BoundName} :
    (∃ part ∈ parts, ∃ text ∈ part.statementTexts,
        bound ∈ ImportStatement.namesIn (qualifyAll binding names text)) ↔
      ∃ statement ∈ allWritten parts,
        bound ∈ ImportStatement.namesIn (qualifyAll binding names statement.render) := by
  constructor
  · rintro ⟨part, hpart, text, htext, hmem⟩
    rcases List.mem_append.mp htext with hmoved | hruntime
    · obtain ⟨moved, hin, rfl⟩ := List.mem_map.mp hmoved
      cases moved with
      | verbatim text unbound =>
        have hnone : ImportStatement.namesIn (qualifyAll binding names text) = [] :=
          ImportStatement.namesIn_qualifyAll_eq_nil hbinding unbound
        rw [Moved.text, hnone] at hmem
        contradiction
      | narrowed statement hbound =>
        exact ⟨statement, List.mem_flatMap.mpr
          ⟨part, hpart, mem_written_iff.mpr (Or.inl ⟨hbound, hin⟩)⟩, hmem⟩
    · obtain ⟨statement, hin, rfl⟩ := List.mem_map.mp hruntime
      exact ⟨statement, List.mem_flatMap.mpr
        ⟨part, hpart, mem_written_iff.mpr (Or.inr hin)⟩, hmem⟩
  · rintro ⟨statement, hstatement, hmem⟩
    obtain ⟨part, hpart, hwritten⟩ := List.mem_flatMap.mp hstatement
    refine ⟨part, hpart, statement.render, ?_, hmem⟩
    rcases mem_written_iff.mp hwritten with ⟨hbound, hin⟩ | hin
    · exact List.mem_append_left _ (List.mem_map.mpr ⟨_, hin, rfl⟩)
    · exact List.mem_append_right _ (List.mem_map.mpr ⟨_, hin, rfl⟩)

/-- What was selected for several children is what their statements bind. -/
theorem flatMap_selected (parts : List (WrappedChild contract binding)) :
    parts.flatMap WrappedChild.selected =
      (allWritten parts).flatMap ImportStatement.boundNames := by
  rw [allWritten, List.flatMap_assoc]
  exact List.flatMap_congr fun part _ => part.selected_eq_flatMap

section Run

variable {parent : List BoundName} {parts : List (WrappedChild contract binding)}
  {scope : ImportScope}
  (hrun : RunInvariant parent (parts.flatMap (·.requests))
    ⟨scope, (allWritten parts).flatMap ImportStatement.boundNames⟩)

include hrun

/-- Every binding that was asked for is the parent's or that of a written statement. -/
theorem mem_of_mem_requests {request : BoundName} (h : request ∈ parts.flatMap (·.requests)) :
    request ∈ parent ∨ ∃ statement ∈ allWritten parts, request ∈ statement.boundNames := by
  have horigin := hrun.origin request.localName request (hrun.agrees request h)
  exact horigin.imp_right fun hselected => List.mem_flatMap.mp hselected

/-- Written statements have sources. -/
theorem isSource_of_mem_allWritten (h : statement ∈ allWritten parts) :
    IsSource statement.source := by
  obtain ⟨part, hpart, hwritten⟩ := List.mem_flatMap.mp h
  obtain ⟨first, rest, hbindings⟩ :=
    List.exists_cons_of_ne_nil (bindings_ne_nil_of_mem_written hwritten)
  have hbound : ⟨first.localName, statement.source, first.imported⟩ ∈ statement.boundNames := by
    refine List.mem_map.mpr ⟨first, ?_, rfl⟩
    rw [hbindings]
    exact List.mem_cons_self
  obtain ⟨asking, -, hasked⟩ := List.mem_flatMap.mp
    (hrun.requested.subset (List.mem_flatMap.mpr ⟨statement, h, hbound⟩))
  exact isSource_of_mem_requests hasked

/-- A local name is bound by one binding of one written statement. -/
theorem eq_of_localName_eq {other : ImportStatement} (h : statement ∈ allWritten parts)
    (hother : other ∈ allWritten parts) {bound found : BoundName}
    (hbound : bound ∈ statement.boundNames) (hfound : found ∈ other.boundNames)
    (hname : bound.localName = found.localName) : statement = other ∧ bound = found := by
  have honce := hrun.once
  have hsame := List.inj_on_of_nodup_map honce (List.mem_flatMap.mpr ⟨statement, h, hbound⟩)
    (List.mem_flatMap.mpr ⟨other, hother, hfound⟩) hname
  refine ⟨?_, hsame⟩
  by_contra hne
  rw [List.map_flatMap, List.nodup_flatMap] at honce
  have hsymm : Std.Symm (Function.onFun List.Disjoint fun statement : ImportStatement =>
      statement.boundNames.map BoundName.localName) := ⟨fun _ _ => List.disjoint_symm⟩
  exact honce.2.forall h hother hne (List.mem_map_of_mem hbound) (hname ▸ List.mem_map_of_mem hfound)

end Run

end WrappedChild

/-! ### What is provided -/

/-- What the imports of the children come to in a linked module, given what was written for them.
The names are those of the children, and the parent's imports are known. -/
structure Provision {contract : OutputContract} {binding : Text} (names : List Text)
    (parent : List BoundName) (parts : List (WrappedChild contract binding)) : Prop where
  /-- Every binding that a child asks for is the parent's or that of a written statement. -/
  asked : ∀ part ∈ parts, ∀ request ∈ part.requests, request ∈ parent ∨
    ∃ statement ∈ WrappedChild.allWritten parts, request ∈ statement.boundNames
  /-- Only the parent and the written statements provide bindings. -/
  provided_iff : ∀ bound, WrappedChild.IsProvided parent names parts bound ↔ bound ∈ parent ∨
    ∃ statement ∈ WrappedChild.allWritten parts,
      bound ∈ ImportStatement.namesIn (qualifyAll binding names statement.render)
  /-- When all written names are plain, a written statement provides those of its bindings that
  survive, from its qualified source. -/
  survives_iff : (∀ statement ∈ WrappedChild.allWritten parts, ∀ bound ∈ statement.bindings,
      bound.IsPlain) →
    ∀ bound, ',' ∉ bound.localName → (WrappedChild.IsProvided parent names parts bound ↔
      bound ∈ parent ∨ ∃ statement ∈ WrappedChild.allWritten parts, ∃ written,
        ImportStatement.survives statement.bindings written = true ∧
        bound = ⟨written.localName, qualifyAll binding names statement.source, written.imported⟩)
  /-- When all written names are plain, a binding that was selected for a statement is provided
  exactly if it survives there and qualifying leaves the source as it is. -/
  kept_iff : (∀ statement ∈ WrappedChild.allWritten parts, ∀ bound ∈ statement.bindings,
      bound.IsPlain) →
    ∀ statement ∈ WrappedChild.allWritten parts, ∀ written ∈ statement.bindings,
      (WrappedChild.IsProvided parent names parts
          ⟨written.localName, statement.source, written.imported⟩ ↔
        ImportStatement.survives statement.bindings written = true ∧
          qualifyAll binding names statement.source = statement.source)

/-- A binding that survives is one of the bindings. -/
theorem ImportStatement.mem_of_survives {bindings : List ImportBinding} {binding : ImportBinding}
    (h : survives bindings binding = true) : binding ∈ bindings := by
  unfold survives at h
  split at h
  · rw [Bool.and_eq_true] at h
    exact List.contains_iff_mem.mp h.1
  · rw [Bool.and_eq_true, decide_eq_true_eq] at h
    exact mem_of_lastLocal? h.1

/-- A run provides what its written statements keep. -/
theorem provision_of_run {contract : OutputContract} {binding : Text} {names : List Text}
    {parent : List BoundName} {parts : List (WrappedChild contract binding)} {scope : ImportScope}
    (hbinding : isPlainIdentifier binding = true)
    (hrun : RunInvariant parent (parts.flatMap (·.requests))
      ⟨scope, (WrappedChild.allWritten parts).flatMap ImportStatement.boundNames⟩) :
    Provision names parent parts := by
  have hprovided (bound : BoundName) : WrappedChild.IsProvided parent names parts bound ↔
      bound ∈ parent ∨ ∃ statement ∈ WrappedChild.allWritten parts,
        bound ∈ ImportStatement.namesIn (qualifyAll binding names statement.render) :=
    or_congr_right (WrappedChild.exists_text_iff hbinding)
  have hsurvives (hplain : ∀ statement ∈ WrappedChild.allWritten parts,
      ∀ bound ∈ statement.bindings, bound.IsPlain) (bound : BoundName)
      (hcomma : ',' ∉ bound.localName) : WrappedChild.IsProvided parent names parts bound ↔
        bound ∈ parent ∨ ∃ statement ∈ WrappedChild.allWritten parts, ∃ written,
          ImportStatement.survives statement.bindings written = true ∧ bound =
            ⟨written.localName, qualifyAll binding names statement.source, written.imported⟩ := by
    rw [hprovided]
    refine or_congr_right (exists_congr fun statement => and_congr_right fun hstatement => ?_)
    rw [ImportStatement.namesIn_qualifyAll_render hbinding
      (WrappedChild.isSource_of_mem_allWritten hrun hstatement) (hplain statement hstatement),
      ImportStatement.boundNames, List.mem_map]
    refine exists_congr fun written => ?_
    constructor
    · rintro ⟨hread, rfl⟩
      exact ⟨(ImportStatement.mem_readBack_iff hcomma).mp hread, rfl⟩
    · rintro ⟨hread, rfl⟩
      exact ⟨(ImportStatement.mem_readBack_iff hcomma).mpr hread, rfl⟩
  refine ⟨fun part hpart request hrequest => WrappedChild.mem_of_mem_requests hrun
    (List.mem_flatMap.mpr ⟨part, hpart, hrequest⟩), hprovided, hsurvives, ?_⟩
  intro hplain statement hstatement written hwritten
  have hname : IsName written.localName := (hplain statement hstatement written hwritten).localName
  have hbound : ⟨written.localName, statement.source, written.imported⟩ ∈ statement.boundNames :=
    List.mem_map.mpr ⟨written, hwritten, rfl⟩
  rw [hsurvives hplain _ (hname.not_mem (by decide))]
  constructor
  · rintro (hparent | ⟨other, hother, found, hfound, heq⟩)
    · -- What was selected is bound to no name of the parent.
      have hselected := List.mem_flatMap.mpr ⟨statement, hstatement, hbound⟩
      exact absurd rfl (hrun.not_parent _ hselected _ hparent)
    · obtain ⟨hlocal, hsource, himported⟩ := BoundName.mk.inj heq
      have hin : ⟨found.localName, other.source, found.imported⟩ ∈ other.boundNames :=
        List.mem_map.mpr ⟨found, ImportStatement.mem_of_survives hfound, rfl⟩
      obtain ⟨rfl, -⟩ := WrappedChild.eq_of_localName_eq hrun hstatement hother hbound hin hlocal
      obtain rfl : written = found := by
        obtain ⟨imported, localName⟩ := written
        obtain ⟨foundImported, foundName⟩ := found
        obtain rfl : imported = foundImported := himported
        obtain rfl : localName = foundName := hlocal
        rfl
      exact ⟨hfound, hsource.symm⟩
  · rintro ⟨hkeeps, hsource⟩
    exact Or.inr ⟨statement, hstatement, written, hkeeps, by rw [hsource]⟩

/-! ### The statements of a linked module -/

/-- The block of a child as it stands in a linked module: its runtime import and its body are
qualified. -/
def WrappedChild.linkedBlock {contract : OutputContract} {binding : Text} (names : List Text)
    (part : WrappedChild contract binding) : Text :=
  blockOf binding part.child.name
    (statementLines (part.runtimeStatements.map fun statement =>
      qualifyAll binding names statement.render))
    (qualifyAll binding names (ChildCut.trimLineBreaks part.cut.body))

/-- The place of the import statements in a linked module: the statements that were moved stand in
lines at the front of the region, and the runtime import of a child in the block of the child. -/
structure HasStatements (contract : OutputContract) (parent out : CompiledModule)
    (children : List ChildModule) (runtime : RuntimeImport) (exported : DefaultExport)
    (parts : List (WrappedChild contract exported.binding)) : Prop where
  parent_runtime : contract.runtimeImport parent.code.toList = .ok runtime
  parent_export : OutputContract.defaultExport parent.code.toList = .ok exported
  children_eq : parts.map (·.child) =
    children.map fun child => ⟨child.name.toList, child.module.code.toList⟩
  code : out.code.toList =
    qualifyAll exported.binding (childNames children) exported.place.before ++
      regionOf
        (statementLines (parts.flatMap fun part => part.moved.map fun moved =>
          qualifyAll exported.binding (childNames children) moved.text))
        (parts.map (WrappedChild.linkedBlock (childNames children))) ++
      qualifyAll exported.binding (childNames children)
        (exported.place.text ++ exported.place.after)

/-- The block of a child is qualified in its runtime import and its body. -/
theorem WrappedChild.qualifyAll_block {contract : OutputContract} {binding : Text}
    {names : List Text} (hbinding : isPlainIdentifier binding = true)
    (part : WrappedChild contract binding) :
    qualifyAll binding names part.block = part.linkedBlock names := by
  have hlines : runtimeLines part.runtime.source part.missing =
      part.runtimeStatements.map ImportStatement.render := by
    rw [runtimeStatements, runtime]
    cases part.missing with
    | nil => rfl
    | cons first rest => rfl
  rw [block, childBlock_eq_blockOf,
    qualifyAll_blockOf hbinding (isPlain_name_of_ofCode part.cut_eq) endsStatement_runtimeLines,
    hlines, List.map_map]
  rfl

/-- A linked module is put together from what its children were wrapped to, and the run of its
children has kept the invariant. -/
theorem exists_wrapped_of_splice {accepts : Text → Bool} {contract : OutputContract}
    {parent out : CompiledModule} {children : List ChildModule} (hne : children ≠ [])
    (h : CompiledModule.splice accepts contract parent children = .ok out) :
    ∃ (runtime : RuntimeImport) (exported : DefaultExport)
      (parts : List (WrappedChild contract exported.binding)) (blocks : List Text)
      (final : LinkState),
      HasStatements contract parent out children runtime exported parts ∧
      wrapChildren contract exported.binding parent.code.toList
        ⟨LinkedCode.parentScope runtime parent.code.toList, []⟩
        (children.map fun child => ⟨child.name.toList, child.module.code.toList⟩) =
          .ok (blocks, final) ∧
      final.hoisted = parts.flatMap (·.moved.map Moved.text) ∧
      RunInvariant (LinkedCode.importedNames runtime parent.code.toList)
        (parts.flatMap (·.requests))
        ⟨final.scope, (WrappedChild.allWritten parts).flatMap ImportStatement.boundNames⟩ := by
  obtain ⟨runtime, exported, blocks, final, hruntime, hexported, hwrap, -, hcode⟩ :=
    exists_parts_of_splice hne h
  obtain ⟨-, -, -, -, -, -, hident⟩ := DefaultExport.defaultExport_eq_ok hexported
  obtain ⟨parts, hchildren, rfl, hhoisted, hrun⟩ := wrapChildren_eq_ok hwrap []
  have hinvariant := (RunInvariant.start runtime parent.code.toList).run hrun
  rw [List.nil_append, List.nil_append, WrappedChild.flatMap_selected] at hinvariant
  rw [List.nil_append] at hhoisted
  refine ⟨runtime, exported, parts, _, final, ⟨hruntime, hexported, hchildren, ?_⟩, hwrap, hhoisted,
    hinvariant⟩
  have hends := endsStatement_of_wrapChildren hwrap
  have hblocks : (parts.map WrappedChild.block).map
      (qualifyAll exported.binding (childNames children)) =
        parts.map (WrappedChild.linkedBlock (childNames children)) := by
    rw [List.map_map]
    exact List.map_congr_left fun part _ => part.qualifyAll_block hident
  rw [hcode, qualifyAll_statementLines hends, hhoisted, List.map_flatMap, hblocks]
  simp only [List.map_map, Function.comp_def]

/-- A linked module is put together from its statements, and the run of its children has kept the
invariant. -/
theorem exists_hasStatements {accepts : Text → Bool} {contract : OutputContract}
    {parent out : CompiledModule} {children : List ChildModule} (hne : children ≠ [])
    (h : CompiledModule.splice accepts contract parent children = .ok out) :
    ∃ (runtime : RuntimeImport) (exported : DefaultExport)
      (parts : List (WrappedChild contract exported.binding)) (scope : ImportScope),
      HasStatements contract parent out children runtime exported parts ∧
      RunInvariant (LinkedCode.importedNames runtime parent.code.toList)
        (parts.flatMap (·.requests))
        ⟨scope, (WrappedChild.allWritten parts).flatMap ImportStatement.boundNames⟩ := by
  obtain ⟨runtime, exported, parts, blocks, final, hstatements, -, -, hinvariant⟩ :=
    exists_wrapped_of_splice hne h
  exact ⟨runtime, exported, parts, final.scope, hstatements, hinvariant⟩

/-- Linking provides what the statements that it writes keep, and those bindings that the parent
imports. -/
theorem splice_provision {accepts : Text → Bool} {contract : OutputContract}
    {parent out : CompiledModule} {children : List ChildModule} (hne : children ≠ [])
    (h : CompiledModule.splice accepts contract parent children = .ok out) :
    ∃ (runtime : RuntimeImport) (exported : DefaultExport)
      (parts : List (WrappedChild contract exported.binding)),
      HasStatements contract parent out children runtime exported parts ∧
      Provision (childNames children) (LinkedCode.importedNames runtime parent.code.toList)
        parts := by
  obtain ⟨runtime, exported, parts, scope, hstatements, hrun⟩ := exists_hasStatements hne h
  obtain ⟨-, -, -, -, -, -, hident⟩ :=
    DefaultExport.defaultExport_eq_ok hstatements.parent_export
  exact ⟨runtime, exported, parts, hstatements, provision_of_run hident hrun⟩

/-- A child that imports the default export of a module under two names is linked, and only the
second name is provided. -/
theorem splice_provision_of_two_defaults : ∃ out,
    CompiledModule.splice (fun _ => true) ⟨"r"⟩
        { code := "import {a} from 'r'\nexport default P" }
        [⟨"C", { code := "import {a} from 'r'\nimport A, {default as B} from 'x'\nP__C\n" ++
          "export default P__C" }⟩] = .ok out ∧
      out.code = "import {a} from 'r'\n/* compose: sub-components begin */\n" ++
        "import B from \"x\";\n// P.C\nP.C = (() => \x7b\nP__C\n\treturn P__C;\n\x7d)();\n" ++
        "/* compose: sub-components end */\n\nexport default P" ∧
      ImportStatement.namesIn "import A, {default as B} from 'x'".toList =
        [⟨['A'], ['x'], "default".toList⟩, ⟨['B'], ['x'], "default".toList⟩] ∧
      ImportStatement.namesIn "import B from \"x\";".toList =
        [⟨['B'], ['x'], "default".toList⟩] ∧
      ∃ (runtime : RuntimeImport) (exported : DefaultExport)
        (parts : List (WrappedChild ⟨"r"⟩ exported.binding)),
        HasStatements ⟨"r"⟩ { code := "import {a} from 'r'\nexport default P" } out
          [⟨"C", { code := "import {a} from 'r'\nimport A, {default as B} from 'x'\nP__C\n" ++
            "export default P__C" }⟩] runtime exported parts ∧
        Provision [['C']] (LinkedCode.importedNames runtime
          "import {a} from 'r'\nexport default P".toList) parts := by
  have hcode : (CompiledModule.splice (fun _ => true) ⟨"r"⟩
      { code := "import {a} from 'r'\nexport default P" }
      [⟨"C", { code := "import {a} from 'r'\nimport A, {default as B} from 'x'\nP__C\n" ++
        "export default P__C" }⟩]).toOption.map CompiledModule.code =
      some ("import {a} from 'r'\n/* compose: sub-components begin */\n" ++
        "import B from \"x\";\n// P.C\nP.C = (() => \x7b\nP__C\n\treturn P__C;\n\x7d)();\n" ++
        "/* compose: sub-components end */\n\nexport default P") := by decide +kernel
  obtain ⟨out, hout, hcode⟩ := CompiledModule.exists_of_code_eq hcode
  exact ⟨out, hout, hcode, by decide +kernel, by decide +kernel,
    splice_provision (List.cons_ne_nil _ _) hout⟩

end InlineComponents
