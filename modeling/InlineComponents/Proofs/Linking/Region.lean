import InlineComponents.Proofs.Imports.Removal
import InlineComponents.Proofs.Linking.Layout
import Mathlib.Data.List.DropRight
import Mathlib.Data.List.Forall2

/-!
# The layout of a linked module

A linked module is the qualified parent with a region in front of its default export. The region
holds one block for each child, in the order of the children: its own body, without static imports,
in an initializer. Apart from the comments it holds import statements only. In front of the blocks
stand those that were moved out of the children, and in front of an initializer the runtime import
that its child still needs.
-/

namespace InlineComponents

open Text Instantiation

/-! ### Moved statements -/

/-- A line that is left of a statement when it is moved: the statement itself when it binds no name,
and otherwise a statement for some of its bindings. -/
inductive IsMovedFrom : (line statement : Text) → Prop where
  | whole {statement : Text}
      (hunbound : ∀ parsed, ImportStatement.parse? statement = some parsed → parsed.bindings = []) :
      IsMovedFrom statement statement
  | part {statement : Text} {parsed : ImportStatement} {fresh : List ImportBinding}
      (hparsed : ImportStatement.parse? statement = some parsed) (hne : fresh ≠ [])
      (hfresh : fresh.Sublist parsed.bindings) :
      IsMovedFrom (ImportStatement.render ⟨parsed.source, fresh⟩) statement

/-- A static import ends with a quote or a semicolon. -/
theorem ImportStatement.endsStatement_trim {code text : Text} (h : text ∈ staticImportTexts code) :
    EndsStatement (trim text) := by
  obtain ⟨front, c, htrim, hc⟩ := exists_trim_eq_concat h
  have hchar : c = '"' ∨ c = '\'' ∨ c = ';' := by simpa [isQuote, or_assoc] using hc
  refine ⟨front, c, htrim, ?_⟩
  rcases hchar with rfl | rfl | rfl
  · exact ⟨by decide, by decide⟩
  · exact ⟨by decide, by decide⟩
  · exact ⟨by decide, by decide⟩

/-- Moved lines end like statements when the statements they come from do. -/
theorem endsStatement_of_moved {lines statements : List Text}
    (h : List.SublistForall₂ IsMovedFrom lines statements)
    (hstatements : ∀ statement ∈ statements, EndsStatement statement) :
    ∀ line ∈ lines, EndsStatement line := by
  induction h with
  | nil =>
    intro line hline
    contradiction
  | cons hline _ ih =>
    obtain ⟨hfirst, hrest⟩ := List.forall_mem_cons.mp hstatements
    refine List.forall_mem_cons.mpr ⟨?_, ih hrest⟩
    cases hline with
    | whole hunbound => exact hfirst
    | part hparsed hne hfresh => exact endsStatement_render _
  | cons_right _ ih => exact ih (List.forall_mem_cons.mp hstatements).2

/-- The new bindings of a statement are some of its bindings. -/
theorem ImportScope.sublist_of_bindNew {scope final : ImportScope} {source : Text}
    {bindings fresh : List ImportBinding}
    (h : scope.bindNew source bindings = .ok (fresh, final)) : fresh.Sublist bindings := by
  induction bindings generalizing scope fresh with
  | nil =>
    obtain ⟨rfl, -⟩ := Prod.mk.inj (Except.ok.inj h)
    exact List.Sublist.slnil
  | cons binding rest ih =>
    rw [bindNew] at h
    split at h
    · split at h
      · exact (ih h).cons binding
      · contradiction
    · cases hrest : (scope.add source binding).bindNew source rest with
      | error violation =>
        rw [hrest] at h
        contradiction
      | ok result =>
        obtain ⟨others, last⟩ := result
        rw [hrest] at h
        obtain ⟨rfl, rfl⟩ := Prod.mk.inj (Except.ok.inj h)
        exact (ih hrest).cons_cons binding

namespace LinkState

variable {parentCode : Text} {state next : LinkState}

/-- Moving a statement adds at most one line that is left of it. -/
theorem hoisted_of_hoist {statement : Text} (h : state.hoist parentCode statement = .ok next) :
    next.hoisted = state.hoisted ∨
      ∃ line, IsMovedFrom line statement ∧ next.hoisted = state.hoisted ++ [line] := by
  have hverbatim
      (hunbound : ∀ parsed, ImportStatement.parse? statement = some parsed → parsed.bindings = [])
      (hnext : (if Text.occursIn statement parentCode || state.hoisted.contains statement then state
        else { state with hoisted := state.hoisted ++ [statement] }) = next) :
      next.hoisted = state.hoisted ∨
        ∃ line, IsMovedFrom line statement ∧ next.hoisted = state.hoisted ++ [line] := by
    split at hnext
    · subst hnext
      exact .inl rfl
    · subst hnext
      exact .inr ⟨statement, .whole hunbound, rfl⟩
  unfold hoist at h
  simp only at h
  split at h
  · rename_i hnone
    exact hverbatim (by simp [hnone]) (Except.ok.inj h)
  · rename_i parsed hparsed
    split at h
    · rename_i hempty
      refine hverbatim (fun other hother => ?_) (Except.ok.inj h)
      obtain rfl := Option.some.inj (hparsed.symm.trans hother)
      exact List.isEmpty_iff.mp hempty
    · obtain ⟨⟨fresh, scope⟩, hbind, h⟩ := bind_eq_ok_iff.mp h
      simp only at h
      split at h
      · obtain rfl := Except.ok.inj h
        exact .inl rfl
      · rename_i hfresh
        obtain rfl := Except.ok.inj h
        exact .inr ⟨_, .part hparsed (by simpa using hfresh)
          (ImportScope.sublist_of_bindNew hbind), rfl⟩

/-- Moving statements adds lines that are left of some of them, in order. -/
theorem exists_hoisted_of_hoistAll {statements : List Text}
    (h : state.hoistAll parentCode statements = .ok next) :
    ∃ lines, List.SublistForall₂ IsMovedFrom lines statements ∧
      next.hoisted = state.hoisted ++ lines := by
  induction statements generalizing state with
  | nil =>
    obtain rfl := Except.ok.inj h
    exact ⟨[], .nil, by simp⟩
  | cons statement rest ih =>
    obtain ⟨middle, hfirst, hrest⟩ := bind_eq_ok_iff.mp h
    obtain ⟨lines, hlines, hhoisted⟩ := ih hrest
    rcases hoisted_of_hoist hfirst with hsame | ⟨line, hline, hadded⟩
    · exact ⟨lines, .cons_right hlines, by rw [hhoisted, hsame]⟩
    · exact ⟨line :: lines, .cons hline hlines, by rw [hhoisted, hadded, List.append_assoc]; rfl⟩

end LinkState

/-! ### Children and their pieces -/

/-- What a child's module is cut into, and the lines that come of its imports. -/
structure ChildPiece where
  name : Text
  runtime : RuntimeImport
  exported : DefaultExport
  between : Text
  statements : List Text
  left : Text
  body : Text
  moved : List Text
  own : List Text

namespace ChildPiece

/-- The block of a child with its lines and its body rewritten. -/
def block (binding : Text) (rewrite : Text → Text) (piece : ChildPiece) : Text :=
  blockOf binding piece.name (statementLines (piece.own.map rewrite)) (rewrite piece.body)

/-- The pieces of a child. Its module is cut behind the runtime import and in front of the default
export, which is that of the symbol made of the binding and its name. -/
structure IsOf (contract : OutputContract) (binding : Text) (child : ChildCode)
    (piece : ChildPiece) : Prop where
  /-- The pieces are those of this child. -/
  name_eq : piece.name = child.name
  /-- The module has one runtime import. -/
  runtime_eq : contract.runtimeImport child.code = .ok piece.runtime
  /-- The module has a default export. -/
  exported_eq : OutputContract.defaultExport child.code = .ok piece.exported
  /-- It exports the symbol of the child. -/
  symbol : piece.exported.binding = binding ++ "__".toList ++ child.name
  /-- The text between the two statements is the child's own. -/
  between_eq : piece.exported.place.before =
    piece.runtime.place.before ++ piece.runtime.place.text ++ piece.between
  /-- Static imports are taken out of it, and nothing else is. -/
  sifted : ImportStatement.Sifts [] piece.between piece.statements piece.left
  /-- The body is what is left, without the line ends around it. -/
  body_eq : piece.body =
    (piece.left.dropWhile ("\r\n".toList.contains ·)).rdropWhile ("\r\n".toList.contains ·)
  /-- What is moved comes of the static imports, in order. -/
  moved_from : List.SublistForall₂ IsMovedFrom piece.moved (piece.statements.map trim)
  /-- The block has no import of its own, or one for some names of the runtime import. -/
  own_from : piece.own = [] ∨ ∃ source bindings fresh,
    (ImportStatement.parse? piece.runtime.place.text = some ⟨source, bindings⟩ ∨
      ImportStatement.parse? piece.runtime.place.text = none ∧
        source = contract.runtimeModule.toList ∧
        bindings = piece.runtime.identifiers.map fun name => ⟨name, name⟩) ∧
    fresh ≠ [] ∧ fresh.Sublist bindings ∧ piece.own = [ImportStatement.render ⟨source, fresh⟩]

variable {contract : OutputContract} {binding : Text} {child : ChildCode} {piece : ChildPiece}

/-- What is moved out of a child ends like statements. -/
theorem IsOf.endsStatement_moved (h : IsOf contract binding child piece) :
    ∀ line ∈ piece.moved, EndsStatement line := by
  refine endsStatement_of_moved h.moved_from fun statement hstatement => ?_
  obtain ⟨found, hfound, rfl⟩ := List.mem_map.mp hstatement
  rw [(ImportStatement.sifts_iff.mp h.sifted).1] at hfound
  exact ImportStatement.endsStatement_trim hfound

/-- What stands in the block of a child ends like a statement. -/
theorem IsOf.endsStatement_own (h : IsOf contract binding child piece) :
    ∀ line ∈ piece.own, EndsStatement line := by
  rcases h.own_from with hown | ⟨source, bindings, fresh, -, -, -, hown⟩
  · simp [hown]
  · simp [hown, endsStatement_render]

/-- The block of a child is qualified in its lines and its body. -/
theorem IsOf.qualifyAll_block (names : List Text) (hbinding : isPlainIdentifier binding = true)
    (h : IsOf contract binding child piece) :
    qualifyAll binding names (piece.block binding id) =
      piece.block binding (qualifyAll binding names) := by
  obtain ⟨-, -, -, -, -, -, hident⟩ := DefaultExport.defaultExport_eq_ok h.exported_eq
  rw [h.symbol] at hident
  have hname : piece.name.all isPlainCharacter = true := by
    have hall := (isPlainIdentifier_iff.mp hident).2
    rw [List.all_append, Bool.and_eq_true] at hall
    rw [h.name_eq]
    exact hall.2
  rw [block, block, List.map_id, qualifyAll_blockOf hbinding hname h.endsStatement_own]
  rfl

end ChildPiece

/-- Wrapping a child makes a block of its pieces. -/
theorem exists_piece_of_wrapChild {contract : OutputContract} {binding parentCode : Text}
    {state next : LinkState} {child : ChildCode} {block : Text}
    (h : wrapChild contract binding parentCode state child = .ok (block, next)) :
    ∃ piece : ChildPiece, piece.IsOf contract binding child ∧ block = piece.block binding id ∧
      next.hoisted = state.hoisted ++ piece.moved := by
  obtain ⟨cut, hoisted, missing, scope, hcut, hhoisted, hbind, rfl, rfl⟩ :=
    wrapChild_eq_ok_iff.mp h
  obtain ⟨runtime, exported, hruntime, hexported, hbetween, htext, hidentifiers, hsymbol, -⟩ :=
    ChildCut.ofCode_eq_ok_iff.mp hcut
  obtain ⟨lines, hlines, hadded⟩ := LinkState.exists_hoisted_of_hoistAll hhoisted
  refine ⟨⟨child.name, runtime, exported, cut.between,
    ImportStatement.staticImportTexts cut.between, cut.body, ChildCut.trimLineBreaks cut.body, lines,
    runtimeLines (cut.runtimeStatement contract).source missing⟩,
    ⟨rfl, hruntime, hexported, hsymbol, hbetween, ImportStatement.sifts_iff.mpr ⟨rfl, rfl⟩, ?_,
      hlines, ?_⟩, ?_, hadded⟩
  · rw [ChildCut.trimLineBreaks, dropEndWhile_eq_rdropWhile]
    have hbreak : ChildCut.isLineBreak = ("\r\n".toList.contains ·) := by
      funext c
      simp [ChildCut.isLineBreak, or_comm]
    rw [hbreak]
  · cases missing with
    | nil => exact .inl rfl
    | cons first rest =>
      refine .inr ⟨(cut.runtimeStatement contract).source,
        (cut.runtimeStatement contract).bindings, first :: rest, ?_, List.cons_ne_nil _ _,
        ImportScope.sublist_of_bindNew hbind, rfl⟩
      rw [← htext, ← hidentifiers, ChildCut.runtimeStatement]
      cases ImportStatement.parse? cut.runtimeText with
      | none => exact .inr ⟨rfl, rfl, rfl⟩
      | some statement => exact .inl rfl
  · rw [childBlock_eq_blockOf, ChildPiece.block, List.map_id]
    rfl

/-- A run makes one block for each child, in order, and moves what is moved out of each. -/
theorem exists_pieces_of_wrapChildren {contract : OutputContract} {binding parentCode : Text}
    {state final : LinkState} {children : List ChildCode} {blocks : List Text}
    (h : wrapChildren contract binding parentCode state children = .ok (blocks, final)) :
    ∃ pieces : List ChildPiece,
      List.Forall₂ (fun child piece => piece.IsOf contract binding child) children pieces ∧
      blocks = pieces.map (ChildPiece.block binding id) ∧
      final.hoisted = state.hoisted ++ pieces.flatMap ChildPiece.moved := by
  induction children generalizing state blocks with
  | nil =>
    obtain ⟨rfl, rfl⟩ := wrapChildren_nil_eq_ok_iff.mp h
    exact ⟨[], .nil, rfl, by simp⟩
  | cons child rest ih =>
    obtain ⟨block, next, others, hblock, hothers, rfl⟩ := wrapChildren_cons_eq_ok_iff.mp h
    obtain ⟨piece, hpiece, rfl, hmoved⟩ := exists_piece_of_wrapChild hblock
    obtain ⟨pieces, hpieces, rfl, hhoisted⟩ := ih hothers
    exact ⟨piece :: pieces, .cons hpiece hpieces, rfl, by
      rw [hhoisted, hmoved, List.flatMap_cons, List.append_assoc]⟩

/-- Every piece is that of a child. -/
theorem exists_child_of_pieces {contract : OutputContract} {binding : Text}
    {children : List ChildCode} {pieces : List ChildPiece}
    (h : List.Forall₂ (fun child piece => piece.IsOf contract binding child) children pieces) :
    ∀ piece ∈ pieces, ∃ child, piece.IsOf contract binding child := by
  induction h with
  | nil =>
    intro piece hpiece
    contradiction
  | cons hpiece _ ih => exact List.forall_mem_cons.mpr ⟨⟨_, hpiece⟩, ih⟩

/-- Every line that a run moves to the front ends like a statement. -/
theorem endsStatement_of_wrapChildren {contract : OutputContract} {binding parentCode : Text}
    {scope : ImportScope} {final : LinkState} {children : List ChildCode} {blocks : List Text}
    (h : wrapChildren contract binding parentCode ⟨scope, []⟩ children = .ok (blocks, final)) :
    ∀ line ∈ final.hoisted, EndsStatement line := by
  obtain ⟨pieces, hpieces, -, hhoisted⟩ := exists_pieces_of_wrapChildren h
  intro line hline
  rw [hhoisted, List.nil_append] at hline
  obtain ⟨piece, hpiece, hmoved⟩ := List.mem_flatMap.mp hline
  obtain ⟨child, hchild⟩ := exists_child_of_pieces hpieces piece hpiece
  exact hchild.endsStatement_moved line hmoved

/-- The layout of a module into which children were linked, given the parent's default export and
the pieces of the children. -/
structure HasLayout (contract : OutputContract) (parent out : CompiledModule)
    (children : List ChildModule) (exported : DefaultExport) (pieces : List ChildPiece) : Prop where
  /-- The default export is the parent's. -/
  parent_export : OutputContract.defaultExport parent.code.toList = .ok exported
  /-- The statement splits the parent's code. -/
  parent_code : exported.place.before ++ (exported.place.text ++ exported.place.after) =
    parent.code.toList
  /-- Every child has its pieces, in the order of the children. -/
  children_pieces : List.Forall₂ (fun child piece => ChildPiece.IsOf contract exported.binding
    ⟨child.name.toList, child.module.code.toList⟩ piece) children pieces
  /-- The region stands in front of the default export, between the qualified parts. It holds the
  moved lines and then every block once. -/
  code : out.code.toList =
    qualifyAll exported.binding (childNames children) exported.place.before ++
      regionOf
        (statementLines (pieces.flatMap fun piece =>
          piece.moved.map (qualifyAll exported.binding (childNames children))))
        (pieces.map
          (ChildPiece.block exported.binding (qualifyAll exported.binding (childNames children)))) ++
      qualifyAll exported.binding (childNames children)
        (exported.place.text ++ exported.place.after)
  /-- Without the region the qualified parent is left. -/
  without_region :
    qualifyAll exported.binding (childNames children) exported.place.before ++
        qualifyAll exported.binding (childNames children)
          (exported.place.text ++ exported.place.after) =
      qualifyAll exported.binding (childNames children) parent.code.toList
  /-- The default export of the linked module binds the same name. -/
  exports : ∃ found, OutputContract.defaultExport out.code.toList = .ok found ∧
    found.binding = exported.binding
  /-- Everything but the code is the parent's. -/
  unchanged : out = { parent with code := out.code }

/-- Linking children gives a module of this layout, whatever the syntax check accepts. -/
theorem splice_hasLayout {accepts : Text → Bool} {contract : OutputContract}
    {parent out : CompiledModule} {children : List ChildModule} (hne : children ≠ [])
    (h : CompiledModule.splice accepts contract parent children = .ok out) :
    ∃ exported pieces, HasLayout contract parent out children exported pieces := by
  obtain ⟨runtime, exported, blocks, final, -, hexported, hwrap, hout, hcode⟩ :=
    exists_parts_of_splice hne h
  obtain ⟨hsplit, hline, -, hread, -, -, hident⟩ := DefaultExport.defaultExport_eq_ok hexported
  have hends := endsStatement_of_wrapChildren hwrap
  obtain ⟨pieces, hpieces, rfl, hhoisted⟩ := exists_pieces_of_wrapChildren hwrap
  have hqualified : (pieces.map (ChildPiece.block exported.binding id)).map
      (qualifyAll exported.binding (childNames children)) =
        pieces.map (ChildPiece.block exported.binding
          (qualifyAll exported.binding (childNames children))) := by
    rw [List.map_map]
    refine List.map_congr_left fun piece hpiece => ?_
    obtain ⟨child, hchild⟩ := exists_child_of_pieces hpieces piece hpiece
    exact hchild.qualifyAll_block (childNames children) hident
  rw [qualifyAll_statementLines hends, hhoisted, List.nil_append, List.map_flatMap,
    hqualified] at hcode
  refine ⟨exported, pieces, hexported, hsplit.symm, List.forall₂_map_left_iff.mp hpieces, hcode,
    ?_, ?_, hout⟩
  · rw [hsplit, qualifyAll_append_export hline hread]
  · rw [hcode]
    generalize statementLines _ = lines
    generalize pieces.map _ = blocks
    obtain ⟨front, hfront⟩ := exists_regionOf_eq lines blocks
    rw [hfront, ← List.append_assoc]
    exact ⟨_, DefaultExport.defaultExport_of_qualified hexported hident, rfl⟩

/-- A parent that creates the first of two children, which creates the second. Of their imports one
is moved in part, one as it is, one is there already, and one runtime name is still missing. -/
theorem splice_hasLayout_of_two_children :
    let parent : CompiledModule :=
      { code := "import {a} from 'r'\nx = new C({})\nexport default P" }
    let first : ChildModule :=
      ⟨"C", { code := "import \x7ba, b\x7d from 'r'\nimport d, {e} from 'm'\nimport 'n'\n\n" ++
        "P__C = new D({})\nexport default P__C" }⟩
    let second : ChildModule :=
      ⟨"D", { code := "import {b} from 'r'\nimport d from 'm'\nP__D\n\nexport default P__D" }⟩
    ∃ out, CompiledModule.splice (fun _ => true) ⟨"r"⟩ parent [first, second] = .ok out ∧
      out.code = "import {a} from 'r'\nx = new P.C({})\n/* compose: sub-components begin */\n" ++
        "import d, \x7b e \x7d from \"m\";\nimport 'n'\n" ++
        "// P.C\nimport \x7b b \x7d from \"r\";\n" ++
        "P.C = (() => \x7b\nP__C = new P.D({})\n\treturn P__C;\n\x7d)();\n\n" ++
        "// P.D\nP.D = (() => \x7b\nP__D\n\treturn P__D;\n\x7d)();\n" ++
        "/* compose: sub-components end */\n\nexport default P" ∧
      ∃ exported pieces, HasLayout ⟨"r"⟩ parent out [first, second] exported pieces := by
  intro parent first second
  have hcode : (CompiledModule.splice (fun _ => true) ⟨"r"⟩ parent [first, second]).toOption.map
      CompiledModule.code =
    some ("import {a} from 'r'\nx = new P.C({})\n/* compose: sub-components begin */\n" ++
      "import d, \x7b e \x7d from \"m\";\nimport 'n'\n" ++
      "// P.C\nimport \x7b b \x7d from \"r\";\n" ++
      "P.C = (() => \x7b\nP__C = new P.D({})\n\treturn P__C;\n\x7d)();\n\n" ++
      "// P.D\nP.D = (() => \x7b\nP__D\n\treturn P__D;\n\x7d)();\n" ++
      "/* compose: sub-components end */\n\nexport default P") := by decide +kernel
  obtain ⟨out, hout, hcode⟩ := CompiledModule.exists_of_code_eq hcode
  exact ⟨out, hout, hcode, splice_hasLayout (List.cons_ne_nil _ _) hout⟩

end InlineComponents
