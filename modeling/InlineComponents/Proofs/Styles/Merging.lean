import InlineComponents.Proofs.Text.Spans
import InlineComponents.Styles.Merging

/-!
# Merging loses nothing

Merged styles are either those of the parent as they are, or all style sheets that are not blank, in
order and on lines of their own, each without the blanks at its end. Either way they can be merged
with further children as if all had been merged at once: the blanks at the end are gone already, so
that they are not trimmed a second time.
-/

namespace InlineComponents

namespace Text

/-- Joined pieces have the separator between each two of them. -/
theorem joinWith_eq_intercalate (separator : Text) (pieces : List Text) :
    joinWith separator pieces = separator.intercalate pieces := by
  induction pieces with
  | nil => rfl
  | cons piece rest ih =>
    cases rest with
    | nil => rw [joinWith, List.intercalate_singleton]
    | cons next rest => rw [joinWith, ih, List.intercalate_cons_cons]

end Text

namespace Css

/-- A style sheet that is made of blanks only. -/
def IsBlank (sheet : Css) : Prop := ∀ c ∈ sheet.code.toList, Text.isBlank c = true

instance (sheet : Css) : Decidable sheet.IsBlank :=
  decidable_of_iff (sheet.code.toList.all Text.isBlank = true) List.all_eq_true

/-- The style sheet without the blanks at its end. -/
def trimmedCode (sheet : Css) : String :=
  String.ofList (sheet.code.toList.rdropWhile Text.isBlank)

/-- Style sheets that count as absent are those of blanks only. -/
theorem isEmpty_iff {sheet : Css} : sheet.isEmpty = true ↔ sheet.IsBlank := List.all_eq_true

/-- What selects the style sheets that are not absent. -/
theorem not_isEmpty_eq : (fun sheet : Css => !sheet.isEmpty) = fun sheet => decide ¬ sheet.IsBlank :=
  funext fun sheet => by simp [← isEmpty_iff]

/-- The style sheets that are left are those with more than blanks. -/
theorem present_eq_filter (sheets : List Css) :
    present sheets = sheets.filter fun sheet => ¬ sheet.IsBlank := by
  rw [present, not_isEmpty_eq]

/-- A style sheet is not blank when something is left of it without the blanks at its end. -/
theorem isEmpty_eq_false_iff {sheet : Css} :
    sheet.isEmpty = false ↔ sheet.code.toList.rdropWhile Text.isBlank ≠ [] := by
  rw [ne_eq, List.rdropWhile_eq_nil_iff, ← List.all_eq_true, Bool.not_eq_true]
  rfl

/-- A text that ends like a style sheet without its blanks does not end in a blank. -/
theorem rdropWhile_append_trimmedCode {sheet : Css} (h : sheet.isEmpty = false) (front : Text) :
    (front ++ sheet.trimmedCode.toList).rdropWhile Text.isBlank =
      front ++ sheet.trimmedCode.toList := by
  have hne := isEmpty_eq_false_iff.mp h
  rw [trimmedCode, String.toList_ofList, List.rdropWhile_eq_self_iff]
  intro hall
  rw [List.getLast_append_of_ne_nil hall hne]
  exact List.rdropWhile_last_not _ _ hne

/-! ### Style sheets one after the other -/

/-- The style sheets stand on lines of their own, each without the blanks at its end. -/
theorem code_concatenate (sheets : List Css) :
    (concatenate sheets).code = "\n".intercalate (sheets.map trimmedCode) := by
  have hmap : (sheets.map trimmedCode).map String.toList =
      sheets.map fun sheet => Text.trimEnd sheet.code.toList := by
    rw [List.map_map]
    refine List.map_congr_left fun sheet _ => ?_
    rw [Function.comp_apply, trimmedCode, String.toList_ofList, Text.trimEnd,
      Text.dropEndWhile_eq_rdropWhile]
  rw [concatenate, ← String.toList_inj, String.toList_ofList, String.toList_intercalate, hmap,
    Text.joinWith_eq_intercalate]
  rfl

section Concatenate

variable {sheets : List Css} (hne : sheets ≠ []) (h : ∀ sheet ∈ sheets, sheet.isEmpty = false)

include hne h

/-- Style sheets that are not blank make one that is not, and that does not end in a blank. -/
theorem concatenate_of_not_blank : (concatenate sheets).isEmpty = false ∧
    (concatenate sheets).trimmedCode = (concatenate sheets).code := by
  obtain ⟨init, last, rfl⟩ := (List.eq_nil_or_concat' sheets).resolve_left hne
  have hlast : last.isEmpty = false := h last (by simp)
  obtain ⟨front, hfront⟩ : ∃ front,
      (concatenate (init ++ [last])).code.toList = front ++ last.trimmedCode.toList := by
    rw [code_concatenate, List.map_append, List.map_singleton]
    by_cases hinit : init = []
    · exact ⟨[], by simp [hinit]⟩
    · rw [String.intercalate_append_of_ne_nil (by simpa using hinit) (List.cons_ne_nil _ _),
        String.intercalate_singleton, String.toList_append]
      exact ⟨_, rfl⟩
  have htrim := rdropWhile_append_trimmedCode hlast front
  rw [← hfront] at htrim
  constructor
  · rw [isEmpty_eq_false_iff, htrim, hfront, trimmedCode, String.toList_ofList]
    exact List.append_ne_nil_of_right_ne_nil _ (isEmpty_eq_false_iff.mp hlast)
  · rw [trimmedCode, htrim, String.ofList_toList]

/-- Sheets that stand one after the other are put in front of others as if one by one. -/
theorem concatenate_cons_concatenate (more : List Css) :
    concatenate (concatenate sheets :: more) = concatenate (sheets ++ more) := by
  have hcode : (concatenate (concatenate sheets :: more)).code =
      (concatenate (sheets ++ more)).code := by
    rw [code_concatenate, List.map_cons, (concatenate_of_not_blank hne h).2, code_concatenate,
      code_concatenate, List.map_append]
    by_cases hmore : more = []
    · rw [hmore, List.map_nil, List.append_nil, String.intercalate_singleton]
    · have hrest : more.map trimmedCode ≠ [] := by simpa using hmore
      rw [String.intercalate_cons_of_ne_nil hrest,
        String.intercalate_append_of_ne_nil (by simpa using hne) hrest]
  have hmap (sheets : List Css) : concatenate sheets = ⟨(concatenate sheets).code, none⟩ := rfl
  rw [hmap, hcode, ← hmap]

/-- A style sheet is not what it becomes in front of others. -/
theorem concatenate_cons_ne {own : Css} (hown : own.isEmpty = false) :
    concatenate (own :: sheets) ≠ own := by
  intro heq
  have hall : ∀ sheet ∈ own :: sheets, sheet.isEmpty = false := List.forall_mem_cons.mpr ⟨hown, h⟩
  have htrim := (concatenate_of_not_blank (List.cons_ne_nil own sheets) hall).2
  have hcode := code_concatenate (own :: sheets)
  rw [heq] at htrim hcode
  rw [List.map_cons, String.intercalate_cons_of_ne_nil (by simpa using hne), htrim,
    ← String.toList_inj, String.toList_append, String.toList_append, List.append_assoc,
    List.self_eq_append_right] at hcode
  exact List.cons_ne_nil _ _ hcode

end Concatenate

/-! ### Merging -/

/-- Of two lists of style sheets there are left those that are left of both. -/
theorem present_append (front back : List Css) :
    present (front ++ back) = present front ++ present back := List.filter_append _ _

/-- No style sheet is left exactly when all are blank. -/
theorem present_eq_nil_iff {sheets : List Css} :
    present sheets = [] ↔ ∀ sheet ∈ sheets, sheet.isEmpty = true := by
  simp [present]

/-- A style sheet that is left is not blank. -/
theorem isEmpty_of_mem_present {sheets : List Css} {sheet : Css} (h : sheet ∈ present sheets) :
    sheet.isEmpty = false := by
  simpa using (List.mem_filter.mp h).2

/-- Of one style sheet there is left what is not blank. -/
theorem toList_filter_isEmpty (parent : Option Css) :
    (parent.filter fun sheet => !sheet.isEmpty).toList = present parent.toList := by
  cases parent with
  | none => rfl
  | some own => cases h : own.isEmpty <;> simp [present, Option.filter, h]

section Merge

variable {parent : Option Css} {children : List Css}

/-- Once a child is not blank, all style sheets that are left stand one after the other. -/
theorem merge_of_present (h : present children ≠ []) :
    merge parent children = some (concatenate (present (parent.toList ++ children))) := by
  rw [merge, present_append, ← toList_filter_isEmpty]
  split
  · contradiction
  · rename_i hchildren
    rw [hchildren]

/-- Children are added to style sheets that stand one after the other already. -/
theorem merge_concatenate {sheets : List Css} (hne : sheets ≠ [])
    (h : ∀ sheet ∈ sheets, sheet.isEmpty = false) (more : List Css) :
    merge (some (concatenate sheets)) more = some (concatenate (sheets ++ present more)) := by
  have hblank := (concatenate_of_not_blank hne h).1
  by_cases hmore : present more = []
  · rw [merge_of_blank (present_eq_nil_iff.mp hmore), hmore, List.append_nil, Option.filter_some,
      hblank]
    rfl
  · have hpresent : present [concatenate sheets] = [concatenate sheets] := by
      rw [present, List.filter_singleton, hblank]
      rfl
    rw [merge_of_present hmore, present_append, Option.toList_some, hpresent,
      List.singleton_append, concatenate_cons_concatenate hne h]

/-- Children may be merged some at a time. -/
theorem merge_append (more : List Css) :
    merge parent (children ++ more) = merge (merge parent children) more := by
  by_cases hchildren : present children = []
  · -- Blank children leave of the parent what the merge looks at.
    rw [merge_of_blank (present_eq_nil_iff.mp hchildren), merge, merge, present_append, hchildren,
      List.nil_append, Option.filter_filter]
    simp only [Bool.and_self]
  · have hboth : present (children ++ more) ≠ [] := by
      rw [present_append]
      exact List.append_ne_nil_of_left_ne_nil hchildren _
    have hne : present (parent.toList ++ children) ≠ [] := by
      rw [present_append]
      exact List.append_ne_nil_of_right_ne_nil _ hchildren
    rw [merge_of_present hboth, merge_of_present hchildren,
      merge_concatenate hne fun sheet => isEmpty_of_mem_present, ← present_append, List.append_assoc]

/-- There are no styles exactly when all style sheets are blank. -/
theorem merge_eq_none_iff :
    merge parent children = none ↔ ∀ sheet ∈ parent.toList ++ children, sheet.isEmpty = true := by
  rw [← present_eq_nil_iff, present_append, List.append_eq_nil_iff, ← toList_filter_isEmpty,
    Option.toList_eq_nil_iff]
  by_cases hchildren : present children = []
  · rw [merge_of_blank (present_eq_nil_iff.mp hchildren)]
    exact (and_iff_left hchildren).symm
  · rw [merge_of_present hchildren]
    exact iff_of_false (Option.some_ne_none _) fun h => hchildren h.2

/-- The styles of the parent stay as they are exactly when they are not blank and all children
are. -/
theorem merge_some_eq_self_iff {own : Css} : merge (some own) children = some own ↔
    own.isEmpty = false ∧ ∀ child ∈ children, child.isEmpty = true := by
  by_cases hchildren : present children = []
  · have hall := present_eq_nil_iff.mp hchildren
    rw [merge_of_blank hall, Option.filter_eq_some_iff, and_iff_left hall]
    simp
  · rw [merge_of_present hchildren, ← present_eq_nil_iff]
    refine iff_of_false (fun h => ?_) fun h => hchildren h.2
    have hmerged := Option.some.inj h
    have hall : ∀ sheet ∈ present ((some own).toList ++ children), sheet.isEmpty = false :=
      fun sheet => isEmpty_of_mem_present
    have hne : present ((some own).toList ++ children) ≠ [] := by
      rw [present_append]
      exact List.append_ne_nil_of_right_ne_nil _ hchildren
    have hown : own.isEmpty = false := by
      rw [← hmerged]
      exact (concatenate_of_not_blank hne hall).1
    have hsingle : present ((some own).toList ++ children) = own :: present children := by
      simp [present, hown]
    rw [hsingle] at hmerged
    exact concatenate_cons_ne hchildren (fun sheet => isEmpty_of_mem_present) hown hmerged

/-- Once a child is not blank, all that is not blank stands in order on lines of its own. -/
theorem merge_of_not_blank (h : ¬ ∀ child ∈ children, child.IsBlank) :
    merge parent children = some
      { code := "\n".intercalate
          (((parent.toList ++ children).filter fun sheet => ¬ sheet.IsBlank).map trimmedCode)
        map := none } := by
  simp only [← isEmpty_iff] at h
  rw [merge_of_present (mt present_eq_nil_iff.mp h), ← present_eq_filter]
  exact congrArg (fun code => some (⟨code, none⟩ : Css)) (code_concatenate _)

end Merge

/-- How the styles of a parent are merged with those of its children. -/
structure MergesLosslessly (parent : Option Css) (children : List Css) : Prop where
  /-- Further children may be merged afterwards. -/
  merge_append : ∀ more, merge parent (children ++ more) = merge (merge parent children) more
  /-- There are no styles exactly when all there are is blank. -/
  eq_none_iff : merge parent children = none ↔
    (∀ own, parent = some own → own.IsBlank) ∧ ∀ child ∈ children, child.IsBlank
  /-- The styles are those of the parent, with their map, exactly when the parent is not blank and
  all children are. -/
  eq_parent_iff : (∃ own, parent = some own ∧ merge parent children = some own) ↔
    (∃ own, parent = some own ∧ ¬ own.IsBlank) ∧ ∀ child ∈ children, child.IsBlank
  /-- Otherwise, that is once a child is not blank, there is no map, and all that is not blank
  stands in order on lines of its own, without the blanks at its end. -/
  eq_some : ¬ (∀ child ∈ children, child.IsBlank) → merge parent children = some
    { code := "\n".intercalate
        (((parent.toList ++ children).filter fun sheet => ¬ sheet.IsBlank).map trimmedCode)
      map := none }

/-- Merging loses nothing, however many children are merged at a time. -/
theorem mergesLosslessly (parent : Option Css) (children : List Css) :
    MergesLosslessly parent children where
  merge_append more := merge_append more
  eq_none_iff := by
    rw [merge_eq_none_iff, List.forall_mem_append]
    simp only [Option.mem_toList, isEmpty_iff]
  eq_parent_iff := by
    cases parent with
    | none => simp
    | some own =>
      have hown : merge (some own) children = some own ↔
          ¬ own.isEmpty = true ∧ ∀ child ∈ children, child.isEmpty = true := by
        rw [merge_some_eq_self_iff, Bool.not_eq_true]
      simpa only [Option.some.injEq, exists_eq_left', isEmpty_iff] using hown
  eq_some := merge_of_not_blank

/-- A child ends the map of its parent, and only the blanks at the ends are lost. -/
example : merge (some ⟨"p \u3000", some .null⟩) [⟨" \n", none⟩, ⟨"\tdiv\n", none⟩] =
    some ⟨"p\n\tdiv", none⟩ := rfl

/-- The styles that a parent and its children come to: those of the parent as they are while no
child has any, and otherwise all that are not blank, one after the other. -/
inductive IsMerged (parent : Option Css) (children : List Css) : Css → Prop where
  | own {css : Css} (hparent : parent = some css) (hcss : ¬ css.IsBlank)
      (hchildren : ∀ child ∈ children, child.IsBlank) : IsMerged parent children css
  | joined {child : Css} (hchild : child ∈ children) (hblank : ¬ child.IsBlank) :
      IsMerged parent children
        { code := "\n".intercalate
            (((parent.toList ++ children).filter fun sheet => ¬ sheet.IsBlank).map trimmedCode)
          map := none }

/-- Merging gives what the styles come to, and nothing when they come to nothing. -/
theorem merge_eq_some_iff {parent : Option Css} {children : List Css} {css : Css} :
    merge parent children = some css ↔ IsMerged parent children css := by
  have hblank (hall : ∀ child ∈ children, child.IsBlank) :
      merge parent children = some css ↔ parent = some css ∧ ¬ css.IsBlank := by
    rw [merge_of_blank fun child hchild => isEmpty_iff.mpr (hall child hchild),
      Option.filter_eq_some_iff, Bool.not_eq_true', ← Bool.not_eq_true, isEmpty_iff]
  constructor
  · intro h
    by_cases hall : ∀ child ∈ children, child.IsBlank
    · obtain ⟨hparent, hcss⟩ := (hblank hall).mp h
      exact .own hparent hcss hall
    · rw [merge_of_not_blank hall] at h
      obtain rfl := Option.some.inj h
      simp only [Classical.not_forall] at hall
      obtain ⟨child, hchild, hchildBlank⟩ := hall
      exact .joined hchild hchildBlank
  · rintro (⟨hparent, hcss, hchildren⟩ | ⟨hchild, hchildBlank⟩)
    · exact (hblank hchildren).mpr ⟨hparent, hcss⟩
    · exact merge_of_not_blank fun hall => hchildBlank (hall _ hchild)

end Css

end InlineComponents
