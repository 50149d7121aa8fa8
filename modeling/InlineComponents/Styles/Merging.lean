import InlineComponents.Compilation.Basic

/-!
# Merging styles

The styles of a parent are followed by those of its inline components. Blank style sheets count as
absent. A map speaks about one style sheet, so it is kept only while nothing is appended.
-/

namespace InlineComponents.Css

/-- The style sheets one after the other, each without the blanks at its end. -/
def concatenate (sheets : List Css) : Css :=
  { code := String.ofList
      (Text.joinWith ['\n'] (sheets.map fun sheet => Text.trimEnd sheet.code.toList)) }

/-- The style sheets that are not blank. -/
def present (sheets : List Css) : List Css := sheets.filter fun sheet => !sheet.isEmpty

/-- The styles of a parent together with those of its inline components. -/
def merge (parent : Option Css) (children : List Css) : Option Css :=
  match parent.filter (fun sheet => !sheet.isEmpty), present children with
  | own, [] => own
  | own, first :: rest => some (concatenate (own.toList ++ first :: rest))

/-- Blank style sheets of children leave the styles of the parent as they are. -/
theorem merge_of_blank {parent : Option Css} {children : List Css}
    (h : ∀ sheet ∈ children, sheet.isEmpty = true) :
    merge parent children = parent.filter fun sheet => !sheet.isEmpty := by
  have : present children = [] := List.filter_eq_nil_iff.mpr fun sheet hs => by simp [h sheet hs]
  rw [merge, this]

end InlineComponents.Css
