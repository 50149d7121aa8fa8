import InlineComponents.Package.Denials
import Mathlib.Data.String.Basic

/-!
# Denials as an ordered set

The packages of a collection stand in ascending order, each once, so that a collection is determined
by its members and a report lists each of them once, in that order.
-/

namespace InlineComponents.Denials

/-- Whether the packages stand in ascending order, each once. -/
def IsOrdered (denials : Denials) : Prop := denials.packages.Pairwise (· < ·)

/-- A name put in its place leaves an ascending list ascending. -/
theorem pairwise_insertName {name : String} {names : List String} (h : names.Pairwise (· < ·)) :
    (insertName name names).Pairwise (· < ·) := by
  induction names with
  | nil => exact List.pairwise_singleton _ _
  | cons first rest ih =>
    obtain ⟨hfirst, hrest⟩ := List.pairwise_cons.mp h
    simp only [insertName]
    split
    · rename_i hlt
      refine List.pairwise_cons.mpr ⟨fun other hother => ?_, h⟩
      rcases List.mem_cons.mp hother with rfl | hbehind
      · exact hlt
      · exact lt_trans hlt (hfirst other hbehind)
    · rename_i hnot
      split
      · exact h
      · rename_i hne
        refine List.pairwise_cons.mpr ⟨fun other hother => ?_, ih hrest⟩
        rcases mem_insertName.mp hother with rfl | hbehind
        · exact lt_of_le_of_ne (not_lt.mp hnot) (Ne.symm hne)
        · exact hfirst other hbehind

/-- Nothing is in order. -/
theorem isOrdered_empty : IsOrdered {} := List.Pairwise.nil

/-- A collection stays in order when a package is recorded. -/
theorem IsOrdered.record {denials : Denials} (h : denials.IsOrdered) (package : String) :
    (denials.record package).IsOrdered :=
  pairwise_insertName h

/-- Collections in order with the same members are the same. -/
theorem IsOrdered.eq_of_members {first second : Denials} (hfirst : first.IsOrdered)
    (hsecond : second.IsOrdered)
    (h : ∀ package, package ∈ first.packages ↔ package ∈ second.packages) : first = second := by
  have hnodup {denials : Denials} (hordered : denials.IsOrdered) : denials.packages.Nodup :=
    hordered.imp fun hlt => ne_of_lt hlt
  have hperm : first.packages.Perm second.packages :=
    (List.perm_ext_iff_of_nodup (hnodup hfirst) (hnodup hsecond)).mpr h
  have hpackages : first.packages = second.packages :=
    hperm.eq_of_pairwise (fun _ _ _ _ hlt hgt => absurd hgt (lt_asymm hlt)) hfirst hsecond
  exact congrArg Denials.mk hpackages

/-- A report starts with what happened and has a line for each package, in the order of the
collection. -/
theorem summary?_of_ne_nil (field : String) {denials : Denials} (h : denials.packages ≠ []) :
    denials.summary? field = some ("[compose-native] The following packages did not export their " ++
      "`package.json` file so we could not check the \"" ++ field ++ "\" field. If you had " ++
      "difficulties importing components from a package, then please contact the author and ask " ++
      "them to export the package.json file.\n" ++
      String.join (denials.packages.map fun name => "- " ++ name ++ "\n")) := by
  have hsome : denials.isEmpty = false := List.isEmpty_eq_false_iff.mpr h
  have hline : packageLine = fun name => "- " ++ name ++ "\n" := rfl
  rw [summary?, hsome, hline]
  simp [messageTag, String.append_assoc]

/-- There is no report exactly when there is no package. -/
theorem summary?_eq_none_iff {field : String} {denials : Denials} :
    denials.summary? field = none ↔ denials.packages = [] := by
  constructor
  · intro hnone
    by_contra hne
    rw [summary?_of_ne_nil field hne] at hnone
    contradiction
  · intro hnil
    rw [summary?, isEmpty, hnil]
    rfl

end InlineComponents.Denials
