import InlineComponents.Options
import InlineComponents.Proofs.Wire.Stability

/-!
# What the compiler is told

The options that are given for the compiler are passed on beside the settings of a file. On the wire
they share one object, in which the last setting of a key counts: the compiler is told its own file
and no input map exactly if neither is among the given options.
-/

namespace InlineComponents

open Json

namespace PluginOptions

/-- The compiler options that an object of options gives. -/
def givenCompilerOptions (value : Json) : Fields :=
  match value.get? "compilerOptions" with
  | some (.object given) => given
  | _ => []

/-- What the compiler is told for a file under a key. -/
def told (options : PluginOptions) (file : FilePath) (key : String) : Option Json :=
  (options.compileOptions file).write.get? key

variable {value : Json} {options : PluginOptions}

/-- The given compiler options are kept, apart from an override. -/
theorem compilerOptions_of_read (h : read value = .ok options) :
    options.compilerOptions = overrideCss options.emitCss (givenCompilerOptions value) := by
  simp only [read, bind_eq_ok_iff] at h
  obtain ⟨fields, hfields, given, hgiven, emitCss, -, _, -, _, -, _, -, _, -, h⟩ := h
  obtain rfl := Except.ok.inj h
  obtain rfl := RecordType.eq_object_of_readObject hfields
  have hsame : given.getD [] = givenCompilerOptions (.object fields) := by
    unfold givenCompilerOptions
    change _ = (match findField? "compilerOptions" fields with
      | some (.object given) => given
      | _ => [])
    cases hfound : findField? "compilerOptions" fields with
    | none =>
      simp only [Json.optional, Json.defaulted, hfound] at hgiven
      obtain rfl := Except.ok.inj hgiven
      rfl
    | some found =>
      simp only [Json.optional, Json.defaulted, hfound] at hgiven
      cases found with
      | null =>
        obtain rfl := Except.ok.inj hgiven
        rfl
      | object inner =>
        obtain rfl := Except.ok.inj hgiven
        rfl
      | _ => contradiction
  rw [← hsame]

/-- The given compiler options are in order. -/
theorem isSorted_givenCompilerOptions (h : value.IsOrdered) :
    IsSorted (givenCompilerOptions value) := by
  unfold givenCompilerOptions
  split
  · rename_i given hgiven
    cases value with
    | object fields => exact (h.of_findField? hgiven).1
    | _ => contradiction
  · exact isSorted_nil

/-- What is given for the compiler and what is set for a file. -/
theorem findField?_overrideCss (emitCss : Bool) (key : String) (fields : Fields) :
    findField? key (overrideCss emitCss fields) =
      if emitCss ∧ key = "css" then some (.bool false) else findField? key fields := by
  cases emitCss with
  | false => simp [overrideCss]
  | true => simp [overrideCss, findField?_setField, eq_comm]

/-- An override keeps the order. -/
theorem isSorted_overrideCss {fields : Fields} (h : IsSorted fields) (emitCss : Bool) :
    IsSorted (overrideCss emitCss fields) := by
  cases emitCss with
  | false => exact h
  | true => exact h.setField _ _

/-- What is passed on for a file besides its name: the settings that are forced, then what was
given. -/
theorem findField?_extra (h : read value = .ok options) (file : FilePath) (key : String) :
    findField? key (options.compileOptions file).extra =
      if options.emitCss ∧ key = "css" then some (.bool false)
      else if key = "format" then some (.string "esm")
      else findField? key (givenCompilerOptions value) := by
  change findField? key (overrideCss options.emitCss
    (setField "format" (.string "esm") options.compilerOptions)) = _
  rw [findField?_overrideCss, findField?_setField, compilerOptions_of_read h,
    findField?_overrideCss]
  by_cases hcss : options.emitCss ∧ key = "css"
  · rw [if_pos hcss, if_pos hcss]
  · rw [if_neg hcss, if_neg hcss, if_neg hcss]
    simp only [eq_comm]

/-- What is passed on is in order. -/
theorem isSorted_extra (hvalue : value.IsOrdered) (h : read value = .ok options)
    (file : FilePath) : IsSorted (options.compileOptions file).extra := by
  refine isSorted_overrideCss (IsSorted.setField ?_ _ _) _
  rw [compilerOptions_of_read h]
  exact isSorted_overrideCss (isSorted_givenCompilerOptions hvalue) _

/-- What the compiler is told: the forced settings, then what was given, and the name of the file
only after that. -/
theorem told_eq (hvalue : value.IsOrdered) (h : read value = .ok options) (file : FilePath)
    (key : String) :
    options.told file key =
      if options.emitCss ∧ key = "css" then some (.bool false)
      else if key = "format" then some (.string "esm")
      else (findField? key (givenCompilerOptions value)).or
        (if key = "filename" then some (.string file.toString) else none) := by
  have hmap : (options.compileOptions file).sourcemap = none := rfl
  rw [told, CompileOptions.get?_write (isSorted_extra hvalue h file), findField?_extra h, hmap,
    ite_self]
  split
  · rfl
  · split
    · rfl
    · rfl

/-- The options for a file keep apart what is passed on, if no declared key was given. -/
theorem keptApart_compileOptions (hvalue : value.IsOrdered) (h : read value = .ok options)
    (file : FilePath) (hfilename : findField? "filename" (givenCompilerOptions value) = none)
    (hsourcemap : findField? "sourcemap" (givenCompilerOptions value) = none) :
    (options.compileOptions file).KeptApart where
  sourcemap := nofun
  sorted := isSorted_extra hvalue h file
  undeclared key hkey := by
    rw [Ne, CompileOptions.field?_eq_none_iff, not_and_or, not_not, not_not] at hkey
    rcases hkey with rfl | rfl
    · simpa [findField?_extra h] using hfilename
    · simpa [findField?_extra h] using hsourcemap

/-- Options that are read back were passed on without a declared key. -/
theorem findField?_extra_of_read {written : Json} {compileOptions : CompileOptions}
    (h : CompileOptions.read written = .ok compileOptions) (key : String)
    (hkey : CompileOptions.record.field? key ≠ none) :
    findField? key compileOptions.extra = none := by
  obtain ⟨fields, -, -, -, hextra⟩ := CompileOptions.read_eq_ok_iff.mp h
  rw [hextra, CompileOptions.findField?_undeclared, if_neg (by simpa using hkey)]

/-- What the compiler is told for a file, next to what was given for it. -/
structure TellsCompiler (value : Json) (options : PluginOptions) (file : FilePath) : Prop where
  /-- It is always asked for a module. -/
  format : options.told file "format" = some (.string "esm")
  /-- While styles are emitted it is asked to leave them out. -/
  css : options.emitCss = true → options.told file "css" = some (.bool false)
  /-- Every other option is told exactly as it was given. -/
  given : ∀ key, key ≠ "format" → key ≠ "filename" → ¬(options.emitCss = true ∧ key = "css") →
    options.told file key = findField? key (givenCompilerOptions value)
  /-- A file name is told as it was given, and that of the file if none was. -/
  filename : options.told file "filename" =
    some ((findField? "filename" (givenCompilerOptions value)).getD (.string file.toString))
  /-- The name of the file is told unless another one was given. -/
  filename_iff : options.told file "filename" = some (.string file.toString) ↔
    ∀ name ∈ findField? "filename" (givenCompilerOptions value), name = .string file.toString
  /-- No input map is told unless one was given. -/
  sourcemap_iff : options.told file "sourcemap" = none ↔
    findField? "sourcemap" (givenCompilerOptions value) = none
  /-- The options for another file are those that it gets itself, and the same up to its name. -/
  for_file : ∀ other, (options.compileOptions file).forFile other = options.compileOptions other ∧
    (options.compileOptions file).forFile other =
      { options.compileOptions file with filename := other }
  /-- Under any other key the same is told for another file. -/
  other_file : ∀ other key, key ≠ "filename" → options.told other key = options.told file key
  /-- What was written is read back if and only if neither a file name nor a map was given. -/
  read_back_iff : CompileOptions.read (options.compileOptions file).write =
      .ok (options.compileOptions file) ↔
    findField? "filename" (givenCompilerOptions value) = none ∧
      findField? "sourcemap" (givenCompilerOptions value) = none

/-- The compiler is told the settings of the file, except where the given options name a file or a
map of their own. -/
theorem tellsCompiler (hvalue : value.IsOrdered) (h : read value = .ok options) (file : FilePath) :
    TellsCompiler value options file := by
  have hname : options.told file "filename" =
      some ((findField? "filename" (givenCompilerOptions value)).getD (.string file.toString)) := by
    rw [told_eq hvalue h]
    cases findField? "filename" (givenCompilerOptions value) <;> simp
  have hgiven (key : String) (hformat : key ≠ "format") (hfilename : key ≠ "filename")
      (hcss : ¬(options.emitCss = true ∧ key = "css")) (other : FilePath) :
      options.told other key = findField? key (givenCompilerOptions value) := by
    rw [told_eq hvalue h, if_neg hcss, if_neg hformat, if_neg hfilename, Option.or_none]
  refine
    { format := by simp [told_eq hvalue h]
      css := fun hemit => by simp [told_eq hvalue h, hemit]
      given := fun key hformat hfilename hcss => hgiven key hformat hfilename hcss file
      filename := hname
      filename_iff := ?_
      sourcemap_iff := by simp [hgiven "sourcemap"]
      for_file := fun other => ⟨rfl, rfl⟩
      other_file := fun other key hkey => by simp [told_eq hvalue h, hkey]
      read_back_iff := ⟨fun hread => ?_, fun hnone => ?_⟩ }
  · rw [hname]
    cases findField? "filename" (givenCompilerOptions value) <;> simp
  · have hfilename := findField?_extra_of_read hread "filename" (by decide)
    have hsourcemap := findField?_extra_of_read hread "sourcemap" (by decide)
    simp only [findField?_extra h] at hfilename hsourcemap
    exact ⟨by simpa using hfilename, by simpa using hsourcemap⟩
  · exact CompileOptions.read_write (keptApart_compileOptions hvalue h file hnone.1 hnone.2)

/-- A file name among the options that are given for the compiler is told in place of that of the
file, and what was written is then not read back. -/
theorem told_given_filename : ∃ value options, value.IsOrdered ∧ read value = .ok options ∧
    options.told (.ofString "src/App.svelte") "filename" = some (.string "other.js") ∧
    CompileOptions.read (options.compileOptions (.ofString "src/App.svelte")).write ≠
      .ok (options.compileOptions (.ofString "src/App.svelte")) := by
  let value : Json :=
    .object [("compilerOptions", .object [("filename", .string "other.js")])]
  have hvalue : value.IsOrdered :=
    ⟨List.pairwise_singleton _ _, ⟨List.pairwise_singleton _ _, trivial, trivial⟩, trivial⟩
  obtain ⟨options, hread⟩ : ∃ options, read value = .ok options := ⟨_, rfl⟩
  have htold := tellsCompiler hvalue hread (.ofString "src/App.svelte")
  refine ⟨value, options, hvalue, hread, htold.filename, fun hback => ?_⟩
  have hnone := (htold.read_back_iff.mp hback).1
  contradiction

end PluginOptions

end InlineComponents
