import InlineComponents.Proofs.Json.Reading
import InlineComponents.Proofs.Wire.Record
import InlineComponents.Wire.Types

/-!
# Wire forms are stable

What is read from a JSON value, in whatever form it stands there, is read back from its own written
form. Each type has a statement of when one of its values is read back, and a value that was read is
such a value. Keys that a type does not declare may be added to an object, except for compile
options, which keep them.
-/

namespace InlineComponents

open Json

/-! ### Positions -/

namespace Position

/-- The fields that a position is read from. -/
theorem read_eq_ok_iff {value : Json} {position : Position} :
    read value = .ok position ↔ ∃ fields, record.read value = .ok fields ∧
      Json.required fields "line" readWord = .ok position.line ∧
      Json.required fields "column" readWord = .ok position.column ∧
      Json.defaulted fields "character" readWord 0 = .ok position.character := by
  simp only [read, bind_eq_ok_iff]
  constructor
  · rintro ⟨fields, hfields, line, hline, column, hcolumn, character, hcharacter, h⟩
    obtain rfl := Except.ok.inj h
    exact ⟨fields, hfields, hline, hcolumn, hcharacter⟩
  · rintro ⟨fields, hfields, hline, hcolumn, hcharacter⟩
    exact ⟨fields, hfields, _, hline, _, hcolumn, _, hcharacter, rfl⟩

/-- Every position is read back. -/
theorem read_write (position : Position) : read position.write = .ok position := by
  let fields : Fields := [("line", .ofNat position.line.toNat),
    ("column", .ofNat position.column.toNat), ("character", .ofNat position.character.toNat)]
  have hline : Json.required (setFields fields []) "line" readWord = .ok position.line :=
    (required_of_findField? (by simp [fields])).trans (readWord_ofNat _)
  have hcolumn : Json.required (setFields fields []) "column" readWord = .ok position.column :=
    (required_of_findField? (by simp [fields])).trans (readWord_ofNat _)
  have hcharacter : Json.defaulted (setFields fields []) "character" readWord 0 =
      .ok position.character :=
    (defaulted_of_findField? (by simp [fields])).trans (readWord_ofNat _)
  have hread : record.read position.write = .ok (setFields fields []) := by
    refine record.read_ofFields ?_
    simp only [record, List.forall_mem_cons, List.not_mem_nil, false_imp_iff, implies_true,
      and_true]
    exact ⟨.of_required hline, .of_required hcolumn, .of_defaulted hcharacter⟩
  exact read_eq_ok_iff.mpr ⟨_, hread, hline, hcolumn, hcharacter⟩

/-- A position is not written as `null`. -/
theorem write_ne_null (position : Position) : position.write ≠ .null := nofun

end Position

/-! ### Diagnostics -/

namespace Diagnostic

/-- The fields that a diagnostic is read from. -/
theorem read_eq_ok_iff {value : Json} {warning : Diagnostic} :
    read value = .ok warning ↔ ∃ fields, record.read value = .ok fields ∧
      Json.required fields "code" readString = .ok warning.code ∧
      Json.required fields "message" readString = .ok warning.message ∧
      Json.optional fields "filename" readString = .ok warning.filename ∧
      Json.optional fields "start" Position.read = .ok warning.start ∧
      Json.optional fields "end" Position.read = .ok warning.stop ∧
      Json.optional fields "frame" readString = .ok warning.frame := by
  simp only [read, bind_eq_ok_iff]
  constructor
  · rintro ⟨fields, hfields, code, hcode, message, hmessage, filename, hfilename, start, hstart,
      stop, hstop, frame, hframe, h⟩
    obtain rfl := Except.ok.inj h
    exact ⟨fields, hfields, hcode, hmessage, hfilename, hstart, hstop, hframe⟩
  · rintro ⟨fields, hfields, hcode, hmessage, hfilename, hstart, hstop, hframe⟩
    exact ⟨fields, hfields, _, hcode, _, hmessage, _, hfilename, _, hstart, _, hstop, _, hframe,
      rfl⟩

/-- Every diagnostic is read back. -/
theorem read_write (warning : Diagnostic) : read warning.write = .ok warning := by
  let fields : Fields := [("code", .string warning.code), ("message", .string warning.message)] ++
    fieldIfSome "filename" (warning.filename.map .string) ++
    fieldIfSome "start" (warning.start.map Position.write) ++
    fieldIfSome "end" (warning.stop.map Position.write) ++
    fieldIfSome "frame" (warning.frame.map .string)
  have hcode : Json.required (setFields fields []) "code" readString = .ok warning.code :=
    (required_of_findField? (by simp [fields])).trans (readString_string _)
  have hmessage : Json.required (setFields fields []) "message" readString = .ok warning.message :=
    (required_of_findField? (by simp [fields])).trans (readString_string _)
  have hfilename : Json.optional (setFields fields []) "filename" readString =
      .ok warning.filename :=
    optional_of_map .string (fun text _ => ⟨readString_string text, nofun⟩) (by simp [fields])
  have hstart : Json.optional (setFields fields []) "start" Position.read = .ok warning.start :=
    optional_of_map Position.write (fun place _ => ⟨place.read_write, place.write_ne_null⟩)
      (by simp [fields])
  have hstop : Json.optional (setFields fields []) "end" Position.read = .ok warning.stop :=
    optional_of_map Position.write (fun place _ => ⟨place.read_write, place.write_ne_null⟩)
      (by simp [fields])
  have hframe : Json.optional (setFields fields []) "frame" readString = .ok warning.frame :=
    optional_of_map .string (fun text _ => ⟨readString_string text, nofun⟩) (by simp [fields])
  have hread : record.read warning.write = .ok (setFields fields []) := by
    refine record.read_ofFields ?_
    simp only [record, List.forall_mem_cons, List.not_mem_nil, false_imp_iff, implies_true,
      and_true]
    exact ⟨.of_required hcode, .of_required hmessage, .of_defaulted hfilename,
      .of_defaulted hstart, .of_defaulted hstop, .of_defaulted hframe⟩
  exact read_eq_ok_iff.mpr ⟨_, hread, hcode, hmessage, hfilename, hstart, hstop, hframe⟩

end Diagnostic

/-! ### Compile errors -/

namespace CompileError

/-- The fields that a compile error is read from. -/
theorem read_eq_ok_iff {value : Json} {error : CompileError} :
    read value = .ok error ↔ ∃ fields, record.read value = .ok fields ∧
      Json.required fields "message" readString = .ok error.message ∧
      Json.optional fields "code" readString = .ok error.code ∧
      Json.optional fields "filename" readString = .ok error.filename ∧
      Json.optional fields "start" Position.read = .ok error.start := by
  simp only [read, bind_eq_ok_iff]
  constructor
  · rintro ⟨fields, hfields, message, hmessage, code, hcode, filename, hfilename, start, hstart, h⟩
    obtain rfl := Except.ok.inj h
    exact ⟨fields, hfields, hmessage, hcode, hfilename, hstart⟩
  · rintro ⟨fields, hfields, hmessage, hcode, hfilename, hstart⟩
    exact ⟨fields, hfields, _, hmessage, _, hcode, _, hfilename, _, hstart, rfl⟩

/-- Every compile error is read back. -/
theorem read_write (error : CompileError) : read error.write = .ok error := by
  let fields : Fields := [("message", .string error.message),
    ("code", orNull .string error.code), ("filename", orNull .string error.filename),
    ("start", orNull Position.write error.start)]
  have hmessage : Json.required (setFields fields []) "message" readString = .ok error.message :=
    (required_of_findField? (by simp [fields])).trans (readString_string _)
  have hcode : Json.optional (setFields fields []) "code" readString = .ok error.code :=
    optional_of_orNull .string (fun text _ => ⟨readString_string text, nofun⟩) (by simp [fields])
  have hfilename : Json.optional (setFields fields []) "filename" readString = .ok error.filename :=
    optional_of_orNull .string (fun text _ => ⟨readString_string text, nofun⟩) (by simp [fields])
  have hstart : Json.optional (setFields fields []) "start" Position.read = .ok error.start :=
    optional_of_orNull Position.write (fun place _ => ⟨place.read_write, place.write_ne_null⟩)
      (by simp [fields])
  have hread : record.read error.write = .ok (setFields fields []) := by
    refine record.read_ofFields ?_
    simp only [record, List.forall_mem_cons, List.not_mem_nil, false_imp_iff, implies_true,
      and_true]
    exact ⟨.of_required hmessage, .of_defaulted hcode, .of_defaulted hfilename,
      .of_defaulted hstart⟩
  exact read_eq_ok_iff.mpr ⟨_, hread, hmessage, hcode, hfilename, hstart⟩

end CompileError

/-! ### Styles -/

namespace Css

/-- The fields that styles are read from. -/
theorem read_eq_ok_iff {value : Json} {css : Css} :
    read value = .ok css ↔ ∃ fields, record.read value = .ok fields ∧
      Json.required fields "code" readString = .ok css.code ∧
      Json.optional fields "map" readAny = .ok css.map := by
  simp only [read, bind_eq_ok_iff]
  constructor
  · rintro ⟨fields, hfields, code, hcode, map, hmap, h⟩
    obtain rfl := Except.ok.inj h
    exact ⟨fields, hfields, hcode, hmap⟩
  · rintro ⟨fields, hfields, hcode, hmap⟩
    exact ⟨fields, hfields, _, hcode, _, hmap, rfl⟩

/-- Styles that were read have no map or one that is not `null`. -/
theorem map_ne_null {value : Json} {css : Css} (h : read value = .ok css) :
    css.map ≠ some .null := by
  obtain ⟨fields, -, -, hmap⟩ := read_eq_ok_iff.mp h
  exact ne_null_of_optional_readAny hmap

/-- Styles are read back when their map is not `null`. -/
theorem read_write {css : Css} (h : css.map ≠ some .null) : read css.write = .ok css := by
  let fields : Fields := ("code", .string css.code) :: fieldIfSome "map" css.map
  have hcode : Json.required (setFields fields []) "code" readString = .ok css.code :=
    (required_of_findField? (by simp [fields])).trans (readString_string _)
  have hmap : Json.optional (setFields fields []) "map" readAny = .ok css.map :=
    optional_readAny_of_findField? h (by simp [fields])
  have hread : record.read css.write = .ok (setFields fields []) := by
    refine record.read_ofFields ?_
    simp only [record, List.forall_mem_cons, List.not_mem_nil, false_imp_iff, implies_true,
      and_true]
    exact ⟨.of_required hcode, .of_defaulted hmap⟩
  exact read_eq_ok_iff.mpr ⟨_, hread, hcode, hmap⟩

end Css

/-! ### Compiled modules -/

namespace CompiledModule

/-- The fields that a compiled module is read from. -/
theorem read_eq_ok_iff {value : Json} {module : CompiledModule} :
    read value = .ok module ↔ ∃ fields, record.read value = .ok fields ∧
      Json.required fields "code" readString = .ok module.code ∧
      Json.optional fields "map" readAny = .ok module.map ∧
      Json.optional fields "css" Css.read = .ok module.css ∧
      Json.defaulted fields "warnings" (readList Diagnostic.read) [] = .ok module.warnings := by
  simp only [read, bind_eq_ok_iff]
  constructor
  · rintro ⟨fields, hfields, code, hcode, map, hmap, css, hcss, warnings, hwarnings, h⟩
    obtain rfl := Except.ok.inj h
    exact ⟨fields, hfields, hcode, hmap, hcss, hwarnings⟩
  · rintro ⟨fields, hfields, hcode, hmap, hcss, hwarnings⟩
    exact ⟨fields, hfields, _, hcode, _, hmap, _, hcss, _, hwarnings, rfl⟩

/-- A module that was read has no map, its own or that of its styles, that is `null`. -/
theorem map_ne_null {value : Json} {module : CompiledModule} (h : read value = .ok module) :
    module.map ≠ some .null ∧ ∀ css ∈ module.css, css.map ≠ some .null := by
  obtain ⟨fields, -, -, hmap, hcss, -⟩ := read_eq_ok_iff.mp h
  refine ⟨ne_null_of_optional_readAny hmap, fun css hmem => ?_⟩
  rw [Option.mem_def.mp hmem] at hcss
  obtain ⟨found, -, -, hread⟩ := exists_of_optional hcss
  exact Css.map_ne_null hread

/-- A compiled module is read back when none of its maps is `null`. -/
theorem read_write {module : CompiledModule} (hmap : module.map ≠ some .null)
    (hstyles : ∀ css ∈ module.css, css.map ≠ some .null) : read module.write = .ok module := by
  let fields : Fields := [("code", .string module.code)] ++ fieldIfSome "map" module.map ++
    fieldIfSome "css" (module.css.map Css.write) ++
    [("warnings", .array (module.warnings.map Diagnostic.write))]
  have hcode : Json.required (setFields fields []) "code" readString = .ok module.code :=
    (required_of_findField? (by simp [fields])).trans (readString_string _)
  have hmap : Json.optional (setFields fields []) "map" readAny = .ok module.map :=
    optional_readAny_of_findField? hmap (by simp [fields])
  have hcss : Json.optional (setFields fields []) "css" Css.read = .ok module.css :=
    optional_of_map Css.write (fun css hcss => ⟨Css.read_write (hstyles css hcss), nofun⟩)
      (by simp [fields])
  have hwarnings : Json.defaulted (setFields fields []) "warnings" (readList Diagnostic.read) [] =
      .ok module.warnings :=
    (defaulted_of_findField? (by simp [fields])).trans (readList_map Diagnostic.read_write)
  have hread : record.read module.write = .ok (setFields fields []) := by
    refine record.read_ofFields ?_
    simp only [record, List.forall_mem_cons, List.not_mem_nil, false_imp_iff, implies_true,
      and_true]
    exact ⟨.of_required hcode, .of_defaulted hmap, .of_defaulted hcss, .of_defaulted hwarnings⟩
  exact read_eq_ok_iff.mpr ⟨_, hread, hcode, hmap, hcss, hwarnings⟩

end CompiledModule

/-! ### Preprocessing results -/

namespace Preprocessed

/-- The fields that a preprocessing result is read from. -/
theorem read_eq_ok_iff {value : Json} {result : Preprocessed} :
    read value = .ok result ↔ ∃ fields, record.read value = .ok fields ∧
      Json.required fields "code" readString = .ok result.code ∧
      Json.optional fields "map" readAny = .ok result.map ∧
      Json.defaulted fields "dependencies" (readList readPath) [] = .ok result.dependencies := by
  simp only [read, bind_eq_ok_iff]
  constructor
  · rintro ⟨fields, hfields, code, hcode, map, hmap, dependencies, hdependencies, h⟩
    obtain rfl := Except.ok.inj h
    exact ⟨fields, hfields, hcode, hmap, hdependencies⟩
  · rintro ⟨fields, hfields, hcode, hmap, hdependencies⟩
    exact ⟨fields, hfields, _, hcode, _, hmap, _, hdependencies, rfl⟩

/-- A preprocessing result that was read has no map or one that is not `null`. -/
theorem map_ne_null {value : Json} {result : Preprocessed} (h : read value = .ok result) :
    result.map ≠ some .null := by
  obtain ⟨fields, -, -, hmap, -⟩ := read_eq_ok_iff.mp h
  exact ne_null_of_optional_readAny hmap

/-- Every preprocessing result is read back whose map is not `null`. -/
theorem read_write {result : Preprocessed} (h : result.map ≠ some .null) :
    read result.write = .ok result := by
  let fields : Fields := [("code", .string result.code), ("map", result.map.getD .null),
    ("dependencies", .array (result.dependencies.map fun path => .string path.toString))]
  have hcode : Json.required (setFields fields []) "code" readString = .ok result.code :=
    (required_of_findField? (by simp [fields])).trans (readString_string _)
  have hmap : Json.optional (setFields fields []) "map" readAny = .ok result.map := by
    have hnull : result.map.getD .null = orNull id result.map := by cases result.map <;> rfl
    refine optional_of_orNull id (fun found hfound => ⟨rfl, fun hnull => h (hnull ▸ hfound)⟩) ?_
    simp [fields, hnull]
  have hdependencies : Json.defaulted (setFields fields []) "dependencies" (readList readPath) [] =
      .ok result.dependencies :=
    (defaulted_of_findField? (by simp [fields])).trans (readList_map readPath_toString)
  have hread : record.read result.write = .ok (setFields fields []) := by
    refine record.read_ofFields ?_
    simp only [record, List.forall_mem_cons, List.not_mem_nil, false_imp_iff, implies_true,
      and_true]
    exact ⟨.of_required hcode, .of_defaulted hmap, .of_defaulted hdependencies⟩
  exact read_eq_ok_iff.mpr ⟨_, hread, hcode, hmap, hdependencies⟩

end Preprocessed

/-! ### Compile options -/

namespace CompileOptions

/-- The keys that compile options declare. -/
theorem field?_eq_none_iff {key : String} :
    record.field? key = none ↔ key ≠ "filename" ∧ key ≠ "sourcemap" := by
  rw [RecordType.field?, List.find?_eq_none]
  simp [record, RecordField.required, RecordField.optional, @eq_comm _ key]

/-- The fields that compile options are read from. -/
theorem read_eq_ok_iff {value : Json} {options : CompileOptions} :
    read value = .ok options ↔ ∃ fields, record.readObject value = .ok fields ∧
      Json.required fields "filename" readPath = .ok options.filename ∧
      Json.optional fields "sourcemap" readAny = .ok options.sourcemap ∧
      options.extra = record.undeclared fields := by
  simp only [read, bind_eq_ok_iff]
  constructor
  · rintro ⟨fields, hfields, filename, hfilename, sourcemap, hsourcemap, h⟩
    obtain rfl := Except.ok.inj h
    exact ⟨fields, hfields, hfilename, hsourcemap, rfl⟩
  · rintro ⟨fields, hfields, hfilename, hsourcemap, hextra⟩
    refine ⟨fields, hfields, _, hfilename, _, hsourcemap, ?_⟩
    rw [← hextra]
    rfl

/-- The options that are passed on stand in order, apart from those that are declared. -/
structure KeptApart (options : CompileOptions) : Prop where
  sourcemap : options.sourcemap ≠ some .null
  sorted : IsSorted options.extra
  undeclared : ∀ key, record.field? key ≠ none → findField? key options.extra = none

/-- What is found among the fields that a record does not declare. -/
theorem findField?_undeclared (key : String) (fields : Fields) :
    findField? key (record.undeclared fields) =
      if (record.field? key).isNone then findField? key fields else none :=
  findField?_filter (fun key => (record.field? key).isNone) key fields

/-- What compile options are written as: an option that is passed on counts first. -/
theorem get?_write {options : CompileOptions} (h : IsSorted options.extra) (key : String) :
    options.write.get? key = (findField? key options.extra).or
      (if key = "filename" then some (.string options.filename.toString)
      else if key = "sourcemap" then options.sourcemap else none) := by
  have hfound : options.write.get? key = findField? key (setFields
      (("filename", .string options.filename.toString) ::
        fieldIfSome "sourcemap" options.sourcemap ++ options.extra) []) := rfl
  rw [hfound]
  simp only [List.cons_append, findField?_setFields, List.reverse_cons, List.reverse_append,
    reverse_fieldIfSome, findField?_append, h.findField?_reverse, findField?_fieldIfSome,
    findField?_cons, findField?_nil, Option.or_none, Option.or_assoc]
  by_cases hname : key = "filename"
  · subst hname
    simp
  · simp [hname, eq_comm]

/-- Compile options that were read keep apart what is passed on. -/
theorem keptApart_of_read {value : Json} {options : CompileOptions} (hvalue : value.IsOrdered)
    (h : read value = .ok options) : options.KeptApart := by
  obtain ⟨fields, hfields, -, hsourcemap, hextra⟩ := read_eq_ok_iff.mp h
  obtain rfl := RecordType.eq_object_of_readObject hfields
  refine ⟨ne_null_of_optional_readAny hsourcemap, ?_, fun key hkey => ?_⟩
  · rw [hextra]
    exact IsSorted.filter hvalue.1 _
  · rw [hextra, findField?_undeclared, if_neg (by simpa using hkey)]

/-- Compile options are read back when they keep apart what is passed on. -/
theorem read_write {options : CompileOptions} (h : options.KeptApart) :
    read options.write = .ok options := by
  let fields : Fields := setFields (("filename", .string options.filename.toString) ::
    fieldIfSome "sourcemap" options.sourcemap ++ options.extra) []
  have hfields : IsSorted fields := isSorted_nil.setFields _
  have hfound (key : String) := get?_write h.sorted key
  have hfilename : Json.required fields "filename" readPath = .ok options.filename := by
    refine (required_of_findField? ?_).trans (readPath_toString _)
    refine (get?_write h.sorted "filename").trans ?_
    rw [h.undeclared "filename" (by decide)]
    rfl
  have hsourcemap : Json.optional fields "sourcemap" readAny = .ok options.sourcemap := by
    refine optional_readAny_of_findField? h.sourcemap ?_
    refine (get?_write h.sorted "sourcemap").trans ?_
    rw [h.undeclared "sourcemap" (by decide)]
    rfl
  have hextra : options.extra = record.undeclared fields := by
    refine h.sorted.eq_of_findField? (hfields.filter _) fun key => ?_
    rw [findField?_undeclared]
    split
    · rename_i hnone
      obtain ⟨hname, hmap⟩ := field?_eq_none_iff.mp (Option.isNone_iff_eq_none.mp hnone)
      refine Eq.trans ?_ (get?_write h.sorted key).symm
      rw [if_neg hname, if_neg hmap, Option.or_none]
    · rename_i hsome
      exact h.undeclared key fun hnone => hsome (Option.isNone_iff_eq_none.mpr hnone)
  have hread : record.readObject options.write = .ok fields := by
    refine RecordType.readObject_of_admits hfields ?_
    simp only [record, List.forall_mem_cons, List.not_mem_nil, false_imp_iff, implies_true,
      and_true]
    exact ⟨.of_required hfilename, .of_defaulted hsourcemap⟩
  exact read_eq_ok_iff.mpr ⟨fields, hread, hfilename, hsourcemap, hextra⟩

end CompileOptions

/-! ### All wire types -/

/-- The types that have a wire form. -/
inductive WireType where
  | position
  | diagnostic
  | compileError
  | compileOptions
  | css
  | compiledModule
  | preprocessed
  deriving DecidableEq, Repr

namespace WireType

/-- The values of a type. -/
def Value : WireType → Type
  | position => Position
  | diagnostic => Diagnostic
  | compileError => CompileError
  | compileOptions => CompileOptions
  | css => Css
  | compiledModule => CompiledModule
  | preprocessed => Preprocessed

/-- The declaration of a type. -/
def record : WireType → RecordType
  | position => Position.record
  | diagnostic => Diagnostic.record
  | compileError => CompileError.record
  | compileOptions => CompileOptions.record
  | css => Css.record
  | compiledModule => CompiledModule.record
  | preprocessed => Preprocessed.record

/-- Read a value of a type. -/
def read : (type : WireType) → Json → Reading type.Value
  | position => Position.read
  | diagnostic => Diagnostic.read
  | compileError => CompileError.read
  | compileOptions => CompileOptions.read
  | css => Css.read
  | compiledModule => CompiledModule.read
  | preprocessed => Preprocessed.read

/-- Write a value of a type. -/
def write : (type : WireType) → type.Value → Json
  | position => Position.write
  | diagnostic => Diagnostic.write
  | compileError => CompileError.write
  | compileOptions => CompileOptions.write
  | css => Css.write
  | compiledModule => CompiledModule.write
  | preprocessed => Preprocessed.write

/-- What was read from a value in order is read back. -/
theorem read_write_of_read {type : WireType} {value : Json} {a : type.Value}
    (hvalue : value.IsOrdered) (h : type.read value = .ok a) :
    type.read (type.write a) = .ok a := by
  cases type with
  | position => exact Position.read_write a
  | diagnostic => exact Diagnostic.read_write a
  | compileError => exact CompileError.read_write a
  | compileOptions => exact CompileOptions.read_write (CompileOptions.keptApart_of_read hvalue h)
  | css => exact Css.read_write (Css.map_ne_null h)
  | compiledModule =>
    obtain ⟨hmap, hstyles⟩ := CompiledModule.map_ne_null h
    exact CompiledModule.read_write hmap hstyles
  | preprocessed => exact Preprocessed.read_write (Preprocessed.map_ne_null h)

/-- Other keys than the declared ones do not matter, except to compile options. -/
theorem read_setFields {type : WireType} (htype : type ≠ .compileOptions)
    {fields additions : Fields}
    (hnew : ∀ addition ∈ additions, type.record.field? addition.1 = none) :
    type.read (.object (setFields additions fields)) = type.read (.object fields) := by
  cases type with
  | compileOptions => exact absurd rfl htype
  | _ =>
    refine RecordType.read_bind_setFields (fun fields others hsame => ?_) hnew
    simp only [Position.record, Diagnostic.record, CompileError.record, Css.record,
      CompiledModule.record, Preprocessed.record, RecordField.required, RecordField.optional,
      List.forall_mem_cons] at hsame
    simp only [Json.required, Json.optional, Json.defaulted, hsame]

/-- What holds of reading and writing a type. -/
structure IsStable (type : WireType) : Prop where
  /-- What was read is read back from its written form. -/
  read_back : ∀ value a, value.IsOrdered → type.read value = .ok a →
    type.read (type.write a) = .ok a
  /-- Writing what was read is done once: a second time changes nothing. -/
  idempotent : ∀ value written, value.IsOrdered →
    (type.read value).map type.write = .ok written →
      (type.read written).map type.write = .ok written
  /-- Keys that are not declared change neither whether an object is read nor what is read, unless
  they are kept. -/
  other_keys : type ≠ .compileOptions → ∀ fields additions,
    (∀ addition ∈ additions, type.record.field? addition.1 = none) →
      type.read (.object (setFields additions fields)) = type.read (.object fields)

/-- Every wire form is stable. -/
theorem isStable (type : WireType) : type.IsStable where
  read_back _ _ hvalue h := read_write_of_read hvalue h
  idempotent value written hvalue h := by
    cases hread : type.read value with
    | error e =>
      rw [hread] at h
      contradiction
    | ok a =>
      rw [hread] at h
      obtain rfl := Except.ok.inj h
      rw [read_write_of_read hvalue hread]
      rfl
  other_keys htype _ _ hnew := read_setFields htype hnew

/-- A module in which styles, warnings and positions stand as arrays is read back from its written
form, in which they stand as objects. -/
theorem read_back_array_forms : ∃ value module,
    Json.parse? "\x7b\"code\":\"m\",\"css\":[\"p\"],\"warnings\":[[\"c\",\"w\",null,[1,2]]]\x7d" =
      some value ∧
    CompiledModule.read value = .ok module ∧
    module.warnings = [⟨"c", "w", none, some ⟨1, 2, 0⟩, none, none⟩] ∧
    CompiledModule.read module.write = .ok module := by
  have hseen : ((Json.parse?
      "\x7b\"code\":\"m\",\"css\":[\"p\"],\"warnings\":[[\"c\",\"w\",null,[1,2]]]\x7d").bind fun value =>
        (CompiledModule.read value).toOption.map CompiledModule.warnings) =
      some [⟨"c", "w", none, some ⟨1, 2, 0⟩, none, none⟩] := by decide +kernel
  obtain ⟨value, hparse, hmap⟩ := Option.bind_eq_some_iff.mp hseen
  obtain ⟨module, hread, hwarnings⟩ := exists_of_map_toOption hmap
  exact ⟨value, module, hparse, hread, hwarnings,
    (isStable .compiledModule).read_back value module (isOrdered_of_parse? hparse) hread⟩

end WireType

end InlineComponents
