import InlineComponents.Proofs.Json.Fields
import InlineComponents.Proofs.Outcome
import InlineComponents.Wire.Record

/-!
# Records that are written and read back

An object that holds what a record declares is read, whatever else it holds. Reading a record
depends on what is found under its declared keys only, so that other keys may be added to an object.
-/

namespace InlineComponents

namespace Json

variable {α : Type} {read : Json → Reading α} {write : α → Json} {fields : Fields} {name : String}
  {value : Option α} {default result : α}

/-! ### Values of fields -/

/-- A field that is left out when there is nothing to write is found when there is. -/
@[simp] theorem findField?_fieldIfSome (key name : String) (value : Option Json) :
    findField? key (fieldIfSome name value) = if name = key then value else none := by
  cases value <;> simp [fieldIfSome]

/-- A field that may be left out is the same from either end. -/
@[simp] theorem reverse_fieldIfSome (name : String) (value : Option Json) :
    (fieldIfSome name value).reverse = fieldIfSome name value := by
  cases value <;> rfl

/-- A number of 32 bits is read back. -/
theorem readWord_ofNat (word : UInt32) : readWord (.ofNat word.toNat) = .ok word := by
  have hsmall : (0 : Int) ≤ word.toNat ∧ (word.toNat : Int) < UInt32.size :=
    ⟨Int.natCast_nonneg _, Int.ofNat_lt.mpr word.toNat_lt⟩
  rw [Json.ofNat, readWord, if_pos hsmall]
  simp

/-- A text is read back. -/
theorem readString_string (text : String) : readString (.string text) = .ok text := rfl

/-- A path is read back. -/
theorem readPath_toString (path : FilePath) : readPath (.string path.toString) = .ok path :=
  congrArg Except.ok (FilePath.ofString_toString path)

/-- A list is read back when its items are. -/
theorem readList_map {items : List α} (h : ∀ item, read (write item) = .ok item) :
    readList read (.array (items.map write)) = .ok items := by
  rw [readList]
  induction items with
  | nil => rfl
  | cons item rest ih =>
    rw [List.map_cons, readItems, h, ih]
    rfl

/-- A value that is not written as `null` is read back as one that is there. -/
theorem readOption_write {a : α} (h : read (write a) = .ok a) (hnull : write a ≠ .null) :
    readOption read (write a) = .ok (some a) := by
  unfold readOption
  split
  · rename_i heq
    exact absurd heq hnull
  · rw [h]
    rfl

/-- What is read as a value that is there is not `null`. -/
theorem ne_null_of_readOption {value : Json} {a : α} (h : readOption read value = .ok (some a)) :
    value ≠ .null ∧ read value = .ok a := by
  unfold readOption at h
  split at h
  · exact absurd (Except.ok.inj h) (Option.some_ne_none a).symm
  · rename_i hnull
    refine ⟨hnull, ?_⟩
    cases hread : read value with
    | error e => rw [hread] at h; contradiction
    | ok b =>
      rw [hread] at h
      obtain rfl := Option.some.inj (Except.ok.inj h)
      rfl

/-- A field that is there is read. -/
theorem required_of_findField? {found : Json} (h : findField? name fields = some found) :
    required fields name read = read found := by
  rw [required, h]

/-- A field that is there counts. -/
theorem defaulted_of_findField? {found : Json} (h : findField? name fields = some found) :
    defaulted fields name read default = read found := by
  rw [defaulted, h]

/-- An optional value that is left out when it is empty is read back. -/
theorem optional_of_map (write : α → Json)
    (h : ∀ a ∈ value, read (write a) = .ok a ∧ write a ≠ .null)
    (hfound : findField? name fields = value.map write) :
    Json.optional fields name read = .ok value := by
  rw [Json.optional, defaulted, hfound]
  cases value with
  | none => rfl
  | some a => exact readOption_write (h a rfl).1 (h a rfl).2

/-- An optional value that is `null` when it is empty is read back. -/
theorem optional_of_orNull (write : α → Json)
    (h : ∀ a ∈ value, read (write a) = .ok a ∧ write a ≠ .null)
    (hfound : findField? name fields = some (orNull write value)) :
    Json.optional fields name read = .ok value := by
  rw [Json.optional, defaulted, hfound]
  cases value with
  | none => rfl
  | some a => exact readOption_write (h a rfl).1 (h a rfl).2

/-- An optional value of any kind is read as what is found, if that is not `null`. -/
theorem optional_readAny_of_findField? {value : Option Json} (h : value ≠ some .null)
    (hfound : findField? name fields = value) : Json.optional fields name readAny = .ok value :=
  optional_of_map id (fun _ hmem => ⟨rfl, fun hnull => h (hnull ▸ hmem)⟩)
    (hfound.trans Option.map_id'.symm)

/-- An optional value that is there was found. -/
theorem exists_of_optional {a : α} (h : Json.optional fields name read = .ok (some a)) :
    ∃ found, findField? name fields = some found ∧ found ≠ .null ∧ read found = .ok a := by
  rw [Json.optional, defaulted] at h
  split at h
  · rename_i found hfound
    exact ⟨found, hfound, ne_null_of_readOption h⟩
  · exact absurd (Except.ok.inj h) (Option.some_ne_none a).symm

/-- An optional value of any kind is not `null`. -/
theorem ne_null_of_optional_readAny {value : Option Json}
    (h : Json.optional fields name readAny = .ok value) : value ≠ some .null := by
  rintro rfl
  obtain ⟨found, -, hnull, hread⟩ := exists_of_optional h
  exact hnull (Except.ok.inj hread)

end Json

/-! ### Records that are read -/

namespace RecordField

open Json

variable {α : Type} {read : Json → Reading α} {fields : Fields} {name : String}

/-- Whether a field is as declared, given what is found under its key. -/
def Admits (field : RecordField) : Option Json → Prop
  | none => field.isRequired = false
  | some value => field.check value = .ok ()

/-- A required field that is read is as declared. -/
theorem Admits.of_required {a : α} (h : Json.required fields name read = .ok a) :
    (RecordField.required name read).Admits (findField? name fields) := by
  unfold Json.required at h
  cases hfound : findField? name fields with
  | none => rw [hfound] at h; contradiction
  | some value =>
    rw [hfound] at h
    exact congrArg (Except.map fun _ => ()) h

/-- A field with a default that is read is as declared. -/
theorem Admits.of_defaulted {a default : α} (h : Json.defaulted fields name read default = .ok a) :
    (RecordField.optional name read).Admits (findField? name fields) := by
  unfold Json.defaulted at h
  cases hfound : findField? name fields with
  | none => rfl
  | some value =>
    rw [hfound] at h
    exact congrArg (Except.map fun _ => ()) h

end RecordField

namespace RecordType

open Json

variable {record : RecordType} {fields : Fields} {α : Type}

/-- An object is read by its fields. -/
theorem read_object (record : RecordType) (fields : Fields) :
    record.read (.object fields) = do
      record.checkFields fields
      checkPresence fields record.fields
      return fields := rfl

/-- The values of an object are those that the record declares. -/
theorem checkFields_of_forall
    (h : ∀ key value, (key, value) ∈ fields → ∀ field, record.field? key = some field →
      field.check value = .ok ()) : record.checkFields fields = .ok () := by
  induction fields with
  | nil => rfl
  | cons first rest ih =>
    obtain ⟨key, value⟩ := first
    have hrest := ih fun k v hmem => h k v (List.mem_cons_of_mem _ hmem)
    unfold checkFields
    split
    · exact hrest
    · rename_i field hfield
      rw [h key value List.mem_cons_self field hfield]
      exact hrest

/-- The required fields are there when each field is as declared. -/
theorem checkPresence_of_admits {declared : List RecordField}
    (h : ∀ field ∈ declared, field.Admits (findField? field.name fields)) :
    checkPresence fields declared = .ok () := by
  induction declared with
  | nil => rfl
  | cons field rest ih =>
    obtain ⟨hfield, hrest⟩ := List.forall_mem_cons.mp h
    have hthere : (field.isRequired && (findField? field.name fields).isNone) = false := by
      cases hfound : findField? field.name fields with
      | none =>
        rw [hfound] at hfield
        rw [show field.isRequired = false from hfield, Bool.false_and]
      | some value => exact Bool.and_false _
    rw [checkPresence, hthere]
    exact ih hrest

/-- Only an object is read as one. -/
theorem eq_object_of_readObject {value : Json} (h : record.readObject value = .ok fields) :
    value = .object fields := by
  cases value with
  | object found =>
    obtain ⟨_, -, h⟩ := bind_eq_ok_iff.mp h
    obtain ⟨_, -, h⟩ := bind_eq_ok_iff.mp h
    exact congrArg Json.object (Except.ok.inj h)
  | _ => contradiction

/-- An object that holds what a record declares is read. -/
theorem readObject_of_admits (hsorted : IsSorted fields)
    (h : ∀ field ∈ record.fields, field.Admits (findField? field.name fields)) :
    record.readObject (.object fields) = .ok fields := by
  have hchecked : record.checkFields fields = .ok () := by
    refine checkFields_of_forall fun key value hmem field hfield => ?_
    obtain ⟨hdeclared, hname⟩ : field ∈ record.fields ∧ field.name = key :=
      ⟨List.mem_of_find?_eq_some hfield, by simpa using List.find?_some hfield⟩
    have hadmits := h field hdeclared
    rwa [hname, (findField?_eq_some_iff hsorted.nodup_keys).mpr hmem] at hadmits
  rw [readObject, hchecked, checkPresence_of_admits h]
  rfl

/-- An object that is written with what a record declares is read. -/
theorem read_ofFields
    (h : ∀ field ∈ record.fields, field.Admits (findField? field.name (setFields fields []))) :
    record.read (ofFields fields) = .ok (setFields fields []) :=
  readObject_of_admits (isSorted_nil.setFields fields) h

/-! ### Keys that are not declared -/

/-- A key that is not declared is passed over. -/
theorem checkFields_cons_of_none {key : String} (h : record.field? key = none) (value : Json)
    (rest : Fields) : record.checkFields ((key, value) :: rest) = record.checkFields rest := by
  rw [checkFields, h]

/-- Setting a key that is not declared is passed over. -/
theorem checkFields_setField {key : String} (h : record.field? key = none) (value : Json)
    (fields : Fields) :
    record.checkFields (setField key value fields) = record.checkFields fields := by
  induction fields with
  | nil => exact checkFields_cons_of_none h value []
  | cons first rest ih =>
    obtain ⟨k, v⟩ := first
    rw [setField]
    split
    · exact checkFields_cons_of_none h value _
    · split
      · rename_i hkey
        subst hkey
        rw [checkFields_cons_of_none h, checkFields_cons_of_none h]
      · rw [checkFields, checkFields, ih]

/-- The name of a declared field is declared. -/
theorem ne_of_field?_eq_none {key : String} (h : record.field? key = none) :
    ∀ field ∈ record.fields, field.name ≠ key := by
  intro field hfield hname
  exact absurd (List.find?_eq_none.mp h field hfield) (by simp [hname])

/-- Whether the required fields are there depends on what is found under their keys. -/
theorem checkPresence_congr {others : Fields} {declared : List RecordField}
    (h : ∀ field ∈ declared, findField? field.name others = findField? field.name fields) :
    checkPresence others declared = checkPresence fields declared := by
  induction declared with
  | nil => rfl
  | cons field rest ih =>
    obtain ⟨hfield, hrest⟩ := List.forall_mem_cons.mp h
    rw [checkPresence, checkPresence, hfield, ih hrest]

/-- A reader of what a record declares reads the same when other keys are set. -/
theorem read_bind_setFields {build : Fields → Reading α} {additions : Fields}
    (hbuild : ∀ fields others, (∀ field ∈ record.fields,
      findField? field.name others = findField? field.name fields) → build others = build fields)
    (hnew : ∀ addition ∈ additions, record.field? addition.1 = none) :
    (record.read (.object (setFields additions fields)) >>= build) =
      record.read (.object fields) >>= build := by
  induction additions generalizing fields with
  | nil => rfl
  | cons addition rest ih =>
    obtain ⟨hfirst, hrest⟩ := List.forall_mem_cons.mp hnew
    have hsame : ∀ field ∈ record.fields,
        findField? field.name (setField addition.1 addition.2 fields) =
          findField? field.name fields := fun field hfield =>
      findField?_setField_of_ne addition.2 fields (ne_of_field?_eq_none hfirst field hfield)
    have hstep : (record.read (.object (setField addition.1 addition.2 fields)) >>= build) =
        record.read (.object fields) >>= build := by
      rw [read_object, read_object, checkFields_setField hfirst, checkPresence_congr hsame]
      cases record.checkFields fields with
      | error e => rfl
      | ok _ =>
        cases checkPresence fields record.fields with
        | error e => rfl
        | ok _ => exact hbuild fields _ hsame
    exact (ih hrest).trans hstep

end RecordType

end InlineComponents
