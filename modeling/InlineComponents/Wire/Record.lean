import InlineComponents.FilePath
import InlineComponents.Json.Basic
import InlineComponents.Json.Double
import InlineComponents.Text.Quoted

/-!
# Reading records from JSON values

A record is read from an object or from an array. The fields of an object are visited in the order
of their keys, and the first wrong value is the error; after that the first required field that is
missing, in the order of the declaration. The items of an array are the fields in the order of
their declaration. Keys that are not declared are passed over.

Either way the result is the list of the declared fields that are there, from which the record is
then built.
-/

namespace InlineComponents

/-- Why a value cannot be read. An array has too few items if it ends before a required field, and
too many if it has more than the record has fields. -/
inductive ReadError where
  | invalidType (found expected : String)
  | invalidValue (found expected : String)
  | missingField (name : String)
  | tooFewItems (length : Nat) (record : String) (fields : Nat)
  | tooManyItems (length : Nat)
  | noVariant (type : String)
  deriving DecidableEq, Repr

/-- The wording of an error. -/
def ReadError.message : ReadError → String
  | invalidType found expected => "invalid type: " ++ found ++ ", expected " ++ expected
  | invalidValue found expected => "invalid value: " ++ found ++ ", expected " ++ expected
  | missingField name => "missing field `" ++ name ++ "`"
  | tooFewItems length record fields =>
    "invalid length " ++ toString length ++ ", expected struct " ++ record ++ " with " ++
      toString fields ++ (if fields = 1 then " element" else " elements")
  | tooManyItems length =>
    "invalid length " ++ toString length ++ ", expected fewer elements in array"
  | noVariant type => "data did not match any variant of untagged enum " ++ type

/-- A result of reading. -/
abbrev Reading (α : Type) := Except ReadError α

namespace Json

/-- How an error describes a value. -/
def describe : Json → String
  | .null => "null"
  | .bool true => "boolean `true`"
  | .bool false => "boolean `false`"
  | .number (.integer value) => "integer `" ++ toString value ++ "`"
  | .number (.double bits) => "floating point `" ++ Double.compactText bits ++ "`"
  | .string value => "string " ++ String.ofList (Text.quoted value.toList)
  | .array _ => "sequence"
  | .object _ => "map"

/-- The error of a value of the wrong kind. -/
def wrongType {α : Type} (value : Json) (expected : String) : Reading α :=
  .error (.invalidType value.describe expected)

/-- A text. -/
def readString : Json → Reading String
  | .string value => .ok value
  | value => value.wrongType "a string"

/-- A path. -/
def readPath : Json → Reading FilePath
  | .string value => .ok (.ofString value)
  | value => value.wrongType "path string"

/-- A truth value. -/
def readBool : Json → Reading Bool
  | .bool value => .ok value
  | value => value.wrongType "a boolean"

/-- A number of 32 bits. -/
def readWord : Json → Reading UInt32
  | .number (.integer value) =>
    if 0 ≤ value ∧ value < UInt32.size then .ok (.ofNat value.toNat)
    else .error (.invalidValue (describe (.number (.integer value))) "u32")
  | value => value.wrongType "u32"

/-- The fields of an object. -/
def readMap : Json → Reading Fields
  | .object fields => .ok fields
  | value => value.wrongType "a map"

/-- Any value. -/
def readAny (value : Json) : Reading Json := .ok value

/-- A value or `null`. -/
def readOption {α : Type} (read : Json → Reading α) : Json → Reading (Option α)
  | .null => .ok none
  | value => (read value).map some

/-- The items of an array, each read in turn. -/
def readItems {α : Type} (read : Json → Reading α) : List Json → Reading (List α)
  | [] => .ok []
  | item :: rest => do
    let first ← read item
    let others ← readItems read rest
    return first :: others

/-- A list. -/
def readList {α : Type} (read : Json → Reading α) : Json → Reading (List α)
  | .array items => readItems read items
  | value => value.wrongType "a sequence"

/-- One value alone or a list of them. -/
def readOneOrMany : Json → Reading (List String)
  | .string value => .ok [value]
  | .array items => match readItems readString items with
    | .ok values => .ok values
    | .error _ => .error (.noVariant "OneOrMany")
  | _ => .error (.noVariant "OneOrMany")

end Json

/-- A declared field of a record: its key, whether it has to be there, and whether a value can be
read as the field. -/
structure RecordField where
  name : String
  isRequired : Bool
  check : Json → Reading Unit

namespace RecordField

/-- A field that has to be there. -/
def required {α : Type} (name : String) (read : Json → Reading α) : RecordField :=
  ⟨name, true, fun value => (read value).map fun _ => ()⟩

/-- A field that may be missing, but not `null` unless its reader takes that. -/
def optional {α : Type} (name : String) (read : Json → Reading α) : RecordField :=
  ⟨name, false, fun value => (read value).map fun _ => ()⟩

end RecordField

/-- The declaration of a record: its name in errors, and the fields in order. -/
structure RecordType where
  name : String
  fields : List RecordField

namespace RecordType

/-- The declared field of a key. -/
def field? (record : RecordType) (key : String) : Option RecordField :=
  record.fields.find? (·.name = key)

/-- Check the values of an object in the order of its keys. -/
def checkFields (record : RecordType) : Json.Fields → Reading Unit
  | [] => .ok ()
  | (key, value) :: rest =>
    match record.field? key with
    | none => record.checkFields rest
    | some field => do
      field.check value
      record.checkFields rest

/-- Check that the required fields are there, in the order of their declaration. -/
def checkPresence (fields : Json.Fields) : List RecordField → Reading Unit
  | [] => .ok ()
  | field :: rest =>
    if field.isRequired && (Json.findField? field.name fields).isNone then
      .error (.missingField field.name)
    else checkPresence fields rest

/-- The items of an array as the fields of the record. -/
def fieldsOfItems (record : RecordType) (length : Nat) :
    List RecordField → List Json → Reading Json.Fields
  | [], [] => .ok []
  | [], _ :: _ => .error (.tooManyItems length)
  | field :: rest, [] =>
    if field.isRequired then .error (.tooFewItems length record.name record.fields.length)
    else record.fieldsOfItems length rest []
  | field :: rest, item :: items => do
    field.check item
    let others ← record.fieldsOfItems length rest items
    return (field.name, item) :: others

/-- The fields of a record that is written as an object only. -/
def readObject (record : RecordType) : Json → Reading Json.Fields
  | .object fields => do
    record.checkFields fields
    checkPresence fields record.fields
    return fields
  | value => value.wrongType ("struct " ++ record.name)

/-- The fields of a record that is written as an object or as an array. -/
def read (record : RecordType) : Json → Reading Json.Fields
  | .array items => record.fieldsOfItems items.length record.fields items
  | value => record.readObject value

/-- The fields of an object that the record does not declare. -/
def undeclared (record : RecordType) (fields : Json.Fields) : Json.Fields :=
  fields.filter fun (key, _) => (record.field? key).isNone

end RecordType

namespace Json

/-- A field that has to be there. -/
def required {α : Type} (fields : Fields) (name : String) (read : Json → Reading α) : Reading α :=
  match findField? name fields with
  | some value => read value
  | none => .error (.missingField name)

/-- A field that counts as a default when it is missing. -/
def defaulted {α : Type} (fields : Fields) (name : String) (read : Json → Reading α) (default : α) :
    Reading α :=
  match findField? name fields with
  | some value => read value
  | none => .ok default

/-- A field that may be missing or `null`. -/
def optional {α : Type} (fields : Fields) (name : String) (read : Json → Reading α) :
    Reading (Option α) :=
  defaulted fields name (readOption read) none

/-- The field of a value, unless there is none. -/
def fieldIfSome (name : String) : Option Json → Fields
  | some value => [(name, value)]
  | none => []

/-- A value or `null`. -/
def orNull {α : Type} (write : α → Json) : Option α → Json
  | some value => write value
  | none => .null

end Json

end InlineComponents
