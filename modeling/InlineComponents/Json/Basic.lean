/-!
# JSON values

The value type of configuration, manifests and wire formats. The fields of an object are kept in
ascending order of their keys, each key once; `setField` keeps that order. A number is an integer
or the bits of a double, so that values have decidable equality and a negative zero stays apart
from zero.
-/

namespace InlineComponents

/-- A number of a JSON text. An integer is written without fraction and exponent and fits 64 bits.
Any other number is kept as the bits of a double. -/
inductive Json.Number where
  | integer (value : Int)
  | double (bits : UInt64)
  deriving DecidableEq, Repr

/-- A JSON value. The fields of an object are in ascending order of their keys. -/
inductive Json where
  | null
  | bool (value : Bool)
  | number (value : Json.Number)
  | string (value : String)
  | array (items : List Json)
  | object (fields : List (String × Json))
  deriving BEq, Repr, Inhabited

namespace Json

/-- The fields of an object. -/
abbrev Fields := List (String × Json)

/-- The fields with the value of one key set, in ascending order of the keys. -/
def setField (key : String) (value : Json) : Fields → Fields
  | [] => [(key, value)]
  | (k, v) :: rest =>
    if key < k then (key, value) :: (k, v) :: rest
    else if key = k then (key, value) :: rest
    else (k, v) :: setField key value rest

/-- The fields with several values set one after the other. -/
def setFields (additions fields : Fields) : Fields :=
  additions.foldl (fun acc (key, value) => setField key value acc) fields

/-- The fields in ascending order; of equal keys the last one counts. -/
def ofFields (fields : Fields) : Json := .object (setFields fields [])

/-- The value of a key. -/
def findField? (key : String) : Fields → Option Json
  | [] => none
  | (k, v) :: rest => if k = key then some v else findField? key rest

/-- The value of a key of an object. -/
def get? (value : Json) (key : String) : Option Json :=
  match value with
  | .object fields => findField? key fields
  | _ => none

/-- The text, if the value is one. -/
def asString? : Json → Option String
  | .string value => some value
  | _ => none

/-- The items, if the value is an array. -/
def asArray? : Json → Option (List Json)
  | .array items => some items
  | _ => none

/-- An integer as a value. -/
def ofNat (value : Nat) : Json := .number (.integer value)

/-- Whether a number is zero of either sign. -/
def Number.isZero : Number → Bool
  | .integer value => value = 0
  | .double bits => bits = 0 || bits = 0x8000000000000000

/-- Whether a loosely typed option counts as set: not absent, `null`, false, zero or empty. -/
def isTruthy : Option Json → Bool
  | none => false
  | some .null => false
  | some (.bool value) => value
  | some (.number value) => !value.isZero
  | some (.string value) => value ≠ ""
  | some (.array _) => true
  | some (.object _) => true

/-- After a key is set, reading it gives the value. -/
@[simp] theorem findField?_setField_self (key : String) (value : Json) (fields : Fields) :
    findField? key (setField key value fields) = some value := by
  induction fields with
  | nil => simp [setField, findField?]
  | cons field rest ih =>
    obtain ⟨k, v⟩ := field
    simp only [setField]
    split
    · simp [findField?]
    · split
      · simp [findField?]
      · rename_i h
        simp [findField?, Ne.symm h, ih]

/-- Setting a key leaves every other key as it is. -/
theorem findField?_setField_of_ne {key other : String} (value : Json) (fields : Fields)
    (h : other ≠ key) : findField? other (setField key value fields) = findField? other fields := by
  induction fields with
  | nil => simp [setField, findField?, Ne.symm h]
  | cons field rest ih =>
    obtain ⟨k, v⟩ := field
    simp only [setField]
    split
    · simp [findField?, Ne.symm h]
    · split
      · rename_i hk
        subst hk
        simp [findField?, Ne.symm h]
      · simp [findField?, ih]

end Json

end InlineComponents
