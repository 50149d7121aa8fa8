import InlineComponents.Json.Basic
import Mathlib.Data.String.Basic

/-!
# The fields of an object as a map

Setting fields keeps their keys in ascending order, and the last value of a key counts. Fields in
ascending order are determined by what is found under each key.
-/

namespace InlineComponents.Json

variable {key : String} {value : Json} {fields : Fields}

/-- Whether the keys stand in ascending order, each once. -/
def IsSorted (fields : Fields) : Prop := fields.Pairwise fun first second => first.1 < second.1

instance (fields : Fields) : Decidable (IsSorted fields) :=
  inferInstanceAs (Decidable (List.Pairwise _ _))

/-- No fields are in order. -/
theorem isSorted_nil : IsSorted [] := List.Pairwise.nil

/-! ### What is found under a key -/

/-- Nothing is found among no fields. -/
@[simp] theorem findField?_nil (key : String) : findField? key [] = none := rfl

/-- The first field decides for its own key only. -/
@[simp] theorem findField?_cons (key : String) (field : String × Json) (rest : Fields) :
    findField? key (field :: rest) = if field.1 = key then some field.2 else findField? key rest :=
  rfl

/-- The value of a key that was set, and of the others. -/
theorem findField?_setField (other key : String) (value : Json) (fields : Fields) :
    findField? other (setField key value fields) =
      if key = other then some value else findField? other fields := by
  split
  · rename_i h
    rw [h, findField?_setField_self]
  · rename_i h
    exact findField?_setField_of_ne value fields (Ne.symm h)

/-- The first fields are looked at first. -/
@[simp] theorem findField?_append (key : String) (front back : Fields) :
    findField? key (front ++ back) = (findField? key front).or (findField? key back) := by
  induction front with
  | nil => rfl
  | cons field rest ih =>
    rw [List.cons_append, findField?_cons, findField?_cons, ih]
    split <;> rfl

/-- Of the fields that are set, the last one of a key counts. -/
@[simp] theorem findField?_setFields (key : String) (additions fields : Fields) :
    findField? key (setFields additions fields) =
      (findField? key additions.reverse).or (findField? key fields) := by
  induction additions generalizing fields with
  | nil => rfl
  | cons field rest ih =>
    change findField? key (setFields rest (setField field.1 field.2 fields)) = _
    rw [ih, findField?_setField, List.reverse_cons, findField?_append, Option.or_assoc,
      findField?_cons]
    split <;> rfl

/-- A selection by keys keeps what is found under the keys that it takes. -/
theorem findField?_filter (takes : String → Bool) (key : String) (fields : Fields) :
    findField? key (fields.filter fun field => takes field.1) =
      if takes key then findField? key fields else none := by
  induction fields with
  | nil => simp [findField?]
  | cons field rest ih =>
    by_cases hkey : field.1 = key
    · subst hkey
      cases htakes : takes field.1 <;> simp [htakes, findField?_cons, ih]
    · cases htakes : takes field.1 <;> simp [htakes, findField?_cons, ih, hkey]

/-- What is found stands among the fields. -/
theorem mem_of_findField? (h : findField? key fields = some value) : (key, value) ∈ fields := by
  induction fields with
  | nil => contradiction
  | cons field rest ih =>
    rw [findField?_cons] at h
    split at h
    · rename_i hkey
      obtain rfl := Option.some.inj h
      exact hkey ▸ List.mem_cons_self
    · exact List.mem_cons_of_mem _ (ih h)

/-- With each key once, what stands among the fields is what is found. -/
theorem findField?_eq_some_iff (h : (fields.map Prod.fst).Nodup) :
    findField? key fields = some value ↔ (key, value) ∈ fields := by
  refine ⟨mem_of_findField?, fun hmem => ?_⟩
  induction fields with
  | nil => contradiction
  | cons field rest ih =>
    obtain ⟨hfirst, hrest⟩ := List.nodup_cons.mp h
    rw [findField?_cons]
    rcases List.mem_cons.mp hmem with rfl | hbehind
    · exact if_pos rfl
    · have hother : field.1 ≠ key := by
        rintro rfl
        exact hfirst (List.mem_map.mpr ⟨_, hbehind, rfl⟩)
      rw [if_neg hother]
      exact ih hrest hbehind

/-! ### Fields in order -/

/-- In order each key stands once. -/
theorem IsSorted.nodup_keys (h : IsSorted fields) : (fields.map Prod.fst).Nodup :=
  List.pairwise_map.mpr (h.imp fun hlt => ne_of_lt hlt)

/-- In order no field stands twice. -/
theorem IsSorted.nodup (h : IsSorted fields) : fields.Nodup :=
  h.imp fun hlt hsame => absurd (congrArg Prod.fst hsame) (ne_of_lt hlt)

/-- In order, it does not matter from which end a key is looked for. -/
theorem IsSorted.findField?_reverse (h : IsSorted fields) (key : String) :
    findField? key fields.reverse = findField? key fields := by
  have hreverse : (fields.reverse.map Prod.fst).Nodup := by
    rw [List.map_reverse]
    exact List.pairwise_reverse.mpr (h.nodup_keys.imp Ne.symm)
  apply Option.ext
  intro value
  rw [findField?_eq_some_iff hreverse, findField?_eq_some_iff h.nodup_keys, List.mem_reverse]

/-- A field that is set was set or was there. -/
theorem mem_setField {field : String × Json} (h : field ∈ setField key value fields) :
    field = (key, value) ∨ field ∈ fields := by
  induction fields with
  | nil => exact .inl (List.mem_singleton.mp h)
  | cons first rest ih =>
    obtain ⟨k, v⟩ := first
    simp only [setField] at h
    split at h
    · exact List.mem_cons.mp h
    · split at h
      · rcases List.mem_cons.mp h with hnew | hbehind
        · exact .inl hnew
        · exact .inr (List.mem_cons_of_mem _ hbehind)
      · rcases List.mem_cons.mp h with hfirst | hbehind
        · exact .inr (hfirst ▸ List.mem_cons_self)
        · exact (ih hbehind).imp_right (List.mem_cons_of_mem _)

/-- Fields that are set were set or were there. -/
theorem mem_setFields {field : String × Json} {additions : Fields}
    (h : field ∈ setFields additions fields) : field ∈ additions ∨ field ∈ fields := by
  induction additions generalizing fields with
  | nil => exact .inr h
  | cons first rest ih =>
    rcases ih h with hrest | hset
    · exact .inl (List.mem_cons_of_mem _ hrest)
    · refine (mem_setField hset).imp_left fun hnew => ?_
      rw [hnew]
      exact List.mem_cons_self

/-- A field is set at its place in the order. -/
theorem IsSorted.setField (h : IsSorted fields) (key : String) (value : Json) :
    IsSorted (setField key value fields) := by
  induction fields with
  | nil => exact List.pairwise_singleton _ _
  | cons first rest ih =>
    obtain ⟨k, v⟩ := first
    obtain ⟨hfirst, hrest⟩ := List.pairwise_cons.mp h
    simp only [Json.setField]
    split
    · rename_i hlt
      refine List.pairwise_cons.mpr ⟨fun field hfield => ?_, h⟩
      rcases List.mem_cons.mp hfield with rfl | hbehind
      · exact hlt
      · exact lt_trans hlt (hfirst field hbehind)
    · rename_i hnot
      split
      · rename_i hkey
        subst hkey
        exact List.pairwise_cons.mpr ⟨hfirst, hrest⟩
      · rename_i hne
        refine List.pairwise_cons.mpr ⟨fun field hfield => ?_, ih hrest⟩
        rcases mem_setField hfield with rfl | hbehind
        · exact lt_of_le_of_ne (not_lt.mp hnot) (Ne.symm hne)
        · exact hfirst field hbehind

/-- Fields are set at their places in the order. -/
theorem IsSorted.setFields (h : IsSorted fields) (additions : Fields) :
    IsSorted (setFields additions fields) := by
  induction additions generalizing fields with
  | nil => exact h
  | cons field rest ih => exact ih (h.setField field.1 field.2)

/-- A selection of fields is in order. -/
theorem IsSorted.filter (h : IsSorted fields) (takes : String × Json → Bool) :
    IsSorted (fields.filter takes) :=
  List.Pairwise.filter takes h

/-- Fields in order are the same when the same is found under each key. -/
theorem IsSorted.eq_of_findField? {others : Fields} (h : IsSorted fields)
    (hothers : IsSorted others) (hsame : ∀ key, findField? key fields = findField? key others) :
    fields = others := by
  have hperm : fields.Perm others := by
    refine (List.perm_ext_iff_of_nodup h.nodup hothers.nodup).mpr ?_
    rintro ⟨key, value⟩
    rw [← findField?_eq_some_iff h.nodup_keys, ← findField?_eq_some_iff hothers.nodup_keys, hsame]
  exact hperm.eq_of_pairwise (fun _ _ _ _ hlt hgt => absurd hgt (lt_asymm hlt)) h hothers

/-! ### Values in order -/

mutual

/-- Whether every object within a value has its keys in ascending order, each once. -/
def IsOrdered : Json → Prop
  | .array items => ItemsOrdered items
  | .object fields => IsSorted fields ∧ FieldsOrdered fields
  | _ => True

/-- Whether all items are values in order. -/
def ItemsOrdered : List Json → Prop
  | [] => True
  | item :: rest => item.IsOrdered ∧ ItemsOrdered rest

/-- Whether all fields hold values in order. -/
def FieldsOrdered : List (String × Json) → Prop
  | [] => True
  | (_, value) :: rest => value.IsOrdered ∧ FieldsOrdered rest

end

/-- A field of fields that hold values in order holds one. -/
theorem fieldsOrdered_iff :
    FieldsOrdered fields ↔ ∀ field ∈ fields, field.2.IsOrdered := by
  induction fields with
  | nil => simp [FieldsOrdered]
  | cons field rest ih => rw [List.forall_mem_cons, ← ih]; rfl

/-- What is found in a value in order is in order. -/
theorem IsOrdered.of_findField? (h : IsOrdered (.object fields))
    (hfound : findField? key fields = some value) : value.IsOrdered :=
  fieldsOrdered_iff.mp h.2 _ (mem_of_findField? hfound)

/-- An object that is made of values in order is in order. -/
theorem isOrdered_ofFields (h : FieldsOrdered fields) : (ofFields fields).IsOrdered := by
  refine ⟨isSorted_nil.setFields fields, fieldsOrdered_iff.mpr fun field hfield => ?_⟩
  rcases mem_setFields hfield with hmem | hnone
  · exact fieldsOrdered_iff.mp h field hmem
  · contradiction

end InlineComponents.Json
