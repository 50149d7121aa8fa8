import InlineComponents.Json.Reader
import InlineComponents.Proofs.Json.Fields

/-!
# The values of JSON texts

Every value that a text writes is in order: the keys of each object within it ascend, each once,
however they stand in the text.
-/

namespace InlineComponents.Json

/-- Whether everything that a reader gives is in order. -/
def GivesOrdered (read : Text → Option (Json × Text)) : Prop :=
  ∀ text value rest, read text = some (value, rest) → value.IsOrdered

/-- A value that is no container is in order. -/
theorem givesOrdered_readScalar? : GivesOrdered readScalar? := by
  intro text value rest h
  unfold readScalar? at h
  split at h
  · obtain ⟨found, -, hvalue⟩ := Option.map_eq_some_iff.mp h
    obtain ⟨rfl, -⟩ := Prod.mk.inj hvalue
    trivial
  · obtain ⟨rfl, -⟩ := Prod.mk.inj (Option.some.inj h)
    trivial
  · obtain ⟨rfl, -⟩ := Prod.mk.inj (Option.some.inj h)
    trivial
  · obtain ⟨rfl, -⟩ := Prod.mk.inj (Option.some.inj h)
    trivial
  · obtain ⟨found, -, hvalue⟩ := Option.map_eq_some_iff.mp h
    obtain ⟨rfl, -⟩ := Prod.mk.inj hvalue
    trivial

section

variable {read : Text → Option (Json × Text)} (hread : GivesOrdered read)

include hread

/-- Items that are read are in order. -/
theorem itemsOrdered_of_readItems? {fuel : Nat} {text rest : Text} {items : List Json}
    (h : readItems? read fuel text = some (items, rest)) : ItemsOrdered items := by
  induction fuel generalizing text items rest with
  | zero => contradiction
  | succ fuel ih =>
    unfold readItems? at h
    split at h
    · contradiction
    · rename_i item after hitem
      split at h
      · obtain ⟨rfl, -⟩ := Prod.mk.inj (Option.some.inj h)
        exact ⟨hread _ _ _ hitem, trivial⟩
      · obtain ⟨others, hothers, hitems⟩ := Option.map_eq_some_iff.mp h
        obtain ⟨rfl, -⟩ := Prod.mk.inj hitems
        exact ⟨hread _ _ _ hitem, ih hothers⟩
      · contradiction

/-- Fields that are read hold values in order. -/
theorem fieldsOrdered_of_readFields? {fuel : Nat} {text rest : Text} {fields : Fields}
    (h : readFields? read fuel text = some (fields, rest)) : FieldsOrdered fields := by
  induction fuel generalizing text fields rest with
  | zero => contradiction
  | succ fuel ih =>
    unfold readFields? at h
    split at h
    · split at h
      · contradiction
      · split at h
        · split at h
          · contradiction
          · rename_i value after hvalue
            split at h
            · obtain ⟨rfl, -⟩ := Prod.mk.inj (Option.some.inj h)
              exact ⟨hread _ _ _ hvalue, trivial⟩
            · obtain ⟨others, hothers, hfields⟩ := Option.map_eq_some_iff.mp h
              obtain ⟨rfl, -⟩ := Prod.mk.inj hfields
              exact ⟨hread _ _ _ hvalue, ih hothers⟩
            · contradiction
        · contradiction
    · contradiction

end

/-- A value that is read is in order, to whatever depth its containers go. -/
theorem givesOrdered_readValue? (depth : Nat) : GivesOrdered (readValue? depth) := by
  induction depth with
  | zero =>
    intro text value rest h
    unfold readValue? at h
    split at h
    · contradiction
    · contradiction
    · exact givesOrdered_readScalar? _ _ _ h
  | succ depth ih =>
    intro text value rest h
    unfold readValue? at h
    split at h
    · split at h
      · obtain ⟨rfl, -⟩ := Prod.mk.inj (Option.some.inj h)
        trivial
      · obtain ⟨items, hitems, hvalue⟩ := Option.map_eq_some_iff.mp h
        obtain ⟨rfl, -⟩ := Prod.mk.inj hvalue
        exact itemsOrdered_of_readItems? ih hitems
    · split at h
      · obtain ⟨rfl, -⟩ := Prod.mk.inj (Option.some.inj h)
        exact ⟨isSorted_nil, trivial⟩
      · obtain ⟨fields, hfields, hvalue⟩ := Option.map_eq_some_iff.mp h
        obtain ⟨rfl, -⟩ := Prod.mk.inj hvalue
        exact isOrdered_ofFields (fieldsOrdered_of_readFields? ih hfields)
    · exact givesOrdered_readScalar? _ _ _ h

/-- The value of a text is in order. -/
theorem isOrdered_of_parse? {text : String} {value : Json} (h : parse? text = some value) :
    value.IsOrdered := by
  unfold parse? at h
  split at h
  · rename_i found rest hfound
    split at h
    · obtain rfl := Option.some.inj h
      exact givesOrdered_readValue? depthLimit _ _ _ hfound
    · contradiction
  · contradiction

end InlineComponents.Json
