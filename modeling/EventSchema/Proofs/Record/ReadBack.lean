import EventSchema.Proofs.OrderedMap
import EventSchema.Record.Descriptor

namespace EventSchema

/-!
# Records that are written and read again

Reading a record depends on an object only through the values of its declared
fields and through what remains when these are taken away.  A missing optional
field counts as null, so the full form of a record and the form without nulls
are read alike.

`Descriptor.WellFormed` says which values of the record type are records: those
that validation gives.  `validate_eq_valid` is the one statement about
validation on which the laws of inheritance rest: whatever object holds the
fields of a well-formed descriptor is read as that descriptor.
-/

/-! ## Valid outcomes -/

namespace Validated

variable {α β : Type}

@[simp] theorem map_valid (f : α -> β) (value : α) : f <$> valid value = valid (f value) := rfl

@[simp] theorem seq_valid (f : α -> β) (value : α) :
    (valid f : Validated (α -> β)) <*> valid value = valid (f value) := rfl

@[simp] theorem pure_eq_valid (value : α) : (pure value : Validated α) = valid value := rfl

/-- A list of outcomes is valid if every one is. -/
theorem collect_map_eq_valid {read : α -> Validated β} {value : α -> β} {entries : List α}
    (reads : ∀ entry ∈ entries, read entry = valid (value entry)) :
    collect (entries.map read) = valid (entries.map value) := by
  induction entries with
  | nil => rfl
  | cons entry rest ih =>
      have first := reads entry List.mem_cons_self
      have others := ih fun other member => reads other (List.mem_cons_of_mem _ member)
      simp only [List.map_cons, collect, first, others]

end Validated

/-! ## Values of fields -/

namespace Field

variable {α : Type}

/-- The value of a field, where a missing one counts as null. -/
def value (fields : Fields) (key : Text) : Json :=
  (fields.get? key).getD .null

theorem distinct_finish {fields : Fields} (distinct : fields.Distinct) (form : Form) :
    OrderedMap.Distinct (form.finish fields) := by
  cases form with
  | full => exact distinct
  | compact => exact distinct.filter _

/-- Leaving out null fields changes no value. -/
theorem value_finish {fields : Fields} (distinct : fields.Distinct) (form : Form) (key : Text) :
    value (form.finish fields) key = value fields key := by
  cases form with
  | full => rfl
  | compact =>
      have restricted := distinct.get?_filter_value (fun held => decide (held ≠ Json.null)) key
      simp only [value, Form.finish, restricted]
      cases fields.get? key with
      | none => rfl
      | some held =>
          by_cases null : held = .null
          · simp [Option.filter, null]
          · simp [Option.filter, null]

/-- A filled field is found in every form. -/
theorem get?_finish {fields : Fields} (distinct : fields.Distinct) (form : Form) {key : Text}
    {held : Json} (found : fields.get? key = some held) (filled : held ≠ .null) :
    (form.finish fields).get? key = some held := by
  cases form with
  | full => exact found
  | compact =>
      have restricted := distinct.get?_filter_value (fun held => decide (held ≠ Json.null)) key
      simp only [Form.finish, restricted, found]
      simp [Option.filter, filled]

/-- Leaving out null fields and taking declared ones away may be exchanged. -/
theorem undeclared_finish (form : Form) (fields : Fields) (declared : List Text) :
    undeclared (form.finish fields) declared = form.finish (undeclared fields declared) := by
  cases form with
  | full => rfl
  | compact =>
      simp only [undeclared, Form.finish, List.filter_filter]
      exact List.filter_congr fun _ _ => Bool.and_comm _ _

theorem finish_append (form : Form) (fields more : Fields) :
    form.finish (fields ++ more) = form.finish fields ++ form.finish more := by
  cases form with
  | full => rfl
  | compact => exact List.filter_append _ _

theorem mem_keys_of_mem_finish {form : Form} {fields : Fields} {key : Text}
    (member : key ∈ OrderedMap.keys (form.finish fields)) : key ∈ fields.keys := by
  cases form with
  | full => exact member
  | compact => exact OrderedMap.mem_keys_of_mem_filter member

/-- The fields of a record in a row: those it declares, each under its name, and those it
keeps beside them, which have other names. -/
structure Written (names : List Text) (own extra : Fields) : Prop where
  keys : own.keys = names
  distinct : names.Nodup
  undeclared : ∀ key ∈ extra.keys, key ∉ names

namespace Written

variable {names : List Text} {own extra : Fields} (written : Written names own extra)

include written

theorem distinct_own : own.Distinct := by
  rw [OrderedMap.Distinct, written.keys]
  exact written.distinct

/-- In either form a declared field has its value. -/
theorem value_finish (form : Form) {key : Text} (declared : key ∈ names) :
    value (form.finish (own ++ extra)) key = value (own ++ extra) key := by
  have missing : extra.get? key = none :=
    (OrderedMap.get?_eq_none_iff _ _).2 fun kept => written.undeclared key kept declared
  have missingInForm : OrderedMap.get? (form.finish extra) key = none :=
    (OrderedMap.get?_eq_none_iff _ _).2 fun kept =>
      written.undeclared key (mem_keys_of_mem_finish kept) declared
  have same := Field.value_finish written.distinct_own form key
  unfold value at same ⊢
  rw [finish_append, OrderedMap.get?_append, OrderedMap.get?_append, missing, missingInForm,
    Option.or_none, Option.or_none, same]

/-- In either form a declared field that is filled is found. -/
theorem get?_finish (form : Form) {key : Text} {held : Json} (declared : key ∈ names)
    (found : OrderedMap.get? (own ++ extra) key = some held) (filled : held ≠ .null) :
    (form.finish (own ++ extra)).get? key = some held := by
  have same := written.value_finish form declared
  unfold value at same
  rw [found, Option.getD_some] at same
  cases present : (form.finish (own ++ extra)).get? key with
  | none =>
      rw [present] at same
      exact absurd same.symm filled
  | some other =>
      rw [present] at same
      exact congrArg some same

/-- Taking the declared fields away leaves those that are kept beside them. -/
theorem undeclared_append : Field.undeclared (own ++ extra) names = extra := by
  have declared : Field.undeclared own names = [] := by
    apply List.filter_eq_nil_iff.mpr
    intro entry member
    have known : entry.1 ∈ names := written.keys ▸ List.mem_map_of_mem (f := Prod.fst) member
    simp [known]
  have kept : Field.undeclared extra names = extra := by
    apply List.filter_eq_self.2
    intro entry member
    simpa using written.undeclared entry.1 (OrderedMap.mem_keys_of_mem member)
  unfold Field.undeclared at declared kept ⊢
  rw [List.filter_append, declared, kept, List.nil_append]

end Written

/-- An optional field is read from the value it is written as. -/
theorem optional_eq_valid {read : Json -> Validated α} {write : α -> Json} {fields : Fields}
    {key : Text} {held : Option α} (written : value fields key = held.elim .null write)
    (reads : ∀ inner, held = some inner -> read (write inner) = .valid inner)
    (filled : ∀ inner, write inner ≠ .null) :
    optional fields key read = .valid held := by
  unfold optional withDefault
  cases found : fields.get? key with
  | none =>
      rw [value, found, Option.getD_none] at written
      cases held with
      | none => rfl
      | some inner => exact absurd written.symm (filled inner)
  | some present =>
      rw [value, found, Option.getD_some] at written
      subst written
      cases held with
      | none => rfl
      | some inner =>
          have outcome : nullable read (write inner) = .valid (some inner) := by
            unfold nullable
            split
            · next null => exact absurd null (filled inner)
            · rw [reads inner rfl]
              rfl
          simp only [Option.elim_some, outcome]
          rfl

theorem optional_text_eq_valid {fields : Fields} {key : Text} {held : Option Text}
    (written : value fields key = ofText? held) :
    optional fields key text = .valid held :=
  optional_eq_valid written (fun _ _ => rfl) (fun _ => by simp)

theorem optional_integer_eq_valid {fields : Fields} {key : Text} {held : Option Int}
    (written : value fields key = ofInt? held) :
    optional fields key integer = .valid held :=
  optional_eq_valid written (fun _ _ => rfl) (fun _ => by simp)

/-- A list is read from the items it is written as. -/
theorem listOf_eq_valid {read : Json -> Validated α} {write : α -> Json} {entries : List α}
    (reads : ∀ entry ∈ entries, read (write entry) = .valid entry) :
    listOf read (.arr (entries.map write)) = .valid entries := by
  have numbered : ∀ entry ∈ entries.zipIdx,
      (read (write entry.1)).under (.item entry.2) = .valid entry.1 := by
    intro entry member
    rw [reads entry.1 (List.fst_mem_of_mem_zipIdx member)]
    rfl
  have collected := Validated.collect_map_eq_valid numbered
  rw [List.zipIdx_map_fst] at collected
  simp only [listOf, List.mapIdx_eq_zipIdx_map, List.zipIdx_map, List.map_map]
  exact collected

/-- A map is read from the values it is written as, with what is kept of each. -/
theorem mapOf_mapValues_eq_valid {β : Type} {read : Json -> Validated β} {write : α -> Json}
    {kept : α -> β} {entries : OrderedMap Text α}
    (reads : ∀ entry ∈ entries, read (write entry.2) = .valid (kept entry.2)) :
    mapOf read (.obj (entries.mapValues fun _ held => write held)) =
      .valid (entries.mapValues fun _ held => kept held) := by
  have named : ∀ entry ∈ entries,
      ((read (write entry.2)).map fun held => (entry.1, held)).under (.field entry.1) =
        .valid (entry.1, kept entry.2) := by
    intro entry member
    rw [reads entry member]
    rfl
  have collected := Validated.collect_map_eq_valid named
  simp only [mapOf, OrderedMap.mapValues, List.map_map]
  exact collected

/-- A map is read from the values it is written as. -/
theorem mapOf_eq_valid {read : Json -> Validated α} {write : α -> Json}
    {entries : OrderedMap Text α} (reads : ∀ entry ∈ entries, read (write entry.2) = .valid entry.2) :
    mapOf read (.obj (entries.mapValues fun _ held => write held)) = .valid entries := by
  have whole : mapOf read (.obj (entries.mapValues fun _ held => write held)) =
      .valid (entries.mapValues fun _ held => id held) := mapOf_mapValues_eq_valid reads
  rwa [OrderedMap.mapValues_id] at whole

end Field

/-! ## Links and related classes -/

/-- A link is read back in every form. -/
theorem Link.ofJson_toJson (form : Form) (link : Link) :
    (Record.ofJson (Record.toJson form link) : Validated Link) = .valid link := by
  rcases link with ⟨group, type, caption⟩
  cases form <;> cases caption <;> rfl

/-- A reference to a class is read back in every form. -/
theorem ClassReference.ofJson_toJson (form : Form) (reference : ClassReference) :
    (Record.ofJson (Record.toJson form reference) : Validated ClassReference) =
      .valid reference := by
  rcases reference with ⟨name, caption⟩
  cases form <;> cases caption <;> rfl

/-- An entry under `see_also` is read back in every form, names as names and
references as references. -/
theorem Related.ofJson_toJson (form : Form) (entry : Related) :
    Related.ofJson (Related.toJson form entry) = .valid entry := by
  cases entry with
  | name text => rfl
  | link reference =>
      have read := ClassReference.ofJson_toJson form reference
      unfold Record.toJson at read
      simp only [Related.toJson, Record.toJson, Related.ofJson, read]

/-! ## Details -/

/-- Details that are read from any object which holds their values, in either
form, under the names that they declare and share with no other field. -/
class LawfulDetails (δ : Type) [Details δ] : Prop where
  keys_toFields : forall (form : Form) (details : δ),
    OrderedMap.keys (Details.toFields form details) = Details.declared δ
  declared_nodup : (Details.declared δ).Nodup
  declared_own : ∀ key ∈ Details.declared δ, key ∉ Descriptor.sharedKeys
  validate_eq_valid : forall (form : Form) (details : δ) (fields : Fields),
    (∀ key ∈ Details.declared δ,
      Field.value fields key = Field.value (Details.toFields form details) key) ->
    Details.validate fields = .valid details

instance : LawfulDetails NoDetails where
  keys_toFields _ _ := rfl
  declared_nodup := List.nodup_nil
  declared_own _ member := absurd member List.not_mem_nil
  validate_eq_valid _ _ _ _ := rfl

instance : LawfulDetails ClassDetails where
  keys_toFields _ _ := rfl
  declared_nodup := by decide
  declared_own := by decide
  validate_eq_valid form details fields agree := by
    have uid : Field.value fields "uid" = Field.ofInt? details.uid := agree "uid" (by decide)
    have category : Field.value fields "category" = Field.ofText? details.category :=
      agree "category" (by decide)
    have seeAlso : Field.value fields "see_also" =
        details.seeAlso.elim .null fun entries => .arr (entries.map (Related.toJson form)) :=
      agree "see_also" (by decide)
    have related := Field.optional_eq_valid seeAlso
      (fun _ _ => Field.listOf_eq_valid fun entry _ => Related.ofJson_toJson form entry)
      (fun _ => by simp)
    simp only [Details.validate, Field.optional_integer_eq_valid uid,
      Field.optional_text_eq_valid category, related, Validated.map_valid, Validated.seq_valid]

instance : LawfulDetails ObjectDetails where
  keys_toFields _ _ := rfl
  declared_nodup := by decide
  declared_own := by decide
  validate_eq_valid form details fields agree := by
    have links : Field.value fields "links" =
        details.links.elim .null fun links => .arr (links.map (Record.toJson form)) :=
      agree "links" (by decide)
    have read := Field.optional_eq_valid links
      (fun _ _ => Field.listOf_eq_valid fun link _ => Link.ofJson_toJson form link)
      (fun _ => by simp)
    simp only [Details.validate, read, Validated.map_valid]

/-! ## Descriptors -/

namespace Descriptor

variable {δ : Type}

/-- What validation establishes about a descriptor: keys are distinct, and what
it keeps beside the declared fields has names of its own that are characters
throughout. -/
structure WellFormed [Details δ] (descriptor : Descriptor δ) : Prop where
  attributes : descriptor.attributes.Distinct
  extra : descriptor.extra.Distinct
  undeclared : ∀ key ∈ descriptor.extra.keys, key ∉ sharedKeys ++ Details.declared δ
  characters : ∀ key ∈ descriptor.extra.keys, key.hasHalf = false

variable [Details δ]

instance (descriptor : Descriptor δ) : Decidable descriptor.WellFormed :=
  decidable_of_iff
    (descriptor.attributes.Distinct ∧ descriptor.extra.Distinct ∧
      (∀ key ∈ descriptor.extra.keys, key ∉ sharedKeys ++ Details.declared δ) ∧
      ∀ key ∈ descriptor.extra.keys, key.hasHalf = false)
    ⟨fun ⟨attributes, extra, undeclared, characters⟩ =>
      ⟨attributes, extra, undeclared, characters⟩,
    fun ⟨attributes, extra, undeclared, characters⟩ =>
      ⟨attributes, extra, undeclared, characters⟩⟩

/-- All fields of a descriptor in order, null ones included. -/
def allFields (form : Form) (descriptor : Descriptor δ) : Fields :=
  descriptor.sharedFields ++ Details.toFields form descriptor.details ++ descriptor.extra

theorem toFields_eq (form : Form) (descriptor : Descriptor δ) :
    Record.toFields form descriptor = form.finish (descriptor.allFields form) := rfl

/-- An object holds the fields of a descriptor: each declared field has its value
there, in one form or the other, and the undeclared ones are those kept. -/
structure HeldBy (descriptor : Descriptor δ) (fields : Fields) : Prop where
  type : fields.get? "type" = some (.str descriptor.type)
  name : Field.value fields "name" = Field.ofText? descriptor.name
  caption : Field.value fields "caption" = Field.ofText? descriptor.caption
  description : Field.value fields "description" = Field.ofText? descriptor.description
  parent : Field.value fields "extends" = Field.ofText? descriptor.parent
  attributes : fields.get? "attributes" = some (attributesJson descriptor.attributes)
  details : ∃ form : Form, ∀ key ∈ Details.declared δ,
    Field.value fields key = Field.value (Details.toFields form descriptor.details) key
  extra : Field.undeclared fields (sharedKeys ++ Details.declared δ) = descriptor.extra

variable [LawfulDetails δ]

/-- An object that holds the fields of a descriptor is read as that descriptor. -/
theorem HeldBy.validate_eq_valid {descriptor : Descriptor δ} {fields : Fields}
    (held : descriptor.HeldBy fields)
    (clean : ∀ key ∈ descriptor.extra.keys, key.hasHalf = false) :
    Record.validate fields = .valid descriptor := by
  rcases held.details with ⟨form, details⟩
  have type : Field.required fields "type" Field.text = .valid descriptor.type := by
    simp only [Field.required, held.type]
    rfl
  have attributes : Field.withDefault fields "attributes" [] (Field.mapOf Field.map) =
      .valid descriptor.attributes := by
    have read : Field.mapOf Field.map (attributesJson descriptor.attributes) =
        .valid descriptor.attributes := Field.mapOf_eq_valid fun _ _ => rfl
    simp only [Field.withDefault, held.attributes, read]
    rfl
  have characters : (descriptor.extra.any fun entry => entry.1.hasHalf) = false := by
    rw [List.any_eq_false]
    intro entry member
    simp [clean entry.1 (OrderedMap.mem_keys_of_mem member)]
  simp only [Record.validate, Field.keeping, held.extra, characters, type, attributes,
    Field.optional_text_eq_valid held.name, Field.optional_text_eq_valid held.caption,
    Field.optional_text_eq_valid held.description, Field.optional_text_eq_valid held.parent,
    LawfulDetails.validate_eq_valid form descriptor.details fields details,
    Validated.map_valid, Validated.seq_valid, Validated.pure_eq_valid]
  rfl

theorem keys_allFields (form : Form) (descriptor : Descriptor δ) :
    (descriptor.allFields form).keys =
      sharedKeys ++ Details.declared δ ++ descriptor.extra.keys := by
  have declared := LawfulDetails.keys_toFields form descriptor.details
  simp only [OrderedMap.keys] at declared
  simp only [allFields, OrderedMap.keys, List.map_append, declared]
  rfl

/-- The fields of a descriptor in a row, if what it keeps has names of its own. -/
theorem written_allFields (form : Form) {descriptor : Descriptor δ}
    (undeclared : ∀ key ∈ descriptor.extra.keys, key ∉ sharedKeys ++ Details.declared δ) :
    Field.Written (sharedKeys ++ Details.declared δ)
      (descriptor.sharedFields ++ Details.toFields form descriptor.details) descriptor.extra where
  keys := by
    rw [OrderedMap.keys_append, LawfulDetails.keys_toFields]
    rfl
  distinct := by
    apply List.Nodup.append (by decide) LawfulDetails.declared_nodup
    intro key shared own
    exact LawfulDetails.declared_own key own shared
  undeclared := undeclared

theorem WellFormed.distinct_allFields {descriptor : Descriptor δ}
    (wellFormed : descriptor.WellFormed) (form : Form) :
    (descriptor.allFields form).Distinct := by
  rw [OrderedMap.Distinct, keys_allFields]
  apply (written_allFields form wellFormed.undeclared).distinct.append wellFormed.extra
  intro key known kept
  exact wellFormed.undeclared key kept known

theorem WellFormed.distinct_toFields {descriptor : Descriptor δ}
    (wellFormed : descriptor.WellFormed) (form : Form) :
    OrderedMap.Distinct (Record.toFields form descriptor) :=
  Field.distinct_finish (wellFormed.distinct_allFields form) form

omit [LawfulDetails δ] in
/-- What all descriptors declare is found under its name. -/
theorem get?_allFields_of_shared (form : Form) (descriptor : Descriptor δ) {key : Text}
    (shared : key ∈ sharedKeys) :
    (descriptor.allFields form).get? key = descriptor.sharedFields.get? key := by
  have found : (descriptor.sharedFields.get? key).isSome = true :=
    (OrderedMap.get?_isSome_iff _ _).2 shared
  rcases Option.isSome_iff_exists.1 found with ⟨held, present⟩
  rw [allFields, OrderedMap.get?_append, OrderedMap.get?_append, present, Option.some_or,
    Option.some_or]

/-- What one kind of descriptor declares is found under its name. -/
theorem get?_allFields_of_declared (form : Form) (descriptor : Descriptor δ) {key : Text}
    (declared : key ∈ Details.declared δ) :
    (descriptor.allFields form).get? key =
      OrderedMap.get? (Details.toFields form descriptor.details) key := by
  have missing : descriptor.sharedFields.get? key = none :=
    (OrderedMap.get?_eq_none_iff _ _).2 (LawfulDetails.declared_own key declared)
  have found : (OrderedMap.get? (Details.toFields form descriptor.details) key).isSome = true :=
    (OrderedMap.get?_isSome_iff _ _).2
      ((LawfulDetails.keys_toFields form descriptor.details).symm ▸ declared)
  rcases Option.isSome_iff_exists.1 found with ⟨held, present⟩
  rw [allFields, OrderedMap.get?_append, OrderedMap.get?_append, missing, Option.none_or,
    present, Option.some_or]

/-- Taking the declared fields away leaves those that are kept beside them. -/
theorem undeclared_allFields {descriptor : Descriptor δ} (wellFormed : descriptor.WellFormed)
    (form : Form) :
    Field.undeclared (descriptor.allFields form) (sharedKeys ++ Details.declared δ) =
      descriptor.extra :=
  (written_allFields form wellFormed.undeclared).undeclared_append

/-- What a form of a descriptor tells of it: all, or all but the undeclared fields that are
null. -/
def inForm (form : Form) (descriptor : Descriptor δ) : Descriptor δ :=
  { descriptor with extra := form.finish descriptor.extra }

/-- A descriptor is held by the fields it is written as, in what they tell. -/
theorem heldBy_toFields (form : Form) {descriptor : Descriptor δ}
    (undeclared : ∀ key ∈ descriptor.extra.keys, key ∉ sharedKeys ++ Details.declared δ) :
    (descriptor.inForm form).HeldBy (Record.toFields form descriptor) := by
  have written := written_allFields form undeclared
  have shared : ∀ key ∈ sharedKeys, Field.value (Record.toFields form descriptor) key =
      Field.value descriptor.sharedFields key := by
    intro key member
    rw [Field.value, Field.value, ← get?_allFields_of_shared form descriptor member]
    exact written.value_finish form (List.mem_append_left _ member)
  have filled : forall (key : Text) (held : Json), key ∈ sharedKeys ->
      descriptor.sharedFields.get? key = some held -> held ≠ .null ->
        OrderedMap.get? (Record.toFields form descriptor) key = some held := by
    intro key held member found filled
    rw [← get?_allFields_of_shared form descriptor member] at found
    exact written.get?_finish form (List.mem_append_left _ member) found filled
  constructor
  case type => exact filled "type" _ (by decide) rfl (by simp)
  case name => exact shared "name" (by decide)
  case caption => exact shared "caption" (by decide)
  case description => exact shared "description" (by decide)
  case parent => exact shared "extends" (by decide)
  case attributes => exact filled "attributes" _ (by decide) rfl (by simp [attributesJson])
  case details =>
    refine ⟨form, fun key own => ?_⟩
    have inRow : Field.value (descriptor.allFields form) key =
        Field.value (Details.toFields form descriptor.details) key := by
      rw [Field.value, Field.value, get?_allFields_of_declared form descriptor own]
    exact (written.value_finish form (List.mem_append_right _ own)).trans inRow
  case extra =>
    rw [toFields_eq, Field.undeclared_finish]
    exact congrArg form.finish written.undeclared_append

/-- What a form of a descriptor tells of it is read back. -/
theorem ofJson_toJson (form : Form) {descriptor : Descriptor δ}
    (undeclared : ∀ key ∈ descriptor.extra.keys, key ∉ sharedKeys ++ Details.declared δ)
    (clean : ∀ key ∈ descriptor.extra.keys, key.hasHalf = false) :
    Record.ofJson (Record.toJson form descriptor) = .valid (descriptor.inForm form) :=
  (heldBy_toFields form undeclared).validate_eq_valid fun key member =>
    clean key (Field.mem_keys_of_mem_finish member)

/-- A well-formed descriptor that is written with all its fields is read back. -/
theorem WellFormed.ofJson_toJson {descriptor : Descriptor δ}
    (wellFormed : descriptor.WellFormed) :
    Record.ofJson (Record.toJson .full descriptor) = .valid descriptor :=
  Descriptor.ofJson_toJson .full wellFormed.undeclared wellFormed.characters

end Descriptor

end EventSchema
