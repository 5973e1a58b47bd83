import EventSchema.Proofs.Json.Merging
import EventSchema.Proofs.Number.Numeral
import EventSchema.Proofs.Record.ReadBack
import EventSchema.Record.Register

namespace EventSchema

/-!
# What validation establishes

Records that are read from well-formed objects are well formed: their maps have
distinct keys, what they keep beside the declared fields has other names, and
their integers can be written.
-/

/-! ## Valid outcomes -/

namespace Validated

variable {α β : Type}

theorem map_eq_valid_iff {f : α -> β} {outcome : Validated α} {result : β} :
    f <$> outcome = valid result ↔ ∃ value, outcome = valid value ∧ f value = result := by
  cases outcome with
  | valid value =>
      exact ⟨fun same => ⟨value, rfl, Validated.valid.inj same⟩,
        fun ⟨_, same, gives⟩ => by cases same; exact congrArg valid gives⟩
  | invalid issues => exact ⟨fun same => (by cases same), fun ⟨_, same, _⟩ => (by cases same)⟩

theorem seq_eq_valid_iff {apply : Validated (α -> β)} {outcome : Validated α} {result : β} :
    apply <*> outcome = valid result ↔
      ∃ f value, apply = valid f ∧ outcome = valid value ∧ f value = result := by
  cases apply with
  | valid f =>
      change f <$> outcome = valid result ↔ _
      rw [map_eq_valid_iff]
      constructor
      · rintro ⟨value, read, gives⟩
        exact ⟨f, value, rfl, read, gives⟩
      · rintro ⟨_, value, same, read, gives⟩
        cases same
        exact ⟨value, read, gives⟩
  | invalid issues =>
      refine ⟨fun same => ?_, fun ⟨_, _, same, _⟩ => (by cases same)⟩
      cases outcome <;> cases same

theorem under_eq_valid_iff {step : Step} {outcome : Validated α} {value : α} :
    outcome.under step = valid value ↔ outcome = valid value := by
  cases outcome with
  | valid held => exact Iff.rfl
  | invalid issues => exact ⟨fun same => (by cases same), fun same => (by cases same)⟩

theorem collect_eq_valid_iff {outcomes : List (Validated α)} {values : List α} :
    collect outcomes = valid values ↔
      List.Forall₂ (fun outcome value => outcome = valid value) outcomes values := by
  induction outcomes generalizing values with
  | nil =>
      rw [List.forall₂_nil_left_iff]
      exact ⟨fun same => (Validated.valid.inj same).symm, fun same => by rw [same]; rfl⟩
  | cons first rest ih =>
      rw [List.forall₂_cons_left_iff]
      cases first with
      | invalid issues =>
          refine ⟨fun same => ?_, fun ⟨_, _, same, _⟩ => (by cases same)⟩
          unfold collect at same
          cases others : collect rest <;> rw [others] at same <;> cases same
      | valid value =>
          constructor
          · intro same
            unfold collect at same
            cases others : collect rest with
            | invalid issues => rw [others] at same; cases same
            | valid more =>
                rw [others] at same
                exact ⟨value, more, rfl, ih.1 others, (Validated.valid.inj same).symm⟩
          · rintro ⟨_, more, same, others, rfl⟩
            cases same
            unfold collect
            rw [ih.2 others]

end Validated

/-! ## Fields -/

namespace Field

variable {α : Type}

theorem text_eq_valid_iff {value : Json} {held : Text} :
    text value = .valid held ↔ value = .str held := by
  cases value <;> simp [text, Validated.issue]

theorem map_eq_valid_iff {value : Json} {held : Fields} :
    map value = .valid held ↔ value = .obj held := by
  cases value <;> simp [map, Validated.issue]

theorem required_eq_valid_iff {fields : Fields} {key : Text} {read : Json -> Validated α}
    {held : α} :
    required fields key read = .valid held ↔
      ∃ value, fields.get? key = some value ∧ read value = .valid held := by
  unfold required
  cases found : fields.get? key with
  | none => simp [Validated.issue, Validated.under]
  | some value => simp [Validated.under_eq_valid_iff]

/-- A field with a default is read from its value, or it is missing. -/
theorem withDefault_eq_valid_iff {fields : Fields} {key : Text} {absent : α}
    {read : Json -> Validated α} {held : α} :
    withDefault fields key absent read = .valid held ↔
      (fields.get? key = none ∧ held = absent) ∨
        ∃ value, fields.get? key = some value ∧ read value = .valid held := by
  unfold withDefault
  cases found : fields.get? key with
  | none => simp [eq_comm]
  | some value => simp [Validated.under_eq_valid_iff]

/-- The entries of a map that is read stand for those of the object, in order and
under the same keys. -/
theorem forall₂_of_mapOf {read : Json -> Validated α} {value : Json} {held : OrderedMap Text α}
    (reads : mapOf read value = .valid held) :
    ∃ fields, value = .obj fields ∧
      List.Forall₂ (fun entry result => entry.1 = result.1 ∧ read entry.2 = .valid result.2)
        fields held := by
  cases value with
  | obj fields =>
      refine ⟨fields, rfl, ?_⟩
      rw [mapOf, Validated.collect_eq_valid_iff, List.forall₂_map_left_iff] at reads
      apply reads.imp
      intro entry result same
      rw [Validated.under_eq_valid_iff] at same
      have mapped : (fun held => (entry.1, held)) <$> read entry.2 = .valid result := same
      rcases Validated.map_eq_valid_iff.mp mapped with ⟨inner, read, rfl⟩
      exact ⟨rfl, read⟩
  | _ => cases reads

/-- A map that is read from a well-formed value has distinct keys. -/
theorem distinct_of_mapOf {read : Json -> Validated α} {value : Json} {held : OrderedMap Text α}
    (wellFormed : value.WellFormed) (reads : mapOf read value = .valid held) : held.Distinct := by
  rcases forall₂_of_mapOf reads with ⟨fields, rfl, all⟩
  have keys : OrderedMap.keys fields = held.keys := OrderedMap.keys_eq_of_forall₂ (fun _ _ same => same.1) all
  rw [OrderedMap.Distinct, ← keys]
  exact wellFormed.distinct

/-- Integers are read from values as integers that can be written. -/
theorem writable_of_integer {value : Json} (wellFormed : value.WellFormed) {held : Int}
    (reads : integer value = .valid held) : Numeral.writable held = true := by
  have ofWord : forall whole : Int, fitsWord whole = true -> Numeral.writable whole = true := by
    intro whole fits
    rw [Numeral.writable_iff]
    apply Nat.lt_of_lt_of_le (decide_eq_true_iff.mp fits)
    exact Nat.le_trans (by decide +kernel : twoTo 63 ≤ tenTo 19)
      (Numeral.tenTo_le_tenTo (by decide))
  cases value with
  | int whole =>
      cases reads
      exact wellFormed
  | bool flag =>
      cases reads
      cases flag <;> exact ofWord _ (by decide +kernel)
  | float number =>
      simp only [integer] at reads
      split at reads
      · cases reads
      split at reads
      · cases reads
      split at reads
      · next fits =>
          cases reads
          exact ofWord _ fits
      · cases reads
  | str text =>
      simp only [integer] at reads
      split at reads
      · next found =>
          cases reads
          exact Numeral.writable_of_readField found
      · cases reads
      · cases reads
      · cases reads
  | _ => cases reads

theorem keeping_eq_valid_iff {fields : Fields} {declared : List Text}
    {read : Fields -> Validated α} {held : α} :
    keeping fields declared read = .valid held ↔
      (∀ key ∈ (undeclared fields declared).keys, key.hasHalf = false) ∧
        read (undeclared fields declared) = .valid held := by
  unfold keeping
  dsimp only
  split
  · next half =>
      refine ⟨fun same => (by cases same), fun ⟨clean, _⟩ => ?_⟩
      rcases List.any_eq_true.1 half with ⟨entry, member, holds⟩
      rw [clean entry.1 (OrderedMap.mem_keys_of_mem member)] at holds
      cases holds
  · next clean =>
      refine (and_iff_right ?_).symm
      intro key member
      rcases List.mem_map.1 member with ⟨entry, within, rfl⟩
      rw [Bool.not_eq_true, List.any_eq_false] at clean
      simpa using clean entry within

theorem distinct_undeclared {fields : Fields} (distinct : fields.Distinct)
    (declared : List Text) : (undeclared fields declared).Distinct :=
  distinct.filter _

theorem not_declared_of_mem_undeclared {fields : Fields} {declared : List Text} {key : Text}
    (member : key ∈ (undeclared fields declared).keys) : key ∉ declared := by
  rcases List.mem_map.1 member with ⟨entry, within, rfl⟩
  simpa using (List.mem_filter.1 within).2

end Field

/-! ## Records -/

namespace Descriptor

variable {δ : Type} [Details δ]

/-- Each field of a descriptor is read from the object. -/
structure ReadFrom (descriptor : Descriptor δ) (fields : Fields) : Prop where
  characters : ∀ key ∈ descriptor.extra.keys, key.hasHalf = false
  type : fields.get? "type" = some (.str descriptor.type)
  name : Field.optional fields "name" Field.text = .valid descriptor.name
  caption : Field.optional fields "caption" Field.text = .valid descriptor.caption
  description : Field.optional fields "description" Field.text = .valid descriptor.description
  parent : Field.optional fields "extends" Field.text = .valid descriptor.parent
  attributes : Field.withDefault fields "attributes" [] (Field.mapOf Field.map) =
    .valid descriptor.attributes
  details : Details.validate fields = .valid descriptor.details
  extra : Field.undeclared fields (sharedKeys ++ Details.declared δ) = descriptor.extra

theorem readFrom_of_validate {fields : Fields} {descriptor : Descriptor δ}
    (validates : Record.validate fields = .valid descriptor) : descriptor.ReadFrom fields := by
  simp only [Record.validate, Field.keeping_eq_valid_iff, Validated.seq_eq_valid_iff,
    Validated.map_eq_valid_iff, Validated.pure_eq_valid, Field.required_eq_valid_iff,
    Field.text_eq_valid_iff] at validates
  rcases validates with
    ⟨characters, _, _, ⟨_, _, ⟨_, _, ⟨_, _, ⟨_, _, ⟨_, _, ⟨_, _, ⟨_, ⟨_, type, rfl⟩, rfl⟩, name,
     rfl⟩, caption, rfl⟩, description, rfl⟩, parent, rfl⟩, attributes, rfl⟩, details, rfl⟩, extra,
     rfl⟩
  cases extra
  exact ⟨characters, type, name, caption, description, parent, attributes, details, rfl⟩

/-- The attributes that are read are those of the object as they stand, or none where
it has none. -/
theorem ReadFrom.attributes_eq {fields : Fields} {descriptor : Descriptor δ}
    (read : descriptor.ReadFrom fields) :
    (fields.get? "attributes" = none ∧ descriptor.attributes = []) ∨
      fields.get? "attributes" = some (attributesJson descriptor.attributes) := by
  rcases Field.withDefault_eq_valid_iff.mp read.attributes with absent | ⟨value, found, maps⟩
  · exact Or.inl absent
  · rcases Field.forall₂_of_mapOf maps with ⟨held, rfl, all⟩
    have same : held = descriptor.attributes.mapValues fun _ definition => Json.obj definition := by
      rw [OrderedMap.mapValues, ← List.forall₂_eq_eq_eq, List.forall₂_map_right_iff]
      refine all.imp fun entry result related => ?_
      exact Prod.ext related.1 (Field.map_eq_valid_iff.mp related.2)
    rw [found, attributesJson, same]
    exact Or.inr rfl

/-- The attributes that are read from a well-formed object are well formed. -/
theorem ReadFrom.wellFormed_attributes {fields : Fields} {descriptor : Descriptor δ}
    (read : descriptor.ReadFrom fields) (wellFormed : Json.WellFormed (.obj fields)) :
    Json.WellFormed (attributesJson descriptor.attributes) := by
  rcases read.attributes_eq with ⟨_, none⟩ | held
  · rw [none]
    exact Json.wellFormed_nil
  · exact wellFormed.of_get? held

/-- What a descriptor that is read keeps beside the declared fields has other names. -/
theorem ReadFrom.undeclared {fields : Fields} {descriptor : Descriptor δ}
    (read : descriptor.ReadFrom fields) :
    ∀ key ∈ descriptor.extra.keys, key ∉ sharedKeys ++ Details.declared δ := by
  rw [← read.extra]
  exact fun key member => Field.not_declared_of_mem_undeclared member

/-- A descriptor that is read from a well-formed object is well formed. -/
theorem ReadFrom.wellFormed {fields : Fields} {descriptor : Descriptor δ}
    (read : descriptor.ReadFrom fields) (wellFormed : Json.WellFormed (.obj fields)) :
    descriptor.WellFormed where
  attributes := by
    rcases Field.withDefault_eq_valid_iff.mp read.attributes with ⟨_, none⟩ | ⟨value, found, maps⟩
    · rw [none]
      exact List.nodup_nil
    · exact Field.distinct_of_mapOf (wellFormed.of_get? found) maps
  extra := read.extra ▸ Field.distinct_undeclared wellFormed.distinct _
  undeclared := read.undeclared
  characters := read.characters

end Descriptor

namespace Category

/-- The number of a category that is read can be written. -/
theorem writable_of_validate {fields : Fields} (wellFormed : Json.WellFormed (.obj fields))
    {category : Category} (validates : Record.validate fields = .valid category) :
    Numeral.writable category.id = true := by
  simp only [Record.validate, Field.keeping_eq_valid_iff, Validated.seq_eq_valid_iff,
    Validated.map_eq_valid_iff, Validated.pure_eq_valid, Field.required_eq_valid_iff]
    at validates
  rcases validates with
    ⟨_, _, _, ⟨_, _, ⟨_, _, ⟨_, _, ⟨_, _, ⟨_, ⟨value, found, integer⟩, rfl⟩, _, rfl⟩, _, rfl⟩, _,
     rfl⟩, _, rfl⟩, _, rfl⟩
  exact Field.writable_of_integer (wellFormed.of_get? found) integer

/-- A category that is read keeps all fields that it does not declare. -/
theorem extra_of_validate {fields : Fields} {category : Category}
    (validates : Record.validate fields = .valid category) :
    category.extra = Field.undeclared fields declared := by
  simp only [Record.validate, Field.keeping_eq_valid_iff, Validated.seq_eq_valid_iff,
    Validated.map_eq_valid_iff, Validated.pure_eq_valid] at validates
  rcases validates with
    ⟨_, _, _, ⟨_, _, ⟨_, _, ⟨_, _, ⟨_, _, ⟨_, _, rfl⟩, _, rfl⟩, _, rfl⟩, _, rfl⟩, _, rfl⟩, same, rfl⟩
  cases same
  rfl

/-- The names of what a category that is read keeps are characters throughout. -/
theorem characters_of_validate {fields : Fields} {category : Category}
    (validates : Record.validate fields = .valid category) :
    ∀ key ∈ category.extra.keys, key.hasHalf = false := by
  rw [extra_of_validate validates]
  exact (Field.keeping_eq_valid_iff.mp validates).1

/-- What a category that is read keeps beside the declared fields has other names. -/
theorem undeclared_of_validate {fields : Fields} {category : Category}
    (validates : Record.validate fields = .valid category) :
    ∀ key ∈ category.extra.keys, key ∉ declared := by
  rw [extra_of_validate validates]
  exact fun key member => Field.not_declared_of_mem_undeclared member

/-- What a category keeps of a well-formed object is well formed. -/
theorem wellFormed_extra_of_validate {fields : Fields}
    (wellFormed : Json.WellFormed (.obj fields)) {category : Category}
    (validates : Record.validate fields = .valid category) :
    Json.WellFormed (.obj category.extra) := by
  rcases (Json.wellFormed_obj_iff fields).1 wellFormed with ⟨distinct, values⟩
  rw [extra_of_validate validates]
  exact (Json.wellFormed_obj_iff _).2 ⟨Field.distinct_undeclared distinct declared,
    fun entry member => values entry (List.mem_of_mem_filter member)⟩

end Category

namespace Register

variable {α : Type}

/-- Entries and undeclared fields of a register are read from the object. -/
structure ReadFrom (read : Json -> Validated α) (register : Register α) (fields : Fields) :
    Prop where
  characters : ∀ key ∈ register.extra.keys, key.hasHalf = false
  entries : ∃ held, Field.withDefault fields "attributes" [] (Field.mapOf read) = .valid held ∧
    register.entries = OrderedMap.ofEntries held
  extra : Field.undeclared fields declared = register.extra

theorem readFrom_of_validate {read : Json -> Validated α} {fields : Fields}
    {register : Register α} (validates : validate read fields = .valid register) :
    register.ReadFrom read fields := by
  simp only [validate, Field.keeping_eq_valid_iff, Validated.seq_eq_valid_iff,
    Validated.map_eq_valid_iff, Validated.pure_eq_valid] at validates
  rcases validates with
    ⟨characters, _, _, ⟨_, _, ⟨_, _, ⟨_, _, ⟨_, _, rfl⟩, _, rfl⟩, _, rfl⟩, entries, rfl⟩, extra,
     rfl⟩
  cases extra
  exact ⟨characters, ⟨_, entries, rfl⟩, rfl⟩

variable {read : Json -> Validated α} {register : Register α} {fields : Fields}

/-- Every entry that is read is read from a value in the object. -/
theorem ReadFrom.exists_source (readFrom : register.ReadFrom read fields) :
    ∀ entry ∈ register.entries, ∃ held source, fields.get? "attributes" = some (.obj held) ∧
      source ∈ held ∧ read source.2 = .valid entry.2 := by
  intro entry member
  rcases readFrom.entries with ⟨entries, reads, same⟩
  rw [same] at member
  have listed := OrderedMap.mem_of_mem_ofEntries member
  rcases Field.withDefault_eq_valid_iff.mp reads with ⟨_, none⟩ | ⟨value, found, maps⟩
  · rw [none] at listed
    cases listed
  · rcases Field.forall₂_of_mapOf maps with ⟨held, rfl, all⟩
    rcases Outcome.exists_of_mem_right all entry listed with ⟨source, within, _, reads⟩
    exact ⟨held, source, found, within, reads⟩

/-- What a register that is read keeps beside the declared fields has other names. -/
theorem ReadFrom.undeclared (readFrom : register.ReadFrom read fields) :
    ∀ key ∈ register.extra.keys, key ∉ declared := by
  rw [← readFrom.extra]
  exact fun key member => Field.not_declared_of_mem_undeclared member

end Register

/-- A record is read from an object. -/
theorem Record.exists_fields_of_ofJson {ρ : Type} [Record ρ] {value : Json} {record : ρ}
    (reads : Record.ofJson value = .valid record) :
    ∃ fields, value = .obj fields ∧ Record.validate fields = .valid record := by
  cases value with
  | obj fields => exact ⟨fields, rfl, reads⟩
  | _ => cases reads

/-- Every category of a register that is read is read from an object in it. -/
theorem Categories.exists_source {fields : Fields} (wellFormed : Json.WellFormed (.obj fields))
    {categories : Categories} (validates : Record.validate fields = .valid categories) :
    ∀ entry ∈ categories.entries, ∃ source, Json.WellFormed (.obj source) ∧
      Record.validate source = .valid entry.2 := by
  intro entry member
  rcases (Register.readFrom_of_validate validates).exists_source entry member with
    ⟨held, source, found, within, reads⟩
  rcases Record.exists_fields_of_ofJson reads with ⟨fields, object, read⟩
  have inner := wellFormed.of_get? found
  exact ⟨fields, object ▸ ((Json.wellFormed_obj_iff _).1 inner).2 source within, read⟩

end EventSchema
