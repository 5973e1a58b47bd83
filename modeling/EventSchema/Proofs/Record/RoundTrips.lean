import EventSchema.Proofs.Record.Categories

namespace EventSchema

/-!
# Records that survive being written

Inheritance and the listing of a category write records and read what was written.  From
its full form a record is read as it was.  The compact form leaves out every field of a
record that is null.  Declared ones are read as null again, so that only undeclared fields
get lost, those of the record and those of the records in it.  A null inside plain data is
no field of a record and stays.
-/

/-- Fields without those that are null. -/
def Fields.filled (fields : Fields) : Fields :=
  fields.filter fun entry => entry.2 ≠ .null

/-- Each record that is read from a value at all is read again from its full form, and from
its compact form with what the function leaves of it. -/
def Record.ReadsBack {ρ : Type} [Record ρ] (filled : ρ -> ρ) : Prop :=
  forall (value : Json) (record : ρ), Record.ofJson value = .valid record ->
    Record.ofJson (Record.toJson .full record) = .valid record ∧
      Record.ofJson (Record.toJson .compact record) = .valid (filled record)

/-! ## The version -/

namespace SchemaVersion

/-- A version without undeclared fields that are null. -/
def filled (version : SchemaVersion) : SchemaVersion :=
  { version with extra := version.extra.filled }

theorem ofJson_toJson (form : Form) {version : SchemaVersion}
    (undeclared : ∀ key ∈ version.extra.keys, key ∉ (["version"] : List Text))
    (characters : ∀ key ∈ version.extra.keys, key.hasHalf = false) :
    Record.ofJson (Record.toJson form version) =
      .valid { version with extra := form.finish version.extra } := by
  have written : Field.Written ["version"] [("version", .str version.version)] version.extra :=
    ⟨rfl, by decide, undeclared⟩
  have kept : Field.undeclared (Record.toFields form version) ["version"] =
      form.finish version.extra :=
    (Field.undeclared_finish form _ _).trans (congrArg form.finish written.undeclared_append)
  have number : Field.required (Record.toFields form version) "version" Field.text =
      .valid version.version := by
    rw [Field.required_eq_valid_iff]
    exact ⟨_, written.get?_finish form (by decide) rfl (by simp), rfl⟩
  change Record.validate (Record.toFields form version) = _
  refine Field.keeping_eq_valid_iff.mpr ⟨?_, ?_⟩
  · rw [kept]
    exact fun key member => characters key (Field.mem_keys_of_mem_finish member)
  · simp only [number, kept, Validated.map_valid, Validated.seq_valid, Validated.pure_eq_valid]

/-- A version that is read keeps all fields beside it. -/
theorem extra_of_validate {fields : Fields} {version : SchemaVersion}
    (validates : Record.validate fields = .valid version) :
    version.extra = Field.undeclared fields ["version"] := by
  simp only [Record.validate, Field.keeping_eq_valid_iff, Validated.seq_eq_valid_iff,
    Validated.map_eq_valid_iff, Validated.pure_eq_valid] at validates
  rcases validates with ⟨_, _, _, ⟨_, _, rfl⟩, same, rfl⟩
  cases same
  rfl

theorem readsBack : Record.ReadsBack filled := by
  intro value version reads
  rcases Record.exists_fields_of_ofJson reads with ⟨fields, rfl, validates⟩
  have kept := extra_of_validate validates
  have undeclared : ∀ key ∈ version.extra.keys, key ∉ (["version"] : List Text) := by
    rw [kept]
    exact fun key member => Field.not_declared_of_mem_undeclared member
  have characters : ∀ key ∈ version.extra.keys, key.hasHalf = false := by
    rw [kept]
    exact (Field.keeping_eq_valid_iff.mp validates).1
  have both := fun form => ofJson_toJson form undeclared characters
  exact ⟨both .full, both .compact⟩

end SchemaVersion

/-! ## Categories -/

namespace Category

/-- A category without undeclared fields that are null. -/
def filled (category : Category) : Category :=
  { category with extra := category.extra.filled }

theorem ofJson_toJson (form : Form) {category : Category}
    (undeclared : ∀ key ∈ category.extra.keys, key ∉ declared)
    (characters : ∀ key ∈ category.extra.keys, key.hasHalf = false) :
    Record.ofJson (Record.toJson form category) =
      .valid { category with extra := form.finish category.extra } := by
  have written : Field.Written declared category.declaredFields category.extra :=
    ⟨rfl, by decide, undeclared⟩
  have kept : Field.undeclared (Record.toFields form category) declared =
      form.finish category.extra :=
    (Field.undeclared_finish form _ _).trans (congrArg form.finish written.undeclared_append)
  have held : category.HeldBy (Record.toFields form category) :=
    { id := written.get?_finish form (by decide) rfl (by simp)
      name := written.value_finish form (by decide)
      caption := written.value_finish form (by decide)
      description := written.value_finish form (by decide)
      range := written.value_finish form (by decide) }
  rw [← kept]
  refine held.validate_eq_valid ?_
  rw [kept]
  exact fun key member => characters key (Field.mem_keys_of_mem_finish member)

theorem readsBack : Record.ReadsBack filled := by
  intro value category reads
  rcases Record.exists_fields_of_ofJson reads with ⟨fields, rfl, validates⟩
  have both := fun form =>
    ofJson_toJson form (undeclared_of_validate validates) (characters_of_validate validates)
  exact ⟨both .full, both .compact⟩

end Category

/-! ## Registers -/

namespace Register

variable {α : Type}

/-- A register is read from a form of it if its entries are, each with what is kept of it. -/
theorem validate_toFields {read : Json -> Validated α} {entry : α -> Fields} {kept : α -> α}
    (form : Form) {register : Register α}
    (undeclared : ∀ key ∈ register.extra.keys, key ∉ declared)
    (characters : ∀ key ∈ register.extra.keys, key.hasHalf = false)
    (reads : ∀ held ∈ register.entries, read (.obj (entry held.2)) = .valid (kept held.2)) :
    validate read (toFields entry form register) =
      .valid { register with
        entries := register.entries.mapValues fun _ held => kept held
        extra := form.finish register.extra
        distinct := register.distinct.mapValues _ } := by
  have written : Field.Written declared (register.declaredFields entry) register.extra :=
    ⟨rfl, by decide, undeclared⟩
  have others : Field.undeclared (toFields entry form register) declared =
      form.finish register.extra :=
    (Field.undeclared_finish form _ _).trans (congrArg form.finish written.undeclared_append)
  have name : Field.value (toFields entry form register) "name" = Field.ofText? register.name :=
    written.value_finish form (by decide)
  have caption : Field.value (toFields entry form register) "caption" =
      Field.ofText? register.caption := written.value_finish form (by decide)
  have description : Field.value (toFields entry form register) "description" =
      Field.ofText? register.description := written.value_finish form (by decide)
  have entries : Field.withDefault (toFields entry form register) "attributes" []
      (Field.mapOf read) = .valid (register.entries.mapValues fun _ held => kept held) := by
    rw [Field.withDefault_eq_valid_iff]
    exact Or.inr ⟨_, written.get?_finish form (by decide) rfl (by simp),
      Field.mapOf_mapValues_eq_valid reads⟩
  refine Field.keeping_eq_valid_iff.mpr ⟨?_, ?_⟩
  · rw [others]
    exact fun key member => characters key (Field.mem_keys_of_mem_finish member)
  · simp only [Field.optional_text_eq_valid name, Field.optional_text_eq_valid caption,
      Field.optional_text_eq_valid description, entries, others, Validated.map_valid,
      Validated.seq_valid, Validated.pure_eq_valid, ofEntries,
      (register.distinct.mapValues _).ofEntries]

end Register

namespace Categories

/-- Categories without undeclared fields that are null, those of each category included. -/
def filled (categories : Categories) : Categories :=
  { categories with
    entries := categories.entries.mapValues fun _ category => category.filled
    extra := categories.extra.filled
    distinct := categories.distinct.mapValues _ }

theorem readsBack : Record.ReadsBack filled := by
  intro value categories reads
  rcases Record.exists_fields_of_ofJson reads with ⟨fields, rfl, validates⟩
  have readFrom := Register.readFrom_of_validate validates
  have entries : ∀ held ∈ categories.entries,
      Record.ofJson (Record.toJson .full held.2) = .valid (id held.2) ∧
        Record.ofJson (Record.toJson .compact held.2) = .valid held.2.filled := by
    intro held member
    rcases readFrom.exists_source held member with ⟨_, source, _, _, read⟩
    exact Category.readsBack source.2 held.2 read
  have whole := Register.validate_toFields .full readFrom.undeclared readFrom.characters
    fun held member => (entries held member).1
  simp only [OrderedMap.mapValues_id] at whole
  exact ⟨whole, Register.validate_toFields .compact readFrom.undeclared readFrom.characters
    fun held member => (entries held member).2⟩

end Categories

namespace Dictionary

/-- A dictionary without undeclared fields that are null.  Its definitions are plain data. -/
def filled (dictionary : Dictionary) : Dictionary :=
  { dictionary with extra := dictionary.extra.filled }

theorem readsBack : Record.ReadsBack filled := by
  intro value dictionary reads
  rcases Record.exists_fields_of_ofJson reads with ⟨fields, rfl, validates⟩
  have readFrom := Register.readFrom_of_validate validates
  have both : forall form : Form, Record.validate (Record.toFields form dictionary) =
      .valid { dictionary with extra := form.finish dictionary.extra } := by
    intro form
    have read : ∀ held ∈ dictionary.entries, Field.map (.obj (id held.2)) = .valid (id held.2) :=
      fun _ _ => rfl
    have whole := Register.validate_toFields form readFrom.undeclared readFrom.characters read
    simp only [OrderedMap.mapValues_id] at whole
    exact whole
  exact ⟨both .full, both .compact⟩

end Dictionary

/-! ## Descriptors -/

namespace Descriptor

variable {δ : Type} [Details δ] [LawfulDetails δ]

omit [Details δ] [LawfulDetails δ] in
/-- A descriptor without undeclared fields that are null. -/
def filled (descriptor : Descriptor δ) : Descriptor δ :=
  { descriptor with extra := descriptor.extra.filled }

theorem readsBack : Record.ReadsBack (filled : Descriptor δ -> Descriptor δ) := by
  intro value descriptor reads
  rcases Record.exists_fields_of_ofJson reads with ⟨fields, rfl, validates⟩
  have readFrom := readFrom_of_validate validates
  have both := fun form => ofJson_toJson form readFrom.undeclared readFrom.characters
  exact ⟨both .full, both .compact⟩

end Descriptor

/-! ## All kinds of records -/

/-- Whatever a record of a schema was read from, both of its forms are read: the full one as
the record itself, the compact one without the undeclared fields that are null. -/
theorem records_survive_writing :
    Record.ReadsBack SchemaVersion.filled ∧ Record.ReadsBack Category.filled ∧
    Record.ReadsBack Categories.filled ∧ Record.ReadsBack Dictionary.filled ∧
    Record.ReadsBack (Descriptor.filled : ClassDescriptor -> ClassDescriptor) ∧
    Record.ReadsBack (Descriptor.filled : ObjectDescriptor -> ObjectDescriptor) :=
  ⟨SchemaVersion.readsBack, Category.readsBack, Categories.readsBack, Dictionary.readsBack,
    Descriptor.readsBack, Descriptor.readsBack⟩

/-- An object of which every kind of record can be read.  It has nulls as declared and as
undeclared fields and inside plain data, integers that are written otherwise, and names
beside references. -/
def manifold : Json :=
  .obj [("version", .str "1.0.0"), ("type", .str "flow"), ("id", .str " 007 "), ("name", .null),
    ("more", .null), ("kept", .obj [("inner", .null)]), ("uid", .bool true),
    ("see_also", .arr [.str "other", .obj [("caption", .null), ("reference", .str "base")]]),
    ("links", .arr [.obj [("type", .str "login"), ("group", .str "class"), ("more", .null)]]),
    ("attributes", .obj [("net",
      .obj [("id", .str "+4_0"), ("class_id_range", .null), ("more", .null),
        ("kept", .arr [.null])])])]

/-- A record is read from a value and loses fields in its compact form, and both of its forms
are read. -/
def Record.SurvivesFrom {ρ : Type} [Record ρ] (value : Json) (filled : ρ -> ρ) : Prop :=
  ∃ record, Record.ofJson value = .valid record ∧ filled record ≠ record ∧
    Record.ofJson (Record.toJson .full record) = .valid record ∧
    Record.ofJson (Record.toJson .compact record) = .valid (filled record)

/-- Records of every kind that are read from one object survive being written. -/
theorem records_survive_writing_of_manifold :
    Record.SurvivesFrom manifold SchemaVersion.filled ∧
    Record.SurvivesFrom manifold Category.filled ∧
    Record.SurvivesFrom manifold Categories.filled ∧
    Record.SurvivesFrom manifold Dictionary.filled ∧
    Record.SurvivesFrom manifold (Descriptor.filled : ClassDescriptor -> ClassDescriptor) ∧
    Record.SurvivesFrom manifold (Descriptor.filled : ObjectDescriptor -> ObjectDescriptor) :=
  ⟨⟨_, rfl, by decide, records_survive_writing.1 manifold _ rfl⟩,
    ⟨_, rfl, by decide, records_survive_writing.2.1 manifold _ rfl⟩,
    ⟨_, rfl, by decide, records_survive_writing.2.2.1 manifold _ rfl⟩,
    ⟨_, rfl, by decide, records_survive_writing.2.2.2.1 manifold _ rfl⟩,
    ⟨_, rfl, by decide, records_survive_writing.2.2.2.2.1 manifold _ rfl⟩,
    ⟨_, rfl, by decide, records_survive_writing.2.2.2.2.2 manifold _ rfl⟩⟩

end EventSchema
