import EventSchema.Proofs.Record.Established

namespace EventSchema

/-!
# Categories that are written and read again

A category is read from any object that holds its declared fields, and what else the
object has is kept beside them.  A category together with its classes is read from the
fields of the category once the classes stand among them; a field of that name which
the category itself kept gives way.
-/

/-- Among the undeclared fields a field is assigned if it is undeclared itself. -/
theorem Field.undeclared_insert (fields : Fields) (names : List Text) (key : Text) (value : Json) :
    undeclared (OrderedMap.insert fields key value) names =
      if key ∈ names then undeclared fields names
      else OrderedMap.insert (undeclared fields names) key value := by
  have restricted := OrderedMap.filter_key_insert (fun key => !names.contains key) fields key value
  by_cases declared : key ∈ names
  · rw [if_pos declared]
    exact restricted.trans (if_neg (by simp [declared]))
  · rw [if_neg declared]
    exact restricted.trans (if_pos (by simp [declared]))

namespace Category

/-- An object holds the declared fields of a category. -/
structure HeldBy (category : Category) (fields : Fields) : Prop where
  id : fields.get? "id" = some (.int category.id)
  name : Field.value fields "name" = Field.ofText? category.name
  caption : Field.value fields "caption" = Field.ofText? category.caption
  description : Field.value fields "description" = Field.ofText? category.description
  range : Field.value fields "class_id_range" = category.classIdRange

/-- A category is read from an object that holds it, with all else kept beside. -/
theorem HeldBy.validate_eq_valid {category : Category} {fields : Fields}
    (held : category.HeldBy fields)
    (characters : ∀ key ∈ (Field.undeclared fields declared).keys, key.hasHalf = false) :
    Record.validate fields =
      .valid { category with extra := Field.undeclared fields declared } := by
  have id : Field.required fields "id" Field.integer = .valid category.id := by
    rw [Field.required_eq_valid_iff]
    exact ⟨_, held.id, rfl⟩
  have range : Field.withDefault fields "class_id_range" .null Field.anything =
      .valid category.classIdRange := by
    rw [Field.withDefault_eq_valid_iff, ← held.range, Field.value]
    cases found : fields.get? "class_id_range" with
    | none => exact Or.inl ⟨rfl, rfl⟩
    | some value => exact Or.inr ⟨value, rfl, rfl⟩
  refine Field.keeping_eq_valid_iff.mpr ⟨characters, ?_⟩
  simp only [id, Field.optional_text_eq_valid held.name,
    Field.optional_text_eq_valid held.caption, Field.optional_text_eq_valid held.description,
    range, Validated.map_valid, Validated.seq_valid, Validated.pure_eq_valid]

/-- The fields of a category, however they go on, hold it. -/
theorem heldBy_append (category : Category) (more : Fields) :
    category.HeldBy (category.declaredFields ++ more) :=
  ⟨rfl, rfl, rfl, rfl, rfl⟩

/-- A further field is no declared one. -/
theorem HeldBy.insert {category : Category} {fields : Fields} (held : category.HeldBy fields)
    {key : Text} (other : key ∉ declared) (value : Json) :
    category.HeldBy (OrderedMap.insert fields key value) := by
  have keeps : ∀ name ∈ declared,
      OrderedMap.get? (OrderedMap.insert fields key value) name = fields.get? name := by
    intro name own
    exact OrderedMap.get?_insert_of_ne fields value fun same => other (same ▸ own)
  constructor
  case id =>
    rw [keeps "id" (by decide)]
    exact held.id
  case name =>
    rw [Field.value, keeps "name" (by decide)]
    exact held.name
  case caption =>
    rw [Field.value, keeps "caption" (by decide)]
    exact held.caption
  case description =>
    rw [Field.value, keeps "description" (by decide)]
    exact held.description
  case range =>
    rw [Field.value, keeps "class_id_range" (by decide)]
    exact held.range

/-- Beside the declared fields a category is written with what it keeps. -/
theorem undeclared_toFields (category : Category) {names : List Text}
    (within : ∀ key ∈ declared, key ∈ names) :
    Field.undeclared (Record.toFields .full category) names =
      Field.undeclared category.extra names := by
  have own : Field.undeclared category.declaredFields names = [] := by
    apply List.filter_eq_nil_iff.mpr
    intro entry member
    have known : entry.1 ∈ names := within _ (List.mem_map_of_mem (f := Prod.fst) member)
    rw [List.contains_iff_mem.2 known]
    decide
  change Field.undeclared (category.declaredFields ++ category.extra) names = _
  unfold Field.undeclared at own ⊢
  rw [List.filter_append, own, List.nil_append]

end Category

namespace CategoryListing

/-- A category without an undeclared field named `classes`, and some classes. -/
def ofMembers (category : Category) (classes : List ClassDescriptor) : CategoryListing where
  category := { category with extra := category.extra.erase "classes" }
  classes := classes

/-- Without its classes a listing is written like the category. -/
theorem erase_toFields_ofMembers (category : Category) (classes : List ClassDescriptor) :
    OrderedMap.erase (Record.toFields .full (ofMembers category classes)) "classes" =
      OrderedMap.erase (Record.toFields .full category) "classes" := by
  have own : OrderedMap.erase category.declaredFields "classes" = category.declaredFields := rfl
  have again : OrderedMap.erase (OrderedMap.erase category.extra "classes") "classes" =
      OrderedMap.erase category.extra "classes" := by
    simp only [OrderedMap.erase, List.filter_filter, Bool.and_self]
  let members : Fields := [("classes", .arr (classes.map (Record.toJson .full)))]
  have none : OrderedMap.erase members "classes" = [] := rfl
  change OrderedMap.erase (category.declaredFields ++ members ++
    OrderedMap.erase category.extra "classes") "classes" =
      OrderedMap.erase (category.declaredFields ++ category.extra) "classes"
  unfold OrderedMap.erase at own again none ⊢
  rw [List.filter_append, List.filter_append, List.filter_append, own, again, none,
    List.append_nil]

variable {category : Category} {classes : List ClassDescriptor}

/-- The fields from which a category is read together with its classes. -/
def sourceFields (category : Category) (classes : List ClassDescriptor) : Fields :=
  OrderedMap.insert (Record.toFields .full category) "classes"
    (.arr (classes.map (Record.toJson .full)))

/-- The classes take the place of an undeclared field of their name. -/
theorem undeclared_sourceFields
    (undeclared : ∀ key ∈ category.extra.keys, key ∉ Category.declared) :
    Field.undeclared (sourceFields category classes) ("classes" :: Category.declared) =
      category.extra.erase "classes" := by
  have kept : Field.undeclared category.extra ("classes" :: Category.declared) =
      category.extra.erase "classes" := by
    apply List.filter_congr
    intro entry member
    have other := undeclared entry.1 (OrderedMap.mem_keys_of_mem member)
    simp [other]
  rw [sourceFields, Field.undeclared_insert, if_pos List.mem_cons_self,
    category.undeclared_toFields fun _ member => List.mem_cons_of_mem _ member, kept]

/-- Read as a category alone, the fields have names of characters throughout. -/
theorem characters_sourceFields (characters : ∀ key ∈ category.extra.keys, key.hasHalf = false) :
    ∀ key ∈ (Field.undeclared (sourceFields category classes) Category.declared).keys,
      key.hasHalf = false := by
  have restricted : Field.undeclared (sourceFields category classes) Category.declared =
      OrderedMap.insert (Field.undeclared category.extra Category.declared) "classes"
        (.arr (classes.map (Record.toJson .full))) := by
    rw [sourceFields, Field.undeclared_insert, if_neg (by decide),
      category.undeclared_toFields fun _ member => member]
  intro key member
  rw [restricted, OrderedMap.mem_keys_insert] at member
  rcases member with rfl | kept
  · decide
  · exact characters key (OrderedMap.mem_keys_of_mem_filter kept)

/-- A category and well-formed classes are read as a listing. -/
theorem validate_sourceFields
    (undeclared : ∀ key ∈ category.extra.keys, key ∉ Category.declared)
    (characters : ∀ key ∈ category.extra.keys, key.hasHalf = false)
    (wellFormed : ∀ cls ∈ classes, cls.WellFormed) :
    Record.validate (sourceFields category classes) = .valid (ofMembers category classes) := by
  have held : category.HeldBy (sourceFields category classes) :=
    (category.heldBy_append category.extra).insert (by decide) _
  have members : Field.withDefault (sourceFields category classes) "classes" []
      (Field.listOf Record.ofJson) = .valid classes := by
    rw [Field.withDefault_eq_valid_iff]
    refine Or.inr ⟨_, OrderedMap.get?_insert_self _ _ _, ?_⟩
    exact Field.listOf_eq_valid fun cls member => (wellFormed cls member).ofJson_toJson
  refine Field.keeping_eq_valid_iff.mpr ⟨?_, ?_⟩
  · rw [undeclared_sourceFields undeclared]
    exact fun key member => characters key (OrderedMap.mem_keys_of_mem_filter member)
  · simp only [held.validate_eq_valid (characters_sourceFields characters), members,
      undeclared_sourceFields undeclared, Validated.map_valid, Validated.seq_valid]
    rfl

end CategoryListing

end EventSchema
