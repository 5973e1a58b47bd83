import EventSchema.Record.Validation

namespace EventSchema

/-!
# Version, categories and dictionary

The three records that a schema has once.  All of them keep the fields they do
not declare.  Categories and dictionary are registers: a heading and a map of
named entries, which are categories in one case and attribute definitions of
any shape in the other.
-/

/-- The version of a schema. -/
structure SchemaVersion where
  version : Text
  extra : Fields
  deriving DecidableEq

instance : Record SchemaVersion where
  title := "SchemaVersion"
  validate fields :=
    Field.keeping fields ["version"] fun extra =>
      SchemaVersion.mk <$> Field.required fields "version" Field.text
        <*> pure extra
  toFields form record :=
    form.finish (("version", Json.str record.version) :: record.extra)
  layout := .record (Json.Layout.fixedFields ["version"])

/-- A category of event classes.  The range of class identifiers is data. -/
structure Category where
  id : Int
  name : Option Text
  caption : Option Text
  description : Option Text
  classIdRange : Json
  extra : Fields
  deriving DecidableEq

namespace Category

/-- The names of the declared fields. -/
def declared : List Text :=
  ["id", "name", "caption", "description", "class_id_range"]

/-- The declared fields in order. -/
def declaredFields (category : Category) : Fields :=
  [("id", .int category.id), ("name", Field.ofText? category.name),
   ("caption", Field.ofText? category.caption),
   ("description", Field.ofText? category.description),
   ("class_id_range", category.classIdRange)]

/-- What is declared about the declared fields. -/
def declaredLayout : List (Text × Json.Layout) :=
  ("class_id_range", .anything) :: Json.Layout.fixedFields declared

end Category

instance : Record Category where
  title := "Category"
  validate fields :=
    Field.keeping fields Category.declared fun extra =>
      Category.mk <$> Field.required fields "id" Field.integer
        <*> Field.optional fields "name" Field.text
        <*> Field.optional fields "caption" Field.text
        <*> Field.optional fields "description" Field.text
        <*> Field.withDefault fields "class_id_range" .null Field.anything
        <*> pure extra
  toFields form record :=
    form.finish (record.declaredFields ++ record.extra)
  layout := .record Category.declaredLayout

/-- A heading and named entries, each name once. -/
structure Register (α : Type) where
  name : Option Text
  caption : Option Text
  description : Option Text
  entries : OrderedMap Text α
  extra : Fields
  distinct : entries.Distinct := by decide
  deriving DecidableEq

namespace Register

variable {α : Type}

/-- The names of the declared fields. -/
def declared : List Text :=
  ["name", "caption", "description", "attributes"]

/-- The register of entries that are assigned one after another. -/
def ofEntries (name caption description : Option Text) (entries : List (Text × α))
    (extra : Fields) : Register α :=
  { name, caption, description, entries := OrderedMap.ofEntries entries, extra
    distinct := OrderedMap.distinct_ofEntries entries }

/-- Read a register whose entries are read by the given function. -/
def validate (read : Json -> Validated α) (fields : Fields) : Validated (Register α) :=
  Field.keeping fields declared fun extra =>
    Register.ofEntries <$> Field.optional fields "name" Field.text
      <*> Field.optional fields "caption" Field.text
      <*> Field.optional fields "description" Field.text
      <*> Field.withDefault fields "attributes" [] (Field.mapOf read)
      <*> pure extra

/-- The declared fields in order, with entries written by the given function. -/
def declaredFields (entry : α -> Fields) (register : Register α) : Fields :=
  [("name", Field.ofText? register.name), ("caption", Field.ofText? register.caption),
   ("description", Field.ofText? register.description),
   ("attributes", .obj (register.entries.mapValues fun _ value => .obj (entry value)))]

/-- Write a register whose entries are written by the given function. -/
def toFields (entry : α -> Fields) (form : Form) (register : Register α) : Fields :=
  form.finish (register.declaredFields entry ++ register.extra)

/-- The layout of a register whose entries have the given layout. -/
def layout (entry : Json.Layout) : Json.Layout :=
  .record (("attributes", .map entry) :: Json.Layout.fixedFields declared)

end Register

/-- The categories of a schema. -/
abbrev Categories := Register Category

/-- The attribute dictionary of a schema. -/
abbrev Dictionary := Register Fields

instance : Record Categories where
  title := "Categories"
  validate := Register.validate Record.ofJson
  toFields form := Register.toFields (Record.toFields form) form
  layout := Register.layout (Record.layout Category)

instance : Record Dictionary where
  title := "Dictionary"
  validate := Register.validate Field.map
  toFields form := Register.toFields id form
  layout := Register.layout (.map .anything)

end EventSchema
