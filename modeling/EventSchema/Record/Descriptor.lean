import EventSchema.Record.Link
import EventSchema.Record.Register

namespace EventSchema

/-!
# Descriptors

A descriptor declares an event class or an object.  All kinds share a type, a
heading, an optional parent and a map of attributes, whose definitions are
open objects.  What is particular to one kind is its `details`: a class has a
number, a category and related classes, an object the back references to it.
Fields that no kind declares are kept as data.
-/

/-- The attributes of a descriptor by name. -/
abbrev Attributes := OrderedMap Text Fields

/-- A descriptor with the details of its kind. -/
structure Descriptor (δ : Type) where
  type : Text
  name : Option Text
  caption : Option Text
  description : Option Text
  parent : Option Text
  attributes : Attributes
  details : δ
  extra : Fields
  deriving DecidableEq

/-- The fields that only one kind of descriptor declares, and how they are read and
written. -/
class Details (δ : Type) where
  title : Text
  declared : List Text
  validate : Fields -> Validated δ
  toFields : Form -> δ -> Fields

/-- A descriptor of no particular kind has no details. -/
structure NoDetails where
  deriving DecidableEq

instance : Details NoDetails where
  title := "Descriptor"
  declared := []
  validate _ := .valid ⟨⟩
  toFields _ _ := []

/-- The details of an event class. -/
structure ClassDetails where
  uid : Option Int
  category : Option Text
  seeAlso : Option (List Related)
  deriving DecidableEq

instance : Details ClassDetails where
  title := "ClassDescriptor"
  declared := ["uid", "category", "see_also"]
  validate fields :=
    ClassDetails.mk <$> Field.optional fields "uid" Field.integer
      <*> Field.optional fields "category" Field.text
      <*> Field.optional fields "see_also" (Field.listOf Related.ofJson)
  toFields form details :=
    [("uid", Field.ofInt? details.uid), ("category", Field.ofText? details.category),
     ("see_also", details.seeAlso.elim .null fun entries =>
       .arr (entries.map (Related.toJson form)))]

/-- The details of an object. -/
structure ObjectDetails where
  links : Option (List Link)
  deriving DecidableEq

instance : Details ObjectDetails where
  title := "ObjectDescriptor"
  declared := ["links"]
  validate fields :=
    ObjectDetails.mk <$> Field.optional fields "links" (Field.listOf Record.ofJson)
  toFields form details :=
    [("links", details.links.elim .null fun links =>
      .arr (links.map (Record.toJson form)))]

/-- An event class. -/
abbrev ClassDescriptor := Descriptor ClassDetails

/-- An object. -/
abbrev ObjectDescriptor := Descriptor ObjectDetails

namespace Descriptor

variable {δ : Type}

/-- The names of the fields that all descriptors declare. -/
def sharedKeys : List Text :=
  ["type", "name", "caption", "description", "extends", "attributes"]

/-- A map of attributes as a value. -/
def attributesJson (attributes : Attributes) : Json :=
  .obj (attributes.mapValues fun _ definition => .obj definition)

/-- The fields that all descriptors declare, in order. -/
def sharedFields (descriptor : Descriptor δ) : Fields :=
  [("type", .str descriptor.type), ("name", Field.ofText? descriptor.name),
   ("caption", Field.ofText? descriptor.caption),
   ("description", Field.ofText? descriptor.description),
   ("extends", Field.ofText? descriptor.parent),
   ("attributes", attributesJson descriptor.attributes)]

instance [Details δ] : Record (Descriptor δ) where
  title := Details.title δ
  validate fields :=
    Field.keeping fields (sharedKeys ++ Details.declared δ) fun extra =>
      Descriptor.mk <$> Field.required fields "type" Field.text
        <*> Field.optional fields "name" Field.text
        <*> Field.optional fields "caption" Field.text
        <*> Field.optional fields "description" Field.text
        <*> Field.optional fields "extends" Field.text
        <*> Field.withDefault fields "attributes" [] (Field.mapOf Field.map)
        <*> Details.validate fields
        <*> pure extra
  toFields form record :=
    form.finish (record.sharedFields ++ Details.toFields form record.details ++ record.extra)
  layout :=
    .record (("attributes", .map (.map .anything)) ::
      Json.Layout.fixedFields (sharedKeys ++ Details.declared δ))

/-- The name under which a descriptor is shown: its name, else its caption.
Empty ones do not count. -/
def displayName (descriptor : Descriptor δ) : Text :=
  (([descriptor.name, descriptor.caption].filterMap id).find? fun name => !name.isEmpty).getD
    "UNKNOWN"

end Descriptor

/-- A category together with the classes that belong to it. -/
structure CategoryListing where
  category : Category
  classes : List ClassDescriptor
  deriving DecidableEq

instance : Record CategoryListing where
  title := "CategoryWithClasses"
  validate fields :=
    Field.keeping fields ("classes" :: Category.declared) fun extra =>
      (fun (category : Category) classes => CategoryListing.mk { category with extra } classes)
        <$> Record.validate fields
        <*> Field.withDefault fields "classes" [] (Field.listOf Record.ofJson)
  toFields form record :=
    let classes : Fields := [("classes", .arr (record.classes.map (Record.toJson form)))]
    form.finish (record.category.declaredFields ++ classes ++ record.category.extra)
  layout :=
    .record (("classes", .list (Record.layout ClassDescriptor)) :: Category.declaredLayout)

end EventSchema
