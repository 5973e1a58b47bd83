import EventSchema.Identifiers
import EventSchema.Json.Merge

namespace EventSchema

/-!
# Catalogs

A catalog is a resolved schema.  It answers queries for the whole schema and
for single entries.  A class or an object that is asked for by itself is
enriched: each of its attributes is laid over the dictionary's definition of
that attribute, so the descriptor's own fields win.
-/

/-- A resolved schema.  `common` is the set of attributes that all classes
share. -/
structure Catalog where
  version : SchemaVersion
  dictionary : Dictionary
  categories : Categories
  common : Option ClassDescriptor
  classes : OrderedMap Text ClassDescriptor
  objects : OrderedMap Text ObjectDescriptor
  deriving DecidableEq

namespace Catalog

/-- An attribute laid over its definition, if it has one. -/
def enrichAttribute (dictionary : Dictionary) (name : Text) (definition : Fields) : Fields :=
  match dictionary.entries.get? name with
  | none => definition
  | some base => Fields.merge base definition

/-- A descriptor whose attributes are laid over their definitions. -/
def enrich {δ : Type} (dictionary : Dictionary) (descriptor : Descriptor δ) : Descriptor δ :=
  { descriptor with
    attributes := descriptor.attributes.mapValues (enrichAttribute dictionary) }

/-- The attributes of a descriptor that the dictionary does not define. -/
def undefinedAttributes {δ : Type} (dictionary : Dictionary) (descriptor : Descriptor δ) :
    List Text :=
  descriptor.attributes.keys.filter fun name => !dictionary.entries.contains name

/-- The enriched form of an entry, if there is one.  Attributes without a
definition are warned of. -/
def enrichFound {δ : Type} (dictionary : Dictionary) :
    Option (Descriptor δ) -> Report (Option (Descriptor δ))
  | none => pure none
  | some descriptor => do
      Report.notes .warning ((undefinedAttributes dictionary descriptor).map fun name =>
        "undefined attribute: " ++ name)
      pure (some (enrich dictionary descriptor))

/-- Enriching keeps the attributes and their order. -/
@[simp] theorem keys_enrich {δ : Type} (dictionary : Dictionary) (descriptor : Descriptor δ) :
    (enrich dictionary descriptor).attributes.keys = descriptor.attributes.keys :=
  OrderedMap.keys_mapValues _ _

/-- Nothing is enriched where nothing is found, and warnings change no
outcome. -/
@[simp] theorem outcome_enrichFound {δ : Type} (dictionary : Dictionary)
    (found : Option (Descriptor δ)) :
    (enrichFound dictionary found).outcome = .ok (found.map (enrich dictionary)) := by
  cases found with
  | none => rfl
  | some descriptor => rfl

variable (catalog : Catalog)

/-- The class of a name as it is listed; the name of the base event stands for
the common set. -/
def class? (name : Text) : Option ClassDescriptor :=
  if name = Identifiers.baseEvent then catalog.common else catalog.classes.get? name

/-- The first class that has a number, or the first that has none. -/
def classNumbered? (uid : Option Int) : Option ClassDescriptor :=
  catalog.classes.values.find? fun cls => cls.details.uid = uid

/-- The object of a name as it is listed. -/
def object? (name : Text) : Option ObjectDescriptor :=
  catalog.objects.get? name

/-- The classes that belong to a category, in the order of the catalog. -/
def members (category : Text) : List ClassDescriptor :=
  catalog.classes.values.filter fun cls => cls.details.category = some category

theorem mem_members (category : Text) (cls : ClassDescriptor) :
    cls ∈ catalog.members category ↔
      cls ∈ catalog.classes.values ∧ cls.details.category = some category := by
  simp [members]

/-- A category with the classes that belong to it. -/
def category? (name : Text) : Option CategoryListing :=
  (catalog.categories.entries.get? name).map fun category =>
    { category := { category with extra := category.extra.erase "classes" }
      classes := catalog.members name }

/-- The enriched class of a name. -/
def findClass (name : Text) : Report (Option ClassDescriptor) :=
  enrichFound catalog.dictionary (catalog.class? name)

/-- The enriched class that has a number, or that has none. -/
def findClassNumbered (uid : Option Int) : Report (Option ClassDescriptor) :=
  enrichFound catalog.dictionary (catalog.classNumbered? uid)

/-- The enriched object of a name. -/
def findObject (name : Text) : Report (Option ObjectDescriptor) :=
  enrichFound catalog.dictionary (catalog.object? name)

end Catalog
end EventSchema
