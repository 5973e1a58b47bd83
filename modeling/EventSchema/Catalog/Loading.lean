import EventSchema.BackReferences
import EventSchema.Catalog.Basic
import EventSchema.Inclusion
import EventSchema.Inheritance
import EventSchema.SeeAlso

namespace EventSchema
namespace Catalog

/-!
# Loading a catalog

Every raw descriptor is expanded, read as a record and credited with its
attributes.  Classes are then linked to related ones, flattened and given
their identifiers; objects are flattened and rid of templates.  At last the
dictionary and the objects learn who uses them.

The first failure ends loading, and no partial catalog results.
-/

/-- Expand a raw descriptor and read it; every attribute that names no source is
credited to the descriptor. -/
def readDescriptor {δ : Type} [Details δ] (tree : SchemaTree) (name : Text)
    (fields : Fields) : Session (Descriptor δ) := do
  let expanded ← Session.expand tree name fields
  let descriptor ← (SchemaTree.decode (Descriptor δ) name (.obj expanded))
  pure { descriptor with attributes := descriptor.attributes.creditTo name }

/-- Read all raw descriptors of one kind. -/
def readDescriptors {δ : Type} [Details δ] (tree : SchemaTree) (declared : Declarations) :
    Session (OrderedMap Text (Descriptor δ)) :=
  declared.mapM fun entry => do
    let descriptor ← readDescriptor tree entry.1 entry.2
    pure (entry.1, descriptor)

/-- Flatten and identify classes whose relations are linked. -/
def resolveClasses (categories : Categories) (linked : OrderedMap Text ClassDescriptor) :
    Report (OrderedMap Text ClassDescriptor) := do
  let flattened ← Inheritance.flatten .eventClass linked
  Identifiers.identifyAll categories.entries flattened

/-- The sizes of a catalog in words. -/
def summary (catalog : Catalog) : String :=
  s!"{catalog.categories.entries.length} categories, {catalog.classes.length} classes, " ++
    s!"{catalog.objects.length} objects, " ++
    s!"{catalog.dictionary.entries.length} dictionary attributes"

/-- Join the parts of a catalog: the dictionary and the objects learn who uses
them. -/
def joinParts (version : SchemaVersion) (categories : Categories) (dictionary : Dictionary)
    (common : Option ClassDescriptor) (classes : OrderedMap Text ClassDescriptor)
    (objects : OrderedMap Text ObjectDescriptor) : Report Catalog := do
  let dictionary ← BackReferences.updateDictionary dictionary common classes objects
  let objects ← BackReferences.updateObjects dictionary objects
  pure { version, dictionary, categories, common, classes, objects }

/-- Load a catalog, remembering the fragments read on the way. -/
def loadWith (tree : SchemaTree) : Session Catalog := do
  Report.note .info ("loading schema: " ++ tree.home.text)
  let version ← tree.version
  Report.note .info ("schema version: " ++ version.version)
  let categories ← tree.categories
  let dictionary ← tree.dictionary
  let declared ← tree.classDeclarations
  let classes ← readDescriptors tree declared
  let linked ← SeeAlso.link classes
  let common := linked.get? Identifiers.baseEvent
  let classes ← resolveClasses categories linked
  let declared ← tree.objectDeclarations
  let objects ← readDescriptors tree declared
  let objects ← Inheritance.flattenObjects objects
  let catalog ← joinParts version categories dictionary common classes objects
  Report.note .info ("schema loaded: " ++ catalog.summary)
  pure catalog

/-- Load the catalog of a schema. -/
def load (tree : SchemaTree) : Report Catalog :=
  (loadWith tree []).1

end Catalog
end EventSchema
