import EventSchema.Identifiers
import EventSchema.Sorting

namespace EventSchema
namespace BackReferences

/-!
# Back references

Each attribute of the dictionary learns which descriptors use it, and each
object learns which descriptors reach it through an attribute of its type.  An
attribute that is used but not defined appears in the dictionary with its links
alone.

Links are listed by group and type, each once.
-/

/-- The key under which an attribute lists its links. -/
def linksKey : Text := "_links"

/-- The groups of descriptors. -/
def commonGroup : Text := "common"
def classGroup : Text := "class"
def objectGroup : Text := "object"

/-- The link to a descriptor. -/
def linkTo {δ : Type} (group name : Text) (descriptor : Descriptor δ) : Link where
  group := group
  type := name
  caption := some descriptor.displayName

/-- Each use of an attribute by a descriptor of a group: the attribute and the
link to its user, in order. -/
def uses {δ : Type} (group : Text) (descriptors : OrderedMap Text (Descriptor δ)) :
    List (Text × Link) :=
  descriptors.flatMap fun entry =>
    entry.2.attributes.keys.map fun name => (name, linkTo group entry.1 entry.2)

/-- All uses of attributes: by the common set, by classes and by objects. -/
def allUses (common : Option ClassDescriptor) (classes : OrderedMap Text ClassDescriptor)
    (objects : OrderedMap Text ObjectDescriptor) : List (Text × Link) :=
  uses commonGroup (common.toList.map fun shared => (Identifiers.baseEvent, shared)) ++
    uses classGroup classes ++ uses objectGroup objects

/-- Add links to those listed under a name. -/
def append (index : OrderedMap Text (List Link)) (name : Text) (links : List Link) :
    OrderedMap Text (List Link) :=
  index.insert name ((index.get? name).getD [] ++ links)

/-- The users of each attribute, attributes in the order of their first use. -/
def collect (common : Option ClassDescriptor) (classes : OrderedMap Text ClassDescriptor)
    (objects : OrderedMap Text ObjectDescriptor) : OrderedMap Text (List Link) :=
  (allUses common classes objects).foldl (fun index use => append index use.1 [use.2]) []

/-- The order of links: by group, then by type. -/
def precedes (left right : Link) : Bool :=
  if left.group = right.group then left.type.le right.type else left.group.le right.group

/-- Links in order, each once.

The links are a set, and the order leaves it open how those stand that differ in
the caption alone.  Here they stand as they come first in the list, which is one
of the orders that the set may have.  Only links that an unused attribute brings
with it can differ so, and where none do, every order of the set is arranged
alike (`nodup_target_iff` and `forall_sort_eq_iff` in the theory of ties).  Two
loads of the same schema arrange the same lists, so that they agree for every
fixed order of the set and not for this one alone. -/
def arrange (links : List Link) : List Link :=
  Sorting.sort precedes links.eraseDups

/-- Links as a value. -/
def linksJson (links : List Link) : Json :=
  .arr ((arrange links).map (Record.toJson .full))

/-- Write the links of an attribute into the dictionary. -/
def record (entries : OrderedMap Text Fields) (name : Text) (links : List Link) :
    OrderedMap Text Fields :=
  entries.insert name (OrderedMap.insert ((entries.get? name).getD []) linksKey (linksJson links))

theorem distinct_record {entries : OrderedMap Text Fields} (distinct : entries.Distinct)
    (name : Text) (links : List Link) : (record entries name links).Distinct :=
  distinct.insert _ _

/-- Write the links of all attributes into the dictionary. -/
def recordAll (dictionary : Dictionary) (index : OrderedMap Text (List Link)) : Dictionary :=
  { dictionary with
    entries := index.foldl (fun entries found => record entries found.1 found.2)
      dictionary.entries
    distinct := List.foldlRecOn (motive := OrderedMap.Distinct) index
      (fun entries found => record entries found.1 found.2) dictionary.distinct
      fun _ distinct found _ => distinct_record distinct found.1 found.2 }

/-- Tell the dictionary who uses its attributes. -/
def updateDictionary (dictionary : Dictionary) (common : Option ClassDescriptor)
    (classes : OrderedMap Text ClassDescriptor) (objects : OrderedMap Text ObjectDescriptor) :
    Report Dictionary := do
  let index := collect common classes objects
  Report.notes .warning
    ((index.keys.filter fun name => !dictionary.entries.contains name).map fun name =>
      "undefined attribute: " ++ name)
  pure (recordAll dictionary index)

/-- Read the links of an attribute back. -/
def readLinks (definition : Fields) : Except Failure (List Link) :=
  match ((definition.get? linksKey).getD (.arr [])).items? with
  | none => .error (.unexpectedShape .items)
  | some items => items.mapM fun item => (Record.check Link item).mapError .invalidRecord

/-- Pass the links of an attribute on to the object of its type, if there is
one. -/
def refer {δ : Type} (objects : OrderedMap Text δ)
    (referrers : OrderedMap Text (List Link)) (definition : Fields) :
    Except Failure (OrderedMap Text (List Link)) :=
  match definition.get? "object_type" with
  | some (.str name) =>
      if objects.contains name then do
        let links ← readLinks definition
        pure (append referrers name links)
      else pure referrers
  | some (.arr _) => .error (.unexpectedShape .objectType)
  | some (.obj _) => .error (.unexpectedShape .objectType)
  | _ => pure referrers

/-- The descriptors that reach each object through some attribute. -/
def referrers {δ : Type} (dictionary : Dictionary) (objects : OrderedMap Text δ) :
    Except Failure (OrderedMap Text (List Link)) :=
  dictionary.entries.values.foldlM (refer objects) []

/-- Tell the objects who reaches them. -/
def updateObjects (dictionary : Dictionary) (objects : OrderedMap Text ObjectDescriptor) :
    Except Failure (OrderedMap Text ObjectDescriptor) := do
  let found ← referrers dictionary objects
  pure (objects.mapValues fun name object =>
    match found.get? name with
    | none => object
    | some links => { object with details := ⟨some (arrange links)⟩ })

end BackReferences
end EventSchema
