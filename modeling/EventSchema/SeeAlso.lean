import EventSchema.Record.Descriptor
import EventSchema.Report

namespace EventSchema
namespace SeeAlso

/-!
# Related classes

A class lists related classes by name.  Each name of a class, abstract classes
included, becomes a reference with that class's name as its caption; names of
no class are dropped, and references stay as they are.  A class left with no
related class has no such field.
-/

/-- The reference that an entry stands for, if there is one. -/
def resolve? (classes : OrderedMap Text ClassDescriptor) : Related -> Option ClassReference
  | .link reference => some reference
  | .name name => (classes.get? name).map fun target => ⟨name, target.name⟩

/-- The names in a list of entries that are no class. -/
def dropped (classes : OrderedMap Text ClassDescriptor) (entries : List Related) :
    List Text :=
  entries.filterMap fun
    | .link _ => none
    | .name name => if classes.contains name then none else some name

/-- The references that a list of entries stands for; nothing if there is none. -/
def resolveAll (classes : OrderedMap Text ClassDescriptor) (entries : List Related) :
    Option (List Related) :=
  match entries.filterMap (resolve? classes) with
  | [] => none
  | references => some (references.map .link)

/-- A class with its related classes resolved. -/
def linkOne (classes : OrderedMap Text ClassDescriptor) (cls : ClassDescriptor) :
    ClassDescriptor :=
  { cls with
    details := { cls.details with
      seeAlso := cls.details.seeAlso.bind (resolveAll classes) } }

/-- Resolve the related classes of all classes. -/
def link (classes : OrderedMap Text ClassDescriptor) :
    Report (OrderedMap Text ClassDescriptor) := do
  Report.notes .debug ((classes.values.flatMap fun cls =>
    dropped classes (cls.details.seeAlso.getD [])).map fun name =>
      "dropping unresolved see_also reference: " ++ name)
  pure (classes.mapValues fun _ cls => linkOne classes cls)

end SeeAlso
end EventSchema
