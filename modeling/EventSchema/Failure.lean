import EventSchema.Json.Display
import EventSchema.Json.Reader
import EventSchema.Record.Validation
import EventSchema.Source.Fault

namespace EventSchema

/-!
# Failures

Why no schema results.  The first six causes are faults of the schema itself:
the tree of descriptors is structurally invalid.  The others come from data
whose shape no earlier stage checks, and are told apart by what was found in a
place that needs something else.
-/

/-- The two kinds of descriptors that extend one another. -/
inductive DescriptorKind where
  | eventClass
  | object
  deriving DecidableEq, Repr

def DescriptorKind.label : DescriptorKind -> Text
  | .eventClass => "class"
  | .object => "object"

/-- Why a file or a descriptor cannot be decoded. -/
inductive DecodeReason where
  | unreadable (fault : AccessFault)
  | malformed (found : Json.Malformation)
  | notObject
  | untyped
  | badInclude (value : Json)
  | violates (found : Violations)
  deriving DecidableEq

def DecodeReason.message : DecodeReason -> Text
  | .unreadable fault => fault.message
  | .malformed found => found.message
  | .notObject => "expected a JSON object"
  | .untyped => "missing or invalid 'type' field"
  | .badInclude value => "invalid $include value: " ++ value.shown
  | .violates found => found.message

/-- Data of an unexpected shape in a place that is not validated. -/
inductive ShapeFault where
  /-- A layer to be merged is no object. -/
  | layer
  /-- The enumeration of dispositions is given and no object. -/
  | dispositions
  /-- A numbered disposition is no object. -/
  | disposition
  /-- An attribute to be credited is no object. -/
  | attribute
  /-- An attribute's object type is a list or an object. -/
  | objectType
  /-- A value whose items are asked for has none. -/
  | items
  deriving DecidableEq, Repr

def ShapeFault.message : ShapeFault -> Text
  | .layer => "only objects can be merged"
  | .dispositions => "the dispositions are no object"
  | .disposition => "a disposition is no object"
  | .attribute => "an attribute is no object"
  | .objectType => "an object type is no name"
  | .items => "a value has no items"

/-- Why loading a schema fails. -/
inductive Failure where
  | undecodable (source : Text) (reason : DecodeReason)
  | inaccessible (folder : Path) (faults : List AccessFault)
  | missingInclude (owner : Text) (path : Path)
  | undefinedParent (kind : DescriptorKind) (name parent : Text)
  | cyclicParents (kind : DescriptorKind) (chain : List Text)
  | unknownCategory (name : Text) (category : Option Text)
  | invalidRecord (found : Violations)
  | unexpectedShape (fault : ShapeFault)
  | oversizeInteger
  | unreachable (fault : AccessFault)
  /-- A record cannot be shown in standard JSON. -/
  | unshowable (fault : Json.StandardFault)
  deriving DecidableEq

namespace Failure

/-- Whether the schema itself is at fault. -/
def isSchemaFault : Failure -> Bool
  | undecodable .. | inaccessible .. | missingInclude .. => true
  | undefinedParent .. | cyclicParents .. | unknownCategory .. => true
  | _ => false

def message : Failure -> Text
  | undecodable source reason => "invalid descriptor " ++ source ++ ": " ++ reason.message
  | inaccessible folder faults =>
      "unable to access " ++ folder.text ++ " directory: " ++
        List.intercalate "; " (faults.map AccessFault.message)
  | missingInclude owner path => owner ++ " includes missing file: " ++ path.text
  | undefinedParent kind name parent =>
      kind.label ++ " " ++ name ++ " extends undefined " ++ kind.label ++ ": " ++ parent
  | cyclicParents kind chain =>
      "cyclic " ++ kind.label ++ " extends chain: " ++ List.intercalate " -> " chain
  | unknownCategory name category =>
      name ++ " has invalid category: " ++ category.getD "None"
  | invalidRecord found => found.message
  | unexpectedShape fault => fault.message
  | oversizeInteger =>
      s!"an integer has more than {Numeral.digitLimit} digits"
  | unreachable fault => fault.message
  | unshowable fault => fault.message

end Failure
end EventSchema
