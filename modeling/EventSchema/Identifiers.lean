import EventSchema.Number.Numeral
import EventSchema.Record.Descriptor
import EventSchema.Report

namespace EventSchema

/-!
# Identifiers of event classes

Only classes with a number survive; the others exist to be extended.  Each
surviving class receives three enumerations, whatever its ancestors say:

* `class_id` holds its own number,
* `category_id` holds the number of its category,
* `event_uid` holds one code for each disposition, a thousand times the number
  of the class plus that of the disposition, and the two codes for `Other` and
  `Unknown`.

Every attribute is credited to the descriptor that declares it.
-/

namespace Attributes

/-- The key under which an attribute names the descriptor it comes from. -/
def sourceKey : Text := "_source"

/-- Credit every attribute that names no source to a descriptor. -/
def creditTo (owner : Text) (attributes : Attributes) : Attributes :=
  attributes.mapValues fun _ definition =>
    if OrderedMap.contains definition sourceKey then definition
    else OrderedMap.insert definition sourceKey (.str owner)

/-- Whether a value names a source: an object by a key, a list by an item and a
text by any part of it.  Other values cannot be asked. -/
def namesSource? : Json -> Option Bool
  | .obj fields => some (OrderedMap.contains fields sourceKey)
  | .arr items => some (items.contains (.str sourceKey))
  | .str text => some (sourceKey.isPartOf text)
  | _ => none

/-- Credit an attribute of any shape.  Whatever names a source is kept, and only
an object can be credited. -/
def creditValue (owner definition : Json) : Except Failure Json :=
  match namesSource? definition, definition with
  | some true, _ => .ok definition
  | _, .obj fields => .ok (.obj (OrderedMap.insert fields sourceKey owner))
  | _, _ => .error (.unexpectedShape .attribute)

/-- Credit attributes of any shape to an owner. -/
def creditValues (owner : Json) (attributes : Fields) : Except Failure Fields :=
  attributes.mapM fun entry => (creditValue owner entry.2).map fun credited => (entry.1, credited)

end Attributes

namespace Identifiers

/-- The name of the set of attributes that all classes share. -/
def baseEvent : Text := "base_event"

/-- The distance between the codes of two classes. -/
def codesPerClass : Int := 1000

/-- The disposition of an event whose disposition is not known. -/
def unknownDisposition : Int := 0

/-- The code of events of any class with a disposition of their own. -/
def otherCode : Int := -1

/-- The text of an integer, which must not exceed the limit on digits. -/
def writeInteger (value : Int) : Except Failure Text :=
  match Numeral.write? value with
  | some text => .ok text
  | none => .error .oversizeInteger

/-- The code of a disposition of a class. -/
def eventCode (uid disposition : Int) : Except Failure Text :=
  writeInteger (uid * codesPerClass + disposition)

/-- The name of a disposition of a class. -/
def eventName (caption : Text) (name : Json) : Text :=
  caption ++ ": " ++ name.plain

/-- An enumeration value that only has a name. -/
def named (caption name : Text) : Json :=
  .obj [("name", .str (eventName caption (.str name)))]

/-- The dispositions that a class enumerates.  Values that are not given count
as none. -/
def dispositions (attributes : Attributes) : Except Failure Fields :=
  match (attributes.get? "disposition_id").bind fun definition => definition.get? "enum" with
  | none => .ok []
  | some value =>
      if !value.isGiven then .ok []
      else
        match value with
        | .obj enumerated => .ok enumerated
        | _ => .error (.unexpectedShape .dispositions)

/-- Add the code of one disposition.  Keys that are no integers are passed over
with a warning. -/
def addDisposition (name caption : Text) (uid : Int) (codes : Fields)
    (entry : Text × Json) : Report Fields :=
  match Numeral.readAnyScript? entry.1 with
  | none => do
      Report.note .warning
        (name ++ ": ignoring non-numeric disposition_id value " ++ Text.quoted entry.1)
      pure codes
  | some disposition =>
      match entry.2 with
      | .obj definition => do
          let code ← eventCode uid disposition
          let shown := eventName caption ((OrderedMap.get? definition "name").getD .null)
          pure (codes.insert code (.obj (OrderedMap.insert definition "name" (.str shown))))
      | _ => Report.fail (.unexpectedShape .disposition)

/-- The event codes of a class. -/
def eventCodes (name : Text) (cls : ClassDescriptor) (uid : Int) : Report Fields := do
  let enumerated ← dispositions cls.attributes
  let caption := cls.displayName
  let codes ← enumerated.foldlM (addDisposition name caption uid) []
  let unknown ← eventCode uid unknownDisposition
  pure ((codes.insert (toString otherCode) (named caption "Other")).insert unknown
    (named caption "Unknown"))

/-- The enumeration of a class's own number. -/
def classCodes (cls : ClassDescriptor) (uid : Int) : Except Failure Fields := do
  let code ← writeInteger uid
  pure [(code, .obj [("name", Field.ofText? cls.name),
    ("description", Field.ofText? cls.description)])]

/-- The category that a class names. -/
def categoryOf? (categories : OrderedMap Text Category) (cls : ClassDescriptor) :
    Option Category :=
  cls.details.category.bind categories.get?

/-- The enumeration of a class's category: its filled fields other than the
range of class numbers. -/
def categoryCodes (categories : OrderedMap Text Category) (cls : ClassDescriptor) :
    Except Failure Fields :=
  match categoryOf? categories cls with
  | none => .error (.unknownCategory cls.displayName cls.details.category)
  | some category => do
      let code ← writeInteger category.id
      pure [(code, Record.toJson .compact { category with classIdRange := .null })]

/-- The definition of an attribute with its enumeration replaced and credited to
a class; all else it declares is kept. -/
def enumerate (attributes : Attributes) (name owner : Text) (codes : Fields) : Fields :=
  (((attributes.get? name).getD []).insert "enum" (.obj codes)).insert
    Attributes.sourceKey (.str owner)

/-- Give a class its identifiers. -/
def identify (categories : OrderedMap Text Category) (name : Text) (cls : ClassDescriptor)
    (uid : Int) : Report ClassDescriptor := do
  let events ← eventCodes name cls uid
  let own ← classCodes cls uid
  let category ← categoryCodes categories cls
  pure { cls with
    attributes :=
      (((cls.attributes.creditTo name).insert "event_uid"
        (enumerate cls.attributes "event_uid" name events)).insert "class_id"
        (enumerate cls.attributes "class_id" name own)).insert "category_id"
        (enumerate cls.attributes "category_id" name category) }

/-- Identify one more class if it has a number, and drop it otherwise. -/
def identifyNext (categories : OrderedMap Text Category)
    (identified : OrderedMap Text ClassDescriptor) (entry : Text × ClassDescriptor) :
    Report (OrderedMap Text ClassDescriptor) :=
  match entry.2.details.uid with
  | none => do
      Report.note .debug ("dropping intermediate class: " ++ entry.1)
      pure identified
  | some uid => do
      let cls ← identify categories entry.1 entry.2 uid
      pure (identified.insert entry.1 cls)

/-- Identify the classes that have a number and drop the others. -/
def identifyAll (categories : OrderedMap Text Category)
    (classes : OrderedMap Text ClassDescriptor) :
    Report (OrderedMap Text ClassDescriptor) :=
  classes.foldlM (identifyNext categories) []

end Identifiers
end EventSchema
