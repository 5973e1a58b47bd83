import EventSchema.Record.Validation

namespace EventSchema

/-!
# Links between descriptors

A back reference leads from an attribute or an object to a descriptor that
uses it.  A related class is named by a class under `see_also`; it is written
as a bare name and becomes a reference with a caption.  Neither record keeps
undeclared fields.
-/

/-- A reference from an attribute or object back to a descriptor using it. -/
structure Link where
  group : Text
  type : Text
  caption : Option Text
  deriving DecidableEq, Repr

instance : Record Link where
  title := "Link"
  validate fields :=
    Link.mk <$> Field.required fields "group" Field.text
      <*> Field.required fields "type" Field.text
      <*> Field.optional fields "caption" Field.text
  toFields form record :=
    form.finish
      [("group", .str record.group), ("type", .str record.type),
       ("caption", Field.ofText? record.caption)]
  layout := .fixed

/-- A reference to a related class. -/
structure ClassReference where
  reference : Text
  caption : Option Text
  deriving DecidableEq, Repr

instance : Record ClassReference where
  title := "SeeAlsoLink"
  validate fields :=
    ClassReference.mk <$> Field.required fields "reference" Field.text
      <*> Field.optional fields "caption" Field.text
  toFields form record :=
    form.finish [("reference", .str record.reference), ("caption", Field.ofText? record.caption)]
  layout := .fixed

/-- An entry under `see_also`: the name of a class, or a reference. -/
inductive Related where
  | name (value : Text)
  | link (value : ClassReference)
  deriving DecidableEq, Repr

namespace Related

/-- Read an entry.  If it is neither a reference nor a name, the issues of both
readings are listed. -/
def ofJson (value : Json) : Validated Related :=
  match value with
  | .str text => .valid (.name text)
  | _ =>
      match (Record.ofJson value : Validated ClassReference) with
      | .valid reference => .valid (.link reference)
      | .invalid issues =>
          .ap (Validated.under (.field (Record.title ClassReference)) (.invalid issues))
            fun _ => (Field.text value).under (.field "str") |>.map Related.name

/-- Write an entry. -/
def toJson (form : Form) : Related -> Json
  | name text => .str text
  | link reference => Record.toJson form reference

end Related
end EventSchema
