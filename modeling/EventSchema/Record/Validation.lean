import EventSchema.Json.Standard
import EventSchema.Number.Numeral

namespace EventSchema

/-!
# Validation

A record is read from an object field by field.  Validation does not stop at
the first fault: it lists every issue in the order of the fields, each with the
place where it was found.  `Validated` is the outcome, and combining two
outcomes joins their issues.
-/

/-- One step on the way to a place inside a value. -/
inductive Step where
  | field (key : Text)
  | item (index : Nat)
  deriving DecidableEq, Repr

/-- What is wrong with a value. -/
inductive IssueKind where
  | missing
  | notText
  | notMap
  | notList
  | notRecord
  | notInteger
  | integerFromText
  | integerTooLarge
  | integerFromFraction
  | notFinite
  | notUnicode
  deriving DecidableEq, Repr

/-- An issue and where it was found. -/
structure Issue where
  place : List Step
  kind : IssueKind
  deriving DecidableEq, Repr

/-- The outcome of validation: a value, or the issues found. -/
inductive Validated (α : Type) where
  | valid (value : α)
  | invalid (issues : List Issue)

namespace Validated

variable {α β : Type}

def map (f : α -> β) : Validated α -> Validated β
  | valid value => valid (f value)
  | invalid issues => invalid issues

/-- Apply a validated function to a validated argument; the issues of both are
listed. -/
def ap : Validated (α -> β) -> (Unit -> Validated α) -> Validated β
  | valid f, argument => (argument ()).map f
  | invalid issues, argument =>
      match argument () with
      | valid _ => invalid issues
      | invalid more => invalid (issues ++ more)

instance : Applicative Validated where
  pure := valid
  map := map
  seq := ap

/-- A single issue at the value itself. -/
def issue (kind : IssueKind) : Validated α :=
  invalid [⟨[], kind⟩]

/-- Move the issues one step down. -/
def under (step : Step) : Validated α -> Validated α
  | valid value => valid value
  | invalid issues => invalid (issues.map fun found => { found with place := step :: found.place })

/-- The values of a list of outcomes, or the issues of all of them. -/
def collect : List (Validated α) -> Validated (List α)
  | [] => valid []
  | first :: rest =>
      match first, collect rest with
      | valid value, valid values => valid (value :: values)
      | valid _, invalid issues => invalid issues
      | invalid issues, valid _ => invalid issues
      | invalid issues, invalid more => invalid (issues ++ more)

/-- The value, if there is one. -/
def value? : Validated α -> Option α
  | valid value => some value
  | invalid _ => none

end Validated

namespace Field

/-!
## Kinds of fields

Each function reads one kind of value.  Texts are only read from strings, maps
from objects and lists from lists.  Integers are also read from booleans,
from numbers without a fraction that fit 64 bits, and from numerals.
-/

variable {α : Type}

def text : Json -> Validated Text
  | .str value => .valid value
  | _ => .issue .notText

/-- Whether an integer is less than a word of 63 bits holds, of either sign. -/
def fitsWord (value : Int) : Bool :=
  value.natAbs < twoTo 63

def integer : Json -> Validated Int
  | .int value => .valid value
  | .bool value => .valid (if value then 1 else 0)
  | .float value =>
      if !value.isFinite then .issue .notFinite
      else
        match value.toInt? with
        | none => .issue .integerFromFraction
        | some whole => if fitsWord whole then .valid whole else .issue .integerTooLarge
  | .str value =>
      match Numeral.readField value with
      | .ok whole => .valid whole
      | .error .notUnicode => .issue .notUnicode
      | .error .notInteger => .issue .integerFromText
      | .error .tooManyDigits => .issue .integerTooLarge
  | _ => .issue .notInteger

/-- Any value. -/
def anything (value : Json) : Validated Json :=
  .valid value

/-- An object whose fields are not looked into. -/
def map : Json -> Validated Fields
  | .obj fields => .valid fields
  | _ => .issue .notMap

/-- A map, each of whose values is read. -/
def mapOf (read : Json -> Validated α) : Json -> Validated (OrderedMap Text α)
  | .obj fields =>
      .collect (fields.map fun entry =>
        ((read entry.2).map fun value => (entry.1, value)).under (.field entry.1))
  | _ => .issue .notMap

/-- A list, each of whose items is read. -/
def listOf (read : Json -> Validated α) : Json -> Validated (List α)
  | .arr items =>
      .collect (items.mapIdx fun index item => (read item).under (.item index))
  | _ => .issue .notList

/-- Null, or a value that is read. -/
def nullable (read : Json -> Validated α) : Json -> Validated (Option α)
  | .null => .valid none
  | value => (read value).map some

/-- A field that has to be there. -/
def required (fields : Fields) (key : Text) (read : Json -> Validated α) : Validated α :=
  match fields.get? key with
  | none => (Validated.issue .missing).under (.field key)
  | some value => (read value).under (.field key)

/-- A field that has a value of its own where it is missing. -/
def withDefault (fields : Fields) (key : Text) (absent : α) (read : Json -> Validated α) :
    Validated α :=
  match fields.get? key with
  | none => .valid absent
  | some value => (read value).under (.field key)

/-- A field that may be missing or null. -/
def optional (fields : Fields) (key : Text) (read : Json -> Validated α) :
    Validated (Option α) :=
  withDefault fields key none (nullable read)

/-- The fields other than the declared ones, in order. -/
def undeclared (fields : Fields) (declared : List Text) : Fields :=
  fields.filter fun entry => !declared.contains entry.1

/-- Read a record that keeps its undeclared fields.  The names of these have to be
characters throughout; where one is not, that is the only issue. -/
def keeping (fields : Fields) (declared : List Text) (read : Fields -> Validated α) :
    Validated α :=
  let extra := undeclared fields declared
  if extra.any fun entry => entry.1.hasHalf then .issue .notUnicode else read extra

/-- An optional text as a value. -/
def ofText? (value : Option Text) : Json :=
  value.elim .null .str

/-- An optional integer as a value. -/
def ofInt? (value : Option Int) : Json :=
  value.elim .null .int

end Field

/-- The two forms in which a record is written: with all its fields, or without
those that are null. -/
inductive Form where
  | full
  | compact
  deriving DecidableEq, Repr

/-- Write the fields of a record in a form.  Only the record's own fields are
left out when null; nulls inside their values stay. -/
def Form.finish (form : Form) (fields : Fields) : Fields :=
  match form with
  | .full => fields
  | .compact => fields.filter fun entry => entry.2 ≠ .null

/-- Records: what they are called in messages, how they are read from the
fields of an object, how they are written, and what is declared about the object
that is written. -/
class Record (ρ : Type) where
  title : Text
  validate : Fields -> Validated ρ
  toFields : Form -> ρ -> Fields
  layout : Json.Layout

namespace Record

variable {ρ : Type} [Record ρ]

/-- Read a record from a value, which has to be an object. -/
def ofJson : Json -> Validated ρ
  | .obj fields => validate fields
  | _ => .issue .notRecord

/-- A record as a value. -/
def toJson (form : Form) (record : ρ) : Json :=
  .obj (toFields form record)

/-- A record as a value in standard JSON, without the fields that are null. -/
def toStandard (record : ρ) : Except Json.StandardFault Json :=
  (toJson .compact record).standard (layout ρ)

end Record

/-- The issues that keep a value from being a record. -/
structure Violations where
  title : Text
  issues : List Issue
  deriving DecidableEq, Repr

/-- The issues are counted in the message; their places and kinds are data. -/
def Violations.message (found : Violations) : Text :=
  let count := found.issues.length
  toString count ++ (if count = 1 then " validation error for " else " validation errors for ") ++
    found.title

/-- Read a record, with its issues under its title. -/
def Record.check (ρ : Type) [Record ρ] (value : Json) : Except Violations ρ :=
  match (Record.ofJson value : Validated ρ) with
  | .valid record => .ok record
  | .invalid issues => .error ⟨Record.title ρ, issues⟩

end EventSchema
