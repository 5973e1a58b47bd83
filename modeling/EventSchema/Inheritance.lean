import EventSchema.Json.Merge
import EventSchema.Record.Descriptor
import EventSchema.Report

namespace EventSchema

/-!
# Inheritance

A descriptor may extend another of its kind.  Flattening lays each descriptor
over its flattened parent: fields that the child leaves open are taken from the
nearest ancestor that fills them, attributes are merged, and the reference to
the parent is gone.

Descriptors are flattened in the order they are declared, each after its
ancestors, and none twice.  The ascent from a descriptor to a root, or to an
ancestor that is flattened already, meets every obstacle: a parent that is not
declared, and a chain that returns to a name it has passed.
-/

namespace Descriptor

variable {δ : Type}

/-- The attributes of a descriptor as the fields of an object. -/
def attributeFields (descriptor : Descriptor δ) : Fields :=
  descriptor.attributes.mapValues fun _ definition => .obj definition

variable [Details δ]

/-- The fields of a child laid over its flattened parent.  The filled fields of
the child replace those of the parent one by one; the attributes alone are
merged at every depth, and there is no parent any more. -/
def inheritedFields (base child : Descriptor δ) : Fields :=
  let replaced := OrderedMap.insertAll (Record.toFields .compact base)
    (OrderedMap.erase (Record.toFields .compact child) "attributes")
  let merged := Fields.merge base.attributeFields child.attributeFields
  OrderedMap.erase (OrderedMap.insert replaced "attributes" (.obj merged)) "extends"

/-- Lay a child over its flattened parent and read the result as a record. -/
def inherit (base child : Descriptor δ) : Except Failure (Descriptor δ) :=
  (Record.check (Descriptor δ) (.obj (inheritedFields base child))).mapError .invalidRecord

end Descriptor

namespace Inheritance

variable {δ : Type}

/-- Descriptors of one kind by name. -/
abbrev Hierarchy (δ : Type) := OrderedMap Text (Descriptor δ)

/-- The part of a chain from the first occurrence of a name on, closed with that
name. -/
def cycleFrom (chain : List Text) (name : Text) : List Text :=
  (chain.dropWhile fun passed => passed ≠ name) ++ [name]

/-- The names that are declared and have not been passed. -/
def ahead (declared : Hierarchy δ) (chain : List Text) : List Text :=
  declared.keys.filter fun name => !chain.contains name

/-- Every step of an ascent passes another declared name. -/
theorem length_ahead_lt {declared : Hierarchy δ} {chain : List Text} {name : Text}
    (known : name ∈ declared.keys) (fresh : name ∉ chain) :
    (ahead declared (chain ++ [name])).length < (ahead declared chain).length := by
  have fewer : ahead declared (chain ++ [name]) =
      (ahead declared chain).filter fun other => other ≠ name := by
    simp only [ahead, List.filter_filter]
    apply List.filter_congr
    intro other _
    by_cases same : other = name <;> simp [same]
  rw [fewer, List.length_filter_lt_length_iff_exists]
  refine ⟨name, ?_, by simp⟩
  simpa [ahead] using ⟨known, fresh⟩

variable [Details δ]

/-- Flatten a declared descriptor after its ancestors.  `flattened` holds what is
flattened already and `chain` the names passed on the way; the result is the
flattened descriptor together with all that is flattened by then. -/
def resolve (kind : DescriptorKind) (declared flattened : Hierarchy δ) (chain : List Text)
    (name : Text) (known : name ∈ declared.keys) : Report (Descriptor δ × Hierarchy δ) :=
  match flattened.get? name with
  | some done => pure (done, flattened)
  | none =>
      if name ∈ chain then Report.fail (.cyclicParents kind (cycleFrom chain name))
      else
        let descriptor := declared.get name known
        match descriptor.parent with
        | none => pure (descriptor, flattened.insert name descriptor)
        | some parent =>
            if defined : parent ∈ declared.keys then do
              Report.note .info (name ++ " extends: " ++ parent)
              let (base, flattened) ←
                resolve kind declared flattened (chain ++ [name]) parent defined
              let result ← base.inherit descriptor
              pure (result, flattened.insert name result)
            else Report.fail (.undefinedParent kind name parent)
termination_by (ahead declared chain).length
decreasing_by exact length_ahead_lt known ‹name ∉ chain›

/-- Flatten one more declared descriptor. -/
def flattenNext (kind : DescriptorKind) (declared flattened : Hierarchy δ)
    (name : { name // name ∈ declared.keys }) : Report (Hierarchy δ) := do
  let (_, flattened) ← resolve kind declared flattened [] name.1 name.2
  pure flattened

/-- Flatten all descriptors. -/
def flatten (kind : DescriptorKind) (declared : Hierarchy δ) : Report (Hierarchy δ) :=
  declared.keys.attach.foldlM (flattenNext kind declared) []

/-- Objects whose name starts with an underscore are templates for others. -/
def isAbstract (name : Text) : Bool :=
  name.head? = some (.char '_')

/-- Flatten all objects and drop the templates. -/
def flattenObjects (declared : Hierarchy ObjectDetails) : Report (Hierarchy ObjectDetails) := do
  let flattened ← flatten .object declared
  pure (flattened.filter fun entry => !isAbstract entry.1)

end Inheritance
end EventSchema
