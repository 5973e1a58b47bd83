import EventSchema.SchemaTree

namespace EventSchema

/-!
# Included fragments

An object includes fragments by naming their files under `$include`.  The
fragments form the bottom layer, merged in the order listed, and the object's
own fields are laid over them.  A descriptor may include fragments in three
places, which are served in this order: at its root, among its attributes,
where the attributes of the fragments are included, and in each attribute that
is an object.

Expansion is written over any way of fetching a fragment.  When a schema is
loaded each file is fetched at most once, and `Fragments` remembers what was
read.
-/

namespace Inclusion

/-- The key under which fragments are named. -/
def directive : Text := "$include"

/-- A string. -/
def text? : Json -> Option Text
  | .str text => some text
  | _ => none

/-- The files that a directive names: one string or a list of strings. -/
def references (owner : Text) (value : Json) : Except Failure (List Text) :=
  match value with
  | .str reference => .ok [reference]
  | .arr items =>
      match items.mapM text? with
      | some references => .ok references
      | none => .error (.undecodable owner (.badInclude value))
  | _ => .error (.undecodable owner (.badInclude value))

/-- The attributes that a fragment contributes among attributes: none if it has
no such field. -/
def attributesOf (fragment : Fields) : Json :=
  (fragment.get? "attributes").getD (.obj [])

section Expansion

variable {m : Type -> Type} [Monad m] [MonadLiftT (Except Failure) m]

/-- The fragments that a directive names, in the order listed. -/
def fragments (fetch : Text -> Text -> m Fields) (owner : Text) (value : Json) :
    m (List Fields) := do
  let references ← (liftM (references owner value) : m (List Text))
  references.mapM (fetch owner)

/-- Lay an object over the fragments it includes. -/
def expandWhole (fetch : Text -> Text -> m Fields) (owner : Text) (fields : Fields) :
    m Fields :=
  match fields.get? directive with
  | none => pure fields
  | some .null => pure fields
  | some value => do
      let layers ← fragments fetch owner value
      pure ((Fields.mergeAll layers).merge (fields.erase directive))

/-- Lay the attributes of a descriptor over those of the fragments they
include. -/
def expandAttributes (fetch : Text -> Text -> m Fields) (owner : Text)
    (fields : Fields) : m Fields :=
  match fields.get? "attributes" with
  | some (.obj attributes) =>
      match OrderedMap.get? attributes directive with
      | none => pure fields
      | some value => do
          let layers ← fragments fetch owner value
          match Fields.mergeLayers? (layers.map attributesOf) with
          | none => liftM (Except.error (.unexpectedShape .layer) : Except Failure Fields)
          | some lower =>
              pure (fields.insert "attributes"
                (.obj (lower.merge (OrderedMap.erase attributes directive))))
  | _ => pure fields

/-- Lay one attribute over the fragments it includes, if it is an object. -/
def expandAttribute (fetch : Text -> Text -> m Fields) (owner : Text)
    (entry : Text × Json) : m (Text × Json) :=
  match entry.2 with
  | .obj definition => do
      let expanded ← expandWhole fetch (owner ++ "." ++ entry.1) definition
      pure (entry.1, .obj expanded)
  | _ => pure entry

/-- Lay each attribute over the fragments it includes. -/
def expandEach (fetch : Text -> Text -> m Fields) (owner : Text) (fields : Fields) :
    m Fields :=
  match fields.get? "attributes" with
  | some (.obj attributes) => do
      let expanded ← attributes.mapM (expandAttribute fetch owner)
      pure (fields.insert "attributes" (.obj expanded))
  | _ => pure fields

/-- Expand the directives of a descriptor in all three places. -/
def expand (fetch : Text -> Text -> m Fields) (owner : Text) (fields : Fields) :
    m Fields := do
  let fields ← expandWhole fetch owner fields
  let fields ← expandAttributes fetch owner fields
  expandEach fetch owner fields

end Expansion

/-- The file that a reference names; relative references start at the home
folder. -/
def locate (tree : SchemaTree) (reference : Text) : Path :=
  tree.home.child reference

/-- Read a fragment from its file. -/
def readFragment (tree : SchemaTree) (owner reference : Text) : Report Fields := do
  let path := locate tree reference
  if ← tree.isFile path then do
    Report.note .info (owner ++ " includes: " ++ path.text)
    tree.readObject path
  else Report.fail (.missingInclude owner path)

end Inclusion

/-- The fragments read so far by path. -/
abbrev Fragments := OrderedMap Path Fields

/-- A step of expansion: it starts from the fragments read so far and leaves
those read by then, also when it fails. -/
def Session (α : Type) := Fragments -> Report α × Fragments

namespace Session

variable {α β : Type}

def bind (session : Session α) (next : α -> Session β) : Session β := fun known =>
  match session known with
  | (⟨events, .ok value⟩, known) =>
      let (report, known) := next value known
      (⟨events ++ report.events, report.outcome⟩, known)
  | (⟨events, .error failure⟩, known) => (⟨events, .error failure⟩, known)

/-- A step that reads no fragment. -/
def ofReport (report : Report α) : Session α := fun known => (report, known)

instance : Monad Session where
  pure value := ofReport (pure value)
  bind := bind

instance : MonadLift Report Session := ⟨ofReport⟩

/-- Fetch a fragment, reading its file only if that was not done before. -/
def fetch (tree : SchemaTree) (owner reference : Text) : Session Fields := fun known =>
  let path := Inclusion.locate tree reference
  match known.get? path with
  | some fragment => (pure fragment, known)
  | none =>
      let report := Inclusion.readFragment tree owner reference
      match report.outcome with
      | .ok fragment => (report, known.insert path fragment)
      | .error _ => (report, known)

/-- Expand the directives of a descriptor. -/
def expand (tree : SchemaTree) (owner : Text) (fields : Fields) : Session Fields :=
  Inclusion.expand (fetch tree) owner fields

end Session
end EventSchema
