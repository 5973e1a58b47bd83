import EventSchema.Proofs.Inclusion.Precedence

namespace EventSchema
namespace Inclusion

/-!
# Directives that are left

Each place of a descriptor is served once, and the directive that was served is gone.  What
the fragments of that place say under the same key is not served any more and stays as data,
and so does a directive of null where null counts as none.  An expanded descriptor is free of
directives exactly if there is nothing of that kind.
-/

variable {tree : SchemaTree} {fields : Fields} {fragments? : Option (List Fields)}

/-- No directive stands where one could be served: at the root, among the attributes, or in an
attribute that is an object. -/
structure DirectiveFree (fields : Fields) : Prop where
  root : fields.get? directive = none
  among : forall attributes : Fields, attributesIn fields = some attributes ->
    attributes.get? directive = none
  within : forall (attributes definition : Fields) (name : Text),
    attributesIn fields = some attributes -> attributes.get? name = some (.obj definition) ->
      definition.get? directive = none

instance : Decidable (DirectiveFree fields) :=
  decidable_of_iff
    (fields.get? directive = none ∧ ∀ attributes ∈ attributesIn fields,
      attributes.get? directive = none ∧ ∀ name ∈ attributes.keys,
        ∀ definition ∈ (attributes.get? name).bind Json.fields?, definition.get? directive = none)
    ⟨fun ⟨root, inside⟩ => ⟨root, fun attributes held => (inside attributes held).1,
        fun attributes definition name held found =>
          (inside attributes held).2 name (OrderedMap.mem_keys_of_get?_eq_some found) definition
            (Option.bind_eq_some_iff.mpr ⟨_, found, rfl⟩)⟩,
      fun free => ⟨free.root, fun attributes held => ⟨free.among attributes held,
        fun name _ definition found => by
          rcases Option.bind_eq_some_iff.mp found with ⟨value, here, same⟩
          cases value with
          | obj inner =>
              cases same
              exact free.within attributes definition name held here
          | _ => cases same⟩⟩⟩

/-- The layers bring no directive that is left: none of null, and none in the fragments of the
same place. -/
structure Layers.NoneLeft (layers : Layers) : Prop where
  own : layers.own.get? directive ≠ some .null
  root : ∀ fragment ∈ layers.root.getD [], fragment.get? directive = none
  among : ∀ fragment ∈ layers.among.getD [], (contribution fragment).get? directive = none
  defined : forall (name : Text) (definition : Fields), layers.definition? name = some definition ->
    definition.get? directive ≠ some .null
  within : forall name : Text, ∀ fragment ∈ (layers.within name).getD [],
    fragment.get? directive = none

theorem get?_mergeAll_eq_none_iff {layers : List Fields} {key : Text} :
    OrderedMap.get? (Fields.mergeAll layers) key = none ↔
      ∀ layer ∈ layers, layer.get? key = none := by
  simp only [OrderedMap.get?_eq_none_iff, Fields.mem_keys_mergeAll, not_exists, not_and]

/-- What is left of a directive once an object is laid over fragments. -/
theorem get?_lay_directive (keyed : Json.Keyed (.obj fields)) :
    (lay fragments? fields).get? directive = none ↔
      (fragments? = none -> fields.get? directive = none) ∧
        ∀ fragment ∈ fragments?.getD [], fragment.get? directive = none := by
  cases fragments? with
  | none => simp [lay]
  | some fragments =>
      have hidden : OrderedMap.get? (OrderedMap.erase fields directive) directive = none := by
        rw [OrderedMap.get?_erase, if_pos rfl]
      rw [lay, Fields.get?_merge (keyed.erase directive).distinct, hidden, Option.map_none,
        Option.none_or, get?_mergeAll_eq_none_iff]
      simp

theorem Expands.eq_none_iff {named : Option Json} (expands : Expands tree named fragments?) :
    fragments? = none ↔ named = none := by
  cases named with
  | none => exact iff_of_true expands rfl
  | some value =>
      rcases expands with ⟨fragments, rfl, _⟩
      simp

/-- Where null counts as none, a directive of null is left. -/
theorem directiveOf_eq_none_iff :
    directiveOf fields = none ↔ fields.get? directive = none ∨ fields.get? directive = some .null := by
  unfold directiveOf
  cases fields.get? directive with
  | none => simp
  | some value => simp [Option.filter_some]

/-- What is left of a directive that null does not count as. -/
theorem get?_lay_directiveOf (expands : Expands tree (directiveOf fields) fragments?)
    (keyed : Json.Keyed (.obj fields)) :
    (lay fragments? fields).get? directive = none ↔
      fields.get? directive ≠ some .null ∧
        ∀ fragment ∈ fragments?.getD [], fragment.get? directive = none := by
  rw [get?_lay_directive keyed, expands.eq_none_iff, directiveOf_eq_none_iff]
  refine and_congr_left fun _ => ?_
  cases fields.get? directive with
  | none => simp
  | some value => simp

namespace Layers

variable {layers : Layers}

/-- The attributes of the expanded descriptor have the keys of those before it. -/
theorem attributesIn_expanded :
    attributesIn layers.expanded = layers.attributes?.map fun attributes =>
      OrderedMap.mapValues (fun name => layAttribute (layers.within name)) attributes := by
  cases laid : layers.attributes? with
  | none =>
      rw [expanded, laid]
      exact attributes?_eq_none_iff.mp laid
  | some attributes =>
      rw [expanded, laid]
      exact attributesIn_eq_some_iff.mpr (OrderedMap.get?_insert_self _ _ _)

theorem get?_expanded_directive :
    layers.expanded.get? directive = layers.whole.get? directive := by
  unfold expanded
  split
  · rfl
  · exact OrderedMap.get?_insert_of_ne _ _ (by decide)

theorem root_free_iff (included : layers.Included tree) (keyed : layers.Keyed) :
    layers.expanded.get? directive = none ↔
      layers.own.get? directive ≠ some .null ∧
        ∀ fragment ∈ layers.root.getD [], fragment.get? directive = none := by
  rw [get?_expanded_directive]
  exact get?_lay_directiveOf included.root keyed.own

theorem among_free_iff (included : layers.Included tree) (keyed : layers.Keyed) :
    (forall attributes : Fields, attributesIn layers.expanded = some attributes ->
        attributes.get? directive = none) ↔
      ∀ fragment ∈ layers.among.getD [], (contribution fragment).get? directive = none := by
  rw [attributesIn_expanded]
  cases inside : attributesIn layers.whole with
  | none =>
      rw [attributes?_eq_none_iff.mpr inside, included.among_eq_none inside]
      simp
  | some lower =>
      have expands := included.among
      rw [inside, Option.bind_some] at expands
      have laid : layers.attributes? = some (lay (layers.among.map (List.map contribution)) lower) := by
        rw [attributes?, inside]
        rfl
      have served : layers.among.map (List.map contribution) = none -> lower.get? directive = none := by
        rw [Option.map_eq_none_iff, expands.eq_none_iff]
        exact id
      have contributed :
          (∀ object ∈ (layers.among.map (List.map contribution)).getD [],
              object.get? directive = none) ↔
            ∀ fragment ∈ layers.among.getD [], (contribution fragment).get? directive = none := by
        cases layers.among <;> simp
      have left : (lay (layers.among.map (List.map contribution)) lower).get? directive = none ↔ _ :=
        get?_lay_directive (keyed.lower inside)
      rw [and_iff_right served, contributed] at left
      rw [laid, ← left]
      simp only [Option.map_some, Option.some.injEq, forall_eq', OrderedMap.get?_mapValues,
        Option.map_eq_none_iff]

/-- The attributes that are objects in the end are those that were objects before their own
directive was served. -/
theorem exists_attribute_expanded_iff {name : Text} {final : Fields} :
    (∃ attributes, attributesIn layers.expanded = some attributes ∧
        attributes.get? name = some (.obj final)) ↔
      ∃ definition, layers.definition? name = some definition ∧
        lay (layers.within name) definition = final := by
  rw [attributesIn_expanded, definition?]
  cases layers.attributes? with
  | none => simp
  | some attributes =>
      simp only [Option.map_some, Option.some.injEq, exists_eq_left', OrderedMap.get?_mapValues,
        Option.bind_some]
      cases OrderedMap.get? attributes name with
      | none => simp
      | some value => cases value <;> simp [layAttribute, Json.fields?]

theorem within_free_iff (included : layers.Included tree) (keyed : layers.Keyed) :
    (forall (attributes definition : Fields) (name : Text),
        attributesIn layers.expanded = some attributes ->
          attributes.get? name = some (.obj definition) -> definition.get? directive = none) ↔
      (forall (name : Text) (definition : Fields), layers.definition? name = some definition ->
          definition.get? directive ≠ some .null) ∧
        forall name : Text, ∀ fragment ∈ (layers.within name).getD [],
          fragment.get? directive = none := by
  have each : forall (name : Text) (definition : Fields),
      layers.definition? name = some definition ->
        ((lay (layers.within name) definition).get? directive = none ↔
          definition.get? directive ≠ some .null ∧
            ∀ fragment ∈ (layers.within name).getD [], fragment.get? directive = none) := by
    intro name definition defined
    have expands := included.within name
    rw [defined, Option.bind_some] at expands
    exact get?_lay_directiveOf expands (keyed.definition defined)
  constructor
  · intro free
    have final : forall (name : Text) (definition : Fields),
        layers.definition? name = some definition ->
          (lay (layers.within name) definition).get? directive = none := by
      intro name definition defined
      rcases exists_attribute_expanded_iff.mpr ⟨definition, defined, rfl⟩ with
        ⟨attributes, inside, held⟩
      exact free attributes _ name inside held
    refine ⟨fun name definition defined =>
      ((each name definition defined).mp (final name definition defined)).1, fun name => ?_⟩
    cases defined : layers.definition? name with
    | none =>
        rw [included.within_eq_none defined]
        simp
    | some definition => exact ((each name definition defined).mp (final name definition defined)).2
  · rintro ⟨given, fragments⟩ attributes definition name inside held
    rcases exists_attribute_expanded_iff.mp ⟨attributes, inside, held⟩ with ⟨lower, defined, rfl⟩
    exact (each name lower defined).mpr ⟨given name lower defined, fragments name⟩

end Layers

/-- A descriptor that expands is free of directives exactly if neither a directive of null nor
one in a fragment of the same place is left. -/
theorem expand_directiveFree_iff {owner : Text} {expanded : Fields}
    (keyed : Json.Keyed (.obj fields))
    (expands : (Session.expand tree owner fields []).1.outcome = .ok expanded) :
    ∃ layers : Layers, layers.own = fields ∧ layers.Included tree ∧
      (DirectiveFree expanded ↔ layers.NoneLeft) := by
  rw [(fetches_expand owner fields).follows.outcome [] Session.faithful_nil] at expands
  rcases exists_layers_of_expand keyed expands with ⟨layers, rfl, included, rfl⟩
  have all := included.keyed keyed
  have root := Layers.root_free_iff included all
  have among := Layers.among_free_iff included all
  have within := Layers.within_free_iff included all
  refine ⟨layers, rfl, included, ?_, ?_⟩
  · intro free
    rcases root.mp free.root with ⟨own, ofRoot⟩
    rcases within.mp free.within with ⟨defined, ofWithin⟩
    exact ⟨own, ofRoot, among.mp free.among, defined, ofWithin⟩
  · intro clear
    exact ⟨root.mpr ⟨clear.own, clear.root⟩, among.mpr clear.among,
      within.mpr ⟨clear.defined, clear.within⟩⟩

/-- The directives of all three places are gone, since no fragment has one of its own. -/
theorem expand_directiveFree_of_three_places :
    let tree := SchemaTree.below rankedTree.source (Path.parse "s") "extensions"
    Json.Keyed (.obj rankedDescriptor) ∧
      (Session.expand tree "login" rankedDescriptor []).1.outcome = .ok rankedExpanded ∧
      DirectiveFree rankedExpanded ∧
      ∃ layers : Layers, layers.own = rankedDescriptor ∧ layers.Included tree ∧
        (DirectiveFree rankedExpanded ↔ layers.NoneLeft) :=
  ⟨keyed_rankedDescriptor, expand_rankedDescriptor, by decide +kernel,
    expand_directiveFree_iff keyed_rankedDescriptor expand_rankedDescriptor⟩

/-- A schema with a fragment that includes another one. -/
def nestedTree : MemoryTree where
  files :=
    [(Path.parse "/schema/f.json", "\x7b\"$include\": \"g.json\", \"caption\": \"F\"\x7d"),
     (Path.parse "/schema/g.json", "\x7b\"description\": \"G\"\x7d")]
  unreadable := []

/-- The directive of a fragment at the root of a descriptor is not served and is left. -/
theorem expand_leaves_directive_of_fragment :
    let tree := SchemaTree.below nestedTree.source (Path.parse "/schema") "extensions"
    let descriptor : Fields := [("type", .str "login"), ("$include", .str "f.json")]
    let expanded : Fields :=
      [("$include", .str "g.json"), ("caption", .str "F"), ("type", .str "login")]
    (Session.expand tree "login" descriptor []).1.outcome = .ok expanded ∧
      ¬DirectiveFree expanded := by
  intro tree descriptor expanded
  have computed :
      (Session.expand tree "login" descriptor []).1.outcome.toOption = some expanded := by
    decide +kernel
  exact ⟨Outcome.toOption_eq_some_iff.mp computed, by decide +kernel⟩

end Inclusion
end EventSchema
