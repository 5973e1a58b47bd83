import EventSchema.Proofs.Declarations
import EventSchema.Proofs.Inclusion.Memory

namespace EventSchema
namespace Inclusion

/-!
# The layers of an expanded descriptor

A descriptor that expands is laid over the fragments of three places, one place after
another, and each time the directive that named the fragments is gone.  `Layers` collects
the descriptor and the fragments, `Layers.expanded` lays them over one another, and
`Layers.Included` says which files the fragments are: those that the directive of the
place names at the time when it is served.

Expansion is taken apart here once (`exists_layers_of_expand`), so that what it yields can be
read off the layers.
-/

variable {tree : SchemaTree} {owner : Text} {fields : Fields} {value : Json}

/-! ## Named fragments -/

/-- The fragments that a directive names, in the order in which it names them. -/
inductive Names (tree : SchemaTree) : Json -> List Fields -> Prop
  | one {reference : Text} {fragment : Fields} (holds : tree.Holds (locate tree reference) fragment) :
      Names tree (.str reference) [fragment]
  | several {references : List Text} {fragments : List Fields}
      (hold : List.Forall₂ (fun reference fragment => tree.Holds (locate tree reference) fragment)
        references fragments) :
      Names tree (.arr (references.map .str)) fragments

/-- Which fragments are laid under an object: those that its directive names, and none
if there is no directive. -/
def Expands (tree : SchemaTree) (named : Option Json) (fragments? : Option (List Fields)) : Prop :=
  match named with
  | none => fragments? = none
  | some value => ∃ fragments, fragments? = some fragments ∧ Names tree value fragments

/-- The directive of an object; null counts as none. -/
def directiveOf (fields : Fields) : Option Json :=
  (fields.get? directive).filter fun value => value ≠ .null

/-- Lay an object over fragments, without the directive that named them. -/
def lay (fragments? : Option (List Fields)) (fields : Fields) : Fields :=
  match fragments? with
  | none => fields
  | some fragments => (Fields.mergeAll fragments).merge (fields.erase directive)

/-- The attributes of an object, if they are an object in turn. -/
def attributesIn (fields : Fields) : Option Fields :=
  (fields.get? "attributes").bind Json.fields?

/-- What a fragment contributes among attributes. -/
def contribution (fragment : Fields) : Fields :=
  (attributesOf fragment).fields?.getD []

/-- Lay an attribute that is an object over fragments. -/
def layAttribute (fragments? : Option (List Fields)) : Json -> Json
  | .obj definition => .obj (lay fragments? definition)
  | value => value

/-- A descriptor with the fragments of its three places: its root, its attributes, and each
attribute. -/
structure Layers where
  own : Fields
  root : Option (List Fields)
  among : Option (List Fields)
  within : Text -> Option (List Fields)

namespace Layers

variable (layers : Layers)

/-- The descriptor over the fragments of its root. -/
def whole : Fields :=
  lay layers.root layers.own

/-- The attributes over those of the fragments that are included among them. -/
def attributes? : Option Fields :=
  (attributesIn layers.whole).map (lay (layers.among.map (List.map contribution)))

/-- An attribute that is an object, before its own directive is served. -/
def definition? (name : Text) : Option Fields :=
  (layers.attributes?.bind fun attributes => attributes.get? name).bind Json.fields?

/-- All layers over one another. -/
def expanded : Fields :=
  match layers.attributes? with
  | none => layers.whole
  | some attributes =>
      layers.whole.insert "attributes"
        (.obj (attributes.mapValues fun name => layAttribute (layers.within name)))

/-- The fragments are those that the directives name. -/
structure Included (tree : SchemaTree) : Prop where
  root : Expands tree (directiveOf layers.own) layers.root
  among : Expands tree ((attributesIn layers.whole).bind fun attributes => attributes.get? directive)
    layers.among
  within : forall name : Text,
    Expands tree ((layers.definition? name).bind directiveOf) (layers.within name)

end Layers

/-! ## Named fragments are read -/

theorem attributesIn_eq_some_iff {attributes : Fields} :
    attributesIn fields = some attributes ↔
      fields.get? "attributes" = some (.obj attributes) := by
  rw [attributesIn, Option.bind_eq_some_iff]
  constructor
  · rintro ⟨held, found, same⟩
    cases held with
    | obj inner => cases same; exact found
    | _ => cases same
  · intro found
    exact ⟨_, found, rfl⟩

theorem eq_map_str_of_texts {items : List Json} {texts : List Text}
    (all : items.mapM text? = some texts) : items = texts.map Json.str := by
  apply Outcome.eq_map_of_forall₂
  refine ((Outcome.mapM_eq_some_iff.mp all).imp fun item text found => ?_).flip
  cases item with
  | str held => exact congrArg Json.str (Option.some.inj found)
  | _ => cases found

theorem names_of_fragments {layers : List Fields}
    (reads : (fragments (readFragment tree) owner value).outcome = .ok layers) :
    Names tree value layers := by
  rw [fragments, Report.outcome_bind, Report.outcome_liftM, Outcome.bind_eq_ok_iff] at reads
  rcases reads with ⟨named, refers, reads⟩
  rw [Report.outcome_mapM, Outcome.mapM_eq_ok_iff] at reads
  have hold : List.Forall₂ (fun reference fragment => tree.Holds (locate tree reference) fragment)
      named layers :=
    reads.imp fun reference fragment read =>
      SchemaTree.readObject_eq_ok_iff.mp (Session.readFragment_eq_ok_iff.mp read).2
  unfold references at refers
  split at refers
  · cases refers
    rcases List.forall₂_cons_left_iff.mp hold with ⟨fragment, rest, holds, others, rfl⟩
    cases others
    exact Names.one holds
  · next items =>
      split at refers
      · next texts all =>
          cases refers
          rw [eq_map_str_of_texts all]
          exact Names.several hold
      · cases refers
  · cases refers

/-- Every named fragment is the object of a file. -/
theorem exists_holds_of_names {layers : List Fields} (names : Names tree value layers) :
    ∀ layer ∈ layers, ∃ file, tree.Holds file layer := by
  intro layer member
  cases names with
  | one holds =>
      rw [List.mem_singleton] at member
      exact ⟨_, member ▸ holds⟩
  | several hold =>
      rcases Outcome.exists_of_mem_right hold layer member with ⟨reference, _, holds⟩
      exact ⟨_, holds⟩

/-! ## Distinct keys -/

/-- Fragments whose objects have distinct keys. -/
def AllKeyed (fragments? : Option (List Fields)) : Prop :=
  ∀ fragments ∈ fragments?, ∀ fragment ∈ fragments, Json.Keyed (.obj fragment)

theorem keyed_of_names {layers : List Fields} (names : Names tree value layers) :
    ∀ layer ∈ layers, Json.Keyed (.obj layer) := by
  intro layer member
  rcases exists_holds_of_names names layer member with ⟨file, holds⟩
  exact (SchemaTree.wellFormed_of_readObject (SchemaTree.readObject_eq_ok_iff.mpr holds)).keyed

theorem Expands.allKeyed {named : Option Json} {fragments? : Option (List Fields)}
    (expands : Expands tree named fragments?) : AllKeyed fragments? := by
  cases named with
  | none =>
      cases expands
      exact fun _ missing => by cases missing
  | some value =>
      rcases expands with ⟨fragments, rfl, names⟩
      intro others same
      cases same
      exact keyed_of_names names

theorem keyed_lay {fragments? : Option (List Fields)} (lower : AllKeyed fragments?)
    (keyed : Json.Keyed (.obj fields)) : Json.Keyed (.obj (lay fragments? fields)) := by
  cases fragments? with
  | none => exact keyed
  | some fragments =>
      exact Fields.keyed_merge (Fields.keyed_mergeAll (lower fragments rfl)) (keyed.erase directive)

theorem keyed_contribution {fragment : Fields} (keyed : Json.Keyed (.obj fragment)) :
    Json.Keyed (.obj (contribution fragment)) := by
  unfold contribution attributesOf
  cases held : OrderedMap.get? fragment "attributes" with
  | none => exact Json.wellFormed_nil.keyed
  | some value =>
      cases value with
      | obj attributes => exact keyed.of_get? held
      | _ => exact Json.wellFormed_nil.keyed

theorem allKeyed_contributions {fragments? : Option (List Fields)} (keyed : AllKeyed fragments?) :
    AllKeyed (fragments?.map (List.map contribution)) := by
  rintro _ given _ member
  rcases Option.map_eq_some_iff.mp given with ⟨fragments, same, rfl⟩
  rcases List.mem_map.mp member with ⟨fragment, within, rfl⟩
  exact keyed_contribution (keyed fragments same fragment within)

theorem keyed_layAttribute {fragments? : Option (List Fields)} (lower : AllKeyed fragments?)
    (keyed : value.Keyed) : (layAttribute fragments? value).Keyed := by
  cases value with
  | obj definition => exact keyed_lay lower keyed
  | _ => exact keyed

namespace Layers

variable {layers : Layers}

/-- All objects of the layers have distinct keys. -/
structure Keyed (layers : Layers) : Prop where
  own : Json.Keyed (.obj layers.own)
  root : AllKeyed layers.root
  among : AllKeyed layers.among
  within : forall name : Text, AllKeyed (layers.within name)

/-- What is read from files has distinct keys. -/
theorem Included.keyed (included : layers.Included tree) (own : Json.Keyed (.obj layers.own)) :
    layers.Keyed where
  own := own
  root := included.root.allKeyed
  among := included.among.allKeyed
  within name := (included.within name).allKeyed

namespace Keyed

theorem whole (keyed : layers.Keyed) : Json.Keyed (.obj layers.whole) :=
  keyed_lay keyed.root keyed.own

theorem lower (keyed : layers.Keyed) {attributes : Fields}
    (inside : attributesIn layers.whole = some attributes) : Json.Keyed (.obj attributes) :=
  keyed.whole.of_get? (attributesIn_eq_some_iff.mp inside)

theorem attributes (keyed : layers.Keyed) {attributes : Fields}
    (laid : layers.attributes? = some attributes) : Json.Keyed (.obj attributes) := by
  rcases Option.map_eq_some_iff.mp laid with ⟨lower, inside, rfl⟩
  exact keyed_lay (allKeyed_contributions keyed.among) (keyed.lower inside)

theorem expanded (keyed : layers.Keyed) : Json.Keyed (.obj layers.expanded) := by
  unfold Layers.expanded
  cases laid : layers.attributes? with
  | none => exact keyed.whole
  | some attributes =>
      have own := keyed.attributes laid
      refine keyed.whole.insert _ (Json.keyed_obj_of_get? ?_ fun name value held => ?_)
      · rw [OrderedMap.Distinct, OrderedMap.keys_mapValues]
        exact own.distinct
      · rw [OrderedMap.get?_mapValues] at held
        rcases Option.map_eq_some_iff.mp held with ⟨source, found, rfl⟩
        exact keyed_layAttribute (keyed.within name) (own.of_get? found)

theorem definition (keyed : layers.Keyed) {name : Text} {definition : Fields}
    (defined : layers.definition? name = some definition) : Json.Keyed (.obj definition) := by
  rcases Option.bind_eq_some_iff.mp defined with ⟨value, found, same⟩
  rcases Option.bind_eq_some_iff.mp found with ⟨attributes, laid, held⟩
  cases value with
  | obj inner =>
      cases same
      exact (keyed.attributes laid).of_get? held
  | _ => cases same

end Keyed
end Layers

/-! ## Expansion taken apart -/

theorem exists_lay_of_expandWhole {whole : Fields}
    (expands : (expandWhole (readFragment tree) owner fields).outcome = .ok whole) :
    ∃ fragments?, Expands tree (directiveOf fields) fragments? ∧ whole = lay fragments? fields := by
  unfold expandWhole at expands
  unfold directiveOf
  split at expands
  · next missing =>
      cases expands
      exact ⟨none, by rw [missing]; rfl, rfl⟩
  · next given =>
      cases expands
      exact ⟨none, by rw [given]; rfl, rfl⟩
  · next value plain given =>
      rw [Report.outcome_bind, Outcome.bind_eq_ok_iff] at expands
      rcases expands with ⟨layers, read, same⟩
      cases same
      refine ⟨some layers, ?_, rfl⟩
      rw [given, Option.filter_some, if_pos (by simpa using plain)]
      exact ⟨layers, rfl, names_of_fragments read⟩

theorem eq_mergeAll_of_mergeLayers? {layers : List Fields} {lower : Fields}
    (merges : Fields.mergeLayers? (layers.map attributesOf) = some lower) :
    lower = Fields.mergeAll (layers.map contribution) := by
  rcases Option.map_eq_some_iff.mp merges with ⟨objects, all, rfl⟩
  congr 1
  apply Outcome.eq_map_of_forall₂
  refine (List.forall₂_map_left_iff.mp (Outcome.mapM_eq_some_iff.mp all)).imp ?_
  intro layer object found
  rw [contribution, found, Option.getD_some]

theorem exists_lay_of_expandAttributes {expanded : Fields}
    (expands : (expandAttributes (readFragment tree) owner fields).outcome = .ok expanded) :
    ∃ fragments?,
      Expands tree ((attributesIn fields).bind fun attributes => attributes.get? directive)
        fragments? ∧
      expanded = match attributesIn fields with
        | none => fields
        | some attributes =>
            fields.insert "attributes" (.obj (lay (fragments?.map (List.map contribution)) attributes)) := by
  unfold expandAttributes at expands
  split at expands
  · next attributes held =>
      rw [attributesIn_eq_some_iff.mpr held, Option.bind_some]
      split at expands
      · next missing =>
          cases expands
          rw [missing]
          exact ⟨none, rfl, (OrderedMap.insert_of_get?_eq_some held).symm⟩
      · next value given =>
          rw [Report.outcome_bind, Outcome.bind_eq_ok_iff] at expands
          rcases expands with ⟨layers, read, merged⟩
          split at merged
          · cases merged
          · next lower merges =>
              cases merged
              rw [given, eq_mergeAll_of_mergeLayers? merges]
              exact ⟨some layers, ⟨layers, rfl, names_of_fragments read⟩, rfl⟩
  · next plain =>
      cases expands
      have none : attributesIn fields = none :=
        Option.eq_none_iff_forall_ne_some.mpr fun attributes inside =>
          plain attributes (attributesIn_eq_some_iff.mp inside)
      rw [none]
      exact ⟨_, rfl, rfl⟩

/-- What one attribute becomes. -/
theorem exists_lay_of_expandAttribute {name : Text} {entry : Text × Json}
    (expands : (expandAttribute (readFragment tree) owner (name, value)).outcome = .ok entry) :
    ∃ fragments?, Expands tree (value.fields?.bind directiveOf) fragments? ∧
      entry = (name, layAttribute fragments? value) := by
  unfold expandAttribute at expands
  split at expands
  · next definition held =>
      dsimp only at held
      subst held
      rw [Report.outcome_bind, Outcome.bind_eq_ok_iff] at expands
      rcases expands with ⟨whole, first, same⟩
      cases same
      rcases exists_lay_of_expandWhole first with ⟨fragments?, names, rfl⟩
      exact ⟨fragments?, names, rfl⟩
  · next plain =>
      cases expands
      cases value with
      | obj definition => exact absurd rfl (plain definition)
      | _ => exact ⟨none, rfl, rfl⟩

theorem exists_lay_of_expandEach {expanded : Fields}
    (keyed : Json.Keyed (.obj fields))
    (expands : (expandEach (readFragment tree) owner fields).outcome = .ok expanded) :
    ∃ within : Text -> Option (List Fields),
      (forall name : Text, Expands tree
        ((((attributesIn fields).bind fun attributes => attributes.get? name).bind
          Json.fields?).bind directiveOf) (within name)) ∧
      expanded = match attributesIn fields with
        | none => fields
        | some attributes =>
            fields.insert "attributes"
              (.obj (attributes.mapValues fun name => layAttribute (within name))) := by
  unfold expandEach at expands
  split at expands
  · next attributes held =>
      rw [attributesIn_eq_some_iff.mpr held]
      rw [Report.outcome_bind, Outcome.bind_eq_ok_iff, Report.outcome_mapM] at expands
      rcases expands with ⟨entries, each, same⟩
      cases same
      have distinct := (keyed.of_get? held).distinct
      have all := Outcome.mapM_eq_ok_iff.mp each
      have steps : forall name : Text, ∃ fragments?,
          Expands tree (((OrderedMap.get? attributes name).bind Json.fields?).bind directiveOf)
            fragments? ∧
          forall value : Json, OrderedMap.get? attributes name = some value ->
            (expandAttribute (readFragment tree) owner (name, value)).outcome =
              .ok (name, layAttribute fragments? value) := by
        intro name
        cases found : OrderedMap.get? attributes name with
        | none => exact ⟨none, rfl, fun _ same => by cases same⟩
        | some value =>
            rcases Outcome.exists_of_mem_right all.flip _ (OrderedMap.mem_of_get?_eq_some found) with
              ⟨entry, _, expands⟩
            rcases exists_lay_of_expandAttribute expands with ⟨fragments?, names, rfl⟩
            exact ⟨fragments?, names, fun _ same => by cases same; exact expands⟩
      choose within expands lays using steps
      refine ⟨within, expands, ?_⟩
      have results : attributes.mapM (fun entry => (expandAttribute (readFragment tree) owner entry).outcome) =
          .ok (OrderedMap.mapValues (fun name => layAttribute (within name)) attributes) := by
        refine Outcome.mapM_eq_ok_iff.mpr (List.forall₂_map_right_iff.mpr (List.forall₂_same.mpr ?_))
        intro entry member
        exact lays entry.1 entry.2 (distinct.get?_eq_some_iff.mpr member)
      rw [Except.ok.inj (each.symm.trans results)]
  · next plain =>
      cases expands
      have none : attributesIn fields = none :=
        Option.eq_none_iff_forall_ne_some.mpr fun attributes inside =>
          plain attributes (attributesIn_eq_some_iff.mp inside)
      rw [none]
      exact ⟨fun _ => Option.none, fun _ => rfl, rfl⟩

/-- Expansion lays a descriptor over the fragments that its directives name. -/
theorem exists_layers_of_expand {expanded : Fields} (keyed : Json.Keyed (.obj fields))
    (expands : (expand (readFragment tree) owner fields).outcome = .ok expanded) :
    ∃ layers : Layers, layers.own = fields ∧ layers.Included tree ∧ layers.expanded = expanded := by
  simp only [expand, Report.outcome_bind, Outcome.bind_eq_ok_iff] at expands
  rcases expands with ⟨whole, first, middle, second, third⟩
  rcases exists_lay_of_expandWhole first with ⟨root, namesRoot, ofWhole⟩
  rcases exists_lay_of_expandAttributes second with ⟨among, namesAmong, ofMiddle⟩
  have keyedWhole : Json.Keyed (.obj whole) := ofWhole ▸ keyed_lay namesRoot.allKeyed keyed
  cases inside : attributesIn whole with
  | none =>
      rw [inside] at ofMiddle
      subst ofMiddle
      rcases exists_lay_of_expandEach keyedWhole third with ⟨within, namesWithin, ofExpanded⟩
      rw [inside] at namesWithin ofExpanded
      subst ofWhole
      refine ⟨⟨fields, root, among, within⟩, rfl, ⟨namesRoot, namesAmong, ?_⟩, ?_⟩
      · intro name
        rw [Layers.definition?, Layers.attributes?, Layers.whole, inside]
        exact namesWithin name
      · rw [Layers.expanded, Layers.attributes?, Layers.whole, inside, ofExpanded]
        rfl
  | some attributes =>
      rw [inside] at ofMiddle
      have keyedMiddle : Json.Keyed (.obj middle) := by
        rw [ofMiddle]
        refine keyedWhole.insert _ (keyed_lay (allKeyed_contributions namesAmong.allKeyed) ?_)
        exact keyedWhole.of_get? (attributesIn_eq_some_iff.mp inside)
      have laid : attributesIn middle =
          some (lay (among.map (List.map contribution)) attributes) := by
        rw [ofMiddle]
        exact attributesIn_eq_some_iff.mpr (OrderedMap.get?_insert_self _ _ _)
      rcases exists_lay_of_expandEach keyedMiddle third with ⟨within, namesWithin, ofExpanded⟩
      rw [laid] at namesWithin ofExpanded
      subst ofWhole
      refine ⟨⟨fields, root, among, within⟩, rfl, ⟨namesRoot, namesAmong, ?_⟩, ?_⟩
      · intro name
        rw [Layers.definition?, Layers.attributes?, Layers.whole, inside]
        exact namesWithin name
      · rw [Layers.expanded, Layers.attributes?, Layers.whole, inside, ofExpanded, ofMiddle]
        exact (OrderedMap.insert_insert _ _ _ _).symm

end Inclusion
end EventSchema
