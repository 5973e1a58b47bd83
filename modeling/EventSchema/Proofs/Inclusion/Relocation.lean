import EventSchema.Proofs.Inclusion.Origins
import EventSchema.Proofs.Relocation

namespace EventSchema

/-!
# Inclusion in schemas that lie elsewhere

A reference to a fragment starts at the home folder unless it starts at a root.  So a schema
whose references are all relative includes the same fragments wherever it lies.

Which references are followed is only known while a descriptor is expanded, since the
fragments of one place bring directives for the next.  But a directive that is served is
always one that some file has in the same place, so it is enough to look at the files one by
one (`Inclusion.RefersLocally`).
-/

namespace Inclusion

/-! ## The references of a file -/

/-- The texts in a directive, which name files. -/
def namedBy : Json -> List Text
  | .str reference => [reference]
  | .arr items => items.filterMap text?
  | _ => []

/-- The values of the directives of an object, in all three places. -/
def directives (fields : Fields) : List Json :=
  (fields.get? directive).toList ++ (attributesIn fields).elim [] fun attributes =>
    (attributes.get? directive).toList ++ attributes.filterMap fun entry =>
      entry.2.fields?.bind fun definition => OrderedMap.get? definition directive

/-- No directive of an object names a path that starts at a root. -/
def RefersLocally (fields : Fields) : Prop :=
  ∀ value ∈ directives fields, ∀ reference ∈ namedBy value, (Path.parse reference).Relative

instance (fields : Fields) : Decidable (RefersLocally fields) :=
  inferInstanceAs (Decidable (∀ value ∈ directives fields, ∀ reference ∈ namedBy value,
    (Path.parse reference).Relative))

/-- The places in which directives are served. -/
inductive ServedPlace : List Text -> Prop
  | root : ServedPlace [directive]
  | among : ServedPlace ["attributes", directive]
  | within (name : Text) : ServedPlace ["attributes", name, directive]

theorem mem_directives_of_at? {fields : Fields} {place : List Text} (served : ServedPlace place)
    {value : Json} (held : (Json.obj fields).at? place = some value) :
    value ∈ directives fields := by
  have inside : forall rest : List Text,
      (Json.obj fields).at? ("attributes" :: rest) = some value -> rest ≠ [] ->
        ∃ attributes, attributesIn fields = some attributes ∧
          (Json.obj attributes).at? rest = some value := by
    intro rest held given
    rw [Json.at?_obj_cons, Option.bind_eq_some_iff] at held
    rcases held with ⟨inner, found, held⟩
    cases inner with
    | obj attributes => exact ⟨attributes, attributesIn_eq_some_iff.mpr found, held⟩
    | _ =>
        cases rest with
        | nil => exact absurd rfl given
        | cons key rest => cases held
  unfold directives
  cases served with
  | root =>
      rw [Json.at?_obj_cons, Option.bind_eq_some_iff] at held
      rcases held with ⟨inner, found, same⟩
      cases same
      exact List.mem_append_left _ (Option.mem_toList.mpr found)
  | among =>
      rcases inside _ held (List.cons_ne_nil _ _) with ⟨attributes, found, held⟩
      rw [Json.at?_obj_cons, Option.bind_eq_some_iff] at held
      rcases held with ⟨inner, given, same⟩
      cases same
      rw [found]
      exact List.mem_append_right _ (List.mem_append_left _ (Option.mem_toList.mpr given))
  | within name =>
      rcases inside _ held (List.cons_ne_nil _ _) with ⟨attributes, found, held⟩
      rw [Json.at?_obj_cons, Option.bind_eq_some_iff] at held
      rcases held with ⟨inner, defined, held⟩
      rw [found]
      refine List.mem_append_right _ (List.mem_append_right _ (List.mem_filterMap.mpr
        ⟨(name, inner), OrderedMap.mem_of_get?_eq_some defined, ?_⟩))
      cases inner with
      | obj definition =>
          rw [Json.at?_obj_cons, Option.bind_eq_some_iff] at held
          rcases held with ⟨other, given, same⟩
          cases same
          exact given
      | _ => cases held

/-- The references of a directive are texts in it. -/
theorem mem_namedBy_of_references {owner : Text} {value : Json} {named : List Text}
    (refers : references owner value = .ok named) : ∀ reference ∈ named, reference ∈ namedBy value := by
  unfold references at refers
  split at refers
  · cases refers
    exact fun _ member => member
  · split at refers
    · next items texts all =>
        cases refers
        rw [eq_map_str_of_texts all]
        intro reference member
        exact List.mem_filterMap.mpr ⟨.str reference, List.mem_map_of_mem member, rfl⟩
    · cases refers
  · cases refers

/-! ## What a step of expansion keeps -/

section Steps

variable {tree : SchemaTree} {owner : Text} {fields expanded : Fields}

/-- Laying an object over fragments brings in nothing but the content of files. -/
theorem fromFiles_of_expandWhole (keyed : Json.Keyed (.obj fields)) (origins : tree.FromFiles fields)
    (expands : (expandWhole (readFragment tree) owner fields).outcome = .ok expanded) :
    Json.Keyed (.obj expanded) ∧ tree.FromFiles expanded := by
  rcases exists_lay_of_expandWhole expands with ⟨fragments?, names, rfl⟩
  refine ⟨keyed_lay names.allKeyed keyed, fun path content shows => ?_⟩
  rcases shown?_of_shown?_lay keyed names.allKeyed shows with ⟨fragment, member, shows⟩ | ⟨_, shows⟩
  · exact fromFiles_of_expands names fragment member path content shows
  · exact origins path content shows

/-- So does laying its attributes over those of fragments. -/
theorem fromFiles_of_expandAttributes (keyed : Json.Keyed (.obj fields))
    (origins : tree.FromFiles fields)
    (expands : (expandAttributes (readFragment tree) owner fields).outcome = .ok expanded) :
    Json.Keyed (.obj expanded) ∧ tree.FromFiles expanded := by
  rcases exists_lay_of_expandAttributes expands with ⟨fragments?, names, rfl⟩
  cases inside : attributesIn fields with
  | none => exact ⟨keyed, origins⟩
  | some attributes =>
      have held := attributesIn_eq_some_iff.mp inside
      have own := keyed.of_get? held
      have lower := allKeyed_contributions names.allKeyed
      refine ⟨keyed.insert _ (keyed_lay lower own), fun path content shows => ?_⟩
      rcases path with _ | ⟨key, rest⟩
      · exact origins [] content shows
      rw [Fields.shown?_insert] at shows
      split at shows
      case isFalse => exact origins _ content shows
      case isTrue same =>
        subst same
        rcases shown?_of_shown?_lay own lower shows with ⟨contributed, member, shows⟩ | ⟨_, shows⟩
        · cases rest with
          | nil => exact origins _ content ((Json.shown?_of_get? held []).trans shows)
          | cons name place =>
              cases fragments? with
              | none => cases member
              | some fragments =>
                  rcases List.mem_map.1 member with ⟨fragment, within, rfl⟩
                  rw [Layers.shown?_contribution] at shows
                  exact fromFiles_of_expands names fragment within _ content shows
        · exact origins _ content ((Json.shown?_of_get? held rest).trans shows)

/-- Directives that are served name relative paths, if those of all files do. -/
theorem relative_of_namedBy (localFiles : forall (file : Path) (fragment : Fields),
      tree.Holds file fragment -> RefersLocally fragment)
    (origins : tree.FromFiles fields) {place : List Text} (served : ServedPlace place) {value : Json}
    (held : (Json.obj fields).at? place = some value) :
    ∀ reference ∈ namedBy value, (Path.parse reference).Relative := by
  cases leaf : value.isObject with
  | true =>
      cases value with
      | obj _ => exact List.forall_mem_nil _
      | _ => cases leaf
  | false =>
      have shows := Json.shown?_eq_some_some_iff.mpr ⟨leaf, held⟩
      rcases origins place (some value) shows with ⟨file, fragment, reads, shown⟩
      have there := (Json.shown?_eq_some_some_iff.mp shown).2
      exact localFiles file fragment (SchemaTree.readObject_eq_ok_iff.mp reads) value
        (mem_directives_of_at? served there)

end Steps

/-! ## Expansion below a home folder -/

section SeenFrom

variable {home : Path} {placed seen : SchemaTree} (seenFrom : SchemaTree.SeenFrom home placed seen)
  {owner : Text} {fields : Fields}

include seenFrom

theorem matches_readFragment (owner : Text) {reference : Text}
    (relative : (Path.parse reference).Relative) :
    Matches Eq (readFragment placed owner reference).outcome
      (readFragment seen owner reference).outcome := by
  have located := (seenFrom.child_home relative).2
  unfold readFragment locate
  rw [located]
  simp only [Report.outcome_bind]
  refine (seenFrom.matches_isFile (seenFrom.relative_child relative)).bind_same fun there _ => ?_
  cases there with
  | false => exact Matches.error rfl
  | true =>
      simp only [if_true, Report.outcome_bind, Report.outcome_note, Report.ok_bind]
      exact seenFrom.matches_readObject (seenFrom.relative_child relative)

theorem matches_fragments (owner : Text) {value : Json}
    (relative : ∀ reference ∈ namedBy value, (Path.parse reference).Relative) :
    Matches Eq (fragments (readFragment placed) owner value).outcome
      (fragments (readFragment seen) owner value).outcome := by
  unfold fragments
  simp only [Report.outcome_bind, Report.outcome_liftM, Report.outcome_mapM]
  refine (Matches.refl _).bind_same fun named refers => Matches.mapM fun reference member => ?_
  exact matches_readFragment seenFrom owner
    (relative reference (mem_namedBy_of_references refers reference member))

theorem matches_expandWhole (owner : Text)
    (relative : forall value : Json, fields.get? directive = some value ->
      ∀ reference ∈ namedBy value, (Path.parse reference).Relative) :
    Matches Eq (expandWhole (readFragment placed) owner fields).outcome
      (expandWhole (readFragment seen) owner fields).outcome := by
  unfold expandWhole
  split
  · exact Matches.refl _
  · exact Matches.refl _
  · next value _ held =>
      rw [Report.outcome_bind, Report.outcome_bind]
      exact (matches_fragments seenFrom owner (relative value held)).bind_same
        fun _ _ => Matches.refl _

theorem matches_expandAttributes (owner : Text)
    (relative : forall attributes : Fields, fields.get? "attributes" = some (.obj attributes) ->
      forall value : Json, attributes.get? directive = some value ->
        ∀ reference ∈ namedBy value, (Path.parse reference).Relative) :
    Matches Eq (expandAttributes (readFragment placed) owner fields).outcome
      (expandAttributes (readFragment seen) owner fields).outcome := by
  unfold expandAttributes
  split
  · next attributes held =>
      split
      · exact Matches.refl _
      · next value given =>
          rw [Report.outcome_bind, Report.outcome_bind]
          refine (matches_fragments seenFrom owner (relative attributes held value given)).bind_same
            fun layers _ => ?_
          split
          · exact Matches.refl _
          · exact Matches.refl _
  · exact Matches.refl _

theorem matches_expandEach (owner : Text)
    (relative : forall attributes : Fields, fields.get? "attributes" = some (.obj attributes) ->
      forall (name : Text) (definition : Fields), (name, .obj definition) ∈ attributes ->
        forall value : Json, definition.get? directive = some value ->
          ∀ reference ∈ namedBy value, (Path.parse reference).Relative) :
    Matches Eq (expandEach (readFragment placed) owner fields).outcome
      (expandEach (readFragment seen) owner fields).outcome := by
  unfold expandEach
  split
  · next attributes held =>
      rw [Report.outcome_bind, Report.outcome_bind, Report.outcome_mapM, Report.outcome_mapM]
      refine Matches.bind_same (Matches.mapM fun entry member => ?_) fun _ _ => Matches.refl _
      rcases entry with ⟨name, value⟩
      unfold expandAttribute
      split
      · next definition same =>
          dsimp only at same
          subst same
          rw [Report.outcome_bind, Report.outcome_bind]
          exact (matches_expandWhole seenFrom _ (relative attributes held name definition
            member)).bind_same fun _ _ => Matches.refl _
      · exact Matches.refl _
  · exact Matches.refl _

/-- A descriptor that is made of files expands to the same, wherever the schema lies. -/
theorem matches_expand (owner : Text)
    (localFiles : forall (file : Path) (fragment : Fields),
      seen.Holds file fragment -> RefersLocally fragment)
    (keyed : Json.Keyed (.obj fields)) (origins : seen.FromFiles fields) :
    Matches Eq (expand (readFragment placed) owner fields).outcome
      (expand (readFragment seen) owner fields).outcome := by
  unfold expand
  simp only [Report.outcome_bind]
  refine (matches_expandWhole seenFrom owner fun value held => ?_).bind_same fun whole first => ?_
  · refine relative_of_namedBy localFiles origins ServedPlace.root ?_
    rw [Json.at?_obj_cons, held]
    rfl
  rcases fromFiles_of_expandWhole keyed origins first with ⟨keyedWhole, ofWhole⟩
  refine (matches_expandAttributes seenFrom owner fun attributes held value given => ?_).bind_same
    fun middle second => ?_
  · refine relative_of_namedBy localFiles ofWhole ServedPlace.among ?_
    rw [Json.at?_obj_cons, held, Option.bind_some, Json.at?_obj_cons, given]
    rfl
  rcases fromFiles_of_expandAttributes keyedWhole ofWhole second with ⟨keyedMiddle, ofMiddle⟩
  refine matches_expandEach seenFrom owner fun attributes held name definition member value given => ?_
  refine relative_of_namedBy localFiles ofMiddle (ServedPlace.within name) ?_
  have found := (keyedMiddle.of_get? held).distinct.get?_eq_some_iff.mpr member
  rw [Json.at?_obj_cons, held, Option.bind_some, Json.at?_obj_cons, found, Option.bind_some,
    Json.at?_obj_cons, given]
  rfl

end SeenFrom

end Inclusion
end EventSchema
