import EventSchema.Proofs.Catalog.Listings

namespace EventSchema
namespace Catalog

/-!
# Two ways to a class

A class is found by its name or by its number.  Numbers need not be unique, so a
number leads to the first class that has it.  Where only one class has it both ways
lead to the same entry, and enriching an entry does not ask how it was found.

The name of the base event is the exception.  It stands for the set that all classes
share, which is taken before flattening; the base event as it is listed, flattened
and identified, is only found by its number.
-/

variable {catalog : Catalog} {uid : Int} {name : Text}

/-- The only listed class that has a number is that of the name. -/
def OnlyNumbered (catalog : Catalog) (uid : Int) (name : Text) : Prop :=
  (∃ entry ∈ catalog.classes, entry.1 = name ∧ entry.2.details.uid = some uid) ∧
    ∀ entry ∈ catalog.classes, entry.2.details.uid = some uid -> entry.1 = name

instance (catalog : Catalog) (uid : Int) (name : Text) :
    Decidable (catalog.OnlyNumbered uid name) :=
  inferInstanceAs (Decidable (_ ∧ _))

/-- Enriching neither adds nor removes an attribute. -/
theorem contains_enrich {δ : Type} (dictionary : Dictionary) (descriptor : Descriptor δ)
    (key : Text) :
    (enrich dictionary descriptor).attributes.contains key =
      descriptor.attributes.contains key := by
  rw [OrderedMap.contains, enrich, OrderedMap.get?_mapValues, Option.isSome_map,
    OrderedMap.contains]

theorem classNumbered?_eq_none_iff :
    catalog.classNumbered? (some uid) = none ↔
      ∀ entry ∈ catalog.classes, entry.2.details.uid ≠ some uid := by
  simp [classNumbered?, OrderedMap.values, List.find?_eq_none]

/-- A class that is found by a number is listed and has it. -/
theorem exists_listed_of_classNumbered? {cls : ClassDescriptor}
    (found : catalog.classNumbered? (some uid) = some cls) :
    ∃ key, (key, cls) ∈ catalog.classes ∧ cls.details.uid = some uid := by
  have held : cls.details.uid = some uid := by simpa using List.find?_some found
  rcases List.mem_map.1 (List.mem_of_find?_eq_some found) with ⟨⟨key, _⟩, listed, rfl⟩
  exact ⟨key, listed, held⟩

theorem outcome_findClassNumbered_eq_none_iff :
    (catalog.findClassNumbered (some uid)).outcome = .ok none ↔
      ∀ entry ∈ catalog.classes, entry.2.details.uid ≠ some uid := by
  rw [findClassNumbered, outcome_enrichFound, Except.ok.injEq, Option.map_eq_none_iff,
    classNumbered?_eq_none_iff]

/-- A number of one class alone leads to the entry of that class. -/
theorem OnlyNumbered.classNumbered?_eq (only : catalog.OnlyNumbered uid name)
    (distinct : catalog.classes.keys.Nodup) :
    ∃ cls, catalog.classNumbered? (some uid) = some cls ∧
      catalog.classes.get? name = some cls := by
  rcases only with ⟨⟨entry, member, _, numbered⟩, only⟩
  have present : catalog.classNumbered? (some uid) ≠ none := fun missing =>
    classNumbered?_eq_none_iff.mp missing entry member numbered
  rcases Option.ne_none_iff_exists'.mp present with ⟨cls, found⟩
  rcases exists_listed_of_classNumbered? found with ⟨key, listed, held⟩
  have same : key = name := only (key, cls) listed held
  subst same
  exact ⟨cls, found, OrderedMap.Distinct.get?_eq_some_iff distinct |>.mpr listed⟩

/-- A number leads to no class of a loaded catalog exactly where no listed class has
it.  A number that one class alone has leads to what the name of that class leads to.
For the base event the number leads to the listed class, while the name leads to the
base event as it is described. -/
theorem load_finds_numbered (tree : SchemaTree) (catalog : Catalog)
    (loads : (load tree).outcome = .ok catalog) (uid : Int) :
    ((catalog.findClassNumbered (some uid)).outcome = .ok none ↔
      ∀ entry ∈ catalog.classes, entry.2.details.uid ≠ some uid) ∧
    forall name : Text, catalog.OnlyNumbered uid name ->
      (name ≠ Identifiers.baseEvent ->
        catalog.findClassNumbered (some uid) = catalog.findClass name) ∧
      (name = Identifiers.baseEvent ->
        ∃ declared classes cls common, tree.classDeclarations.outcome = .ok declared ∧
          (describeAll tree declared).outcome = .ok classes ∧
          catalog.classes.get? name = some cls ∧ (linkAll classes).get? name = some common ∧
          catalog.findClassNumbered (some uid) = enrichFound catalog.dictionary (some cls) ∧
          catalog.findClass name = enrichFound catalog.dictionary (some common)) := by
  rcases exists_stages loads with ⟨stages⟩
  refine ⟨outcome_findClassNumbered_eq_none_iff, fun name only => ?_⟩
  rcases only.classNumbered?_eq stages.nodup_classes with ⟨cls, numbered, named⟩
  have byNumber : catalog.findClassNumbered (some uid) =
      enrichFound catalog.dictionary (some cls) := by
    rw [findClassNumbered, numbered]
  constructor
  · intro ordinary
    rw [byNumber, findClass, class?, if_neg ordinary, named]
  · rintro rfl
    have declared := (stages.mem_keys_classes_iff.mp
      (OrderedMap.mem_keys_of_get?_eq_some named)).1
    rw [← stages.describedClasses.keys, ← keys_linkAll] at declared
    rcases OrderedMap.exists_get?_of_mem_keys declared with ⟨common, held⟩
    refine ⟨_, _, cls, common, stages.declaresClasses, stages.describesClasses, named, held,
      byNumber, ?_⟩
    rw [findClass, class?, if_pos rfl, stages.takesCommon, held]

/-- A schema whose base event has a number of its own, with a class that extends it. -/
def numberedBaseTree : SchemaTree :=
  let files : MemoryTree :=
    { files :=
        [(Path.parse "s/categories.json", "\x7b\"attributes\": \x7b\"net\": \x7b\"id\": 4\x7d\x7d\x7d"),
         (Path.parse "s/dictionary.json", "\x7b\x7d"),
         (Path.parse "s/events/base.json",
           "\x7b\"type\": \"base_event\", \"uid\": 0, \"category\": \"net\"\x7d"),
         (Path.parse "s/events/flow.json",
           "\x7b\"type\": \"flow\", \"uid\": 7, \"extends\": \"base_event\"\x7d")]
      unreadable := [] }
  SchemaTree.below files.source (Path.parse "s") "extensions"

/-- Its class is found under the number and under the name alike. -/
theorem load_finds_numbered_flow :
    ∃ catalog, (load numberedBaseTree).outcome = .ok catalog ∧ catalog.OnlyNumbered 7 "flow" ∧
      catalog.findClassNumbered (some 7) = catalog.findClass "flow" ∧
      (catalog.findClassNumbered (some 7)).outcome ≠ .ok none := by
  have computed : (load numberedBaseTree).outcome.toOption.map
      (fun catalog => decide (catalog.OnlyNumbered 7 "flow")) = some true := by
    decide +kernel
  rcases Option.map_eq_some_iff.mp computed with ⟨catalog, loaded, decided⟩
  have loads := Outcome.toOption_eq_some_iff.mp loaded
  have only : catalog.OnlyNumbered 7 "flow" := of_decide_eq_true decided
  rcases load_finds_numbered numberedBaseTree catalog loads 7 with ⟨missing, found⟩
  refine ⟨catalog, loads, only, (found "flow" only).1 (by decide), fun none => ?_⟩
  rcases only.1 with ⟨entry, member, _, numbered⟩
  exact missing.mp none entry member numbered

/-- Its base event has the enumeration of its number if it is found under that number,
and has no attribute if it is found under its name. -/
theorem findClass_base_event_ne_numbered :
    ∃ catalog, (load numberedBaseTree).outcome = .ok catalog ∧
      catalog.OnlyNumbered 0 Identifiers.baseEvent ∧
      (catalog.findClassNumbered (some 0)).outcome ≠
        (catalog.findClass Identifiers.baseEvent).outcome := by
  have computed : (load numberedBaseTree).outcome.toOption.map
      (fun catalog => decide (catalog.OnlyNumbered 0 Identifiers.baseEvent ∧
        (catalog.classNumbered? (some 0)).map (fun cls => cls.attributes.contains "class_id") =
          some true ∧
        (catalog.class? Identifiers.baseEvent).map (fun cls =>
          cls.attributes.contains "class_id") = some false)) = some true := by
    decide +kernel
  rcases Option.map_eq_some_iff.mp computed with ⟨catalog, loaded, decided⟩
  rcases of_decide_eq_true decided with ⟨only, numbered, named⟩
  refine ⟨catalog, Outcome.toOption_eq_some_iff.mp loaded, only, fun same => ?_⟩
  rcases Option.map_eq_some_iff.mp numbered with ⟨cls, byNumber, held⟩
  rcases Option.map_eq_some_iff.mp named with ⟨common, byName, missing⟩
  rw [findClassNumbered, findClass, byNumber, byName, outcome_enrichFound,
    outcome_enrichFound] at same
  have alike : enrich catalog.dictionary cls = enrich catalog.dictionary common :=
    Option.some.inj (Except.ok.inj same)
  have differ := congrArg (fun enriched => enriched.attributes.contains "class_id") alike
  simp only [contains_enrich, held, missing] at differ
  cases differ

end Catalog
end EventSchema
