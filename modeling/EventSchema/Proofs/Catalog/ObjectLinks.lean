import EventSchema.Proofs.BackReferences.Ties
import EventSchema.Proofs.Catalog.Enrichment

namespace EventSchema
namespace Catalog

/-!
# The links of listed objects

An object that the dictionary names as a type shows the links that arrive there, sorted
by group and type.  They are collected as a set, and the order of the set does not
matter as long as no link that is left over from the file of the dictionary leads to the
same place as another one under a different caption.  Nothing keeps such links out, so
the sorted list may depend on the order of the set (`load_ties_links`).

An object that the dictionary does not name keeps the links of its files.
-/

open BackReferences Inheritance

/-! ## Links of an object -/

/-- The links of an object that the dictionary names as a type are all that arrive there, in
order.  They lead to different places, and any order of their set is sorted to the same
list, exactly if they are not tied. -/
structure ShowsArrivals (dictionary : Dictionary) (users : Text -> Link -> Prop) (type : Text)
    (links : List Link) : Prop where
  lists : ListsOnce (Arrives dictionary users type) links
  sorted : links.Pairwise fun left right => precedes left right = true
  apart : (links.map target).Nodup ↔ Untied dictionary users type
  settled : (forall order : List Link, ListsOnce (Arrives dictionary users type) order ->
    Sorting.sort precedes order = links) ↔ Untied dictionary users type

/-- What a listed object shows as its links: those that arrive there if the dictionary
names it, and those of the nearest description on its lineage that has any otherwise. -/
structure ShowsLinks (dictionary : Dictionary) (described : Hierarchy ObjectDetails)
    (users : Text -> Link -> Prop) (type : Text) (object : ObjectDescriptor) : Prop where
  named : Names dictionary type -> ∃ links, object.details.links = some links ∧
    ShowsArrivals dictionary users type links
  unnamed : ¬Names dictionary type -> ∃ chain, Lineage described type chain ∧
    object.details.links = chain.findSome? fun descriptor => descriptor.details.links

section Stages

variable {tree : SchemaTree} {catalog : Catalog} (stages : Stages tree catalog)

include stages

/-- The objects use the same attributes before and after they learn of their links. -/
theorem Stages.usedBy_eq :
    UsedBy catalog.common catalog.classes stages.concreteObjects =
      UsedBy catalog.common catalog.classes catalog.objects := by
  funext name link
  refine propext ⟨fun used => ?_, stages.usedBy_concreteObjects⟩
  cases used with
  | common shared held has => exact .common shared held has
  | eventClass type cls listed has => exact .eventClass type cls listed has
  | object type object listed has =>
      rcases Outcome.exists_of_mem_right stages.forall₂_objects.flip (type, object) listed with
        ⟨⟨_, after⟩, within, rfl, same⟩
      change after = { object with details := after.details } at same
      have shown : after.displayName = object.displayName := by rw [same]; rfl
      rw [← shown]
      exact .object _ after within (by rw [same]; exact has)

/-- The links of a listed object are those that arrive there or those of its files. -/
theorem Stages.showsLinks {entry : Text × ObjectDescriptor} (member : entry ∈ catalog.objects) :
    ShowsLinks stages.dictionary stages.objects
      (UsedBy catalog.common catalog.classes catalog.objects) entry.1 entry.2 := by
  let classes : KeyedMap Text ClassDescriptor := ⟨catalog.classes, stages.nodup_classes⟩
  let concrete : KeyedMap Text ObjectDescriptor :=
    ⟨stages.concreteObjects, stages.settledObjects.1.distinct.filter _⟩
  have objectsDistinct : catalog.objects.Distinct := stages.nodup_objects
  have listed : entry.1 ∈ stages.concreteObjects.keys :=
    stages.keys_objects ▸ OrderedMap.mem_keys_of_mem member
  obtain ⟨before, found⟩ := OrderedMap.exists_get?_of_mem_keys listed
  have updates : ∃ after, catalog.objects.get? entry.1 = some after ∧
      ListsArrivals (Names stages.dictionary entry.1)
        (Arrives stages.dictionary
          (UsedBy catalog.common catalog.classes stages.concreteObjects) entry.1) before after :=
    listsArrivals_of_updates stages.updatesDictionary stages.updatesObjects found
  obtain ⟨after, reached, lists⟩ := updates
  have shows : after = entry.2 :=
    Option.some.inj (reached.symm.trans (objectsDistinct.get?_eq_some_iff.mpr member))
  subst shows
  constructor
  · intro named
    rcases lists.named named with ⟨links, once, sorted, same⟩
    have apart := nodup_target_iff classes concrete once
    rw [stages.usedBy_eq] at once apart
    exact ⟨links, by rw [same], once, sorted, apart, (forall_sort_eq_iff once sorted).trans apart⟩
  · intro unnamed
    have kept := List.mem_of_mem_filter (OrderedMap.mem_of_get?_eq_some found)
    have settled := stages.settledObjects.1
    rcases settled.settles entry.1 before (settled.distinct.get?_eq_some_iff.mpr kept) with
      ⟨own, above, lineage, rfl⟩
    rw [lists.unnamed unnamed]
    exact ⟨own :: above, lineage, (nearestObjectDetails_combineAll own above).links⟩

end Stages

/-! ## Loading -/

/-- Every listed object of a loaded catalog that the dictionary names shows exactly the
links that arrive there, sorted.  No two of them lead to the same place, and the order
in which their set is gone through does not matter, if and only if no link that is left
over in the dictionary ties with another one.  Every other object keeps the links of its
files. -/
theorem load_tells_links_apart_iff (tree : SchemaTree) (catalog : Catalog)
    (loads : (load tree).outcome = .ok catalog) :
    ∃ (dictionary : Dictionary) (declared : Declarations)
        (described : Hierarchy ObjectDetails),
      tree.dictionary.outcome = .ok dictionary ∧
      tree.objectDeclarations.outcome = .ok declared ∧
      (describeAll tree declared).outcome = .ok described ∧
      ∀ entry ∈ catalog.objects, ShowsLinks dictionary described
        (UsedBy catalog.common catalog.classes catalog.objects) entry.1 entry.2 := by
  rcases exists_stages loads with ⟨stages⟩
  exact ⟨stages.dictionary, stages.declaredObjects, stages.objects, stages.readsDictionary,
    stages.declaresObjects, stages.describesObjects, fun _ => stages.showsLinks⟩

/-- The links that a listed object shows. -/
def linksOf? (catalog : Catalog) (type : Text) : Option (List Link) :=
  (catalog.objects.get? type).bind fun object => object.details.links

/-- A schema with an attribute of each kind: a class uses the one, and the other holds two
links in the file of the dictionary.  The folder is named by no attribute and extends a
template with links. -/
def linkedTree : SchemaTree :=
  let files : MemoryTree :=
    { files :=
        [(Path.parse "s/categories.json", "\x7b\"attributes\": \x7b\"net\": \x7b\"id\": 4\x7d\x7d\x7d"),
         (Path.parse "s/dictionary.json",
           "\x7b\"attributes\": \x7b\"actor\": \x7b\"object_type\": \"user\"\x7d,
             \"owner\": \x7b\"object_type\": \"user\", \"_links\": [
               \x7b\"group\": \"class\", \"type\": \"login\", \"caption\": \"Login\"\x7d,
               \x7b\"group\": \"class\", \"type\": \"exit\"\x7d]\x7d\x7d\x7d"),
         (Path.parse "s/events/login.json",
           "\x7b\"type\": \"login\", \"name\": \"Login\", \"uid\": 1, \"category\": \"net\",
             \"attributes\": \x7b\"actor\": \x7b\x7d\x7d\x7d"),
         (Path.parse "s/objects/any.json",
           "\x7b\"type\": \"_any\", \"links\": [\x7b\"group\": \"object\", \"type\": \"file\"\x7d]\x7d"),
         (Path.parse "s/objects/folder.json", "\x7b\"type\": \"folder\", \"extends\": \"_any\"\x7d"),
         (Path.parse "s/objects/user.json", "\x7b\"type\": \"user\"\x7d")]
      unreadable := [] }
  SchemaTree.below files.source (Path.parse "s") "extensions"

/-- The link to the class arrives at the user from both attributes and is shown once. -/
theorem load_tells_links_apart_of_used_and_left_over :
    ∃ catalog, (load linkedTree).outcome = .ok catalog ∧
      linksOf? catalog "user" =
        some [⟨"class", "exit", none⟩, ⟨"class", "login", some "Login"⟩] ∧
      linksOf? catalog "folder" = some [⟨"object", "file", none⟩] ∧
      ∃ dictionary declared described, linkedTree.dictionary.outcome = .ok dictionary ∧
        linkedTree.objectDeclarations.outcome = .ok declared ∧
        (describeAll linkedTree declared).outcome = .ok described ∧
        ∀ entry ∈ catalog.objects, ShowsLinks dictionary described
          (UsedBy catalog.common catalog.classes catalog.objects) entry.1 entry.2 := by
  have computed : (load linkedTree).outcome.toOption.map (fun catalog =>
      (linksOf? catalog "user", linksOf? catalog "folder")) =
        some (some [⟨"class", "exit", none⟩, ⟨"class", "login", some "Login"⟩],
          some [⟨"object", "file", none⟩]) := by
    decide +kernel
  rcases Option.map_eq_some_iff.mp computed with ⟨catalog, loaded, rows⟩
  rcases Prod.mk.inj rows with ⟨user, folder⟩
  have loads := Outcome.toOption_eq_some_iff.mp loaded
  exact ⟨catalog, loads, user, folder, load_tells_links_apart_iff linkedTree catalog loads⟩

/-- A schema whose dictionary holds two links to one class under different captions, with
an attribute that nobody uses. -/
def tiedTree : SchemaTree :=
  let files : MemoryTree :=
    { files :=
        [(Path.parse "s/categories.json", "\x7b\x7d"),
         (Path.parse "s/dictionary.json",
           "\x7b\"attributes\": \x7b\"owner\": \x7b\"object_type\": \"user\", \"_links\": [
             \x7b\"group\": \"class\", \"type\": \"login\", \"caption\": \"A\"\x7d,
             \x7b\"group\": \"class\", \"type\": \"login\", \"caption\": \"B\"\x7d]\x7d\x7d\x7d"),
         (Path.parse "s/objects/user.json", "\x7b\"type\": \"user\"\x7d")]
      unreadable := [] }
  SchemaTree.below files.source (Path.parse "s") "extensions"

/-- It loads, and the user shows both links, which lead to the same place.  Another order of
the same set is sorted to another list. -/
theorem load_ties_links :
    ∃ catalog links order, (load tiedTree).outcome = .ok catalog ∧
      linksOf? catalog "user" = some links ∧ ¬(links.map target).Nodup ∧
      order.Perm links ∧ Sorting.sort precedes order ≠ links := by
  have computed : (load tiedTree).outcome.toOption.bind (fun catalog => linksOf? catalog "user") =
      some [⟨"class", "login", some "A"⟩, ⟨"class", "login", some "B"⟩] := by
    decide +kernel
  rcases Option.bind_eq_some_iff.mp computed with ⟨catalog, loaded, shown⟩
  refine ⟨catalog, _, [⟨"class", "login", some "B"⟩, ⟨"class", "login", some "A"⟩],
    Outcome.toOption_eq_some_iff.mp loaded, shown, by decide, .swap _ _ _, by decide⟩

end Catalog
end EventSchema
