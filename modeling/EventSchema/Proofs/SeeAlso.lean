import EventSchema.Proofs.Catalog.Loading
import EventSchema.Proofs.Inheritance.Records

namespace EventSchema
namespace SeeAlso

/-!
# Linking before and after flattening

Related classes may be linked to references before classes are flattened or
afterwards.  A class then has the first list on its lineage that links to anything,
or the first list on its lineage, linked.  These differ in two ways.  A list that
links to nothing is dropped in both cases, but only what is dropped before flattening
makes place for the list of an ancestor.  And a reference takes its caption from the
class as it is declared or as it is flattened.

Nothing else differs, so the two orders agree on a class exactly where neither way
has an effect on it.
-/

open Inheritance

/-- Link related classes and then flatten. -/
def linkThenFlatten (kind : DescriptorKind) (classes : Hierarchy ClassDetails) :
    Report (Hierarchy ClassDetails) := do
  let linked ← link classes
  flatten kind linked

/-- Flatten and then link related classes. -/
def flattenThenLink (kind : DescriptorKind) (classes : Hierarchy ClassDetails) :
    Report (Hierarchy ClassDetails) := do
  let flattened ← flatten kind classes
  link flattened

/-! ## Lists that link alike -/

section Lists

variable {classes other : Hierarchy ClassDetails} {entries : List Related}

/-- Two ways to filter a list that keep the same members agree if they agree on each. -/
theorem filterMap_eq_iff {α β : Type} {f g : α -> Option β} {items : List α}
    (same : ∀ item ∈ items, f item = none ↔ g item = none) :
    items.filterMap f = items.filterMap g ↔ ∀ item ∈ items, f item = g item := by
  induction items with
  | nil => simp
  | cons head rest ih =>
      have later := ih fun item member => same item (List.mem_cons_of_mem _ member)
      have here := same head List.mem_cons_self
      rw [List.forall_mem_cons, ← later]
      cases first : f head with
      | none =>
          have alike : g head = none := here.mp first
          rw [List.filterMap_cons_none first, List.filterMap_cons_none alike, alike]
          simp
      | some value =>
          cases second : g head with
          | none => cases first.symm.trans (here.mpr second)
          | some held =>
              rw [List.filterMap_cons_some first, List.filterMap_cons_some second, List.cons.injEq,
                Option.some.injEq]

theorem resolveAll_eq_none_iff :
    resolveAll classes entries = none ↔ ∀ entry ∈ entries, resolve? classes entry = none := by
  rw [← List.filterMap_eq_nil_iff, resolveAll]
  split <;> simp_all

/-- Lists of references are told apart by what they link to. -/
theorem resolveAll_eq_iff :
    resolveAll classes entries = resolveAll other entries ↔
      entries.filterMap (resolve? classes) = entries.filterMap (resolve? other) := by
  have distinct : Function.Injective (List.map Related.link) :=
    List.map_injective_iff.mpr fun _ _ same => Related.link.inj same
  unfold resolveAll
  cases entries.filterMap (resolve? classes) with
  | nil => cases entries.filterMap (resolve? other) <;> simp
  | cons first rest =>
      cases entries.filterMap (resolve? other) with
      | nil => simp
      | cons second more => rw [Option.some.injEq, distinct.eq_iff]

/-- Whether an entry links to a class depends on the names of classes alone. -/
theorem resolve?_eq_none_iff_of_keys
    (keys : forall name : Text, name ∈ other.keys ↔ name ∈ classes.keys) (entry : Related) :
    resolve? classes entry = none ↔ resolve? other entry = none := by
  cases entry with
  | link reference => simp [resolve?]
  | name target =>
      rw [resolve?, resolve?, Option.map_eq_none_iff, Option.map_eq_none_iff,
        OrderedMap.get?_eq_none_iff, OrderedMap.get?_eq_none_iff, keys]

/-- Every class that a list names has the same name in both hierarchies. -/
def SameCaptions (classes other : Hierarchy ClassDetails) (entries : List Related) : Prop :=
  forall (target : Text) (own changed : ClassDescriptor), Related.name target ∈ entries ->
    classes.get? target = some own -> other.get? target = some changed -> own.name = changed.name

/-- Among the same classes, a list links alike if it does not name a class whose name
differs. -/
theorem resolveAll_eq_iff_sameCaptions
    (keys : forall name : Text, name ∈ other.keys ↔ name ∈ classes.keys) :
    resolveAll classes entries = resolveAll other entries ↔
      SameCaptions classes other entries := by
  rw [resolveAll_eq_iff, filterMap_eq_iff fun entry _ => resolve?_eq_none_iff_of_keys keys entry]
  constructor
  · intro same target own changed member found held
    have alike := same (.name target) member
    rw [resolve?, resolve?, found, held] at alike
    simpa using alike
  · intro same entry member
    cases entry with
    | link reference => rfl
    | name target =>
        rw [resolve?, resolve?]
        cases found : classes.get? target with
        | none =>
            have missing := (OrderedMap.get?_eq_none_iff classes target).mp found
            have alsoMissing := (OrderedMap.get?_eq_none_iff other target).mpr
              fun known => missing ((keys target).mp known)
            rw [alsoMissing]
        | some own =>
            have known := (keys target).mpr (OrderedMap.mem_keys_of_get?_eq_some found)
            rcases OrderedMap.exists_get?_of_mem_keys known with ⟨changed, held⟩
            rw [held, Option.map_some, Option.map_some, same target own changed member found held]

end Lists

/-! ## Lists on a lineage -/

section Chains

variable {classes other : Hierarchy ClassDetails} {chain : List ClassDescriptor}
  {entries : List Related}

/-- The related classes that are declared nearest on a chain. -/
def nearestList (chain : List ClassDescriptor) : Option (List Related) :=
  chain.findSome? fun cls => cls.details.seeAlso

/-- The first list on a chain that links to anything, linked. -/
def firstLinked (classes : Hierarchy ClassDetails) (chain : List ClassDescriptor) :
    Option (List Related) :=
  chain.findSome? fun cls => cls.details.seeAlso.bind (resolveAll classes)

/-- Nothing that is linked hides another list: if the nearest list links to something,
the classes that it names keep their names, and otherwise no list does. -/
structure Indifferent (classes other : Hierarchy ClassDetails) (chain : List ClassDescriptor) :
    Prop where
  captions : forall entries : List Related, nearestList chain = some entries ->
    resolveAll classes entries ≠ none -> SameCaptions classes other entries
  emptied : forall entries : List Related, nearestList chain = some entries ->
    resolveAll classes entries = none ->
    ∀ cls ∈ chain, forall declared : List Related, cls.details.seeAlso = some declared ->
      resolveAll classes declared = none

/-- A nearest list that links to something is the first one that does. -/
theorem firstLinked_of_nearestList {linked : List Related}
    (nearest : nearestList chain = some entries) (links : resolveAll classes entries = some linked) :
    firstLinked classes chain = some linked := by
  induction chain with
  | nil => cases nearest
  | cons own rest ih =>
      rw [nearestList, findSome?_cons_eq_or] at nearest
      rw [firstLinked, findSome?_cons_eq_or]
      cases held : own.details.seeAlso with
      | none =>
          rw [held, Option.none_or] at nearest
          rw [Option.bind_none, Option.none_or]
          exact ih nearest
      | some declared =>
          rw [held, Option.some_or] at nearest
          cases nearest
          rw [Option.bind_some, links, Option.some_or]

theorem firstLinked_eq_none_iff :
    firstLinked classes chain = none ↔ ∀ cls ∈ chain, forall declared : List Related,
      cls.details.seeAlso = some declared -> resolveAll classes declared = none := by
  rw [firstLinked, List.findSome?_eq_none_iff]
  simp only [Option.bind_eq_none_iff]

/-- The first list that links to something is the nearest list, linked among the same
classes, exactly where nothing makes a difference. -/
theorem firstLinked_eq_iff (keys : forall name : Text, name ∈ other.keys ↔ name ∈ classes.keys) :
    firstLinked classes chain = (nearestList chain).bind (resolveAll other) ↔
      Indifferent classes other chain := by
  cases nearest : nearestList chain with
  | none =>
      have none : firstLinked classes chain = none := by
        rw [nearestList, List.findSome?_eq_none_iff] at nearest
        refine firstLinked_eq_none_iff.mpr fun cls member declared held => ?_
        cases (nearest cls member).symm.trans held
      refine iff_of_true none ⟨fun _ found => ?_, fun _ found => ?_⟩
      · cases nearest.symm.trans found
      · cases nearest.symm.trans found
  | some entries =>
      have only : forall declared : List Related, nearestList chain = some declared ->
          declared = entries := fun _ found => (Option.some.inj (nearest.symm.trans found)).symm
      have alike : resolveAll classes entries = resolveAll other entries ↔
          SameCaptions classes other entries := resolveAll_eq_iff_sameCaptions keys
      rw [Option.bind_some]
      cases linked : resolveAll classes entries with
      | some references =>
          rw [firstLinked_of_nearestList nearest linked, ← linked, alike]
          refine ⟨fun same => ⟨fun declared found _ => only declared found ▸ same, ?_⟩, ?_⟩
          · intro declared found empty
            cases linked.symm.trans (only declared found ▸ empty)
          · exact fun indifferent => indifferent.captions entries nearest (by simp [linked])
      | none =>
          -- Both hierarchies have the same classes, so the list is empty in either order.
          have empty : resolveAll other entries = none := by
            rw [resolveAll_eq_none_iff] at linked ⊢
            exact fun entry member =>
              (resolve?_eq_none_iff_of_keys keys entry).mp (linked entry member)
          rw [empty, firstLinked_eq_none_iff]
          refine ⟨fun all => ⟨fun declared found links => ?_, fun _ _ _ => all⟩, ?_⟩
          · exact absurd (only declared found ▸ linked) links
          · exact fun indifferent => indifferent.emptied entries nearest linked

end Chains

/-! ## Both orders -/

/-- Classes flatten in both orders if they flatten at all.  Linked first, a class has the
first list of its lineage that links to anything; linked last, it has the nearest list of
its lineage, linked to the flattened classes.  These agree exactly where linking hides no
other list. -/
theorem orders_agree_iff (kind : DescriptorKind) (classes flattened : Hierarchy ClassDetails)
    (wellFormed : WellFormed classes) (success : (flatten kind classes).outcome = .ok flattened) :
    ∃ before after, (linkThenFlatten kind classes).outcome = .ok before ∧
      (flattenThenLink kind classes).outcome = .ok after ∧
      ∀ name ∈ classes.keys, ∃ chain early late, Lineage classes name chain ∧
        before.get? name = some early ∧ after.get? name = some late ∧
        early.details.seeAlso = firstLinked classes chain ∧
        late.details.seeAlso = (nearestList chain).bind (resolveAll flattened) ∧
        (early.details.seeAlso = late.details.seeAlso ↔ Indifferent classes flattened chain) := by
  rcases grounded_of_flatten wellFormed success with ⟨_, names, grounded⟩
  have linkedWellFormed := Catalog.wellFormed_linkAll wellFormed
  obtain ⟨before, inherits⟩ :=
    exists_flatten_of_grounded linkedWellFormed kind fun name member => by
      rw [Catalog.keys_linkAll] at member
      rcases grounded name member with ⟨chain, lineage⟩
      exact ⟨_, Catalog.lineage_linkAll_iff.mpr ⟨chain, lineage, rfl⟩⟩
  refine ⟨before, Catalog.linkAll flattened, ?_, ?_, fun name member => ?_⟩
  · rw [linkThenFlatten, Report.outcome_bind, Catalog.outcome_link, Report.ok_bind, inherits]
  · rw [flattenThenLink, Report.outcome_bind, success, Report.ok_bind, Catalog.outcome_link]
  rcases grounded name member with ⟨chain, lineage⟩
  cases chain with
  | nil => cases lineage
  | cons own above =>
      have settled := get?_of_flatten wellFormed success lineage
      have linked := get?_of_flatten linkedWellFormed inherits
        (Catalog.lineage_linkAll_iff.mpr ⟨own :: above, lineage, rfl⟩)
      have early := (nearestClassDetails_combineAll (linkOne classes own)
        (above.map (linkOne classes))).seeAlso
      have late := (nearestClassDetails_combineAll own above).seeAlso
      rw [← List.map_cons, List.findSome?_map] at early
      refine ⟨own :: above, _, linkOne flattened (own.combineAll above), lineage, linked, ?_, early,
        congrArg (Option.bind · (resolveAll flattened)) late, ?_⟩
      · rw [Catalog.linkAll, OrderedMap.get?_mapValues, settled, Option.map_some]
      · have keys : forall other : Text, other ∈ flattened.keys ↔ other ∈ classes.keys :=
          fun _ => names.mem_iff
        rw [early, linkOne, late]
        exact firstLinked_eq_iff keys

/-- A class with one related class, whose parent has another one. -/
def relatedClasses (related : Text) : Hierarchy ClassDetails :=
  [("child", { bareClass "child" (some "parent") with
      details := ⟨some 7, none, some [.name related]⟩ }),
   ("parent", { bareClass "parent" none with details := ⟨none, none, some [.name "other"]⟩ }),
   ("other", { bareClass "other" none with name := some "Other" })]

/-- The related classes that a hierarchy lists for the child. -/
def ofChild (flattened : Report (Hierarchy ClassDetails)) : Option (Option (List Related)) :=
  (flattened.outcome.toOption.bind fun classes => classes.get? "child").map fun cls =>
    cls.details.seeAlso

/-- Where the class names another one, both orders agree on it. -/
theorem orders_agree_iff_other :
    ∃ flattened chain, WellFormed (relatedClasses "other") ∧
      (flatten .eventClass (relatedClasses "other")).outcome = .ok flattened ∧
      Lineage (relatedClasses "other") "child" chain ∧
      Indifferent (relatedClasses "other") flattened chain ∧
      firstLinked (relatedClasses "other") chain = some [.link ⟨"other", some "Other"⟩] := by
  have wellFormed : WellFormed (relatedClasses "other") := by decide
  have flattens : (flatten .eventClass (relatedClasses "other")).outcome.toOption.isSome = true := by
    decide +kernel
  have first : ofChild (linkThenFlatten .eventClass (relatedClasses "other")) =
      some (some [.link ⟨"other", some "Other"⟩]) := by
    decide +kernel
  have last : ofChild (flattenThenLink .eventClass (relatedClasses "other")) =
      some (some [.link ⟨"other", some "Other"⟩]) := by
    decide +kernel
  rcases Option.isSome_iff_exists.mp flattens with ⟨flattened, flattenedTo⟩
  have success := Outcome.toOption_eq_some_iff.mp flattenedTo
  rcases orders_agree_iff .eventClass (relatedClasses "other") flattened wellFormed success with
    ⟨before, after, linkedFirst, linkedLast, each⟩
  rcases each "child" (by decide) with ⟨chain, early, late, lineage, held, found, links, _, agree⟩
  rw [ofChild, linkedFirst, Outcome.toOption_eq_some_iff.mpr rfl, Option.bind_some, held] at first
  rw [ofChild, linkedLast, Outcome.toOption_eq_some_iff.mpr rfl, Option.bind_some, found] at last
  have same : early.details.seeAlso = late.details.seeAlso :=
    Option.some.inj (first.trans last.symm)
  exact ⟨flattened, chain, wellFormed, success, lineage, agree.mp same,
    links.symm.trans (Option.some.inj first)⟩

/-- Where the class names none, it takes the related class of its parent if classes are
linked before they are flattened, and has none if they are linked afterwards. -/
theorem orders_disagree_on_dropped_list :
    WellFormed (relatedClasses "ghost") ∧
      (flatten .eventClass (relatedClasses "ghost")).outcome.toOption.isSome = true ∧
      ofChild (linkThenFlatten .eventClass (relatedClasses "ghost")) =
        some (some [.link ⟨"other", some "Other"⟩]) ∧
      ofChild (flattenThenLink .eventClass (relatedClasses "ghost")) = some none := by
  refine ⟨by decide, ?_, ?_, ?_⟩
  · decide +kernel
  · decide +kernel
  · decide +kernel

end SeeAlso
end EventSchema
