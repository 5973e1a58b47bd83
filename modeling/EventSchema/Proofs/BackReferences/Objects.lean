import EventSchema.Proofs.BackReferences
import EventSchema.Proofs.BackReferences.Users

namespace EventSchema
namespace BackReferences

/-!
# What the objects say about users

An entry of the dictionary that names an object as its type passes the users of
its attribute on to that object.  Where the dictionary holds no links of its own
and no object type that is a list or an object, this always succeeds: the links
were just written, so they are read back as they are.  What an object then lists
are the descriptors that reach it through some attribute of its type, each once
however many such attributes it has.
-/

variable {δ : Type} {index : OrderedMap Text (List Link)} {entries : OrderedMap Text Fields}
  {objects : OrderedMap Text δ}

/-! ## Links that are passed on -/

/-- A definition names an object as its type. -/
def OfType (definition : Fields) (type : Text) : Prop :=
  definition.get? "object_type" = some (.str type)

/-- The links that an entry passes on, and the object to which it does. -/
def passedOn (index : OrderedMap Text (List Link)) (objects : OrderedMap Text δ)
    (entry : Text × Fields) : Option (Text × List Link) :=
  match OrderedMap.get? entry.2 "object_type" with
  | some (.str type) =>
      if type ∈ objects.keys then some (type, arrange (listed index entry.1)) else none
  | _ => none

theorem passedOn_eq_some_iff {entry : Text × Fields} {type : Text} {links : List Link} :
    passedOn index objects entry = some (type, links) ↔
      OfType entry.2 type ∧ type ∈ objects.keys ∧ links = arrange (listed index entry.1) := by
  unfold passedOn OfType
  split
  · next other found =>
      rw [found]
      by_cases known : other ∈ objects.keys
      · simp only [known, if_true, Option.some.injEq, Prod.mk.injEq, Json.str.injEq]
        constructor
        · rintro ⟨rfl, rfl⟩
          exact ⟨rfl, known, rfl⟩
        · rintro ⟨rfl, _, rfl⟩
          exact ⟨rfl, rfl⟩
      · simp only [known, if_false, reduceCtorEq, Option.some.injEq, Json.str.injEq, false_iff]
        rintro ⟨rfl, present, _⟩
        exact known present
  · next other =>
      simp only [reduceCtorEq, false_iff]
      rintro ⟨found, _, _⟩
      exact other type found

/-- The written links of a definition are read back; a definition without links has
none. -/
theorem readLinks_linked {name : Text} {definition : Fields}
    (unlinked : definition.get? linksKey = none) :
    readLinks (linked index name definition) = .ok (arrange (listed index name)) := by
  unfold linked listed
  cases index.get? name with
  | none =>
      dsimp only
      unfold readLinks
      rw [unlinked]
      rfl
  | some links => exact readLinks_insert definition links

/-- One more entry is passed on. -/
theorem refer_linked {entry : Text × Fields} (unlinked : entry.2.get? linksKey = none)
    (typed : forall value : Json, entry.2.get? "object_type" = some value ->
      isContainer value = false) (known : OrderedMap Text (List Link)) :
    refer objects known (linked index entry.1 entry.2) =
      .ok (appendAll known (passedOn index objects entry).toList) := by
  have same : OrderedMap.get? (linked index entry.1 entry.2) "object_type" =
      entry.2.get? "object_type" := get?_linked_of_ne entry.2 (by decide)
  unfold refer passedOn
  rw [same]
  cases held : entry.2.get? "object_type" with
  | none => rfl
  | some value =>
      have leaf := typed value held
      cases value with
      | str type =>
          have listed : objects.contains type = true ↔ type ∈ objects.keys :=
            OrderedMap.get?_isSome_iff objects type
          by_cases present : type ∈ objects.keys
          · simp only [listed, present, if_true, readLinks_linked unlinked]
            rfl
          · simp only [listed, present, if_false]
            rfl
      | arr items => cases leaf
      | obj fields => cases leaf
      | _ => rfl

/-- Entries with links alone pass nothing on. -/
theorem refer_of_untyped {definition : Fields} (untyped : definition.get? "object_type" = none)
    (known : OrderedMap Text (List Link)) : refer objects known definition = .ok known := by
  unfold refer
  rw [untyped]
  rfl

theorem appendAll_append (index first second : OrderedMap Text (List Link)) :
    appendAll index (first ++ second) = appendAll (appendAll index first) second :=
  List.foldl_append

/-- A run over all entries collects what each of them passes on. -/
theorem foldlM_refer_linked
    (unlinked : ∀ entry ∈ entries, entry.2.get? linksKey = none)
    (typed : ∀ entry ∈ entries, forall value : Json, entry.2.get? "object_type" = some value ->
      isContainer value = false) (known : OrderedMap Text (List Link)) :
    (OrderedMap.values (entries.mapValues (linked index))).foldlM (refer objects) known =
      .ok (appendAll known (entries.filterMap (passedOn index objects))) := by
  rw [OrderedMap.values_mapValues]
  induction entries generalizing known with
  | nil => rfl
  | cons entry rest ih =>
      have first : refer objects known (linked index entry.1 entry.2) =
          .ok (appendAll known (passedOn index objects entry).toList) :=
        refer_linked (unlinked entry List.mem_cons_self) (typed entry List.mem_cons_self) known
      rw [List.map_cons, List.foldlM_cons, first, Report.ok_bind,
        ih (fun other member => unlinked other (List.mem_cons_of_mem _ member))
          (fun other member => typed other (List.mem_cons_of_mem _ member)),
        ← appendAll_append]
      cases passes : passedOn index objects entry with
      | none => rw [List.filterMap_cons_none passes]; rfl
      | some passed => rw [List.filterMap_cons_some passes]; rfl

/-- Entries of attributes that are not defined pass nothing on. -/
theorem foldlM_refer_of_untyped {definitions : List Fields}
    (untyped : ∀ definition ∈ definitions, definition.get? "object_type" = none)
    (known : OrderedMap Text (List Link)) :
    definitions.foldlM (refer objects) known = .ok known := by
  induction definitions with
  | nil => rfl
  | cons definition rest ih =>
      rw [List.foldlM_cons, refer_of_untyped (untyped definition List.mem_cons_self),
        Report.ok_bind]
      exact ih fun other member => untyped other (List.mem_cons_of_mem _ member)

theorem untyped_of_mem_undefinedUses {definition : Fields}
    (member : definition ∈ (undefinedUses index entries).values) :
    definition.get? "object_type" = none := by
  rcases List.mem_map.1 member with ⟨entry, within, rfl⟩
  rcases List.mem_map.1 within with ⟨source, _, rfl⟩
  rfl

/-! ## Users in the objects -/

variable {dictionary updated : Dictionary} {common : Option ClassDescriptor}
  {classes : OrderedMap Text ClassDescriptor} {users : OrderedMap Text ObjectDescriptor}
  {type : Text}

/-- The links that reach each object, in the order of the entries that pass them
on. -/
def passedOnAll (index : OrderedMap Text (List Link)) (entries : OrderedMap Text Fields)
    (objects : OrderedMap Text δ) : OrderedMap Text (List Link) :=
  appendAll [] (entries.filterMap (passedOn index objects))

/-- What the dictionary passes on once it lists the users of its attributes. -/
theorem referrers_of_updateDictionary
    (unlinked : ∀ entry ∈ dictionary.entries, entry.2.get? linksKey = none)
    (typed : ∀ entry ∈ dictionary.entries, forall value : Json,
      entry.2.get? "object_type" = some value -> isContainer value = false)
    (succeeds : (updateDictionary dictionary common classes users).outcome = .ok updated) :
    referrers updated objects =
      .ok (passedOnAll (collect common classes users) dictionary.entries objects) := by
  rw [referrers, entries_of_updateDictionary succeeds, OrderedMap.values_append, List.foldlM_append,
    foldlM_refer_linked unlinked typed, Report.ok_bind]
  exact foldlM_refer_of_untyped (fun _ => untyped_of_mem_undefinedUses) _

/-- A link leads to a descriptor with an attribute to which the dictionary gives the
type. -/
def Reaches (dictionary : Dictionary) (common : Option ClassDescriptor)
    (classes : OrderedMap Text ClassDescriptor) (objects : OrderedMap Text ObjectDescriptor)
    (type : Text) (link : Link) : Prop :=
  ∃ entry ∈ dictionary.entries, OfType entry.2 type ∧
    UsedBy common classes objects entry.1 link

/-- The dictionary names a type. -/
def Names (dictionary : Dictionary) (type : Text) : Prop :=
  ∃ entry ∈ dictionary.entries, OfType entry.2 type

/-- What is passed on to a known object is complete. -/
theorem mem_listed_passedOnAll_iff {link : Link} (known : type ∈ objects.keys) :
    link ∈ listed (passedOnAll (collect common classes users) dictionary.entries objects) type ↔
      Reaches dictionary common classes users type link := by
  rw [passedOnAll, mem_listed_appendAll]
  simp only [List.mem_filterMap, passedOn_eq_some_iff]
  constructor
  · rintro (missing | ⟨_, ⟨entry, member, named, _, rfl⟩, held⟩)
    · cases missing
    · exact ⟨entry, member, named, mem_listed_collect.mp (mem_arrange.mp held)⟩
  · rintro ⟨entry, member, named, used⟩
    exact Or.inr ⟨_, ⟨entry, member, named, known, rfl⟩,
      mem_arrange.mpr (mem_listed_collect.mpr used)⟩

/-- Links, or none at all, are passed on to exactly the known objects that the
dictionary names. -/
theorem mem_keys_passedOnAll_iff (known : type ∈ objects.keys) :
    type ∈ (passedOnAll index dictionary.entries objects).keys ↔ Names dictionary type := by
  have added :
      type ∈ OrderedMap.keys (dictionary.entries.filterMap (passedOn index objects)) ↔
        Names dictionary type := by
    simp only [OrderedMap.keys, List.mem_map, List.mem_filterMap]
    constructor
    · rintro ⟨⟨_, links⟩, ⟨entry, member, passes⟩, rfl⟩
      exact ⟨entry, member, (passedOn_eq_some_iff.mp passes).1⟩
    · rintro ⟨entry, member, named⟩
      exact ⟨(type, _), ⟨entry, member, passedOn_eq_some_iff.mpr ⟨named, known, rfl⟩⟩, rfl⟩
  rw [passedOnAll, keys_appendAll, OrderedMap.keys_nil, List.nil_append, List.mem_eraseDups,
    List.mem_filter, added]
  simp

/-- The objects that the dictionary names as a type list who reaches them; nothing
else is altered. -/
structure ListsReferrers (dictionary : Dictionary) (common : Option ClassDescriptor)
    (classes : OrderedMap Text ClassDescriptor)
    (objects reached : OrderedMap Text ObjectDescriptor) : Prop where
  order : reached.keys = objects.keys
  named : forall (type : Text) (object : ObjectDescriptor), objects.get? type = some object ->
    Names dictionary type ->
      ∃ links, Lists (Reaches dictionary common classes objects type) links ∧
        reached.get? type = some { object with details := ⟨some links⟩ }
  others : forall type : Text, ¬Names dictionary type -> reached.get? type = objects.get? type

/-- Telling the objects who reaches them succeeds after the dictionary was told who
uses its attributes.  Every object that the dictionary names then lists exactly
the descriptors with some attribute of its type, in strictly increasing order of
group and type. -/
theorem updateObjects_lists_referrers (dictionary : Dictionary)
    (common : Option ClassDescriptor) (classes : KeyedMap Text ClassDescriptor)
    (objects : KeyedMap Text ObjectDescriptor)
    (unlinked : ∀ entry ∈ dictionary.entries, entry.2.get? linksKey = none)
    (typed : ∀ entry ∈ dictionary.entries, forall value : Json,
      entry.2.get? "object_type" = some value -> isContainer value = false) :
    ∃ updated reached,
      (updateDictionary dictionary common classes objects).outcome = .ok updated ∧
        updateObjects updated objects = .ok reached ∧
        ListsReferrers dictionary common classes objects reached := by
  have succeeds := outcome_updateDictionary dictionary common classes objects
  have passes : referrers (recordAll dictionary (collect common classes objects)) objects.entries =
      .ok (passedOnAll (collect common classes objects) dictionary.entries objects.entries) :=
    referrers_of_updateDictionary unlinked typed succeeds
  have reached : forall {type : Text}, type ∈ objects.entries.keys ->
      (type ∈ (passedOnAll (collect common classes objects) dictionary.entries
          objects.entries).keys ↔ Names dictionary type) := mem_keys_passedOnAll_iff
  refine ⟨_, _, succeeds, by rw [updateObjects, passes]; rfl, ?_, ?_, ?_⟩
  · exact OrderedMap.keys_mapValues _ _
  · intro type object found named
    have known := OrderedMap.mem_keys_of_get?_eq_some found
    obtain ⟨links, passed⟩ := OrderedMap.exists_get?_of_mem_keys ((reached known).mpr named)
    refine ⟨arrange links, lists_arrange (fun link => ?_) ?_, ?_⟩
    · rw [← mem_listed_passedOnAll_iff known, listed, passed, Option.getD_some]
    · rintro left right ⟨_, _, _, lower⟩ ⟨_, _, _, upper⟩
      exact lower.unique upper
    · rw [OrderedMap.get?_mapValues, found, Option.map_some, passed]
  · intro type unnamed
    rw [OrderedMap.get?_mapValues]
    cases found : objects.entries.get? type with
    | none => rfl
    | some object =>
        have known := OrderedMap.mem_keys_of_get?_eq_some found
        have missing := (OrderedMap.get?_eq_none_iff _ type).mpr (mt (reached known).mp unnamed)
        rw [Option.map_some, missing]

/-- A login reaches a user through two attributes and is listed once.  Nobody uses the
attribute of a file, so its list is empty, and the folder that no attribute names
is left alone. -/
theorem updateObjects_lists_referrers_through_two_attributes :
    let login : ClassDescriptor :=
      { type := "login", name := some "Login", caption := none, description := none,
        parent := none, attributes := [("actor", []), ("owner", []), ("time", [])],
        details := ⟨none, none, none⟩, extra := [] }
    let plain : ObjectDescriptor :=
      { type := "user", name := none, caption := none, description := none, parent := none,
        attributes := [], details := ⟨none⟩, extra := [] }
    let dictionary : Dictionary :=
      { name := none, caption := none, description := none,
        entries := [("actor", [("object_type", .str "user")]),
          ("owner", [("object_type", .str "user")]), ("script", [("object_type", .str "file")]),
          ("time", [("object_type", .null)])],
        extra := [] }
    let classes : KeyedMap Text ClassDescriptor := ⟨[("login", login)], by decide⟩
    let objects : KeyedMap Text ObjectDescriptor :=
      ⟨[("user", plain), ("folder", plain), ("file", plain)], by decide⟩
    ((∀ entry ∈ dictionary.entries, entry.2.get? linksKey = none) ∧
      (∀ entry ∈ dictionary.entries, forall value : Json,
        entry.2.get? "object_type" = some value -> isContainer value = false)) ∧
      ∃ updated reached, (updateDictionary dictionary none classes objects).outcome =
          .ok updated ∧
        updateObjects updated objects = .ok reached ∧
        ListsReferrers dictionary none classes objects reached ∧
        reached.get? "folder" = some plain := by
  intro login plain dictionary classes objects
  have unlinked : ∀ entry ∈ dictionary.entries, entry.2.get? linksKey = none := by decide
  have typed : ∀ entry ∈ dictionary.entries, forall value : Json,
      entry.2.get? "object_type" = some value -> isContainer value = false := by
    intro entry member value found
    have leaves : ∀ entry ∈ dictionary.entries,
        (entry.2.get? "object_type").all (fun value => !isContainer value) = true := by decide
    simpa [found] using leaves entry member
  rcases updateObjects_lists_referrers dictionary none classes objects unlinked typed with
    ⟨updated, reached, tells, passes, lists⟩
  refine ⟨⟨unlinked, typed⟩, updated, reached, tells, passes, lists, ?_⟩
  have unnamed : ¬Names dictionary "folder" := by
    rintro ⟨entry, member, named⟩
    have apart : ∀ entry ∈ dictionary.entries,
        entry.2.get? "object_type" ≠ some (.str "folder") := by decide
    exact apart entry member named
  exact (lists.others "folder" unnamed).trans rfl

end BackReferences
end EventSchema
